import Xgeny.Digest

set_option autoImplicit false

/-!
# JSON texts

The text of a JSON value, and the two encoders that the program uses: the canonical one, whose bytes
are bounded and hashed, and the one of the store. They differ in how they spell a double, so that one
writer with a parameter stands for both; the members of an object are written as they stand.

* `Json.write`: the writer;
* `CanonicalEncoder`: the spelling of doubles, the canonical documents and the hash function;
* `Json.canonical`, `Json.stored`: the two texts of a value;
* `CanonicalEncoder.ofTable`: an encoder that knows a few documents;
* **`byteLen_stored`**: the stored text is longer by two bytes for each double spelled as an integer.
-/

namespace Xgeny

/-! ## The writer -/

/-- The digit of a value below sixteen. -/
def hexDigit (n : ℕ) : Char := Nat.digitChar n

/-- The escape of one character in a string. -/
def escapeChar (c : Char) : String :=
  if c = '"' then "\\\""
  else if c = '\\' then "\\\\"
  else if c = '\x08' then "\\b"
  else if c = '\t' then "\\t"
  else if c = '\n' then "\\n"
  else if c = '\x0c' then "\\f"
  else if c = '\r' then "\\r"
  else if c.toNat < 0x20 then
    "\\u00" ++ String.singleton (hexDigit (c.toNat / 16)) ++ String.singleton (hexDigit (c.toNat % 16))
  else String.singleton c

def escapeChars : List Char → String
  | [] => ""
  | c :: cs => escapeChar c ++ escapeChars cs

/-- A string between quotes. -/
def quoted (s : String) : String := "\"" ++ escapeChars s.toList ++ "\""

/-- The comma before every value but the first. -/
def separator (first : Bool) : String := if first then "" else ","

namespace Json

mutual

/-- The compact text of a value, for a spelling of the numbers. -/
def write (spell : JsonNumber → String) : Json → String
  | .null => "null"
  | .bool b => if b then "true" else "false"
  | .number n => spell n
  | .string s => quoted s
  | .array values => "[" ++ writeValues spell true values ++ "]"
  | .object members => "\x7b" ++ writeMembers spell true members ++ "\x7d"

def writeValues (spell : JsonNumber → String) (first : Bool) : List Json → String
  | [] => ""
  | value :: rest => separator first ++ write spell value ++ writeValues spell false rest

def writeMembers (spell : JsonNumber → String) (first : Bool) : List (String × Json) → String
  | [] => ""
  | (key, value) :: rest =>
    separator first ++ quoted key ++ ":" ++ write spell value ++ writeMembers spell false rest

end

mutual

/-- The numbers of a value that pass a test. -/
def countNumbers (p : JsonNumber → Bool) : Json → ℕ
  | .number n => if p n then 1 else 0
  | .array values => countNumbersValues p values
  | .object members => countNumbersMembers p members
  | _ => 0

def countNumbersValues (p : JsonNumber → Bool) : List Json → ℕ
  | [] => 0
  | value :: rest => countNumbers p value + countNumbersValues p rest

def countNumbersMembers (p : JsonNumber → Bool) : List (String × Json) → ℕ
  | [] => 0
  | (_, value) :: rest => countNumbers p value + countNumbersMembers p rest

end

mutual

/-- The containers that are open at the innermost place. -/
def nesting : Json → ℕ
  | .array values => nestingValues values + 1
  | .object members => nestingMembers members + 1
  | _ => 0

def nestingValues : List Json → ℕ
  | [] => 0
  | value :: rest => max (nesting value) (nestingValues rest)

def nestingMembers : List (String × Json) → ℕ
  | [] => 0
  | (_, value) :: rest => max (nesting value) (nestingMembers rest)

end

end Json

/-! ## The two encoders -/

/-- The parts of the encoders and of the hash function that are not in the program: the canonical
spelling of a double, its spelling in the store, the canonical text of a structured document, and the
SHA-256 of a text. -/
structure CanonicalEncoder where
  spellDouble : UInt64 → String
  spellStoredDouble : UInt64 → String
  document : DigestInput → Except String String
  sha256 : String → Sha256Hex

/-- The text has digits only, after an optional sign. -/
def isIntegerSpelling (s : String) : Bool := s.toList.all fun c => c.isDigit || c == '-'

namespace CanonicalEncoder

variable (E : CanonicalEncoder)

/-- The canonical spelling of a number. -/
def spellCanonical : JsonNumber → String
  | .posInt n => toString n.toNat
  | .negInt n => toString n
  | .float bits => E.spellDouble bits

/-- A double that the canonical form spells as an integer. -/
def isIntegral : JsonNumber → Bool
  | .float bits => isIntegerSpelling (E.spellDouble bits)
  | _ => false

/-- The spelling of a number in the store. -/
def spellStored : JsonNumber → String
  | .float bits => E.spellStoredDouble bits
  | n => E.spellCanonical n

/-- The store spells a number as the canonical form does, with `.0` after a double that this spells as
an integer. -/
def keepsFraction (n : JsonNumber) : Bool :=
  E.spellStored n == if E.isIntegral n then E.spellCanonical n ++ ".0" else E.spellCanonical n

/-- The store spells all numbers of a value so. -/
def KeepsFractions (value : Json) : Prop := value.countNumbers (fun n => !E.keepsFraction n) = 0

/-- `serde_jcs::to_vec`. -/
def toVec : DigestInput → Except String String
  | .toolOutput output => .ok (output.write E.spellCanonical)
  | input => E.document input

/-- The encoder as the digest functions see it. -/
def digests : Digests where
  canonicalize input := (E.toVec input).map fun text => ⟨byteLen text, E.sha256 text⟩

variable {E}

theorem canonicalize_eq_ok {input : DigestInput} {canonical : Canonical} :
    E.digests.canonicalize input = .ok canonical ↔
      ∃ text, E.toVec input = .ok text ∧ canonical = ⟨byteLen text, E.sha256 text⟩ := by
  unfold digests
  cases h : E.toVec input with
  | error e => simp [h, Except.map]
  | ok text => simp [h, Except.map, eq_comm]

end CanonicalEncoder

/-- The canonical text of a value. -/
def Json.canonical (E : CanonicalEncoder) (value : Json) : String := value.write E.spellCanonical

/-- `serde_json::to_vec`. -/
def Json.stored (E : CanonicalEncoder) (value : Json) : String := value.write E.spellStored

/-! ## Texts that differ -/

/-- A character that stands for itself in a string. -/
def isPlain (c : Char) : Bool := decide (escapeChar c = String.singleton c)

theorem escapeChars_plain {cs : List Char} (h : cs.all isPlain = true) :
    escapeChars cs = String.ofList cs := by
  induction cs with
  | nil => rfl
  | cons c cs ih =>
    simp only [List.all_cons, Bool.and_eq_true, isPlain, decide_eq_true_eq] at h
    rw [escapeChars, h.1, ih (by simpa [isPlain] using h.2)]
    apply String.toList_inj.mp
    simp

theorem quote_not_mem {s : String} (h : s.toList.all isPlain = true) : '"' ∉ s.toList := by
  intro hmem
  have hplain := List.all_eq_true.mp h _ hmem
  revert hplain
  decide

theorem quoted_plain {s : String} (h : s.toList.all isPlain = true) :
    quoted s = "\"" ++ s ++ "\"" := by
  rw [quoted, escapeChars_plain h, String.ofList_toList]

theorem quoted_suffix {a b s t : String} (hs : s.toList.all isPlain = true)
    (ht : t.toList.all isPlain = true) (h : a ++ quoted s = b ++ quoted t) : a = b ∧ s = t := by
  have hlist := congrArg String.toList h
  have hmark : "\"".toList = ['"'] := rfl
  simp only [quoted_plain hs, quoted_plain ht, String.toList_append, hmark, ← List.append_assoc,
    List.append_left_inj] at hlist
  rw [List.append_assoc, List.append_assoc, List.singleton_append, List.singleton_append] at hlist
  -- the last quote that is left opens the string
  rcases List.append_eq_append_iff.mp hlist with ⟨middle, hb, hrest⟩ | ⟨middle, ha, hrest⟩
  · cases middle with
    | nil =>
      rw [List.append_nil] at hb
      exact ⟨String.toList_inj.mp hb.symm, String.toList_inj.mp (List.cons.inj hrest).2⟩
    | cons c rest =>
      obtain ⟨-, hrest⟩ := List.cons.inj hrest
      refine absurd ?_ (quote_not_mem hs)
      rw [hrest]
      exact List.mem_append_right _ List.mem_cons_self
  · cases middle with
    | nil =>
      rw [List.append_nil] at ha
      exact ⟨String.toList_inj.mp ha, (String.toList_inj.mp (List.cons.inj hrest).2).symm⟩
    | cons c rest =>
      obtain ⟨-, hrest⟩ := List.cons.inj hrest
      refine absurd ?_ (quote_not_mem ht)
      rw [hrest]
      exact List.mem_append_right _ List.mem_cons_self

namespace Json

variable {spell spell' : JsonNumber → String}

theorem writeMembers_append (first : Bool) (front back : List (String × Json)) :
    writeMembers spell first (front ++ back) =
      writeMembers spell first front ++ writeMembers spell (first && front.isEmpty) back := by
  induction front generalizing first with
  | nil => simp [writeMembers]
  | cons member rest ih =>
    obtain ⟨key, value⟩ := member
    rw [List.cons_append, writeMembers, writeMembers, ih, List.isEmpty_cons, Bool.and_false,
      Bool.false_and, ← String.append_assoc]

theorem last_same {front front' : List (String × Json)} {last : String × Json} (hne : front ≠ [])
    (hne' : front' ≠ []) (h : writeMembers spell true (front ++ [last]) =
      writeMembers spell true (front' ++ [last])) :
    writeMembers spell true front = writeMembers spell true front' := by
  rw [writeMembers_append, writeMembers_append, List.isEmpty_eq_false_iff.mpr hne,
    List.isEmpty_eq_false_iff.mpr hne'] at h
  exact (String.append_left_inj _).mp h

theorem last_string {front front' : List (String × Json)} {key s t : String} (hne : front ≠ [])
    (hne' : front' ≠ []) (hs : s.toList.all isPlain = true) (ht : t.toList.all isPlain = true)
    (h : writeMembers spell true (front ++ [(key, .string s)]) =
      writeMembers spell true (front' ++ [(key, .string t)])) :
    writeMembers spell true front = writeMembers spell true front' ∧ s = t := by
  have hlast : ∀ value : String, writeMembers spell false [(key, .string value)] =
      separator false ++ quoted key ++ ":" ++ quoted value := by
    intro value
    rw [writeMembers, writeMembers, String.append_empty, write]
  rw [writeMembers_append, writeMembers_append, List.isEmpty_eq_false_iff.mpr hne,
    List.isEmpty_eq_false_iff.mpr hne', Bool.and_false, hlast, hlast] at h
  simp only [← String.append_assoc] at h
  obtain ⟨hfront, hvalue⟩ := quoted_suffix hs ht h
  simp only [String.append_left_inj] at hfront
  exact ⟨hfront, hvalue⟩

theorem write_object_ne_array (members : List (String × Json)) (values : List Json) :
    (Json.object members).write spell ≠ (Json.array values).write spell' := by
  intro h
  have hhead := congrArg (fun text => text.toList.head?) h
  simp [write] at hhead

theorem first_key {k k' : String} {value value' : Json} {rest rest' : List (String × Json)}
    (hk : k.toList.all isPlain = true) (hk' : k'.toList.all isPlain = true)
    (h : (Json.object ((k, value) :: rest)).write spell =
      (Json.object ((k', value') :: rest')).write spell) : k = k' := by
  have hlist := congrArg (fun text => text.toList) h
  simp only [write, writeMembers, separator, quoted, if_true, escapeChars_plain hk,
    escapeChars_plain hk', String.ofList_toList, String.toList_append, List.append_assoc] at hlist
  have hopen : "\x7b".toList = ['\x7b'] := rfl
  have hmark : "\"".toList = ['"'] := rfl
  have hempty : "".toList = [] := rfl
  simp only [hopen, hmark, hempty, List.nil_append, List.cons_append,
    List.cons.injEq, true_and] at hlist
  -- both keys end at the first quote
  have hkeys := congrArg (List.takeWhile fun c => c != '"') hlist
  rw [List.takeWhile_append_of_pos, List.takeWhile_append_of_pos] at hkeys
  · exact String.toList_inj.mp (by simpa using hkeys)
  · intro c hc
    simpa using fun heq : c = '"' => quote_not_mem hk' (heq ▸ hc)
  · intro c hc
    simpa using fun heq : c = '"' => quote_not_mem hk (heq ▸ hc)

end Json

/-! ## Lengths -/

variable {E : CanonicalEncoder}

theorem byteLen_spellStored {n : JsonNumber} (h : E.keepsFraction n = true) :
    byteLen (E.spellStored n) =
      byteLen (E.spellCanonical n) + 2 * if E.isIntegral n then 1 else 0 := by
  rw [beq_iff_eq.mp h]
  split
  · rw [byteLen_append]
    rfl
  · rfl

namespace Json

mutual

theorem byteLen_write_stored (value : Json) (h : E.KeepsFractions value) :
    byteLen (value.write E.spellStored) =
      byteLen (value.write E.spellCanonical) + 2 * value.countNumbers E.isIntegral := by
  cases value with
  | null | bool | string => simp [write, countNumbers]
  | number n =>
    refine byteLen_spellStored ?_
    simpa [CanonicalEncoder.KeepsFractions, countNumbers] using h
  | array values =>
    have hvalues := byteLen_writeValues_stored true values h
    simp only [write, countNumbers, byteLen_append]
    omega
  | object members =>
    have hmembers := byteLen_writeMembers_stored true members h
    simp only [write, countNumbers, byteLen_append]
    omega

theorem byteLen_writeValues_stored (first : Bool) (values : List Json)
    (h : countNumbersValues (fun n => !E.keepsFraction n) values = 0) :
    byteLen (writeValues E.spellStored first values) =
      byteLen (writeValues E.spellCanonical first values) +
        2 * countNumbersValues E.isIntegral values := by
  cases values with
  | nil => rfl
  | cons value rest =>
    obtain ⟨hhere, hthere⟩ := Nat.add_eq_zero_iff.mp h
    have hvalue := byteLen_write_stored value hhere
    have hrest := byteLen_writeValues_stored false rest hthere
    simp only [writeValues, countNumbersValues, byteLen_append]
    omega

theorem byteLen_writeMembers_stored (first : Bool) (members : List (String × Json))
    (h : countNumbersMembers (fun n => !E.keepsFraction n) members = 0) :
    byteLen (writeMembers E.spellStored first members) =
      byteLen (writeMembers E.spellCanonical first members) +
        2 * countNumbersMembers E.isIntegral members := by
  match members with
  | [] => rfl
  | (key, value) :: rest =>
    obtain ⟨hhere, hthere⟩ := Nat.add_eq_zero_iff.mp h
    have hvalue := byteLen_write_stored value hhere
    have hrest := byteLen_writeMembers_stored false rest hthere
    simp only [writeMembers, countNumbersMembers, byteLen_append]
    omega

end

end Json

/-- **The stored text is longer by two bytes for each double spelled as an integer.** -/
theorem byteLen_stored {value : Json} (h : E.KeepsFractions value) : byteLen (value.stored E) =
    byteLen (value.canonical E) + 2 * value.countNumbers E.isIntegral :=
  Json.byteLen_write_stored value h

/-! ## Encoders from tables -/

/-- A document with its canonical text and its hash. -/
structure Spelled where
  input : DigestInput
  text : String
  sha256 : Sha256Hex

/-- An encoder that knows the listed documents, and doubles that are spelled as integers; any other
text has the hash `default`. -/
def CanonicalEncoder.ofTable (spellDouble : UInt64 → String) (default : Sha256Hex)
    (table : List Spelled) : CanonicalEncoder where
  spellDouble := spellDouble
  spellStoredDouble bits := spellDouble bits ++ ".0"
  document input :=
    match table.find? fun entry => decide (entry.input = input) with
    | some entry => .ok entry.text
    | none => .error "unknown document"
  sha256 text :=
    match table.find? fun entry => decide (entry.text = text) with
    | some entry => entry.sha256
    | none => default

namespace CanonicalEncoder

variable {spellDouble : UInt64 → String} {default : Sha256Hex} {table : List Spelled}

theorem ofTable_document {input : DigestInput} {text : String}
    (h : (ofTable spellDouble default table).document input = .ok text) :
    ∃ entry ∈ table, entry.input = input ∧ entry.text = text := by
  simp only [ofTable] at h
  split at h
  · rename_i entry hfind
    exact ⟨entry, List.mem_of_find?_eq_some hfind, by simpa using List.find?_some hfind,
      Except.ok.inj h⟩
  · cases h

theorem ofTable_document_of_mem (hnodup : (table.map Spelled.input).Nodup) {entry : Spelled}
    (hentry : entry ∈ table) :
    (ofTable spellDouble default table).document entry.input = .ok entry.text := by
  simp only [ofTable]
  split
  · rename_i other hfind
    have hother := List.mem_of_find?_eq_some hfind
    have hinput : other.input = entry.input := by simpa using List.find?_some hfind
    rw [List.inj_on_of_nodup_map hnodup hother hentry hinput]
  · rename_i hfind
    simpa using List.find?_eq_none.mp hfind entry hentry

theorem ofTable_sha256_default {text : String} (h : ∀ entry ∈ table, entry.text ≠ text) :
    (ofTable spellDouble default table).sha256 text = default := by
  simp only [ofTable]
  rw [List.find?_eq_none.mpr (by simpa using h)]

theorem ofTable_sha256 (hnodup : (table.map Spelled.text).Nodup) {entry : Spelled}
    (hentry : entry ∈ table) :
    (ofTable spellDouble default table).sha256 entry.text = entry.sha256 := by
  simp only [ofTable]
  split
  · rename_i other hfind
    have hother := List.mem_of_find?_eq_some hfind
    have htext : other.text = entry.text := by simpa using List.find?_some hfind
    rw [List.inj_on_of_nodup_map hnodup hother hentry htext]
  · rename_i hfind
    simpa using List.find?_eq_none.mp hfind entry hentry

theorem ofTable_canonicalize (hinputs : (table.map Spelled.input).Nodup)
    (htexts : (table.map Spelled.text).Nodup) {entry : Spelled} (hentry : entry ∈ table)
    (hstructured : ∀ output, entry.input ≠ .toolOutput output) :
    (ofTable spellDouble default table).digests.canonicalize entry.input =
      .ok ⟨byteLen entry.text, entry.sha256⟩ := by
  have hdocument : (ofTable spellDouble default table).toVec entry.input = .ok entry.text := by
    rw [← ofTable_document_of_mem hinputs hentry]
    cases hinput : entry.input with
    | toolOutput output => exact absurd hinput (hstructured output)
    | _ => rfl
  refine canonicalize_eq_ok.mpr ⟨entry.text, hdocument, ?_⟩
  rw [ofTable_sha256 htexts hentry]

end CanonicalEncoder

end Xgeny
