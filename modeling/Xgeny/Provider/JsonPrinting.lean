import Xgeny.Provider.UniqueJson
import Xgeny.Sidecars.JsonText

set_option autoImplicit false

/-!
# Printing and parsing

What the writer prints is read back as the value it was printed from, if the numbers are. The values
that the parser returns are of this kind, and so are their parts.

* `Prints`, `SerdeJson.RoundTrips`: numbers that are read back as they are printed;
* `Printable`: their values, with the members of every object in strict key order;
* **`exists_reads`**: a printed value is read back;
* **`parse_write`**, **`printable_of_parse`**: the parser returns what was printed, and what it
  returns can be printed.
-/

namespace Xgeny

open JsonGrammar

/-! ## Values that can be printed -/

/-- A number whose print is a number and is converted back. -/
def Prints (S : SerdeJson) (spell : JsonNumber → String) (n : JsonNumber) : Prop :=
  isNumber (spell n).toList = true ∧ ∃ p, S.number (spell n).toList = some p ∧ p.value = n

/-- Numbers that were parsed are printed so that they are parsed again as themselves. -/
def SerdeJson.RoundTrips (S : SerdeJson) (spell : JsonNumber → String) : Prop :=
  ∀ lexeme p, S.number lexeme = some p → Prints S spell p.value

namespace Json

section

variable (S : SerdeJson) (spell : JsonNumber → String)

mutual

/-- The numbers print, and the members of an object stand in strict key order. -/
def Printable : Json → Prop
  | .number n => Prints S spell n
  | .array values => PrintableValues values
  | .object members => members.Pairwise (fun left right => left.1 < right.1) ∧
      PrintableMembers members
  | _ => True

def PrintableValues : List Json → Prop
  | [] => True
  | value :: rest => Printable value ∧ PrintableValues rest

def PrintableMembers : List (String × Json) → Prop
  | [] => True
  | (_, value) :: rest => Printable value ∧ PrintableMembers rest

end

end

variable {S : SerdeJson} {spell : JsonNumber → String}

theorem printableValues_iff {values : List Json} :
    PrintableValues S spell values ↔ ∀ value ∈ values, Printable S spell value := by
  induction values with
  | nil => simp [PrintableValues]
  | cons value values ih => simp [PrintableValues, ih]

theorem printableMembers_iff {members : List (String × Json)} :
    PrintableMembers S spell members ↔ ∀ member ∈ members, Printable S spell member.2 := by
  induction members with
  | nil => simp [PrintableMembers]
  | cons member members ih => simp [PrintableMembers, ih]

theorem nestingValues_le {values : List Json} {d : ℕ} :
    nestingValues values ≤ d ↔ ∀ value ∈ values, nesting value ≤ d := by
  induction values with
  | nil => simp [nestingValues]
  | cons value values ih => simp [nestingValues, ih]

theorem nestingMembers_le {members : List (String × Json)} {d : ℕ} :
    nestingMembers members ≤ d ↔ ∀ member ∈ members, nesting member.2 ≤ d := by
  induction members with
  | nil => simp [nestingMembers]
  | cons member members ih => simp [nestingMembers, ih]

end Json

/-! ## Printed strings -/

theorem readEscape_control {n : ℕ} (h : n < 0x20) (rest : List Char) :
    readEscape ('u' :: '0' :: '0' :: hexDigit (n / 16) :: hexDigit (n % 16) :: rest) =
      some (Char.ofNat n, rest) := by
  have hdigits : ∀ n < 0x20, hexValue (hexDigit (n / 16)) = some (n / 16) ∧
      hexValue (hexDigit (n % 16)) = some (n % 16) := by decide
  obtain ⟨hhigh, hlow⟩ := hdigits n h
  have hvalue : (0 * 16 + 0) * 16 + n / 16 = n / 16 := by omega
  have hunit : n / 16 * 16 + n % 16 = n := by omega
  have hzero : hexValue '0' = some 0 := rfl
  have hhex : readHex ('0' :: '0' :: hexDigit (n / 16) :: hexDigit (n % 16) :: rest) =
      some (n, rest) := by
    simp only [readHex, hzero, hhigh, hlow, Option.bind_eq_bind, Option.bind_some, hvalue, hunit]
  simp only [readEscape, ↓reduceIte, hhex, Option.bind_some]
  exact if_pos (.inl (by omega))

theorem stringBody_escapeChar {c : Char} {cs s rest : List Char} (h : StringBody cs s rest) :
    StringBody ((escapeChar c).toList ++ cs) (c :: s) rest := by
  have hescape : ∀ {d e : Char}, readEscape (e :: cs) = some (d, cs) →
      StringBody ('\\' :: e :: cs) (d :: s) rest := fun he => .escape he h
  unfold escapeChar
  split_ifs with h1 h2 h3 h4 h5 h6 h7 h8
  · rw [h1]
    exact hescape rfl
  · rw [h2]
    exact hescape rfl
  · rw [h3]
    exact hescape rfl
  · rw [h4]
    exact hescape rfl
  · rw [h5]
    exact hescape rfl
  · rw [h6]
    exact hescape rfl
  · rw [h7]
    exact hescape rfl
  · have hread := readEscape_control h8 cs
    rw [Char.ofNat_toNat] at hread
    have htext : ("\\u00" ++ String.singleton (hexDigit (c.toNat / 16)) ++
        String.singleton (hexDigit (c.toNat % 16))).toList ++ cs =
        '\\' :: 'u' :: '0' :: '0' :: hexDigit (c.toNat / 16) :: hexDigit (c.toNat % 16) :: cs := by
      simp
    rw [htext]
    exact .escape hread h
  · have hplain : isUnescaped c = true := by
      unfold isUnescaped
      simp only [Bool.and_eq_true, bne_iff_ne, decide_eq_true_eq]
      exact ⟨⟨by omega, h1⟩, h2⟩
    simpa using StringBody.plain hplain h

theorem stringBody_escapeChars (s rest : List Char) :
    StringBody ((escapeChars s).toList ++ '"' :: rest) s rest := by
  induction s with
  | nil => exact .close
  | cons c s ih =>
    rw [escapeChars, String.toList_append, List.append_assoc]
    exact stringBody_escapeChar ih

theorem quoted_toList (s : String) (rest : List Char) :
    (quoted s).toList ++ rest = '"' :: ((escapeChars s.toList).toList ++ '"' :: rest) := by
  simp [quoted]

/-! ## Printed values -/

theorem skip_of_reads {number : List Char → Option ParserNumber} {t : JsonTree ParserNumber}
    {cs rest : List Char} (h : Reads number (.value t) cs rest) : skip cs = cs := by
  cases h with
  | @number _ lexeme _ hlexeme _ _ =>
    cases lexeme with
    | nil => exact absurd rfl (isNumber_ne_nil hlexeme)
    | cons c lexeme =>
      have hc := isNumber_chars hlexeme c List.mem_cons_self
      have hspace : isSpace c = false := by
        by_contra hspace
        simp only [isSpace, Bool.not_eq_false, Bool.or_eq_true, beq_iff_eq] at hspace
        rcases hspace with ((rfl | rfl) | rfl) | rfl <;> exact absurd hc (by decide)
      exact List.dropWhile_cons_of_neg (by simp [hspace])
  | _ => rfl

/-- A mark that ends a value. -/
def endsValue (c : Char) : Bool := c == ',' || c == ']' || c == '\x7d'

theorem not_number_of_endsValue {c : Char} {rest : List Char} (h : endsValue c = true) :
    (c :: rest).head?.all (fun c => !isNumberChar c) = true := by
  simp only [endsValue, Bool.or_eq_true, beq_iff_eq] at h
  rcases h with (rfl | rfl) | rfl <;> rfl

namespace Json

variable {S : SerdeJson} {spell : JsonNumber → String}

/-- What a value is read back as. -/
structure ReadsBack (S : SerdeJson) (spell : JsonNumber → String) (v : Json)
    (t : JsonTree ParserNumber) : Prop where
  value : treeValue t = v
  distinct : KeysDistinct t
  depth : t.depth = v.nesting
  reads : ∀ rest : List Char, rest.head?.all (fun c => !isNumberChar c) = true →
    Reads S.number (.value t) ((v.write spell).toList ++ rest) rest

theorem ReadsBack.reads_skip {v : Json} {t : JsonTree ParserNumber} (h : ReadsBack S spell v t)
    {c : Char} {rest : List Char} (hc : endsValue c = true) :
    Reads S.number (.value t) (skip ((v.write spell).toList ++ c :: rest)) (c :: rest) := by
  have hreads := h.reads (c :: rest) (not_number_of_endsValue hc)
  rw [skip_of_reads hreads]
  exact hreads

/-- The same for the values of an array. -/
structure ReadsBackValues (S : SerdeJson) (spell : JsonNumber → String) (vs : List Json)
    (ts : List (JsonTree ParserNumber)) : Prop where
  value : treeValues ts = vs
  distinct : KeysDistinctItems ts
  depth : JsonGrammar.depthItems ts = nestingValues vs
  reads : ∀ rest : List Char, ts ≠ [] →
    Reads S.number (.items ts) ((writeValues spell true vs).toList ++ ']' :: rest) rest

structure ReadsBackMembers (S : SerdeJson) (spell : JsonNumber → String)
    (ms : List (String × Json)) (ts : List (String × JsonTree ParserNumber)) : Prop where
  value : treeMembers ts = ms
  distinct : KeysDistinctMembers ts
  depth : JsonGrammar.depthMembers ts = nestingMembers ms
  reads : ∀ rest : List Char, ts ≠ [] →
    Reads S.number (.members ts) ((writeMembers spell true ms).toList ++ '\x7d' :: rest) rest

theorem ReadsBackValues.cons {v : Json} {vs : List Json} {t : JsonTree ParserNumber}
    {ts : List (JsonTree ParserNumber)} (h : ReadsBack S spell v t)
    (hs : ReadsBackValues S spell vs ts) : ReadsBackValues S spell (v :: vs) (t :: ts) where
  value := by rw [treeValues, h.value, hs.value]
  distinct := ⟨h.distinct, hs.distinct⟩
  depth := by rw [JsonGrammar.depthItems, nestingValues, h.depth, hs.depth]
  reads rest _ := by
    cases vs with
    | nil =>
      obtain rfl : ts = [] := by
        have hvalue := hs.value
        cases ts with
        | nil => rfl
        | cons t' ts => simp [treeValues] at hvalue
      have htext : (writeValues spell true [v]).toList ++ ']' :: rest =
          (v.write spell).toList ++ ']' :: rest := by
        simp [writeValues, separator]
      rw [htext]
      exact .lastItem (h.reads_skip rfl) rfl
    | cons v' vs =>
      have hne : ts ≠ [] := by
        rintro rfl
        exact absurd hs.value (by simp [treeValues])
      have htext : (writeValues spell true (v :: v' :: vs)).toList ++ ']' :: rest =
          (v.write spell).toList ++
            ',' :: ((writeValues spell true (v' :: vs)).toList ++ ']' :: rest) := by
        simp [writeValues, separator]
      rw [htext]
      exact .moreItems (h.reads_skip rfl) rfl (hs.reads rest hne)

theorem ReadsBackMembers.cons {key : String} {v : Json} {ms : List (String × Json)}
    {t : JsonTree ParserNumber} {ts : List (String × JsonTree ParserNumber)}
    (h : ReadsBack S spell v t) (hs : ReadsBackMembers S spell ms ts) :
    ReadsBackMembers S spell ((key, v) :: ms) ((key, t) :: ts) where
  value := by rw [treeMembers, h.value, hs.value]
  distinct := ⟨h.distinct, hs.distinct⟩
  depth := by rw [JsonGrammar.depthMembers, nestingMembers, h.depth, hs.depth]
  reads rest _ := by
    have hkey : key = String.ofList key.toList := String.ofList_toList.symm
    cases ms with
    | nil =>
      obtain rfl : ts = [] := by
        have hvalue := hs.value
        cases ts with
        | nil => rfl
        | cons t' ts => simp [treeMembers] at hvalue
      have htext : (writeMembers spell true [(key, v)]).toList ++ '\x7d' :: rest =
          '"' :: ((escapeChars key.toList).toList ++ '"' :: ':' ::
            ((v.write spell).toList ++ '\x7d' :: rest)) := by
        simp [writeMembers, separator, quoted]
      rw [htext]
      conv => arg 2; rw [hkey]
      exact .lastMember rfl (stringBody_escapeChars _ _) rfl (h.reads_skip rfl) rfl
    | cons m ms =>
      have hne : ts ≠ [] := by
        rintro rfl
        exact absurd hs.value (by simp [treeMembers])
      have htext : (writeMembers spell true ((key, v) :: m :: ms)).toList ++ '\x7d' :: rest =
          '"' :: ((escapeChars key.toList).toList ++ '"' :: ':' ::
            ((v.write spell).toList ++
              ',' :: ((writeMembers spell true (m :: ms)).toList ++ '\x7d' :: rest))) := by
        obtain ⟨key', v'⟩ := m
        simp [writeMembers, separator, quoted]
      rw [htext]
      conv => arg 2; rw [hkey]
      exact .moreMembers rfl (stringBody_escapeChars _ _) rfl (h.reads_skip rfl) rfl
        (hs.reads rest hne)

theorem sorted_of_strict {members : List (String × Json)}
    (h : members.Pairwise fun left right => left.1 < right.1) :
    members.insertionSort (fun left right => left.1 ≤ right.1) = members ∧
      (members.map Prod.fst).Nodup := by
  constructor
  · exact List.Pairwise.insertionSort_eq (h.imp fun {_ _} hlt => le_of_lt hlt)
  · exact List.pairwise_map.mpr (h.imp fun {_ _} hlt => ne_of_lt hlt)

theorem readsBack_array {vs : List Json} {ts : List (JsonTree ParserNumber)}
    (h : ReadsBackValues S spell vs ts) : ReadsBack S spell (.array vs) (.array ts) where
  value := by rw [treeValue, h.value]
  distinct := h.distinct
  depth := by rw [JsonTree.depth, Json.nesting, h.depth]
  reads rest _ := by
    cases ts with
    | nil =>
      obtain rfl : [] = vs := h.value
      have htext : ((Json.array []).write spell).toList ++ rest = '[' :: ']' :: rest := by
        simp [write, writeValues]
      rw [htext]
      exact .emptyArray rfl
    | cons t ts =>
      have htext : ((Json.array vs).write spell).toList ++ rest =
          '[' :: ((writeValues spell true vs).toList ++ ']' :: rest) := by
        simp [write]
      rw [htext]
      exact .array (h.reads rest (by simp))

theorem readsBack_object {ms : List (String × Json)} {ts : List (String × JsonTree ParserNumber)}
    (hsorted : ms.Pairwise fun left right => left.1 < right.1)
    (h : ReadsBackMembers S spell ms ts) : ReadsBack S spell (.object ms) (.object ts) where
  value := by rw [treeValue, h.value, (sorted_of_strict hsorted).1]
  distinct := by
    refine ⟨?_, h.distinct⟩
    rw [← treeMembers_keys, h.value]
    exact (sorted_of_strict hsorted).2
  depth := by rw [JsonTree.depth, Json.nesting, h.depth]
  reads rest _ := by
    cases ts with
    | nil =>
      obtain rfl : [] = ms := h.value
      have htext : ((Json.object []).write spell).toList ++ rest = '\x7b' :: '\x7d' :: rest := by
        simp [write, writeMembers]
      rw [htext]
      exact .emptyObject rfl
    | cons t ts =>
      have htext : ((Json.object ms).write spell).toList ++ rest =
          '\x7b' :: ((writeMembers spell true ms).toList ++ '\x7d' :: rest) := by
        simp [write]
      rw [htext]
      exact .object (h.reads rest (by simp))

mutual

/-- **A printed value is read back.** -/
theorem exists_reads : ∀ {v : Json}, Printable S spell v → ∃ t, ReadsBack S spell v t
  | .null, _ => ⟨.null, rfl, trivial, rfl, fun _ _ => .null⟩
  | .bool b, _ => by
    refine ⟨.bool b, rfl, trivial, rfl, fun rest _ => ?_⟩
    cases b with
    | true => exact .true
    | false => exact .false
  | .number n, h => by
    obtain ⟨hlexeme, p, hp, rfl⟩ := h
    exact ⟨.number p, rfl, trivial, rfl, fun rest hrest => .number hlexeme hp hrest⟩
  | .string s, _ => by
    refine ⟨.string s, rfl, trivial, rfl, fun rest _ => ?_⟩
    have hread := stringBody_escapeChars s.toList rest
    have hs : Reads S.number (.value (.string (String.ofList s.toList)))
        ((quoted s).toList ++ rest) rest := by
      rw [quoted_toList]
      exact .string hread
    rwa [String.ofList_toList] at hs
  | .array values, h => by
    obtain ⟨ts, hts⟩ := exists_readsValues h
    exact ⟨.array ts, readsBack_array hts⟩
  | .object members, h => by
    obtain ⟨ts, hts⟩ := exists_readsMembers h.2
    exact ⟨.object ts, readsBack_object h.1 hts⟩

theorem exists_readsValues : ∀ {vs : List Json}, PrintableValues S spell vs →
    ∃ ts, ReadsBackValues S spell vs ts
  | [], _ => ⟨[], rfl, trivial, rfl, fun _ hne => absurd rfl hne⟩
  | v :: vs, h => by
    obtain ⟨t, ht⟩ := exists_reads h.1
    obtain ⟨ts, hts⟩ := exists_readsValues h.2
    exact ⟨t :: ts, .cons ht hts⟩

theorem exists_readsMembers : ∀ {ms : List (String × Json)}, PrintableMembers S spell ms →
    ∃ ts, ReadsBackMembers S spell ms ts
  | [], _ => ⟨[], rfl, trivial, rfl, fun _ hne => absurd rfl hne⟩
  | (key, v) :: ms, h => by
    obtain ⟨t, ht⟩ := exists_reads h.1
    obtain ⟨ts, hts⟩ := exists_readsMembers h.2
    exact ⟨(key, t) :: ts, .cons ht hts⟩

end

/-! ## The parser -/

/-- **The parser returns what was printed.** -/
theorem parse_write (hS : S.Documented) {v : Json} {maxDepth : ℕ} (hmax : maxDepth ≤ 127)
    (hv : Printable S spell v) (hdepth : v.nesting ≤ maxDepth) :
    parseUniqueJson S (bytes (v.write spell)) maxDepth = .ok v := by
  obtain ⟨t, ht⟩ := exists_reads hv
  rw [parseUniqueJson_eq_ok hS hmax]
  refine ⟨_, t, rfl, ?_, by rw [ht.depth]; exact hdepth, ht.distinct, ht.value.symm⟩
  have hreads := ht.reads [] rfl
  rw [List.append_nil] at hreads
  refine ⟨[], ?_, rfl⟩
  rw [skip_of_reads hreads]
  exact hreads

mutual

theorem printable_treeValue : ∀ {t : JsonTree ParserNumber}, KeysDistinct t →
    (∀ n ∈ treeNumbers t, Prints S spell n.value) →
      Printable S spell (treeValue t) ∧ (treeValue t).nesting ≤ t.depth
  | .null, _, _ | .bool _, _, _ | .string _, _, _ => ⟨trivial, le_refl 0⟩
  | .number n, _, h => ⟨h n List.mem_cons_self, le_refl 0⟩
  | .array items, hdistinct, h => by
    obtain ⟨hvalues, hdepth⟩ := printable_treeValues hdistinct h
    exact ⟨printableValues_iff.mpr hvalues, Nat.succ_le_succ (nestingValues_le.mpr hdepth)⟩
  | .object members, hdistinct, h => by
    obtain ⟨hmembers, hdepth⟩ := printable_treeMembers hdistinct.2 h
    have hnodup : ((treeMembers members).map Prod.fst).Nodup := by
      rw [treeMembers_keys]
      exact hdistinct.1
    refine ⟨⟨?_, printableMembers_iff.mpr fun member hmem => ?_⟩, Nat.succ_le_succ
      (nestingMembers_le.mpr fun member hmem => ?_)⟩
    · have hle := List.pairwise_insertionSort
        (fun left right : String × Json => left.1 ≤ right.1) (treeMembers members)
      have hne : ((treeMembers members).insertionSort
          fun left right => left.1 ≤ right.1).Pairwise fun left right => left.1 ≠ right.1 := by
        refine List.pairwise_map.mp (List.Perm.nodup ?_ hnodup)
        exact (List.perm_insertionSort _ _).symm.map Prod.fst
      exact (hle.and hne).imp fun {_ _} h => lt_of_le_of_ne h.1 h.2
    · rw [List.mem_insertionSort] at hmem
      exact hmembers member hmem
    · rw [List.mem_insertionSort] at hmem
      exact hdepth member hmem

theorem printable_treeValues : ∀ {ts : List (JsonTree ParserNumber)}, KeysDistinctItems ts →
    (∀ n ∈ itemNumbers ts, Prints S spell n.value) →
      (∀ v ∈ treeValues ts, Printable S spell v) ∧
        ∀ v ∈ treeValues ts, v.nesting ≤ JsonGrammar.depthItems ts
  | [], _, _ => by simp [treeValues]
  | t :: ts, hdistinct, h => by
    obtain ⟨hvalue, hdepth⟩ := printable_treeValue hdistinct.1
      fun n hn => h n (List.mem_append_left _ hn)
    obtain ⟨hvalues, hdepths⟩ := printable_treeValues hdistinct.2
      fun n hn => h n (List.mem_append_right _ hn)
    refine ⟨List.forall_mem_cons.mpr ⟨hvalue, hvalues⟩, List.forall_mem_cons.mpr ⟨?_, ?_⟩⟩
    · exact hdepth.trans (le_max_left _ _)
    · exact fun v hv => (hdepths v hv).trans (le_max_right _ _)

theorem printable_treeMembers : ∀ {ts : List (String × JsonTree ParserNumber)},
    KeysDistinctMembers ts → (∀ n ∈ memberNumbers ts, Prints S spell n.value) →
      (∀ m ∈ treeMembers ts, Printable S spell m.2) ∧
        ∀ m ∈ treeMembers ts, m.2.nesting ≤ JsonGrammar.depthMembers ts
  | [], _, _ => by simp [treeMembers]
  | (key, t) :: ts, hdistinct, h => by
    obtain ⟨hvalue, hdepth⟩ := printable_treeValue hdistinct.1
      fun n hn => h n (List.mem_append_left _ hn)
    obtain ⟨hmembers, hdepths⟩ := printable_treeMembers hdistinct.2
      fun n hn => h n (List.mem_append_right _ hn)
    refine ⟨List.forall_mem_cons.mpr ⟨hvalue, hmembers⟩, List.forall_mem_cons.mpr ⟨?_, ?_⟩⟩
    · exact hdepth.trans (le_max_left _ _)
    · exact fun m hm => (hdepths m hm).trans (le_max_right _ _)

end

/-- **What the parser returns can be printed.** -/
theorem printable_of_parse (hS : S.Documented) (hspell : S.RoundTrips spell) {body : List UInt8}
    {maxDepth : ℕ} (hmax : maxDepth ≤ 127) {v : Json}
    (h : parseUniqueJson S body maxDepth = .ok v) :
    Printable S spell v ∧ v.nesting ≤ maxDepth := by
  obtain ⟨text, t, -, ⟨rest, hreads, -⟩, hdepth, hdistinct, rfl⟩ :=
    (parseUniqueJson_eq_ok hS hmax).mp h
  have hnumbers : ∀ n ∈ treeNumbers t, Prints S spell n.value := by
    intro n hn
    obtain ⟨lexeme, hlexeme⟩ := number_of_reads hreads n hn
    exact hspell lexeme n hlexeme
  obtain ⟨hprintable, hle⟩ := printable_treeValue hdistinct hnumbers
  exact ⟨hprintable, hle.trans hdepth⟩

end Json

end Xgeny
