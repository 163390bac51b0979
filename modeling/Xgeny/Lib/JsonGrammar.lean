import Mathlib.Data.List.Infix
import Mathlib.Data.List.TakeWhile
import Mathlib.Tactic.Common

set_option autoImplicit false

/-!
# JSON texts

The grammar of JSON over lists of characters. A tree keeps the members of an object in their order,
duplicates included, with their decoded keys; how a number is read is a parameter. The rules relate
the characters at some place, what is read there, and the characters that are left.

* `JsonTree`, `JsonTree.depth`: what a text denotes, and how deep its arrays and objects nest;
* `isNumber`, `readEscape`, `StringBody`: numbers, escapes and the characters of a string;
* `Reads`, `Text`: the grammar;
* `readValue`, `read`: a reader;
* `readValue_sound`, `readValue_complete`, **`read_eq_some`**: the reader reads exactly the grammar,
  so that a text denotes one tree.
-/

namespace JsonGrammar

inductive JsonTree (ν : Type) where
  | null
  | bool (b : Bool)
  | number (n : ν)
  | string (s : String)
  | array (items : List (JsonTree ν))
  | object (members : List (String × JsonTree ν))

/-- What is read at a place: a value, the items of an array or the members of an object. -/
inductive Node (ν : Type) where
  | value (t : JsonTree ν)
  | items (ts : List (JsonTree ν))
  | members (ms : List (String × JsonTree ν))

section depth

variable {ν : Type}

mutual

/-- How deep arrays and objects nest. -/
def JsonTree.depth : JsonTree ν → ℕ
  | .array items => depthItems items + 1
  | .object members => depthMembers members + 1
  | _ => 0

def depthItems : List (JsonTree ν) → ℕ
  | [] => 0
  | item :: rest => max (JsonTree.depth item) (depthItems rest)

def depthMembers : List (String × JsonTree ν) → ℕ
  | [] => 0
  | (_, value) :: rest => max (JsonTree.depth value) (depthMembers rest)

end

def Node.depth : Node ν → ℕ
  | .value t => t.depth
  | .items ts => depthItems ts
  | .members ms => depthMembers ms

end depth

/-! ## Characters -/

def isSpace (c : Char) : Bool := c == ' ' || c == '\t' || c == '\n' || c == '\r'

def skip (cs : List Char) : List Char := cs.dropWhile isSpace

/-- The characters of numbers. -/
def isNumberChar (c : Char) : Bool :=
  c.isDigit || c == '-' || c == '+' || c == '.' || c == 'e' || c == 'E'

/-- An exponent, or nothing. -/
def isExponent : List Char → Bool
  | [] => true
  | c :: rest =>
    let digits := if rest.head? = some '-' ∨ rest.head? = some '+' then rest.tail else rest
    (c == 'e' || c == 'E') && digits ≠ [] && digits.all Char.isDigit

/-- A fraction and an exponent, where either may be missing. -/
def isFraction (cs : List Char) : Bool :=
  if cs.head? = some '.' then
    cs.tail.takeWhile Char.isDigit ≠ [] && isExponent (cs.tail.dropWhile Char.isDigit)
  else isExponent cs

/-- A number: digits without a leading zero, after an optional sign. -/
def isNumber (cs : List Char) : Bool :=
  let unsigned := if cs.head? = some '-' then cs.tail else cs
  let integer := unsigned.takeWhile Char.isDigit
  integer ≠ [] && (integer.length == 1 || integer.head? ≠ some '0') &&
    isFraction (unsigned.dropWhile Char.isDigit)

def hexValue (c : Char) : Option ℕ :=
  if c.isDigit then some (c.toNat - 48)
  else if 97 ≤ c.toNat ∧ c.toNat ≤ 102 then some (c.toNat - 87)
  else if 65 ≤ c.toNat ∧ c.toNat ≤ 70 then some (c.toNat - 55)
  else none

/-- Four hexadecimal digits. -/
def readHex : List Char → Option (ℕ × List Char)
  | a :: b :: c :: d :: rest => do
    let a ← hexValue a
    let b ← hexValue b
    let c ← hexValue c
    let d ← hexValue d
    some (((a * 16 + b) * 16 + c) * 16 + d, rest)
  | _ => none

def simpleEscape (c : Char) : Option Char :=
  if c = '"' ∨ c = '\\' ∨ c = '/' then some c
  else if c = 'b' then some '\x08'
  else if c = 'f' then some '\x0c'
  else if c = 'n' then some '\n'
  else if c = 'r' then some '\r'
  else if c = 't' then some '\t'
  else none

/-- The second half of a surrogate pair. -/
def readLowSurrogate (high : ℕ) : List Char → Option (Char × List Char)
  | '\\' :: 'u' :: rest =>
    (readHex rest).bind fun (low, rest) =>
      if 0xdc00 ≤ low ∧ low ≤ 0xdfff then
        some (Char.ofNat (0x10000 + (high - 0xd800) * 0x400 + (low - 0xdc00)), rest)
      else none
  | _ => none

/-- An escape after its backslash; surrogates come in pairs. -/
def readEscape : List Char → Option (Char × List Char)
  | [] => none
  | c :: rest =>
    if c = 'u' then
      (readHex rest).bind fun (unit, rest) =>
        if unit < 0xd800 ∨ 0xdfff < unit then some (Char.ofNat unit, rest)
        else if unit ≤ 0xdbff then readLowSurrogate unit rest
        else none
    else (simpleEscape c).map fun d => (d, rest)

/-- A character that stands for itself in a string. -/
def isUnescaped (c : Char) : Bool := 0x20 ≤ c.toNat && c != '"' && c != '\\'

/-- The characters up to the closing quote. -/
inductive StringBody : List Char → List Char → List Char → Prop
  | close {rest : List Char} : StringBody ('"' :: rest) [] rest
  | plain {c : Char} {cs ds rest : List Char} (hc : isUnescaped c = true)
      (h : StringBody cs ds rest) : StringBody (c :: cs) (c :: ds) rest
  | escape {d : Char} {cs cs' ds rest : List Char} (hd : readEscape cs = some (d, cs'))
      (h : StringBody cs' ds rest) : StringBody ('\\' :: cs) (d :: ds) rest

/-! ## The grammar -/

section

variable {ν : Type} (number : List Char → Option ν)

inductive Reads : Node ν → List Char → List Char → Prop
  | null {rest : List Char} : Reads (.value .null) ("null".toList ++ rest) rest
  | true {rest : List Char} : Reads (.value (.bool true)) ("true".toList ++ rest) rest
  | false {rest : List Char} : Reads (.value (.bool false)) ("false".toList ++ rest) rest
  | number {n : ν} {lexeme rest : List Char} (hlexeme : isNumber lexeme = true)
      (hn : number lexeme = some n) (hrest : rest.head?.all (fun c => !isNumberChar c) = true) :
      Reads (.value (.number n)) (lexeme ++ rest) rest
  | string {s cs rest : List Char} (h : StringBody cs s rest) :
      Reads (.value (.string (String.ofList s))) ('"' :: cs) rest
  | emptyArray {cs rest : List Char} (hclose : skip cs = ']' :: rest) :
      Reads (.value (.array [])) ('[' :: cs) rest
  | array {ts : List (JsonTree ν)} {cs rest : List Char} (h : Reads (.items ts) cs rest) :
      Reads (.value (.array ts)) ('[' :: cs) rest
  | lastItem {t : JsonTree ν} {cs mid rest : List Char} (ht : Reads (.value t) (skip cs) mid)
      (hclose : skip mid = ']' :: rest) : Reads (.items [t]) cs rest
  | moreItems {t : JsonTree ν} {ts : List (JsonTree ν)} {cs mid mid' rest : List Char}
      (ht : Reads (.value t) (skip cs) mid) (hcomma : skip mid = ',' :: mid')
      (hts : Reads (.items ts) mid' rest) : Reads (.items (t :: ts)) cs rest
  | emptyObject {cs rest : List Char} (hclose : skip cs = '\x7d' :: rest) :
      Reads (.value (.object [])) ('\x7b' :: cs) rest
  | object {ms : List (String × JsonTree ν)} {cs rest : List Char}
      (h : Reads (.members ms) cs rest) : Reads (.value (.object ms)) ('\x7b' :: cs) rest
  | lastMember {t : JsonTree ν} {key cs afterQuote afterKey afterColon mid rest : List Char}
      (hquote : skip cs = '"' :: afterQuote) (hkey : StringBody afterQuote key afterKey)
      (hcolon : skip afterKey = ':' :: afterColon) (ht : Reads (.value t) (skip afterColon) mid)
      (hclose : skip mid = '\x7d' :: rest) : Reads (.members [(String.ofList key, t)]) cs rest
  | moreMembers {t : JsonTree ν} {ms : List (String × JsonTree ν)}
      {key cs afterQuote afterKey afterColon mid mid' rest : List Char}
      (hquote : skip cs = '"' :: afterQuote) (hkey : StringBody afterQuote key afterKey)
      (hcolon : skip afterKey = ':' :: afterColon) (ht : Reads (.value t) (skip afterColon) mid)
      (hcomma : skip mid = ',' :: mid') (hms : Reads (.members ms) mid' rest) :
      Reads (.members ((String.ofList key, t) :: ms)) cs rest

/-- A whole text. -/
def Text (cs : List Char) (t : JsonTree ν) : Prop :=
  ∃ rest, Reads number (.value t) (skip cs) rest ∧ skip rest = []

/-! ## A reader -/

/-- The characters of a string; every character uses up some of the bound. -/
def readString : ℕ → List Char → Option (List Char × List Char)
  | 0, _ => none
  | _ + 1, [] => none
  | bound + 1, c :: cs =>
    if c = '"' then some ([], cs)
    else if c = '\\' then
      (readEscape cs).bind fun (d, cs') =>
        (readString bound cs').map fun (ds, rest) => (d :: ds, rest)
    else if isUnescaped c then (readString bound cs).map fun (ds, rest) => (c :: ds, rest)
    else none

def readNumber (cs : List Char) : Option (JsonTree ν × List Char) :=
  let lexeme := cs.takeWhile isNumberChar
  if isNumber lexeme then
    (number lexeme).map fun n => (.number n, cs.dropWhile isNumberChar)
  else none

/-- A word that stands for a value. -/
def readWord (word : List Char) (t : JsonTree ν) (cs : List Char) :
    Option (JsonTree ν × List Char) :=
  (cs.dropPrefix? word).map fun rest => (t, rest)

/-- The quote of a key, the key and the colon. -/
def readKey (bound : ℕ) (cs : List Char) : Option (String × List Char) :=
  match skip cs with
  | '"' :: cs =>
    (readString bound cs).bind fun (key, cs) =>
      match skip cs with
      | ':' :: cs => some (String.ofList key, cs)
      | _ => none
  | _ => none

mutual

/-- A value; every bracket, item and member uses up some of the bound. -/
def readValue : ℕ → List Char → Option (JsonTree ν × List Char)
  | 0, _ => none
  | _ + 1, [] => none
  | bound + 1, c :: cs =>
    if c = '"' then
      (readString (cs.length + 1) cs).map fun (s, rest) => (.string (String.ofList s), rest)
    else if c = '[' then
      match skip cs with
      | ']' :: rest => some (.array [], rest)
      | _ => (readItems bound cs).map fun (items, rest) => (.array items, rest)
    else if c = '\x7b' then
      match skip cs with
      | '\x7d' :: rest => some (.object [], rest)
      | _ => (readMembers bound cs).map fun (members, rest) => (.object members, rest)
    else if c = 'n' then readWord "ull".toList .null cs
    else if c = 't' then readWord "rue".toList (.bool Bool.true) cs
    else if c = 'f' then readWord "alse".toList (.bool Bool.false) cs
    else readNumber number (c :: cs)

def readItems : ℕ → List Char → Option (List (JsonTree ν) × List Char)
  | 0, _ => none
  | bound + 1, cs =>
    (readValue bound (skip cs)).bind fun (item, mid) =>
      match skip mid with
      | ']' :: rest => some ([item], rest)
      | ',' :: rest => (readItems bound rest).map fun (items, rest) => (item :: items, rest)
      | _ => none

def readMembers : ℕ → List Char → Option (List (String × JsonTree ν) × List Char)
  | 0, _ => none
  | bound + 1, cs =>
    (readKey (cs.length + 1) cs).bind fun (key, cs) =>
      (readValue bound (skip cs)).bind fun (value, mid) =>
        match skip mid with
        | '\x7d' :: rest => some ([(key, value)], rest)
        | ',' :: rest =>
          (readMembers bound rest).map fun (members, rest) => ((key, value) :: members, rest)
        | _ => none

end

/-- A whole text. -/
def read (cs : List Char) : Option (JsonTree ν) :=
  (readValue number (2 * cs.length + 1) (skip cs)).bind fun (t, rest) =>
    if skip rest = [] then some t else none

/-! ## What is left is shorter -/

theorem length_skip (cs : List Char) : (skip cs).length ≤ cs.length :=
  (List.dropWhile_sublist isSpace).length_le

theorem readHex_eq {cs rest : List Char} {n : ℕ} (h : readHex cs = some (n, rest)) :
    ∃ digits, cs = digits ++ rest ∧ ∀ c ∈ digits, (hexValue c).isSome = true := by
  unfold readHex at h
  split at h
  · simp only [Option.bind_eq_bind, Option.bind_eq_some_iff, Option.some.injEq, Prod.mk.injEq] at h
    obtain ⟨_, ha, _, hb, _, hc, _, hd, -, rfl⟩ := h
    refine ⟨[_, _, _, _], rfl, fun c hmem => ?_⟩
    simp only [List.mem_cons, List.not_mem_nil, or_false] at hmem
    rcases hmem with rfl | rfl | rfl | rfl
    · rw [ha, Option.isSome_some]
    · rw [hb, Option.isSome_some]
    · rw [hc, Option.isSome_some]
    · rw [hd, Option.isSome_some]
  · simp at h

theorem readLowSurrogate_eq {high : ℕ} {cs rest : List Char} {c : Char}
    (h : readLowSurrogate high cs = some (c, rest)) :
    ∃ digits, cs = '\\' :: 'u' :: (digits ++ rest) ∧ ∀ c ∈ digits, (hexValue c).isSome = true := by
  unfold readLowSurrogate at h
  split at h
  · obtain ⟨⟨low, mid⟩, hlow, hread⟩ := Option.bind_eq_some_iff.mp h
    obtain ⟨digits, rfl, hdigits⟩ := readHex_eq hlow
    dsimp only at hread
    split at hread
    · simp only [Option.some.injEq, Prod.mk.injEq] at hread
      obtain ⟨-, rfl⟩ := hread
      exact ⟨digits, rfl, hdigits⟩
    · simp at hread
  · simp at h

theorem readEscape_eq {cs rest : List Char} {c : Char} (h : readEscape cs = some (c, rest)) :
    ∃ first digits, (∀ d ∈ digits, (hexValue d).isSome = true) ∧
      (cs = first :: (digits ++ rest) ∨
        ∃ low, cs = first :: (digits ++ '\\' :: 'u' :: (low ++ rest)) ∧
          ∀ d ∈ low, (hexValue d).isSome = true) := by
  cases cs with
  | nil => simp [readEscape] at h
  | cons d cs =>
    simp only [readEscape] at h
    by_cases hd : d = 'u'
    · rw [if_pos hd] at h
      obtain ⟨⟨unit, mid⟩, hunit, hread⟩ := Option.bind_eq_some_iff.mp h
      obtain ⟨digits, rfl, hdigits⟩ := readHex_eq hunit
      refine ⟨d, digits, hdigits, ?_⟩
      dsimp only at hread
      split at hread
      · simp only [Option.some.injEq, Prod.mk.injEq] at hread
        obtain ⟨-, rfl⟩ := hread
        exact .inl rfl
      · split at hread
        · obtain ⟨low, rfl, hlow⟩ := readLowSurrogate_eq hread
          exact .inr ⟨low, rfl, hlow⟩
        · simp at hread
    · rw [if_neg hd] at h
      simp only [Option.map_eq_some_iff, Prod.mk.injEq] at h
      obtain ⟨_, -, -, rfl⟩ := h
      exact ⟨d, [], by simp, .inl rfl⟩

theorem readEscape_length {cs rest : List Char} {c : Char} (h : readEscape cs = some (c, rest)) :
    rest.length < cs.length := by
  obtain ⟨first, digits, -, rfl | ⟨low, rfl, -⟩⟩ := readEscape_eq h
  · simp only [List.length_cons, List.length_append]
    omega
  · simp only [List.length_cons, List.length_append]
    omega

theorem StringBody.length {cs s rest : List Char} (h : StringBody cs s rest) :
    rest.length < cs.length := by
  induction h with
  | close => simp
  | plain _ _ ih =>
    rw [List.length_cons]
    omega
  | escape hd _ ih =>
    have hescape := readEscape_length hd
    rw [List.length_cons]
    omega

theorem length_of_skip {cs rest : List Char} {c : Char} (h : skip cs = c :: rest) :
    rest.length < cs.length := by
  have hskip := length_skip cs
  rw [h, List.length_cons] at hskip
  omega

theorem isNumber_ne_nil {lexeme : List Char} (h : isNumber lexeme = true) : lexeme ≠ [] := by
  rintro rfl
  simp [isNumber] at h

variable {number}

theorem Reads.length {node : Node ν} {cs rest : List Char} (h : Reads number node cs rest) :
    rest.length < cs.length := by
  induction h with
  | null | true | false => simp; omega
  | number hlexeme _ _ =>
    have hne := List.length_pos_iff.mpr (isNumber_ne_nil hlexeme)
    rw [List.length_append]
    omega
  | string h =>
    have hbody := h.length
    rw [List.length_cons]
    omega
  | emptyArray hclose | emptyObject hclose =>
    have hrest := length_of_skip hclose
    rw [List.length_cons]
    omega
  | array _ ih | object _ ih =>
    rw [List.length_cons]
    omega
  | @lastItem _ cs _ _ _ hclose ih =>
    have hcs := length_skip cs
    have hrest := length_of_skip hclose
    omega
  | @moreItems _ _ cs _ _ _ _ hcomma _ ih ihts =>
    have hcs := length_skip cs
    have hmid := length_of_skip hcomma
    omega
  | @lastMember _ _ _ _ _ afterColon _ _ hquote hkey hcolon _ hclose ih =>
    have hcs := length_of_skip hquote
    have hbody := hkey.length
    have hafter := length_of_skip hcolon
    have hvalue := length_skip afterColon
    have hrest := length_of_skip hclose
    omega
  | @moreMembers _ _ _ _ _ _ afterColon _ _ _ hquote hkey hcolon _ hcomma _ ih ihms =>
    have hcs := length_of_skip hquote
    have hbody := hkey.length
    have hafter := length_of_skip hcolon
    have hvalue := length_skip afterColon
    have hmid := length_of_skip hcomma
    omega

/-! ## The reader follows the grammar -/

theorem readString_sound {bound : ℕ} {cs s rest : List Char}
    (h : readString bound cs = some (s, rest)) : StringBody cs s rest := by
  induction bound generalizing cs s with
  | zero => simp [readString] at h
  | succ bound ih =>
    cases cs with
    | nil => simp [readString] at h
    | cons c cs =>
      unfold readString at h
      split_ifs at h with hquote hescape hplain
      · simp only [Option.some.injEq, Prod.mk.injEq] at h
        obtain ⟨rfl, rfl⟩ := h
        rw [hquote]
        exact .close
      · obtain ⟨⟨d, mid⟩, hd, hread⟩ := Option.bind_eq_some_iff.mp h
        obtain ⟨⟨ds, rest'⟩, hds, heq⟩ := Option.map_eq_some_iff.mp hread
        simp only [Prod.mk.injEq] at heq
        obtain ⟨rfl, rfl⟩ := heq
        rw [hescape]
        exact .escape hd (ih hds)
      · obtain ⟨⟨ds, rest'⟩, hds, heq⟩ := Option.map_eq_some_iff.mp h
        simp only [Prod.mk.injEq] at heq
        obtain ⟨rfl, rfl⟩ := heq
        exact .plain hplain (ih hds)

theorem readNumber_sound {cs rest : List Char} {t : JsonTree ν}
    (h : readNumber number cs = some (t, rest)) : Reads number (.value t) cs rest := by
  unfold readNumber at h
  dsimp only at h
  split_ifs at h with hlexeme
  obtain ⟨n, hn, heq⟩ := Option.map_eq_some_iff.mp h
  simp only [Prod.mk.injEq] at heq
  obtain ⟨rfl, rfl⟩ := heq
  have hrest : (cs.dropWhile isNumberChar).head?.all (fun c => !isNumberChar c) = true := by
    cases hhead : (cs.dropWhile isNumberChar).head? with
    | none => rfl
    | some c =>
      have hc := List.head?_dropWhile_not isNumberChar cs
      rw [hhead] at hc
      simpa using hc
  have hread := Reads.number hlexeme hn hrest
  rwa [List.takeWhile_append_dropWhile] at hread

theorem readWord_sound {word cs rest : List Char} {t t' : JsonTree ν}
    (h : readWord word t cs = some (t', rest)) : t' = t ∧ cs = word ++ rest := by
  obtain ⟨mid, hmid, heq⟩ := Option.map_eq_some_iff.mp h
  simp only [Prod.mk.injEq] at heq
  obtain ⟨rfl, rfl⟩ := heq
  obtain ⟨front, hsplit, hfront⟩ := List.dropPrefix?_eq_some_iff.mp hmid
  exact ⟨rfl, by rw [hsplit, eq_of_beq hfront]⟩

theorem readKey_sound {bound : ℕ} {cs rest : List Char} {key : String}
    (h : readKey bound cs = some (key, rest)) :
    ∃ afterQuote s afterKey, skip cs = '"' :: afterQuote ∧ StringBody afterQuote s afterKey ∧
      key = String.ofList s ∧ skip afterKey = ':' :: rest := by
  unfold readKey at h
  split at h
  · rename_i afterQuote hquote
    obtain ⟨⟨s, afterKey⟩, hs, hread⟩ := Option.bind_eq_some_iff.mp h
    dsimp only at hread
    split at hread
    · rename_i hcolon
      simp only [Option.some.injEq, Prod.mk.injEq] at hread
      obtain ⟨rfl, rfl⟩ := hread
      exact ⟨afterQuote, s, afterKey, hquote, readString_sound hs, rfl, hcolon⟩
    · simp at hread
  · simp at h

/-- What the reader reads within a bound. -/
def SoundUpTo (number : List Char → Option ν) (bound : ℕ) : Prop :=
  (∀ cs t rest, readValue number bound cs = some (t, rest) → Reads number (.value t) cs rest) ∧
  (∀ cs ts rest, readItems number bound cs = some (ts, rest) → Reads number (.items ts) cs rest) ∧
  ∀ cs ms rest, readMembers number bound cs = some (ms, rest) → Reads number (.members ms) cs rest

theorem readArray_sound {bound : ℕ} {cs rest : List Char} {t : JsonTree ν}
    (ih : SoundUpTo number bound)
    (h : (match skip cs with
      | ']' :: rest => some (JsonTree.array [], rest)
      | _ => (readItems number bound cs).map fun (items, rest) => (JsonTree.array items, rest)) =
        some (t, rest)) : Reads number (.value t) ('[' :: cs) rest := by
  split at h
  · rename_i hclose
    simp only [Option.some.injEq, Prod.mk.injEq] at h
    obtain ⟨rfl, rfl⟩ := h
    exact .emptyArray hclose
  · obtain ⟨⟨ts, rest'⟩, hts, heq⟩ := Option.map_eq_some_iff.mp h
    simp only [Prod.mk.injEq] at heq
    obtain ⟨rfl, rfl⟩ := heq
    exact .array (ih.2.1 _ _ _ hts)

theorem readObject_sound {bound : ℕ} {cs rest : List Char} {t : JsonTree ν}
    (ih : SoundUpTo number bound)
    (h : (match skip cs with
      | '\x7d' :: rest => some (JsonTree.object [], rest)
      | _ =>
        (readMembers number bound cs).map fun (members, rest) => (JsonTree.object members, rest)) =
        some (t, rest)) : Reads number (.value t) ('\x7b' :: cs) rest := by
  split at h
  · rename_i hclose
    simp only [Option.some.injEq, Prod.mk.injEq] at h
    obtain ⟨rfl, rfl⟩ := h
    exact .emptyObject hclose
  · obtain ⟨⟨ms, rest'⟩, hms, heq⟩ := Option.map_eq_some_iff.mp h
    simp only [Prod.mk.injEq] at heq
    obtain ⟨rfl, rfl⟩ := heq
    exact .object (ih.2.2 _ _ _ hms)

theorem soundUpTo_value {bound : ℕ} {cs rest : List Char} {t : JsonTree ν}
    (ih : SoundUpTo number bound) (h : readValue number (bound + 1) cs = some (t, rest)) :
    Reads number (.value t) cs rest := by
  cases cs with
  | nil => simp [readValue] at h
  | cons c cs =>
    unfold readValue at h
    split_ifs at h with hquote hbracket hbrace hn ht hf
    · obtain ⟨⟨s, rest'⟩, hs, heq⟩ := Option.map_eq_some_iff.mp h
      simp only [Prod.mk.injEq] at heq
      obtain ⟨rfl, rfl⟩ := heq
      rw [hquote]
      exact .string (readString_sound hs)
    · rw [hbracket]
      exact readArray_sound ih h
    · rw [hbrace]
      exact readObject_sound ih h
    · obtain ⟨rfl, rfl⟩ := readWord_sound h
      rw [hn]
      exact .null
    · obtain ⟨rfl, rfl⟩ := readWord_sound h
      rw [ht]
      exact .true
    · obtain ⟨rfl, rfl⟩ := readWord_sound h
      rw [hf]
      exact .false
    · exact readNumber_sound h

theorem soundUpTo_items {bound : ℕ} {cs rest : List Char} {ts : List (JsonTree ν)}
    (ih : SoundUpTo number bound) (h : readItems number (bound + 1) cs = some (ts, rest)) :
    Reads number (.items ts) cs rest := by
  unfold readItems at h
  obtain ⟨⟨t, mid⟩, ht, hread⟩ := Option.bind_eq_some_iff.mp h
  have hvalue := ih.1 _ _ _ ht
  dsimp only at hread
  split at hread
  · rename_i hclose
    simp only [Option.some.injEq, Prod.mk.injEq] at hread
    obtain ⟨rfl, rfl⟩ := hread
    exact .lastItem hvalue hclose
  · rename_i hcomma
    obtain ⟨⟨more, rest'⟩, hmore, heq⟩ := Option.map_eq_some_iff.mp hread
    simp only [Prod.mk.injEq] at heq
    obtain ⟨rfl, rfl⟩ := heq
    exact .moreItems hvalue hcomma (ih.2.1 _ _ _ hmore)
  · simp at hread

theorem soundUpTo_members {bound : ℕ} {cs rest : List Char} {ms : List (String × JsonTree ν)}
    (ih : SoundUpTo number bound) (h : readMembers number (bound + 1) cs = some (ms, rest)) :
    Reads number (.members ms) cs rest := by
  unfold readMembers at h
  obtain ⟨⟨key, afterColon⟩, hkey, hread⟩ := Option.bind_eq_some_iff.mp h
  obtain ⟨⟨t, mid⟩, ht, hread⟩ := Option.bind_eq_some_iff.mp hread
  obtain ⟨afterQuote, s, afterKey, hquote, hs, rfl, hcolon⟩ := readKey_sound hkey
  have hvalue := ih.1 _ _ _ ht
  dsimp only at hread
  split at hread
  · rename_i hclose
    simp only [Option.some.injEq, Prod.mk.injEq] at hread
    obtain ⟨rfl, rfl⟩ := hread
    exact .lastMember hquote hs hcolon hvalue hclose
  · rename_i hcomma
    obtain ⟨⟨more, rest'⟩, hmore, heq⟩ := Option.map_eq_some_iff.mp hread
    simp only [Prod.mk.injEq] at heq
    obtain ⟨rfl, rfl⟩ := heq
    exact .moreMembers hquote hs hcolon hvalue hcomma (ih.2.2 _ _ _ hmore)
  · simp at hread

theorem soundUpTo (bound : ℕ) : SoundUpTo number bound := by
  induction bound with
  | zero => simp [SoundUpTo, readValue, readItems, readMembers]
  | succ bound ih =>
    refine ⟨fun cs t rest h => ?_, fun cs ts rest h => ?_, fun cs ms rest h => ?_⟩
    · exact soundUpTo_value ih h
    · exact soundUpTo_items ih h
    · exact soundUpTo_members ih h

theorem readValue_sound {bound : ℕ} {cs rest : List Char} {t : JsonTree ν}
    (h : readValue number bound cs = some (t, rest)) : Reads number (.value t) cs rest :=
  (soundUpTo bound).1 cs t rest h

/-! ## The grammar is read -/

theorem StringBody.read {cs s rest : List Char} {bound : ℕ} (h : StringBody cs s rest)
    (hbound : cs.length < bound) : readString bound cs = some (s, rest) := by
  induction h generalizing bound with
  | close =>
    obtain ⟨bound, rfl⟩ := Nat.exists_eq_add_of_lt hbound
    rfl
  | @plain c cs ds rest hc hbody ih =>
    cases bound with
    | zero => omega
    | succ bound =>
      have hne : c ≠ '"' ∧ c ≠ '\\' := by
        unfold isUnescaped at hc
        simp only [Bool.and_eq_true, bne_iff_ne, decide_eq_true_eq] at hc
        exact ⟨hc.1.2, hc.2⟩
      rw [List.length_cons] at hbound
      unfold readString
      rw [if_neg hne.1, if_neg hne.2, if_pos hc, ih (by omega)]
      rfl
  | @escape d cs cs' ds rest hd hbody ih =>
    cases bound with
    | zero => omega
    | succ bound =>
      have hlength := readEscape_length hd
      rw [List.length_cons] at hbound
      unfold readString
      rw [if_neg (by decide), if_pos rfl, hd, Option.bind_some]
      dsimp only
      rw [ih (by omega)]
      rfl

theorem isNumberChar_of_isDigit {c : Char} (h : c.isDigit = true) : isNumberChar c = true := by
  unfold isNumberChar
  rw [h]
  rfl

theorem isExponent_chars {cs : List Char} (h : isExponent cs = true) :
    ∀ c ∈ cs, isNumberChar c = true := by
  cases cs with
  | nil => simp
  | cons e rest =>
    unfold isExponent at h
    simp only [Bool.and_eq_true, List.all_eq_true, Bool.or_eq_true, beq_iff_eq] at h
    obtain ⟨⟨he, -⟩, hdigits⟩ := h
    intro c hc
    rcases List.mem_cons.mp hc with rfl | hc
    · rcases he with rfl | rfl <;> rfl
    · cases rest with
      | nil => simp at hc
      | cons sign rest =>
        by_cases hsign : sign = '-' ∨ sign = '+'
        · rw [if_pos (by simpa using hsign)] at hdigits
          rcases List.mem_cons.mp hc with rfl | hc
          · rcases hsign with rfl | rfl <;> rfl
          · exact isNumberChar_of_isDigit (hdigits c hc)
        · rw [if_neg (by simpa using hsign)] at hdigits
          exact isNumberChar_of_isDigit (hdigits c hc)

theorem chars_of_digits {cs : List Char}
    (h : ∀ c ∈ cs.dropWhile Char.isDigit, isNumberChar c = true) :
    ∀ c ∈ cs, isNumberChar c = true := by
  intro c hc
  rw [← List.takeWhile_append_dropWhile (p := Char.isDigit) (l := cs)] at hc
  rcases List.mem_append.mp hc with hc | hc
  · exact isNumberChar_of_isDigit (List.mem_takeWhile_imp hc)
  · exact h c hc

theorem isFraction_chars {cs : List Char} (h : isFraction cs = true) :
    ∀ c ∈ cs, isNumberChar c = true := by
  unfold isFraction at h
  by_cases hdot : cs.head? = some '.'
  · rw [if_pos hdot, Bool.and_eq_true] at h
    obtain ⟨rest, rfl⟩ := List.head?_eq_some_iff.mp hdot
    have hrest := chars_of_digits (isExponent_chars h.2)
    intro c hc
    rcases List.mem_cons.mp hc with rfl | hc
    · rfl
    · exact hrest c hc
  · rw [if_neg hdot] at h
    exact isExponent_chars h

theorem isNumber_chars {cs : List Char} (h : isNumber cs = true) :
    ∀ c ∈ cs, isNumberChar c = true := by
  unfold isNumber at h
  simp only [Bool.and_eq_true] at h
  obtain ⟨-, hfraction⟩ := h
  by_cases hsign : cs.head? = some '-'
  · obtain ⟨rest, rfl⟩ := List.head?_eq_some_iff.mp hsign
    rw [if_pos hsign] at hfraction
    intro c hc
    rcases List.mem_cons.mp hc with rfl | hc
    · rfl
    · exact chars_of_digits (isFraction_chars hfraction) c hc
  · rw [if_neg hsign] at hfraction
    exact chars_of_digits (isFraction_chars hfraction)

theorem lexeme_unique {lexeme rest : List Char} (hlexeme : isNumber lexeme = true)
    (hrest : rest.head?.all (fun c => !isNumberChar c) = true) :
    (lexeme ++ rest).takeWhile isNumberChar = lexeme ∧
      (lexeme ++ rest).dropWhile isNumberChar = rest := by
  have hall := isNumber_chars hlexeme
  rw [List.takeWhile_append_of_pos hall, List.dropWhile_append_of_pos hall]
  cases rest with
  | nil => simp
  | cons c rest =>
    have hc : isNumberChar c = false := by simpa using hrest
    rw [List.takeWhile_cons, List.dropWhile_cons, hc]
    simp

/-- What the reader reads at a place, if the bound suffices. -/
def ReadBack (number : List Char → Option ν) : Node ν → List Char → List Char → Prop
  | .value t, cs, rest =>
    ∀ bound, 2 * cs.length ≤ bound → readValue number bound cs = some (t, rest)
  | .items ts, cs, rest =>
    ∀ bound, 2 * cs.length + 1 ≤ bound → readItems number bound cs = some (ts, rest)
  | .members ms, cs, rest =>
    ∀ bound, 2 * cs.length + 1 ≤ bound → readMembers number bound cs = some (ms, rest)

theorem Reads.head {t : JsonTree ν} {c : Char} {cs rest : List Char}
    (h : Reads number (.value t) (c :: cs) rest) : c ≠ ']' := by
  rintro rfl
  generalize hcs : ']' :: cs = text at h
  cases h with
  | @number _ lexeme _ hlexeme _ _ =>
    cases lexeme with
    | nil => exact isNumber_ne_nil hlexeme rfl
    | cons d lexeme =>
      have hd := isNumber_chars hlexeme d (by simp)
      simp only [List.cons_append, List.cons.injEq] at hcs
      rw [← hcs.1] at hd
      exact absurd hd (by decide)
  | _ => simp at hcs

theorem Reads.items_head {ts : List (JsonTree ν)} {cs mid rest : List Char}
    (h : Reads number (.items ts) cs rest) : skip cs ≠ ']' :: mid := by
  intro hclose
  cases h with
  | lastItem ht _ | moreItems ht _ _ =>
    rw [hclose] at ht
    exact ht.head rfl

theorem Reads.members_head {ms : List (String × JsonTree ν)} {cs mid rest : List Char}
    (h : Reads number (.members ms) cs rest) : skip cs ≠ '\x7d' :: mid := by
  intro hclose
  cases h with
  | lastMember hquote _ _ _ _ | moreMembers hquote _ _ _ _ _ =>
    rw [hclose] at hquote
    simp at hquote

theorem readKey_complete {cs afterQuote s afterKey rest : List Char}
    (hquote : skip cs = '"' :: afterQuote) (hs : StringBody afterQuote s afterKey)
    (hcolon : skip afterKey = ':' :: rest) :
    readKey (cs.length + 1) cs = some (String.ofList s, rest) := by
  have hlength := length_of_skip hquote
  unfold readKey
  rw [hquote]
  show (readString (cs.length + 1) afterQuote).bind _ = _
  rw [hs.read (by omega), Option.bind_some]
  dsimp only
  rw [hcolon]
  rfl

theorem readNumber_complete {n : ν} {lexeme rest : List Char} (hlexeme : isNumber lexeme = true)
    (hn : number lexeme = some n) (hrest : rest.head?.all (fun c => !isNumberChar c) = true) :
    readNumber number (lexeme ++ rest) = some (.number n, rest) := by
  obtain ⟨htake, hdrop⟩ := lexeme_unique hlexeme hrest
  unfold readNumber
  rw [htake, hdrop]
  dsimp only
  rw [if_pos hlexeme, hn]
  rfl

theorem readWord_complete (word rest : List Char) (t : JsonTree ν) :
    readWord word t (word ++ rest) = some (t, rest) := by
  have hdrop : (word ++ rest).dropPrefix? word = some rest :=
    List.dropPrefix?_eq_some_iff.mpr ⟨word, rfl, beq_self_eq_true word⟩
  unfold readWord
  rw [hdrop]
  rfl

theorem readValue_of_number {c : Char} {cs : List Char} {bound : ℕ} (hc : isNumberChar c = true) :
    readValue number (bound + 1) (c :: cs) = readNumber number (c :: cs) := by
  have hne : ∀ d, isNumberChar d = false → c ≠ d := by
    rintro d hd rfl
    rw [hc] at hd
    exact absurd hd (by decide)
  unfold readValue
  rw [if_neg (hne _ (by decide)), if_neg (hne _ (by decide)), if_neg (hne _ (by decide)),
    if_neg (hne _ (by decide)), if_neg (hne _ (by decide)), if_neg (hne _ (by decide))]

theorem Reads.readBack {node : Node ν} {cs rest : List Char} (h : Reads number node cs rest) :
    ReadBack number node cs rest := by
  induction h with
  | @null rest | @true rest | @false rest =>
    intro bound hbound
    obtain ⟨bound, rfl⟩ : ∃ n, bound = n + 1 := ⟨bound - 1, by simp at hbound; omega⟩
    exact readWord_complete _ rest _
  | @number n lexeme rest hlexeme hn hrest =>
    intro bound hbound
    have hpos := List.length_pos_iff.mpr (isNumber_ne_nil hlexeme)
    rw [List.length_append] at hbound
    obtain ⟨bound, rfl⟩ : ∃ n, bound = n + 1 := ⟨bound - 1, by omega⟩
    cases lexeme with
    | nil => exact absurd rfl (isNumber_ne_nil hlexeme)
    | cons c lexeme =>
      rw [List.cons_append, readValue_of_number (isNumber_chars hlexeme c (by simp)),
        ← List.cons_append, readNumber_complete hlexeme hn hrest]
  | @string s cs rest hs =>
    intro bound hbound
    rw [List.length_cons] at hbound
    obtain ⟨bound, rfl⟩ : ∃ n, bound = n + 1 := ⟨bound - 1, by omega⟩
    unfold readValue
    rw [if_pos rfl, hs.read (by omega)]
    rfl
  | @emptyArray cs rest hclose =>
    intro bound hbound
    rw [List.length_cons] at hbound
    obtain ⟨bound, rfl⟩ : ∃ n, bound = n + 1 := ⟨bound - 1, by omega⟩
    unfold readValue
    rw [if_neg (by decide), if_pos rfl, hclose]
    rfl
  | @array ts cs rest hts ih =>
    intro bound hbound
    rw [List.length_cons] at hbound
    obtain ⟨bound, rfl⟩ : ∃ n, bound = n + 1 := ⟨bound - 1, by omega⟩
    unfold readValue
    rw [if_neg (by decide), if_pos rfl]
    split
    · rename_i hclose
      exact absurd hclose hts.items_head
    · rw [ih bound (by omega)]
      rfl
  | @lastItem t cs mid rest ht hclose ih =>
    intro bound hbound
    have hlength := length_skip cs
    obtain ⟨bound, rfl⟩ : ∃ n, bound = n + 1 := ⟨bound - 1, by omega⟩
    unfold readItems
    rw [ih bound (by omega), Option.bind_some]
    dsimp only
    rw [hclose]
    rfl
  | @moreItems t ts cs mid mid' rest ht hcomma hts ih ihts =>
    intro bound hbound
    have hlength := length_skip cs
    have hmid := ht.length
    have hmid' := length_of_skip hcomma
    obtain ⟨bound, rfl⟩ : ∃ n, bound = n + 1 := ⟨bound - 1, by omega⟩
    unfold readItems
    rw [ih bound (by omega), Option.bind_some]
    dsimp only
    rw [hcomma]
    show (readItems number bound mid').map _ = _
    rw [ihts bound (by omega)]
    rfl
  | @emptyObject cs rest hclose =>
    intro bound hbound
    rw [List.length_cons] at hbound
    obtain ⟨bound, rfl⟩ : ∃ n, bound = n + 1 := ⟨bound - 1, by omega⟩
    unfold readValue
    rw [if_neg (by decide), if_neg (by decide), if_pos rfl, hclose]
    rfl
  | @object ms cs rest hms ih =>
    intro bound hbound
    rw [List.length_cons] at hbound
    obtain ⟨bound, rfl⟩ : ∃ n, bound = n + 1 := ⟨bound - 1, by omega⟩
    unfold readValue
    rw [if_neg (by decide), if_neg (by decide), if_pos rfl]
    split
    · rename_i hclose
      exact absurd hclose hms.members_head
    · rw [ih bound (by omega)]
      rfl
  | @lastMember t key cs afterQuote afterKey afterColon mid rest hquote hkey hcolon ht hclose ih =>
    intro bound hbound
    have hcs := length_of_skip hquote
    have hbody := hkey.length
    have hafter := length_of_skip hcolon
    have hvalue := length_skip afterColon
    obtain ⟨bound, rfl⟩ : ∃ n, bound = n + 1 := ⟨bound - 1, by omega⟩
    unfold readMembers
    rw [readKey_complete hquote hkey hcolon, Option.bind_some]
    dsimp only
    rw [ih bound (by omega), Option.bind_some]
    dsimp only
    rw [hclose]
    rfl
  | @moreMembers t ms key cs afterQuote afterKey afterColon mid mid' rest hquote hkey hcolon ht
      hcomma hms ih ihms =>
    intro bound hbound
    have hcs := length_of_skip hquote
    have hbody := hkey.length
    have hafter := length_of_skip hcolon
    have hvalue := length_skip afterColon
    have hmid := ht.length
    have hmid' := length_of_skip hcomma
    obtain ⟨bound, rfl⟩ : ∃ n, bound = n + 1 := ⟨bound - 1, by omega⟩
    unfold readMembers
    rw [readKey_complete hquote hkey hcolon, Option.bind_some]
    dsimp only
    rw [ih bound (by omega), Option.bind_some]
    dsimp only
    rw [hcomma]
    show (readMembers number bound mid').map _ = _
    rw [ihms bound (by omega)]
    rfl

theorem readValue_complete {bound : ℕ} {cs rest : List Char} {t : JsonTree ν}
    (h : Reads number (.value t) cs rest) (hbound : 2 * cs.length ≤ bound) :
    readValue number bound cs = some (t, rest) :=
  h.readBack bound hbound

/-- **The reader reads exactly the texts.** -/
theorem read_eq_some {cs : List Char} {t : JsonTree ν} :
    read number cs = some t ↔ Text number cs t := by
  unfold read
  constructor
  · intro h
    obtain ⟨⟨t', rest⟩, hvalue, hrest⟩ := Option.bind_eq_some_iff.mp h
    dsimp only at hrest
    split_ifs at hrest with hskip
    obtain rfl := Option.some.inj hrest
    exact ⟨rest, readValue_sound hvalue, hskip⟩
  · rintro ⟨rest, hvalue, hskip⟩
    have hlength := length_skip cs
    rw [readValue_complete hvalue (by omega), Option.bind_some]
    exact if_pos hskip

theorem Text.unique {cs : List Char} {t t' : JsonTree ν} (h : Text number cs t)
    (h' : Text number cs t') : t = t' := by
  rw [← read_eq_some] at h h'
  exact Option.some.inj (h.symm.trans h')

end

end JsonGrammar
