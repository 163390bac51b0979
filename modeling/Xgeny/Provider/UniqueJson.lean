import Mathlib
import Xgeny.Lib.JsonGrammar
import Xgeny.Lib.KeyedMap
import Xgeny.Runtime.Operations
import Xgeny.Sidecar

set_option autoImplicit false

/-!
# Documents without duplicate keys

The answers of a model and its schemas are read by one function. A scanner over the bytes first
bounds the nesting, then the deserializer walks the text with a visitor that refuses a key that the
object already has.

* `jsonDepthWithin`: the scanner;
* `UniqueJsonVisitor.visit`: the visitor, over the tree of the text;
* `SerdeJson`: the deserializer, which is not part of the program, and what it accepts;
* `parseUniqueJson`: the function;
* `KeysDistinct`, `value`: no object has two members of one key, and what the tree stands for;
* **`scan_text`**: the scanner fails on a text only where it nests too deep;
* **`parseUniqueJson_eq_ok`**: what is accepted, and as which value.
-/

namespace Xgeny

open JsonGrammar

/-! ## The scanner -/

/-- The locals of the loop of `json_depth_within`. -/
structure DepthScan where
  depth : ℕ
  inString : Bool
  escaped : Bool
  deriving DecidableEq

/-- Where the loop returns early. -/
inductive DepthScanFault where
  | tooDeep
  | underflow
  deriving DecidableEq

namespace DepthScan

/-- The loop body for one byte. -/
def step (maxDepth : ℕ) (self : DepthScan) (byte : UInt8) : Except DepthScanFault DepthScan :=
  if self.inString then
    if self.escaped then .ok { self with escaped := false }
    else if byte = 0x5c then .ok { self with escaped := true }
    else if byte = 0x22 then .ok { self with inString := false }
    else .ok self
  else if byte = 0x22 then .ok { self with inString := true }
  else if byte = 0x7b ∨ byte = 0x5b then
    if self.depth + 1 ≤ maxDepth then .ok { self with depth := self.depth + 1 }
    else .error .tooDeep
  else if byte = 0x7d ∨ byte = 0x5d then
    if self.depth = 0 then .error .underflow else .ok { self with depth := self.depth - 1 }
  else .ok self

/-- The loop. -/
def run (maxDepth : ℕ) (self : DepthScan) (body : List UInt8) : Except DepthScanFault DepthScan :=
  body.foldlM (step maxDepth) self

/-- Outside of strings, at some depth. -/
def outside (depth : ℕ) : DepthScan := ⟨depth, false, false⟩

/-- Inside a string. -/
def inside (depth : ℕ) : DepthScan := ⟨depth, true, false⟩

end DepthScan

/-- `json_depth_within`. -/
def jsonDepthWithin (body : List UInt8) (maxDepth : ℕ) : Bool :=
  match (DepthScan.outside 0).run maxDepth body with
  | .ok scan => !scan.inString && scan.depth == 0
  | .error _ => false

/-! ## The visitor -/

/-- `serde_json::de::ParserNumber`. -/
inductive ParserNumber where
  | f64 (bits : UInt64)
  | u64 (n : UInt64)
  | i64 (n : Int64)
  deriving DecidableEq

/-- `f64::is_finite`, on the bits. -/
def isFinite (bits : UInt64) : Bool := (bits >>> 52) &&& 0x7ff != 0x7ff

namespace UniqueJsonVisitor

/-- `visit_i64`; `Number::from` keeps a non-negative integer as an unsigned one. -/
def visitI64 (n : Int64) : JsonNumber :=
  if n.toInt < 0 then .negInt n.toInt else .posInt n.toUInt64

/-- The visitor of a number. -/
def visitNumber : ParserNumber → Option JsonNumber
  | .i64 n => some (visitI64 n)
  | .u64 n => some (.posInt n)
  | .f64 bits => if isFinite bits then some (.float bits) else none

mutual

/-- The visitor; every error has one meaning to the caller. -/
def visit : JsonTree ParserNumber → Option Json
  | .null => some .null
  | .bool b => some (.bool b)
  | .number n => (visitNumber n).map .number
  | .string s => some (.string s)
  | .array items => (visitSeq items).map .array
  | .object members => (visitMap ∅ ∅ members).map fun values => .object values.toList

def visitSeq : List (JsonTree ParserNumber) → Option (List Json)
  | [] => some []
  | item :: rest => (visit item).bind fun value => (visitSeq rest).map (value :: ·)

/-- The loop of `visit_map`, with the keys and the values so far. -/
def visitMap (keys : BTreeSet String) (values : BTreeMap String Json) :
    List (String × JsonTree ParserNumber) → Option (BTreeMap String Json)
  | [] => some values
  | (key, item) :: rest =>
    if key ∈ keys then none
    else (visit item).bind fun value => visitMap (keys.insert key) (values.insert key value) rest

end

end UniqueJsonVisitor

/-! ## The function -/

/-- The deserializer: how it converts a number, and which tree it finds in a body. -/
structure SerdeJson where
  number : List Char → Option ParserNumber
  tree : List UInt8 → Option (JsonTree ParserNumber)

/-- What it accepts: a text in UTF-8 that nests within its recursion limit; numbers out of range are
refused. -/
structure SerdeJson.Documented (S : SerdeJson) : Prop where
  tree : ∀ body t, S.tree body = some t ↔
    ∃ text : String, bytes text = body ∧ Text S.number text.toList t ∧ t.depth < 128
  finite : ∀ lexeme bits, S.number lexeme = some (.f64 bits) → isFinite bits = true

/-- `parse_unique_json`. -/
def parseUniqueJson (S : SerdeJson) (body : List UInt8) (maxDepth : ℕ) :
    Outcome PlannerPortFailure Json := do
  Outcome.failIf (jsonDepthWithin body maxDepth = false) .invalidResponse
  Outcome.okOr ((S.tree body).bind UniqueJsonVisitor.visit) .invalidResponse

/-! ## What a tree stands for -/

/-- The number of the value. -/
def ParserNumber.value : ParserNumber → JsonNumber
  | .i64 n => UniqueJsonVisitor.visitI64 n
  | .u64 n => .posInt n
  | .f64 bits => .float bits

mutual

/-- The value of a tree: the members of an object stand in key order. -/
def treeValue : JsonTree ParserNumber → Json
  | .null => .null
  | .bool b => .bool b
  | .number n => .number n.value
  | .string s => .string s
  | .array items => .array (treeValues items)
  | .object members =>
    .object ((treeMembers members).insertionSort fun left right => left.1 ≤ right.1)

def treeValues : List (JsonTree ParserNumber) → List Json
  | [] => []
  | item :: rest => treeValue item :: treeValues rest

def treeMembers : List (String × JsonTree ParserNumber) → List (String × Json)
  | [] => []
  | (key, item) :: rest => (key, treeValue item) :: treeMembers rest

end

mutual

/-- No object, at any level, has two members of one key. -/
def KeysDistinct : JsonTree ParserNumber → Prop
  | .array items => KeysDistinctItems items
  | .object members => (members.map Prod.fst).Nodup ∧ KeysDistinctMembers members
  | _ => True

def KeysDistinctItems : List (JsonTree ParserNumber) → Prop
  | [] => True
  | item :: rest => KeysDistinct item ∧ KeysDistinctItems rest

def KeysDistinctMembers : List (String × JsonTree ParserNumber) → Prop
  | [] => True
  | (_, item) :: rest => KeysDistinct item ∧ KeysDistinctMembers rest

end

mutual

/-- The numbers of a tree. -/
def treeNumbers : JsonTree ParserNumber → List ParserNumber
  | .number n => [n]
  | .array items => itemNumbers items
  | .object members => memberNumbers members
  | _ => []

def itemNumbers : List (JsonTree ParserNumber) → List ParserNumber
  | [] => []
  | item :: rest => treeNumbers item ++ itemNumbers rest

def memberNumbers : List (String × JsonTree ParserNumber) → List ParserNumber
  | [] => []
  | (_, item) :: rest => treeNumbers item ++ memberNumbers rest

end

/-! ## The scanner on a text -/

theorem byte_ne {c d : Char} (hd : d.toNat < 128) (hne : c ≠ d) :
    ∀ b ∈ String.utf8EncodeChar c, b ≠ UInt8.ofNat d.toNat := by
  rintro b hb rfl
  rcases Utf8.encodeChar_cases c with ⟨hc, hbytes⟩ | ⟨-, hwide⟩
  · rw [hbytes, List.mem_singleton, ← UInt8.toNat_inj, UInt8.toNat_ofNat', UInt8.toNat_ofNat'] at hb
    exact hne (Char.toNat_inj.mp (by omega))
  · have hb' := hwide _ hb
    rw [UInt8.toNat_ofNat'] at hb'
    omega

namespace DepthScan

variable {maxDepth depth : ℕ} {self : DepthScan} {c : Char} {cs : List Char}

theorem run_cons (byte : UInt8) (body : List UInt8) :
    self.run maxDepth (byte :: body) =
      (self.step maxDepth byte).bind fun scan => scan.run maxDepth body := rfl

theorem run_append (front back : List UInt8) :
    self.run maxDepth (front ++ back) =
      (self.run maxDepth front).bind fun scan => scan.run maxDepth back :=
  List.foldlM_append

theorem run_char {after : DepthScan} (h : self.run maxDepth (String.utf8EncodeChar c) = .ok after) :
    self.run maxDepth (Utf8.encode (c :: cs)) = after.run maxDepth (Utf8.encode cs) := by
  rw [Utf8.encode_cons, run_append, h]
  rfl

theorem run_still {body : List UInt8} (h : ∀ b ∈ body, self.step maxDepth b = .ok self) :
    self.run maxDepth body = .ok self := by
  induction body with
  | nil => rfl
  | cons byte body ih =>
    rw [run_cons, h byte List.mem_cons_self]
    exact ih fun b hb => h b (List.mem_cons_of_mem _ hb)

theorem inside_plain (hquote : c ≠ '"') (hescape : c ≠ '\\') :
    (inside depth).run maxDepth (Utf8.encode (c :: cs)) =
      (inside depth).run maxDepth (Utf8.encode cs) := by
  refine run_char (run_still fun b hb => ?_)
  have hb1 : b ≠ 0x22 := byte_ne (d := '"') (by decide) hquote b hb
  have hb2 : b ≠ 0x5c := byte_ne (d := '\\') (by decide) hescape b hb
  simp [step, inside, hb1, hb2]

theorem inside_quote :
    (inside depth).run maxDepth (Utf8.encode ('"' :: cs)) =
      (outside depth).run maxDepth (Utf8.encode cs) :=
  run_char rfl

theorem inside_escape :
    (inside depth).run maxDepth (Utf8.encode ('\\' :: c :: cs)) =
      (inside depth).run maxDepth (Utf8.encode cs) := by
  have hbackslash : (inside depth).run maxDepth (String.utf8EncodeChar '\\') =
      .ok ⟨depth, true, true⟩ := rfl
  rw [run_char hbackslash]
  apply run_char
  rcases Utf8.encodeChar_cases c with ⟨-, hbytes⟩ | ⟨-, hwide⟩
  · rw [hbytes]
    rfl
  · cases hbytes : String.utf8EncodeChar c with
    | nil => exact absurd hbytes String.utf8EncodeChar_ne_nil
    | cons byte body =>
      rw [run_cons]
      show (inside depth).run maxDepth body = _
      refine run_still fun b hb => ?_
      have hb' := hwide b (by rw [hbytes]; exact List.mem_cons_of_mem _ hb)
      have hb1 : b ≠ 0x22 := by
        rintro rfl
        exact absurd hb' (by decide)
      have hb2 : b ≠ 0x5c := by
        rintro rfl
        exact absurd hb' (by decide)
      simp [step, inside, hb1, hb2]

theorem outside_quote :
    (outside depth).run maxDepth (Utf8.encode ('"' :: cs)) =
      (inside depth).run maxDepth (Utf8.encode cs) :=
  run_char rfl

/-- The characters that the loop looks for outside of strings. -/
def isMark (c : Char) : Bool :=
  c == '"' || c == '\x7b' || c == '[' || c == '\x7d' || c == ']'

theorem outside_plain (hc : isMark c = false) :
    (outside depth).run maxDepth (Utf8.encode (c :: cs)) =
      (outside depth).run maxDepth (Utf8.encode cs) := by
  unfold isMark at hc
  simp only [Bool.or_eq_false_iff, beq_eq_false_iff_ne] at hc
  obtain ⟨⟨⟨⟨hquote, hbrace⟩, hbracket⟩, hbrace'⟩, hbracket'⟩ := hc
  refine run_char (run_still fun b hb => ?_)
  have hb1 : b ≠ 0x22 := byte_ne (d := '"') (by decide) hquote b hb
  have hb2 : b ≠ 0x7b := byte_ne (d := '\x7b') (by decide) hbrace b hb
  have hb3 : b ≠ 0x5b := byte_ne (d := '[') (by decide) hbracket b hb
  have hb4 : b ≠ 0x7d := byte_ne (d := '\x7d') (by decide) hbrace' b hb
  have hb5 : b ≠ 0x5d := byte_ne (d := ']') (by decide) hbracket' b hb
  simp [step, outside, hb1, hb2, hb3, hb4, hb5]

theorem plain_of_all {front : List Char} (h : front.all (fun c => !isMark c) = true) :
    ∀ c ∈ front, isMark c = false := by
  intro c hc
  exact (Bool.not_eq_true' _).mp (List.all_eq_true.mp h c hc)

theorem outside_plains {front : List Char} (h : ∀ c ∈ front, isMark c = false) :
    (outside depth).run maxDepth (Utf8.encode (front ++ cs)) =
      (outside depth).run maxDepth (Utf8.encode cs) := by
  induction front with
  | nil => rfl
  | cons c front ih =>
    rw [List.cons_append, outside_plain (h c List.mem_cons_self)]
    exact ih fun d hd => h d (List.mem_cons_of_mem _ hd)

theorem outside_open (hc : c = '[' ∨ c = '\x7b') :
    (outside depth).run maxDepth (Utf8.encode (c :: cs)) =
      if depth + 1 ≤ maxDepth then (outside (depth + 1)).run maxDepth (Utf8.encode cs)
      else .error .tooDeep := by
  have hrun : (outside depth).run maxDepth (Utf8.encode (c :: cs)) =
      Except.bind (if depth + 1 ≤ maxDepth then .ok (outside (depth + 1)) else .error .tooDeep)
        fun scan => scan.run maxDepth (Utf8.encode cs) := by
    rcases hc with rfl | rfl <;> rfl
  rw [hrun]
  by_cases hdepth : depth + 1 ≤ maxDepth
  · rw [if_pos hdepth, if_pos hdepth]
    rfl
  · rw [if_neg hdepth, if_neg hdepth]
    rfl

theorem outside_close (hc : c = ']' ∨ c = '\x7d') :
    (outside (depth + 1)).run maxDepth (Utf8.encode (c :: cs)) =
      (outside depth).run maxDepth (Utf8.encode cs) := by
  rcases hc with rfl | rfl
  · exact run_char rfl
  · exact run_char rfl

theorem outside_skip :
    (outside depth).run maxDepth (Utf8.encode (skip cs)) =
      (outside depth).run maxDepth (Utf8.encode cs) := by
  have hspaces : ∀ c ∈ cs.takeWhile isSpace, isMark c = false := by
    intro c hc
    have hspace := List.mem_takeWhile_imp hc
    simp only [isSpace, Bool.or_eq_true, beq_iff_eq] at hspace
    rcases hspace with ((rfl | rfl) | rfl) | rfl <;> rfl
  conv_rhs => rw [← List.takeWhile_append_dropWhile (p := isSpace) (l := cs)]
  exact (outside_plains hspaces).symm

theorem outside_of_skip {rest : List Char} (h : skip cs = c :: rest) :
    (outside depth).run maxDepth (Utf8.encode cs) =
      (outside depth).run maxDepth (Utf8.encode (c :: rest)) := by
  rw [← outside_skip, h]

theorem inside_hex {digits : List Char} (h : ∀ c ∈ digits, (hexValue c).isSome = true) :
    (inside depth).run maxDepth (Utf8.encode (digits ++ cs)) =
      (inside depth).run maxDepth (Utf8.encode cs) := by
  induction digits with
  | nil => rfl
  | cons c digits ih =>
    have hc := h c List.mem_cons_self
    have hne : c ≠ '"' ∧ c ≠ '\\' := by
      constructor
      · rintro rfl
        exact absurd hc (by decide)
      · rintro rfl
        exact absurd hc (by decide)
    rw [List.cons_append, inside_plain hne.1 hne.2]
    exact ih fun d hd => h d (List.mem_cons_of_mem _ hd)

theorem run_string {s rest : List Char} (h : StringBody cs s rest) :
    (inside depth).run maxDepth (Utf8.encode cs) =
      (outside depth).run maxDepth (Utf8.encode rest) := by
  induction h with
  | close => exact inside_quote
  | plain hc _ ih =>
    unfold isUnescaped at hc
    simp only [Bool.and_eq_true, bne_iff_ne, decide_eq_true_eq] at hc
    rw [inside_plain hc.1.2 hc.2, ih]
  | escape hd _ ih =>
    obtain ⟨first, digits, hdigits, rfl | ⟨low, rfl, hlow⟩⟩ := readEscape_eq hd
    · rw [inside_escape, inside_hex hdigits, ih]
    · rw [inside_escape, inside_hex hdigits, inside_escape, inside_hex hlow, ih]

/-- How many brackets are open where a node is read, besides those around its value. -/
def opened : Node ParserNumber → ℕ
  | .value _ => 0
  | .items _ => 1
  | .members _ => 1

theorem if_max_le {α : Type} {base a b bound : ℕ} {x y : α} :
    (if base + a ≤ bound then if base + b ≤ bound then x else y else y) =
      if base + max a b ≤ bound then x else y := by
  have hmax : base + max a b = max (base + a) (base + b) := by omega
  rw [hmax]
  by_cases ha : base + a ≤ bound
  · rw [if_pos ha]
    by_cases hb : base + b ≤ bound
    · rw [if_pos hb, if_pos (Nat.max_le.mpr ⟨ha, hb⟩)]
    · rw [if_neg hb, if_neg fun h => hb (Nat.max_le.mp h).2]
  · rw [if_neg ha, if_neg fun h => ha (Nat.max_le.mp h).1]

theorem run_reads {number : List Char → Option ParserNumber} {node : Node ParserNumber}
    {rest : List Char} (h : Reads number node cs rest) (hdepth : depth + opened node ≤ maxDepth) :
    (outside (depth + opened node)).run maxDepth (Utf8.encode cs) =
      if depth + opened node + node.depth ≤ maxDepth then
        (outside depth).run maxDepth (Utf8.encode rest)
      else .error .tooDeep := by
  induction h generalizing depth with
  | null | true | false =>
    exact (outside_plains (plain_of_all (by decide))).trans (if_pos hdepth).symm
  | number hlexeme _ _ =>
    refine (outside_plains fun c hc => ?_).trans (if_pos hdepth).symm
    by_contra hmark
    have hnumber := isNumber_chars hlexeme c hc
    simp only [isMark, Bool.not_eq_false, Bool.or_eq_true, beq_iff_eq] at hmark
    rcases hmark with (((rfl | rfl) | rfl) | rfl) | rfl <;> exact absurd hnumber (by decide)
  | string hbody =>
    exact (outside_quote.trans (run_string hbody)).trans (if_pos hdepth).symm
  | emptyArray hclose =>
    show (outside depth).run maxDepth _ = if depth + 1 ≤ maxDepth then _ else _
    rw [outside_open (.inl rfl), outside_of_skip hclose, outside_close (.inl rfl)]
  | emptyObject hclose =>
    show (outside depth).run maxDepth _ = if depth + 1 ≤ maxDepth then _ else _
    rw [outside_open (.inr rfl), outside_of_skip hclose, outside_close (.inr rfl)]
  | @array ts _ _ _ ih =>
    show (outside depth).run maxDepth _ = if depth + (depthItems ts + 1) ≤ maxDepth then _ else _
    rw [outside_open (.inl rfl)]
    by_cases hopen : depth + 1 ≤ maxDepth
    · rw [if_pos hopen, show depth + (depthItems ts + 1) = depth + 1 + depthItems ts by omega]
      exact ih hopen
    · rw [if_neg hopen, if_neg (by omega)]
  | @object ms _ _ _ ih =>
    show (outside depth).run maxDepth _ = if depth + (depthMembers ms + 1) ≤ maxDepth then _ else _
    rw [outside_open (.inr rfl)]
    by_cases hopen : depth + 1 ≤ maxDepth
    · rw [if_pos hopen, show depth + (depthMembers ms + 1) = depth + 1 + depthMembers ms by omega]
      exact ih hopen
    · rw [if_neg hopen, if_neg (by omega)]
  | @lastItem t cs mid _ _ hclose ih =>
    have hvalue : (outside (depth + 1)).run maxDepth (Utf8.encode (skip cs)) =
        if depth + 1 + t.depth ≤ maxDepth then
          (outside (depth + 1)).run maxDepth (Utf8.encode mid)
        else .error .tooDeep := ih hdepth
    show (outside (depth + 1)).run maxDepth _ =
      if depth + 1 + max t.depth 0 ≤ maxDepth then _ else _
    rw [← outside_skip, hvalue, outside_of_skip hclose, outside_close (.inl rfl), Nat.max_zero]
  | @moreItems t ts cs mid mid' rest _ hcomma _ ih ihts =>
    have hvalue : (outside (depth + 1)).run maxDepth (Utf8.encode (skip cs)) =
        if depth + 1 + t.depth ≤ maxDepth then
          (outside (depth + 1)).run maxDepth (Utf8.encode mid)
        else .error .tooDeep := ih hdepth
    have hitems : (outside (depth + 1)).run maxDepth (Utf8.encode mid') =
        if depth + 1 + depthItems ts ≤ maxDepth then
          (outside depth).run maxDepth (Utf8.encode rest)
        else .error .tooDeep := ihts hdepth
    show (outside (depth + 1)).run maxDepth _ =
      if depth + 1 + max t.depth (depthItems ts) ≤ maxDepth then _ else _
    rw [← outside_skip, hvalue, outside_of_skip hcomma, outside_plain (by decide), hitems]
    exact if_max_le
  | @lastMember t _ cs _ _ afterColon mid _ hquote hkey hcolon _ hclose ih =>
    have hvalue : (outside (depth + 1)).run maxDepth (Utf8.encode (skip afterColon)) =
        if depth + 1 + t.depth ≤ maxDepth then
          (outside (depth + 1)).run maxDepth (Utf8.encode mid)
        else .error .tooDeep := ih hdepth
    show (outside (depth + 1)).run maxDepth _ =
      if depth + 1 + max t.depth 0 ≤ maxDepth then _ else _
    rw [outside_of_skip hquote, outside_quote, run_string hkey, outside_of_skip hcolon,
      outside_plain (by decide), ← outside_skip, hvalue, outside_of_skip hclose,
      outside_close (.inr rfl), Nat.max_zero]
  | @moreMembers t ms _ cs _ _ afterColon mid mid' rest hquote hkey hcolon _ hcomma _ ih ihms =>
    have hvalue : (outside (depth + 1)).run maxDepth (Utf8.encode (skip afterColon)) =
        if depth + 1 + t.depth ≤ maxDepth then
          (outside (depth + 1)).run maxDepth (Utf8.encode mid)
        else .error .tooDeep := ih hdepth
    have hmembers : (outside (depth + 1)).run maxDepth (Utf8.encode mid') =
        if depth + 1 + depthMembers ms ≤ maxDepth then
          (outside depth).run maxDepth (Utf8.encode rest)
        else .error .tooDeep := ihms hdepth
    show (outside (depth + 1)).run maxDepth _ =
      if depth + 1 + max t.depth (depthMembers ms) ≤ maxDepth then _ else _
    rw [outside_of_skip hquote, outside_quote, run_string hkey, outside_of_skip hcolon,
      outside_plain (by decide), ← outside_skip, hvalue, outside_of_skip hcomma,
      outside_plain (by decide), hmembers]
    exact if_max_le

/-- **The scanner fails on a text only where it nests too deep.** -/
theorem scan_text {number : List Char → Option ParserNumber} {t : JsonTree ParserNumber}
    (h : Text number cs t) :
    (outside 0).run maxDepth (Utf8.encode cs) =
      if t.depth ≤ maxDepth then .ok (outside 0) else .error .tooDeep := by
  obtain ⟨rest, hreads, hrest⟩ := h
  have hrun : (outside 0).run maxDepth (Utf8.encode (skip cs)) =
      if 0 + t.depth ≤ maxDepth then (outside 0).run maxDepth (Utf8.encode rest)
      else .error .tooDeep := run_reads hreads (Nat.zero_le _)
  have hleft : (outside 0).run maxDepth (Utf8.encode rest) = .ok (outside 0) := by
    rw [← outside_skip, hrest]
    rfl
  rw [← outside_skip, hrun, hleft, Nat.zero_add]

end DepthScan

/-! ## The visitor and the value -/

theorem string_lt_of_compare {a b : String} (h : compare a b = .lt) : a < b := by
  by_contra hlt
  change compareOfLessAndEq a b = .lt at h
  unfold compareOfLessAndEq at h
  rw [if_neg hlt] at h
  split_ifs at h

theorem toList_insertAll {members : List (String × Json)}
    (h : (members.map Prod.fst).Nodup) :
    (BTreeMap.insertAll Prod.fst Prod.snd ∅ members).toList =
      members.insertionSort fun left right => left.1 ≤ right.1 := by
  have hmem : ∀ entry : String × Json,
      entry ∈ (BTreeMap.insertAll Prod.fst Prod.snd ∅ members).toList ↔ entry ∈ members := by
    rintro ⟨key, value⟩
    rw [Std.ExtTreeMap.mem_toList_iff_getElem?_eq_some]
    constructor
    · intro hget
      rcases BTreeMap.get_insertAll_eq_some h hget with ⟨entry, hentry, rfl, rfl⟩ | ⟨-, hempty⟩
      · exact hentry
      · simp at hempty
    · intro hentry
      exact BTreeMap.get_insertAll_of_mem h hentry
  have hunique := @List.Perm.eq_of_pairwise _ (fun left right : String × Json => left.1 ≤ right.1)
  refine hunique ?_ ?_ ?_ ?_
  · intro left right hleft hright hle hge
    rw [hmem] at hleft
    rw [List.mem_insertionSort] at hright
    have hkey : left.1 = right.1 := le_antisymm hle hge
    exact List.inj_on_of_nodup_map h hleft hright hkey
  · refine Std.ExtTreeMap.ordered_keys_toList.imp fun {left right} hlt => ?_
    exact le_of_lt (string_lt_of_compare hlt)
  · exact List.pairwise_insertionSort _ _
  · have hnodup : members.Nodup := List.Nodup.of_map _ h
    refine ((List.perm_ext_iff_of_nodup (BTreeMap.nodup_toList _) hnodup).mpr hmem).trans ?_
    exact (List.perm_insertionSort _ _).symm

theorem treeMembers_keys (members : List (String × JsonTree ParserNumber)) :
    (treeMembers members).map Prod.fst = members.map Prod.fst := by
  induction members with
  | nil => rfl
  | cons member members ih => rw [treeMembers, List.map_cons, List.map_cons, ih]

namespace UniqueJsonVisitor

mutual

theorem visit_eq_some : ∀ {t : JsonTree ParserNumber} {v : Json},
    (∀ n ∈ treeNumbers t, visitNumber n = some n.value) →
      (visit t = some v ↔ KeysDistinct t ∧ v = treeValue t)
  | .null, v, _ | .bool _, v, _ | .string _, v, _ => by
    simp [visit, KeysDistinct, treeValue, eq_comm]
  | .number n, v, h => by
    have hn := h n (by simp [treeNumbers])
    simp [visit, KeysDistinct, treeValue, hn, eq_comm]
  | .array items, v, h => by
    simp only [visit, Option.map_eq_some_iff, KeysDistinct, treeValue]
    constructor
    · rintro ⟨values, hvalues, rfl⟩
      obtain ⟨hdistinct, rfl⟩ := (visitSeq_eq_some h).mp hvalues
      exact ⟨hdistinct, rfl⟩
    · rintro ⟨hdistinct, rfl⟩
      exact ⟨_, (visitSeq_eq_some h).mpr ⟨hdistinct, rfl⟩, rfl⟩
  | .object members, v, h => by
    have hmap := fun m => @visitMap_eq_some members ∅ ∅ m h (by simp)
    simp only [visit, Option.map_eq_some_iff, KeysDistinct, treeValue]
    constructor
    · rintro ⟨values, hvalues, rfl⟩
      obtain ⟨hnodup, -, hdistinct, rfl⟩ := (hmap _).mp hvalues
      rw [toList_insertAll (by rw [treeMembers_keys]; exact hnodup)]
      exact ⟨⟨hnodup, hdistinct⟩, rfl⟩
    · rintro ⟨⟨hnodup, hdistinct⟩, rfl⟩
      refine ⟨_, (hmap _).mpr ⟨hnodup, by simp, hdistinct, rfl⟩, ?_⟩
      rw [toList_insertAll (by rw [treeMembers_keys]; exact hnodup)]

theorem visitSeq_eq_some : ∀ {items : List (JsonTree ParserNumber)} {values : List Json},
    (∀ n ∈ itemNumbers items, visitNumber n = some n.value) →
      (visitSeq items = some values ↔ KeysDistinctItems items ∧ values = treeValues items)
  | [], values, _ => by simp [visitSeq, KeysDistinctItems, treeValues, eq_comm]
  | item :: rest, values, h => by
    have hitem : ∀ n ∈ treeNumbers item, visitNumber n = some n.value :=
      fun n hn => h n (List.mem_append_left _ hn)
    have hrest : ∀ n ∈ itemNumbers rest, visitNumber n = some n.value :=
      fun n hn => h n (List.mem_append_right _ hn)
    simp only [visitSeq, Option.bind_eq_some_iff, Option.map_eq_some_iff, visit_eq_some hitem,
      visitSeq_eq_some hrest, KeysDistinctItems, treeValues]
    constructor
    · rintro ⟨_, ⟨hdistinct, rfl⟩, _, ⟨hrest, rfl⟩, rfl⟩
      exact ⟨⟨hdistinct, hrest⟩, rfl⟩
    · rintro ⟨⟨hdistinct, hrest⟩, rfl⟩
      exact ⟨_, ⟨hdistinct, rfl⟩, _, ⟨hrest, rfl⟩, rfl⟩

theorem visitMap_eq_some : ∀ {members : List (String × JsonTree ParserNumber)}
    {keys : BTreeSet String} {values m : BTreeMap String Json},
    (∀ n ∈ memberNumbers members, visitNumber n = some n.value) →
    (∀ key, key ∈ keys ↔ key ∈ values) →
      (visitMap keys values members = some m ↔
        (members.map Prod.fst).Nodup ∧ (∀ key ∈ members.map Prod.fst, key ∉ keys) ∧
          KeysDistinctMembers members ∧
            m = BTreeMap.insertAll Prod.fst Prod.snd values (treeMembers members))
  | [], keys, values, m, _, _ => by
    simp [visitMap, KeysDistinctMembers, treeMembers, eq_comm]
  | (key, item) :: rest, keys, values, m, h, hkeys => by
    have hitem : ∀ n ∈ treeNumbers item, visitNumber n = some n.value :=
      fun n hn => h n (List.mem_append_left _ hn)
    have hrest : ∀ n ∈ memberNumbers rest, visitNumber n = some n.value :=
      fun n hn => h n (List.mem_append_right _ hn)
    have hkeys' : ∀ value : Json, ∀ key',
        key' ∈ keys.insert key ↔ key' ∈ values.insert key value := by
      intro value key'
      rw [BTreeSet.mem_insert_iff, BTreeMap.mem_insert_iff, hkeys]
    simp only [List.map_cons, List.nodup_cons, List.forall_mem_cons, KeysDistinctMembers,
      treeMembers, BTreeMap.insertAll_cons]
    unfold visitMap
    by_cases hkey : key ∈ keys
    · rw [if_pos hkey]
      simp [hkey]
    · rw [if_neg hkey]
      simp only [Option.bind_eq_some_iff, visit_eq_some hitem]
      constructor
      · rintro ⟨value, ⟨hdistinct, rfl⟩, hmap⟩
        obtain ⟨hnodup, hnew, hmembers, rfl⟩ := (visitMap_eq_some hrest (hkeys' _)).mp hmap
        simp only [BTreeSet.mem_insert_iff, not_or] at hnew
        refine ⟨⟨fun hmem => (hnew key hmem).1 rfl, hnodup⟩, ⟨hkey, fun k hk => (hnew k hk).2⟩,
          ⟨hdistinct, hmembers⟩, rfl⟩
      · rintro ⟨⟨hfresh, hnodup⟩, ⟨-, hnew⟩, ⟨hdistinct, hmembers⟩, rfl⟩
        refine ⟨_, ⟨hdistinct, rfl⟩, (visitMap_eq_some hrest (hkeys' _)).mpr
          ⟨hnodup, fun k hk => ?_, hmembers, rfl⟩⟩
        rw [BTreeSet.mem_insert_iff, not_or]
        exact ⟨fun heq => hfresh (heq ▸ hk), hnew k hk⟩

end

end UniqueJsonVisitor

/-! ## What is accepted -/

/-- The numbers of what is read at a place. -/
def nodeNumbers : Node ParserNumber → List ParserNumber
  | .value t => treeNumbers t
  | .items ts => itemNumbers ts
  | .members ms => memberNumbers ms

theorem number_of_reads {number : List Char → Option ParserNumber} {node : Node ParserNumber}
    {cs rest : List Char} (h : Reads number node cs rest) :
    ∀ n ∈ nodeNumbers node, ∃ lexeme, number lexeme = some n := by
  induction h with
  | null | true | false | string _ | emptyArray _ | emptyObject _ =>
    simp [nodeNumbers, treeNumbers, itemNumbers, memberNumbers]
  | number _ hn _ =>
    intro n hmem
    obtain rfl := List.mem_singleton.mp hmem
    exact ⟨_, hn⟩
  | array _ ih | object _ ih => exact ih
  | lastItem _ _ ih | lastMember _ _ _ _ _ ih =>
    intro n hmem
    rcases List.mem_append.mp hmem with hvalue | hnil
    · exact ih n hvalue
    · exact absurd hnil List.not_mem_nil
  | moreItems _ _ _ ih ihrest | moreMembers _ _ _ _ _ _ ih ihrest =>
    intro n hmem
    rcases List.mem_append.mp hmem with hvalue | hmore
    · exact ih n hvalue
    · exact ihrest n hmore

theorem visitNumber_of_text {S : SerdeJson} (hS : S.Documented) {cs : List Char}
    {t : JsonTree ParserNumber} (h : Text S.number cs t) :
    ∀ n ∈ treeNumbers t, UniqueJsonVisitor.visitNumber n = some n.value := by
  obtain ⟨rest, hreads, -⟩ := h
  intro n hn
  obtain ⟨lexeme, hlexeme⟩ := number_of_reads hreads n hn
  cases n with
  | f64 bits => exact if_pos (hS.finite lexeme bits hlexeme)
  | u64 _ | i64 _ => rfl

theorem run_bytes {number : List Char → Option ParserNumber} {t : JsonTree ParserNumber}
    {text : String} {maxDepth : ℕ} (h : Text number text.toList t) :
    (DepthScan.outside 0).run maxDepth (bytes text) =
      if t.depth ≤ maxDepth then .ok (DepthScan.outside 0) else .error .tooDeep := by
  rw [bytes_eq_encode]
  exact DepthScan.scan_text h

theorem jsonDepthWithin_text {number : List Char → Option ParserNumber}
    {t : JsonTree ParserNumber} {text : String} {maxDepth : ℕ} (h : Text number text.toList t) :
    jsonDepthWithin (bytes text) maxDepth = true ↔ t.depth ≤ maxDepth := by
  unfold jsonDepthWithin
  rw [run_bytes h]
  by_cases hdepth : t.depth ≤ maxDepth
  · rw [if_pos hdepth]
    simp [DepthScan.outside, hdepth]
  · rw [if_neg hdepth]
    simp [hdepth]

/-- **What is accepted, and as which value.** -/
theorem parseUniqueJson_eq_ok {S : SerdeJson} (hS : S.Documented) {body : List UInt8}
    {maxDepth : ℕ} (hmax : maxDepth ≤ 127) {v : Json} :
    parseUniqueJson S body maxDepth = .ok v ↔
      ∃ (text : String) (t : JsonTree ParserNumber), bytes text = body ∧
        Text S.number text.toList t ∧ t.depth ≤ maxDepth ∧ KeysDistinct t ∧ v = treeValue t := by
  simp only [parseUniqueJson, Outcome.bind_eq_ok, Outcome.exists_unit, Outcome.failIf_eq_ok,
    Outcome.okOr_eq_ok, Option.bind_eq_some_iff, Bool.not_eq_false, hS.tree]
  constructor
  · rintro ⟨hwithin, t, ⟨text, rfl, htext, -⟩, hvisit⟩
    rw [jsonDepthWithin_text htext] at hwithin
    rw [UniqueJsonVisitor.visit_eq_some (visitNumber_of_text hS htext)] at hvisit
    exact ⟨text, t, rfl, htext, hwithin, hvisit⟩
  · rintro ⟨text, t, rfl, htext, hdepth, hvisit⟩
    refine ⟨(jsonDepthWithin_text htext).mpr hdepth, t, ⟨text, rfl, htext, by omega⟩, ?_⟩
    exact (UniqueJsonVisitor.visit_eq_some (visitNumber_of_text hS htext)).mpr hvisit

/-! ## A deserializer -/

/-- A deserializer that reads the grammar, for some conversion of numbers. -/
def SerdeJson.reader (number : List Char → Option ParserNumber) : SerdeJson where
  number := number
  tree body :=
    (String.fromUTF8? body.toByteArray).bind fun text =>
      (read number text.toList).filter fun t => t.depth < 128

theorem SerdeJson.reader_documented {number : List Char → Option ParserNumber}
    (hfinite : ∀ lexeme bits, number lexeme = some (.f64 bits) → isFinite bits = true) :
    (SerdeJson.reader number).Documented where
  tree body t := by
    simp only [SerdeJson.reader, Option.bind_eq_some_iff, Option.filter_eq_some_iff,
      fromUTF8_eq_some, read_eq_some, decide_eq_true_eq]
  finite := hfinite

/-- The numbers of one digit. -/
def digitNumber : List Char → Option ParserNumber
  | [c] => if c.isDigit then some (.u64 (UInt64.ofNat (c.toNat - 48))) else none
  | _ => none

theorem digitNumber_finite (lexeme : List Char) (bits : UInt64)
    (h : digitNumber lexeme = some (.f64 bits)) : isFinite bits = true := by
  unfold digitNumber at h
  split at h
  · split_ifs at h
    simp at h
  · simp at h

/-- **An answer has one meaning or none.** -/
theorem unique_json_exact (S : SerdeJson) (hS : S.Documented) (body : List UInt8) (maxDepth : ℕ) :
    (maxDepth ≤ 127 → ∀ v, parseUniqueJson S body maxDepth = .ok v ↔
      ∃ (text : String) (t : JsonTree ParserNumber), bytes text = body ∧
        Text S.number text.toList t ∧ t.depth ≤ maxDepth ∧ KeysDistinct t ∧ v = treeValue t) ∧
    ∀ (text : String) (t : JsonTree ParserNumber), bytes text = body →
      Text S.number text.toList t →
        (jsonDepthWithin body maxDepth = true ↔ t.depth ≤ maxDepth) ∧
          (DepthScan.outside 0).run maxDepth body ≠ .error .underflow := by
  refine ⟨fun hmax v => parseUniqueJson_eq_ok hS hmax, ?_⟩
  rintro text t rfl htext
  refine ⟨jsonDepthWithin_text htext, ?_⟩
  rw [run_bytes htext]
  by_cases hdepth : t.depth ≤ maxDepth
  · rw [if_pos hdepth]
    simp
  · rw [if_neg hdepth]
    simp

/-- A closing bracket in a string does not close; one key spelled in two ways is refused. -/
theorem unique_json_exact_sample :
    parseUniqueJson (.reader digitNumber) (bytes "[\x7b\"b\":1,\"a\":\"]\"\x7d]") 2 =
      .ok (.array [.object [("a", .string "]"), ("b", .number (.posInt 1))]]) ∧
    ∀ v, parseUniqueJson (.reader digitNumber) (bytes "\x7b\"a\":1,\"\\u0061\":2\x7d") 2 ≠
      .ok v := by
  constructor
  · refine ((unique_json_exact _ (SerdeJson.reader_documented digitNumber_finite) _ 2).1
      (by decide) _).mpr ⟨_, .array [.object [("b", .number (.u64 1)), ("a", .string "]")]], rfl,
        read_eq_some.mp (by cbv), by decide, ?_, ?_⟩
    · simp [KeysDistinct, KeysDistinctItems, KeysDistinctMembers]
    · cbv
  · intro v hv
    obtain ⟨text, t, hbytes, htext, -, hdistinct, -⟩ :=
      ((unique_json_exact _ (SerdeJson.reader_documented digitNumber_finite) _ 2).1
        (by decide) v).mp hv
    obtain rfl := bytes_injective hbytes
    have hread : Text digitNumber "\x7b\"a\":1,\"\\u0061\":2\x7d".toList
        (.object [("a", .number (.u64 1)), ("a", .number (.u64 2))]) := read_eq_some.mp (by cbv)
    rw [htext.unique hread] at hdistinct
    simp [KeysDistinct] at hdistinct

end Xgeny
