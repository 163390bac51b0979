import Xgeny.Policy.Resolution

set_option autoImplicit false

/-!
# Positions of a JSON value

A JSON pointer names a position of a value. The laws of reading and writing there do not depend on
what the value is: they follow from the laws of one member or element.

* `Json.shell`: a value without what is inside of it;
* `Json.get_set`, `Json.get_set_apart`, `Json.shell_set`: what a write changes;
* `Json.settled_set_apart`: a write keeps the values at the positions apart from it;
* **`pointerTokens_injective`**: two pointers of the schema name two positions.
-/

namespace Xgeny

namespace Json

/-! ## One member or element -/

section

variable {self value inner : Json} {token token' : String}

theorem parseIndex_eq_some {index : ℕ} (h : parseIndex token = some index) : token = toString index := by
  rw [parseIndex, Option.filter_eq_some_iff, beq_iff_eq] at h
  exact h.2.symm

theorem lookup_setMember {members : List (String × Json)} :
    (members.map fun member => if member.1 = token then (member.1, value) else member).lookup token' =
      if token' = token then (members.lookup token').map fun _ => value
      else members.lookup token' := by
  induction members with
  | nil => simp
  | cons member rest ih =>
    obtain ⟨key, old⟩ := member
    rw [List.map_cons]
    by_cases htoken : token' = key
    · subst htoken
      by_cases hkey : token' = token <;> simp [hkey]
    · have hfalse : (token' == key) = false := beq_eq_false_iff_ne.mpr htoken
      by_cases hkey : key = token
      · rw [if_pos hkey, List.lookup_cons, ih, List.lookup_cons, hfalse]
      · rw [if_neg hkey, List.lookup_cons, ih, List.lookup_cons, hfalse]

theorem child_setChild (h : self.child token = some inner) :
    (self.setChild token value).child token = some value := by
  unfold child at h
  split at h
  · rw [setChild, child, lookup_setMember, if_pos rfl, h, Option.map_some]
  · obtain ⟨index, hindex, hget⟩ := Option.bind_eq_some_iff.mp h
    obtain ⟨hlt, -⟩ := List.getElem?_eq_some_iff.mp hget
    simp [setChild, child, hindex, hlt]
  · exact absurd h (by simp)

example : ((Json.object [("a", .null)]).setChild "a" (.bool true)).child "a" =
    some (.bool true) := by
  decide +kernel

theorem child_setChild_ne (hne : token' ≠ token) :
    (self.setChild token value).child token' = self.child token' := by
  unfold setChild
  split
  · rw [child, lookup_setMember, if_neg hne, child]
  · split
    · rename_i index hindex
      rw [child, child]
      cases hother : parseIndex token' with
      | none => rfl
      | some other =>
        have hdifferent : index ≠ other := by
          rintro rfl
          exact hne (by rw [parseIndex_eq_some hother, parseIndex_eq_some hindex])
        simp [List.getElem?_set_ne hdifferent]
    · rfl
  · rfl

theorem setChild_setChild {value' : Json} :
    (self.setChild token value).setChild token value' = self.setChild token value' := by
  cases self with
  | object members =>
    simp only [setChild, List.map_map]
    congr 2
    funext member
    by_cases h : member.1 = token <;> simp [h]
  | array values =>
    simp only [setChild]
    cases hindex : parseIndex token with
    | none => rfl
    | some index => simp only [List.set_set]
  | _ => rfl

theorem setChild_comm {value' : Json} (hne : token' ≠ token) :
    (self.setChild token value).setChild token' value' =
      (self.setChild token' value').setChild token value := by
  cases self with
  | object members =>
    simp only [setChild, List.map_map]
    congr 2
    funext member
    by_cases h : member.1 = token
    · have h' : member.1 ≠ token' := fun h' => hne (h'.symm.trans h)
      simp [h, hne.symm]
    · by_cases h' : member.1 = token' <;> simp [h, h', hne]
  | array values =>
    simp only [setChild]
    cases hindex : parseIndex token with
    | none =>
      cases hother : parseIndex token' with
      | none => rfl
      | some other => rfl
    | some index =>
      cases hother : parseIndex token' with
      | none => rfl
      | some other =>
        have hdifferent : index ≠ other := by
          rintro rfl
          exact hne (by rw [parseIndex_eq_some hother, parseIndex_eq_some hindex])
        simp only [List.set_comm _ _ hdifferent]
  | _ => rfl

/-- A value without its members and elements: a scalar, or the keys of an object, or the length of
an array. -/
def shell : Json → Json
  | .object members => .object (members.map fun member => (member.1, .null))
  | .array values => .array (values.map fun _ => .null)
  | scalar => scalar

example : (Json.array [.null, .bool true]).shell = (Json.array [.null, .null]).shell := by
  decide +kernel

theorem shell_setChild : (self.setChild token value).shell = self.shell := by
  cases self with
  | object members =>
    simp only [setChild, shell, List.map_map]
    congr 2
    funext member
    by_cases h : member.1 = token <;> simp [h]
  | array values =>
    simp only [setChild]
    cases hindex : parseIndex token with
    | none => rfl
    | some index =>
      simp only [shell]
      congr 1
      apply List.ext_getElem <;> simp
  | _ => rfl

end

/-! ## Positions -/

section

variable {value value' new : Json} {tokens other : List String}

theorem get_append : get (tokens ++ other) value = (get tokens value).bind (get other) := by
  induction tokens generalizing value with
  | nil => rfl
  | cons token tokens ih =>
    rw [List.cons_append, get, get]
    cases value.child token with
    | none => rfl
    | some inner => exact ih

example : get ["a", "b"] (.object [("a", .object [("b", .null)])]) = some .null := by
  decide +kernel

theorem get_below_string {s : String} (h : get tokens value = some (.string s)) (hne : tokens ≠ other)
    (hbegins : tokens <+: other) : get other value = none := by
  obtain ⟨rest, rfl⟩ := hbegins
  rw [get_append, h, Option.bind_some]
  cases rest with
  | nil => simp at hne
  | cons token rest => rfl

theorem set_cons_eq_some {token : String} : set (token :: tokens) value new = some value' ↔
    ∃ inner inner', value.child token = some inner ∧ set tokens inner new = some inner' ∧
      value.setChild token inner' = value' := by
  simp only [set, Option.bind_eq_some_iff, Option.map_eq_some_iff]
  constructor
  · rintro ⟨inner, hinner, inner', hset, heq⟩
    exact ⟨inner, inner', hinner, hset, heq⟩
  · rintro ⟨inner, inner', hinner, hset, heq⟩
    exact ⟨inner, hinner, inner', hset, heq⟩

example : set ["a"] (.object [("a", .null)]) (.bool true) = some (.object [("a", .bool true)]) := by
  decide +kernel

theorem get_set (h : set tokens value new = some value') : get tokens value' = some new := by
  induction tokens generalizing value value' with
  | nil => exact h.symm
  | cons token tokens ih =>
    obtain ⟨inner, inner', hchild, hset, rfl⟩ := set_cons_eq_some.mp h
    rw [get, child_setChild hchild, Option.bind_some]
    exact ih hset

theorem get_set_apart (h : set tokens value new = some value') (hbelow : ¬ tokens <+: other)
    (habove : ¬ other <+: tokens) : get other value' = get other value := by
  induction tokens generalizing value value' other with
  | nil => exact absurd List.nil_prefix hbelow
  | cons token tokens ih =>
    obtain ⟨inner, inner', hchild, hset, rfl⟩ := set_cons_eq_some.mp h
    cases other with
    | nil => exact absurd List.nil_prefix habove
    | cons token' other =>
      rw [get, get]
      by_cases htoken : token' = token
      · subst htoken
        rw [child_setChild hchild, hchild, Option.bind_some, Option.bind_some]
        apply ih hset
        · exact fun hbegins => hbelow (List.cons_prefix_cons.mpr ⟨rfl, hbegins⟩)
        · exact fun hbegins => habove (List.cons_prefix_cons.mpr ⟨rfl, hbegins⟩)
      · rw [child_setChild_ne htoken]

theorem shell_set (h : set tokens value new = some value') (hbelow : ¬ tokens <+: other) :
    (get other value').map shell = (get other value).map shell := by
  induction tokens generalizing value value' other with
  | nil => exact absurd List.nil_prefix hbelow
  | cons token tokens ih =>
    obtain ⟨inner, inner', hchild, hset, rfl⟩ := set_cons_eq_some.mp h
    cases other with
    | nil => rw [get, get, Option.map_some, Option.map_some, shell_setChild]
    | cons token' other =>
      rw [get, get]
      by_cases htoken : token' = token
      · subst htoken
        rw [child_setChild hchild, hchild, Option.bind_some, Option.bind_some]
        exact ih hset fun hbegins => hbelow (List.cons_prefix_cons.mpr ⟨rfl, hbegins⟩)
      · rw [child_setChild_ne htoken]

theorem settled_set (h : set tokens value new = some value') : set tokens value' new = some value' := by
  induction tokens generalizing value value' with
  | nil => exact h
  | cons token tokens ih =>
    obtain ⟨inner, inner', hchild, hset, rfl⟩ := set_cons_eq_some.mp h
    exact set_cons_eq_some.mpr
      ⟨inner', inner', child_setChild hchild, ih hset, setChild_setChild⟩

theorem settled_set_apart {new' : Json} (hsettled : set other value new' = some value)
    (h : set tokens value new = some value') (hbelow : ¬ tokens <+: other)
    (habove : ¬ other <+: tokens) : set other value' new' = some value' := by
  induction tokens generalizing value value' other with
  | nil => exact absurd List.nil_prefix hbelow
  | cons token tokens ih =>
    obtain ⟨inner, inner', hchild, hset, rfl⟩ := set_cons_eq_some.mp h
    cases other with
    | nil => exact absurd List.nil_prefix habove
    | cons token' other =>
      obtain ⟨found, found', hfound, hagain, hsame⟩ := set_cons_eq_some.mp hsettled
      obtain rfl : found' = found := by
        have hread : (Json.setChild _ token' found').child token' = some found' :=
          child_setChild hfound
        rw [hsame, hfound] at hread
        exact (Option.some.inj hread).symm
      by_cases htoken : token' = token
      · subst htoken
        obtain rfl : found' = inner := Option.some.inj (hfound.symm.trans hchild)
        have hinner : set other inner' new' = some inner' := by
          apply ih hagain hset
          · exact fun hbegins => hbelow (List.cons_prefix_cons.mpr ⟨rfl, hbegins⟩)
          · exact fun hbegins => habove (List.cons_prefix_cons.mpr ⟨rfl, hbegins⟩)
        exact set_cons_eq_some.mpr
          ⟨inner', inner', child_setChild hchild, hinner, setChild_setChild⟩
      · refine set_cons_eq_some.mpr ⟨found', found', ?_, hagain, ?_⟩
        · rw [child_setChild_ne htoken, hfound]
        · rw [setChild_comm htoken, hsame]

end

end Json

/-! ## The pointers of the schema -/

/-- Every `~` is followed by `0` or `1`. -/
def escapesClosed : List Char → Bool
  | [] => true
  | [c] => c != '~'
  | c :: d :: rest =>
    if c = '~' then (d == '0' || d == '1') && escapesClosed rest else escapesClosed (d :: rest)

/-- The pattern `^(?:/(?:[^~/]|~[01])*)*$` of the definition schema. -/
def isArgumentPointer (pointer : String) : Bool :=
  pointer.toList.head?.all (· == '/') && escapesClosed pointer.toList

/-- Put the escapes back. -/
def escapeToken : List Char → List Char
  | [] => []
  | c :: rest =>
    if c = '~' then '~' :: '0' :: escapeToken rest
    else if c = '/' then '~' :: '1' :: escapeToken rest else c :: escapeToken rest

section

variable {c mark replacement : Char} {cs token : List Char}

theorem escapesClosed_cons (hc : c ≠ '~') : escapesClosed (c :: cs) = escapesClosed cs := by
  cases cs with
  | nil => simp [escapesClosed, hc]
  | cons d rest => rw [escapesClosed, if_neg hc]

example : escapesClosed "a~1".toList = true ∧ escapesClosed "a~".toList = false := by
  decide +kernel

theorem replaceEscape_cons (hc : c ≠ '~') : replaceEscape mark replacement (c :: cs) =
    c :: replaceEscape mark replacement cs := by
  cases cs with
  | nil => rfl
  | cons d rest => rw [replaceEscape, if_neg (fun h => hc h.1)]

theorem splitSlash_cons : splitSlash (c :: cs) =
    if c = '/' then [] :: splitSlash cs else (splitSlash cs).modifyHead (c :: ·) := by
  rw [splitSlash]
  congr 1
  split
  · rename_i hnil
    exfalso
    revert hnil
    cases cs with
    | nil => simp [splitSlash]
    | cons d rest =>
      rw [splitSlash]
      split
      · simp
      · split <;> simp
  · rename_i heq
    rw [heq, List.modifyHead_cons]

theorem splitSlash_ne_nil : splitSlash cs ≠ [] := by
  induction cs with
  | nil => simp [splitSlash]
  | cons c rest ih =>
    rw [splitSlash_cons]
    split
    · simp
    · rw [ne_eq, List.modifyHead_eq_nil_iff]
      exact ih

theorem intercalate_splitSlash : ['/'].intercalate (splitSlash cs) = cs := by
  induction cs with
  | nil => rfl
  | cons c rest ih =>
    obtain ⟨first, others, hsplit⟩ := List.exists_cons_of_ne_nil
      (show splitSlash rest ≠ [] from splitSlash_ne_nil)
    rw [splitSlash_cons]
    rw [hsplit] at ih ⊢
    split
    · rename_i hc
      rw [List.intercalate_cons_cons, ih, hc]
      rfl
    · rw [List.modifyHead_cons]
      cases others with
      | nil =>
        rw [List.intercalate_singleton] at ih ⊢
        rw [ih]
      | cons next others =>
        rw [List.intercalate_cons_cons] at ih ⊢
        rw [List.cons_append, List.cons_append, ih]

example : splitSlash "a/~1b".toList = ["a".toList, "~1b".toList] := by
  decide +kernel

theorem token_closed (hclosed : escapesClosed cs = true) (h : token ∈ splitSlash cs) :
    escapesClosed token = true ∧ '/' ∉ token := by
  induction cs using escapesClosed.induct generalizing token with
  | case1 =>
    rw [splitSlash, List.mem_singleton] at h
    rw [h]
    exact ⟨rfl, List.not_mem_nil⟩
  | case2 c =>
    rw [splitSlash_cons, splitSlash] at h
    split at h
    · have hnil : token = [] := by simpa using h
      rw [hnil]
      exact ⟨rfl, List.not_mem_nil⟩
    · rename_i hc
      have hone : token = [c] := by simpa using h
      rw [hone]
      exact ⟨hclosed, by simpa using Ne.symm hc⟩
  | case3 d rest ih =>
    rw [escapesClosed, if_pos rfl, Bool.and_eq_true, Bool.or_eq_true, beq_iff_eq, beq_iff_eq] at hclosed
    have hd : d ≠ '/' := by
      rintro rfl
      exact absurd hclosed.1 (by decide)
    obtain ⟨first, others, hsplit⟩ := List.exists_cons_of_ne_nil
      (show splitSlash rest ≠ [] from splitSlash_ne_nil)
    rw [splitSlash_cons, if_neg (by decide), splitSlash_cons, if_neg hd, hsplit,
      List.modifyHead_cons, List.modifyHead_cons] at h
    rw [hsplit] at ih
    rcases List.mem_cons.mp h with rfl | h
    · obtain ⟨hfirst, hslash⟩ := ih hclosed.2 List.mem_cons_self
      refine ⟨?_, ?_⟩
      · rw [escapesClosed, if_pos rfl, hfirst]
        simpa using hclosed.1
      · simp [hslash, Ne.symm hd]
    · exact ih hclosed.2 (List.mem_cons_of_mem _ h)
  | case4 c d rest hc ih =>
    rw [escapesClosed_cons hc] at hclosed
    obtain ⟨first, others, hsplit⟩ :=
      List.exists_cons_of_ne_nil (show splitSlash (d :: rest) ≠ [] from splitSlash_ne_nil)
    rw [splitSlash_cons, hsplit] at h
    rw [hsplit] at ih
    split at h
    · rcases List.mem_cons.mp h with rfl | h
      · exact ⟨rfl, List.not_mem_nil⟩
      · exact ih hclosed h
    · rename_i hslash
      rw [List.modifyHead_cons] at h
      rcases List.mem_cons.mp h with rfl | h
      · obtain ⟨hfirst, hfree⟩ := ih hclosed List.mem_cons_self
        rw [escapesClosed_cons hc]
        exact ⟨hfirst, by simp [hfree, Ne.symm hslash]⟩
      · exact ih hclosed (List.mem_cons_of_mem _ h)

theorem escapeToken_unescape (hclosed : escapesClosed token = true) (hslash : '/' ∉ token) :
    escapeToken (replaceEscape '0' '~' (replaceEscape '1' '/' token)) = token := by
  induction token using escapesClosed.induct with
  | case1 => rfl
  | case2 c =>
    have hc : c ≠ '~' := by simpa [escapesClosed] using hclosed
    have hc' : c ≠ '/' := by simpa [eq_comm] using hslash
    simp [replaceEscape, escapeToken, hc, hc']
  | case3 d rest ih =>
    rw [escapesClosed, if_pos rfl, Bool.and_eq_true, Bool.or_eq_true, beq_iff_eq, beq_iff_eq] at hclosed
    have hrest := ih hclosed.2 fun h => hslash (List.mem_cons_of_mem _ (List.mem_cons_of_mem _ h))
    rcases hclosed.1 with rfl | rfl
    · rw [replaceEscape, if_neg (by decide), replaceEscape_cons (c := '0') (by decide), replaceEscape,
        if_pos ⟨rfl, rfl⟩, escapeToken, if_pos rfl, hrest]
    · rw [replaceEscape, if_pos ⟨rfl, rfl⟩, replaceEscape_cons (by decide), escapeToken,
        if_neg (by decide), if_pos rfl, hrest]
  | case4 c d rest hc ih =>
    rw [escapesClosed_cons hc] at hclosed
    have hc' : c ≠ '/' := fun h => hslash (h ▸ List.mem_cons_self)
    rw [replaceEscape_cons hc, replaceEscape_cons hc, escapeToken, if_neg hc, if_neg hc',
      ih hclosed fun h => hslash (List.mem_cons_of_mem _ h)]

theorem slash_intercalate {parts : List (List Char)} (hne : parts ≠ []) :
    (parts.flatMap fun part => '/' :: part) = '/' :: ['/'].intercalate parts := by
  induction parts with
  | nil => exact absurd rfl hne
  | cons part rest ih =>
    cases rest with
    | nil => simp
    | cons next rest =>
      rw [List.flatMap_cons, ih (by simp), List.intercalate_cons_cons]
      simp

end

theorem toList_of_pointerTokens {pointer : String} {tokens : List String}
    (hvalid : isArgumentPointer pointer = true) (h : pointerTokens pointer = some tokens) :
    pointer.toList = tokens.flatMap fun token => '/' :: escapeToken token.toList := by
  rw [isArgumentPointer, Bool.and_eq_true] at hvalid
  unfold pointerTokens at h
  split at h
  · rename_i hnil
    rw [hnil, ← Option.some.inj h]
    rfl
  · rename_i rest hrest
    rw [hrest, escapesClosed_cons (by decide)] at hvalid
    rw [← Option.some.inj h, List.flatMap_map, hrest]
    have htokens : ((splitSlash rest).flatMap fun token =>
        '/' :: escapeToken (unescapeToken token).toList) =
          (splitSlash rest).flatMap fun token => '/' :: token := by
      apply List.flatMap_congr
      intro token htoken
      obtain ⟨hclosed, hslash⟩ := token_closed hvalid.2 htoken
      rw [unescapeToken, String.toList_ofList, escapeToken_unescape hclosed hslash]
    rw [htokens, slash_intercalate splitSlash_ne_nil, intercalate_splitSlash]
  · exact absurd h (by simp)

/-- **Two pointers of the schema name two positions.** -/
theorem pointerTokens_injective {pointer pointer' : String} {tokens : List String}
    (hvalid : isArgumentPointer pointer = true) (hvalid' : isArgumentPointer pointer' = true)
    (h : pointerTokens pointer = some tokens) (h' : pointerTokens pointer' = some tokens) :
    pointer = pointer' := by
  apply String.toList_inj.mp
  rw [toList_of_pointerTokens hvalid h, toList_of_pointerTokens hvalid' h']

end Xgeny
