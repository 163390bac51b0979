import Xgeny.Filesystem.SearchTree
import Xgeny.Workspace.Grammar

set_option autoImplicit false

/-!
# The matches of a text as occurrences

What a search writes down for a text are the occurrences of the query in its lines, from left to right.

* `matchIndices_leftmost`, **`mem_searchHits_iff`**, `nodup_searchHits`: the matches of a line and of a
  text;
* `matchOf`, **`collectMatches_eq`**: what a text adds to a search, up to the limit on the matches;
* **`hits_of_places`**: a line and a column tell the matches of a text apart;
* `written_of_mem`, `searchMatchKey_matchOf`: in a file that was read they fit into words.
-/

namespace Xgeny

/-! ## A line -/

theorem map_shift (c : Char) (rest : List Char) (offset : ℕ) (starts : List ℕ) :
    starts.map (fun k => offset + c.utf8Size + byteLen (String.ofList (rest.take k))) =
      (starts.map (· + 1)).map fun k => offset + byteLen (String.ofList ((c :: rest).take k)) := by
  rw [List.map_map]
  apply List.map_congr_left
  intro k _
  rw [Function.comp_apply, List.take_succ_cons, byteLen_ofList, byteLen_ofList, List.map_cons,
    List.sum_cons]
  omega

/-- **The matches of a line** are its leftmost occurrences. -/
theorem matchIndices_leftmost {query : List Char} (hquery : query ≠ []) (skip offset : ℕ)
    (cs : List Char) :
    ∃ starts, Leftmost query cs skip starts ∧
      matchIndices query skip offset cs =
        starts.map fun k => offset + byteLen (String.ofList (cs.take k)) := by
  have hempty : ∀ skip, Leftmost query [] skip [] := fun skip =>
    .done fun k _ hoccurs => by simpa using hoccurs.lt_length hquery
  fun_induction matchIndices query skip offset cs with
  | case1 offset hnil => exact absurd hnil hquery
  | case2 offset hnil => exact ⟨[], hempty 0, rfl⟩
  | case3 skip offset => exact ⟨[], hempty (skip + 1), rfl⟩
  | case4 offset c rest hprefix ih =>
    obtain ⟨starts, hstarts, heq⟩ := ih
    have hpos := List.length_pos_iff.mpr hquery
    refine ⟨0 :: starts.map (· + 1), ?_, ?_⟩
    · refine .next le_rfl (occursAt_zero.mpr hprefix) (fun j _ hj => absurd hj (Nat.not_lt_zero j)) ?_
      have hbehind := @Leftmost.cons _ _ _ _ _ c hstarts
      rwa [Nat.sub_add_cancel hpos, ← Nat.zero_add query.length] at hbehind
    · rw [heq, map_shift, List.map_cons, List.take_zero]
      rfl
  | case5 offset c rest hprefix ih =>
    obtain ⟨starts, hstarts, heq⟩ := ih
    exact ⟨starts.map (· + 1), hstarts.cons.back fun hzero => hprefix (occursAt_zero.mp hzero),
      by rw [heq, map_shift]⟩
  | case6 offset skip c rest ih =>
    obtain ⟨starts, hstarts, heq⟩ := ih
    exact ⟨starts.map (· + 1), hstarts.cons, by rw [heq, map_shift]⟩

/-- The match at a character of a line. -/
def hitAt (index : ℕ) (line : String) (start : ℕ) : SearchHit :=
  ⟨index, line, byteLen (String.ofList (line.toList.take start))⟩

/-- **The matches of a text** are the leftmost occurrences in its lines. -/
theorem mem_searchHits_iff {content query : String} (hquery : query ≠ "") {hit : SearchHit} :
    hit ∈ searchHits content query ↔ ∃ index line start starts,
      (searchLines content)[index]? = some line ∧
        Leftmost query.toList line.toList 0 starts ∧ start ∈ starts ∧ hit = hitAt index line start := by
  have hne : query.toList ≠ [] := mt String.toList_eq_nil_iff.mp hquery
  simp only [searchHits, List.mem_flatMap, Prod.exists, List.mk_mem_zipIdx_iff_getElem?, List.mem_map]
  constructor
  · rintro ⟨line, index, hline, byteIndex, hindex, rfl⟩
    obtain ⟨starts, hstarts, heq⟩ := matchIndices_leftmost hne 0 0 line.toList
    rw [heq] at hindex
    obtain ⟨start, hstart, rfl⟩ := List.mem_map.mp hindex
    exact ⟨index, line, start, starts, hline, hstarts, hstart, by rw [hitAt, Nat.zero_add]⟩
  · rintro ⟨index, line, start, starts, hline, hstarts, hstart, rfl⟩
    obtain ⟨starts', hstarts', heq⟩ := matchIndices_leftmost hne 0 0 line.toList
    obtain rfl := hstarts.unique hstarts'
    refine ⟨line, index, hline, _, ?_, rfl⟩
    rw [heq]
    exact List.mem_map.mpr ⟨start, hstart, Nat.zero_add _⟩

theorem byteLen_take_lt {cs : List Char} {a b : ℕ} (hlt : a < b) (hb : b ≤ cs.length) :
    byteLen (String.ofList (cs.take a)) < byteLen (String.ofList (cs.take b)) := by
  obtain ⟨c, hc⟩ : ∃ c, cs[a]? = some c := ⟨_, List.getElem?_eq_getElem (hlt.trans_le hb)⟩
  have hnext : cs.take (a + 1) = cs.take a ++ [c] := by rw [List.take_add_one, hc]; rfl
  have hfront : cs.take b = cs.take (a + 1) ++ (cs.take b).drop (a + 1) := by
    conv_lhs => rw [← List.take_append_drop (a + 1) (cs.take b), List.take_take, min_eq_left hlt]
  have hwidth := Char.utf8Size_pos c
  rw [hfront, hnext]
  simp only [byteLen_ofList, List.map_append, List.sum_append, List.map_singleton,
    List.sum_singleton]
  omega

theorem nodup_searchHits {content query : String} (hquery : query ≠ "") :
    (searchHits content query).Nodup := by
  have hne : query.toList ≠ [] := mt String.toList_eq_nil_iff.mp hquery
  have hpos := List.length_pos_iff.mpr hne
  refine List.nodup_flatMap.mpr ⟨fun entry _ => ?_, ?_⟩
  · refine List.Nodup.map (fun a b h => congrArg SearchHit.byteIndex h) ?_
    obtain ⟨starts, hstarts, heq⟩ := matchIndices_leftmost hne 0 0 entry.1.toList
    rw [heq, List.nodup_map_iff_inj_on]
    · intro a ha b hb hbytes
      have hinside := ((hstarts.occursAt ha).lt_length hne).le
      have hinside' := ((hstarts.occursAt hb).lt_length hne).le
      rcases Nat.lt_trichotomy a b with hlt | hsame | hlt
      · have := byteLen_take_lt hlt hinside'
        omega
      · exact hsame
      · have := byteLen_take_lt hlt hinside
        omega
    · exact hstarts.pairwise.imp fun {a b} hle => by omega
  · have hindices : ((searchLines content).zipIdx.map Prod.snd).Nodup := by
      rw [List.zipIdx_map_snd]
      exact List.nodup_range'
    refine (List.pairwise_map.mp hindices).imp fun {a b} hdiffer hit hit' hhit' => ?_
    obtain ⟨_, _, rfl⟩ := List.mem_map.mp hit'
    obtain ⟨_, _, heq⟩ := List.mem_map.mp hhit'
    exact hdiffer (congrArg SearchHit.lineIndex heq).symm

/-! ## What is written down -/

namespace SearchHit

def column (self : SearchHit) : ℕ :=
  ((slice self.line 0 self.byteIndex).getD "").toList.length + 1

def preview (self : SearchHit) (query : String) : String :=
  (boundedPreview self.line self.byteIndex (self.byteIndex + byteLen query)).value?.getD ""

/-- The numbers of a match fit into a word. -/
structure Written (hit : SearchHit) : Prop where
  line : hit.lineIndex + 1 < 2 ^ 64
  column : hit.column < 2 ^ 64

end SearchHit

/-- A match of a text in the output. -/
def matchOf (path : RelativePath) (query : String) (hit : SearchHit) : Json :=
  matchJson path (hit.lineIndex + 1) hit.column (hit.preview query)

theorem pushHits_eq {path : RelativePath} {query : String} (hquery : byteLen query ≤ maxSearchQueryBytes)
    {hits : List SearchHit} (hhits : ∀ hit ∈ hits, ∃ before after,
      hit.line = before ++ (query ++ after) ∧ hit.byteIndex = byteLen before)
    {state : SearchState} (hfound : state.found.length ≤ maxSearchMatches) :
    pushHits path query hits state = .ok
      { found := state.found ++
          (hits.take (maxSearchMatches - state.found.length)).map (matchOf path query)
        truncated := state.truncated ||
          decide (maxSearchMatches < state.found.length + hits.length) } := by
  induction hits generalizing state with
  | nil =>
    have hroom : ¬ maxSearchMatches < state.found.length + ([] : List SearchHit).length :=
      Nat.not_lt.mpr hfound
    rw [pushHits, List.take_nil, List.map_nil, List.append_nil, decide_eq_false hroom, Bool.or_false]
  | cons hit rest ih =>
    rw [pushHits]
    by_cases hfull : state.found.length = maxSearchMatches
    · have hmore : maxSearchMatches < state.found.length + (hit :: rest).length := by
        rw [List.length_cons]
        omega
      rw [if_pos hfull, decide_eq_true hmore, Bool.or_true, hfull, Nat.sub_self, List.take_zero,
        List.map_nil, List.append_nil]
    · obtain ⟨before, after, hline, hindex⟩ := hhits hit List.mem_cons_self
      obtain ⟨preview, hpreview, -⟩ := @boundedPreview_window before query after hquery
      rw [← hline, ← hindex] at hpreview
      have hslice : slice hit.line 0 hit.byteIndex = some before := by
        rw [hline, hindex]
        exact slice_front before (query ++ after)
      have hentry : matchOf path query hit =
          matchJson path (hit.lineIndex + 1) (before.toList.length + 1) preview := by
        rw [matchOf, SearchHit.column, SearchHit.preview, hslice, hpreview]
        rfl
      have hnext : (state.found ++ [matchOf path query hit]).length = state.found.length + 1 := by
        rw [List.length_append, List.length_singleton]
      have hroom : maxSearchMatches - state.found.length =
          maxSearchMatches - (state.found.length + 1) + 1 := by
        omega
      have hrest := @ih (fun later hlater => hhits later (List.mem_cons_of_mem _ hlater))
        { state with found := state.found ++ [matchOf path query hit] } (by rw [hnext]; omega)
      rw [hnext, List.append_assoc, List.singleton_append] at hrest
      rw [if_neg hfull, hslice, hpreview, hroom, List.take_succ_cons, List.map_cons,
        List.length_cons, ← Nat.add_assoc, Nat.add_right_comm]
      rw [← hrest, hentry]
      rfl

/-- **What a text adds to a search.** -/
theorem collectMatches_eq {path : RelativePath} {content query : String}
    (hquery : byteLen query ≤ maxSearchQueryBytes) {state : SearchState}
    (hfound : state.found.length ≤ maxSearchMatches) :
    collectMatches path content query state = .ok
      { found := state.found ++ ((searchHits content query).take
          (maxSearchMatches - state.found.length)).map (matchOf path query)
        truncated := state.truncated ||
          decide (maxSearchMatches < state.found.length + (searchHits content query).length) } := by
  refine pushHits_eq hquery (fun hit hhit => ?_) hfound
  obtain ⟨before, after, -, hline, hindex⟩ := mem_searchHits hhit
  exact ⟨before, after, hline, hindex⟩

/-! ## Places in a text -/

theorem column_hitAt {index start : ℕ} {line : String} (h : start ≤ line.toList.length) :
    (hitAt index line start).column = start + 1 := by
  have hslice := slice_front (String.ofList (line.toList.take start))
    (String.ofList (line.toList.drop start))
  rw [← String.ofList_append, List.take_append_drop, String.ofList_toList] at hslice
  rw [SearchHit.column, hitAt, hslice, Option.getD_some, String.toList_ofList,
    List.length_take_of_le h]

/-- **A line and a column tell the matches of a text apart.** -/
theorem hits_of_places {content query : String} (hquery : query ≠ "") {a b : SearchHit}
    (ha : a ∈ searchHits content query) (hb : b ∈ searchHits content query)
    (hindex : a.lineIndex = b.lineIndex) (hcolumn : a.column = b.column) : a = b := by
  have hne : query.toList ≠ [] := mt String.toList_eq_nil_iff.mp hquery
  obtain ⟨index, line, start, starts, hline, hstarts, hstart, rfl⟩ := (mem_searchHits_iff hquery).mp ha
  obtain ⟨index', line', start', starts', hline', hstarts', hstart', rfl⟩ :=
    (mem_searchHits_iff hquery).mp hb
  obtain rfl : index = index' := hindex
  obtain rfl : line = line' := Option.some.inj (hline.symm.trans hline')
  rw [column_hitAt ((hstarts.occursAt hstart).lt_length hne).le,
    column_hitAt ((hstarts'.occursAt hstart').lt_length hne).le] at hcolumn
  rw [Nat.succ.inj hcolumn]

/-! ## Sizes -/

theorem length_intercalate {α : Type} (separator : α) (parts : List (List α)) :
    ([separator].intercalate parts).length =
      (parts.map List.length).sum + (parts.length - 1) := by
  induction parts with
  | nil => rfl
  | cons part rest ih =>
    cases rest with
    | nil => simp
    | cons next rest =>
      rw [List.intercalate_cons_cons, List.length_append, List.length_append, ih]
      simp only [List.map_cons, List.sum_cons, List.length_cons, List.length_nil]
      omega

theorem searchLines_bounds {content line : String} {index : ℕ}
    (h : (searchLines content)[index]? = some line) :
    index ≤ content.toList.length ∧ line.toList.length ≤ content.toList.length := by
  have hlength := length_intercalate '\n' (content.toList.splitOn '\n')
  rw [List.intercalate_splitOn] at hlength
  rw [searchLines, List.getElem?_map, Option.map_eq_some_iff] at h
  obtain ⟨part, hpart, rfl⟩ := h
  have hindex := (List.getElem?_eq_some_iff.mp hpart).1
  have hmem : part.length ∈ (content.toList.splitOn '\n').map List.length :=
    List.mem_map_of_mem (List.mem_of_getElem? hpart)
  have hpartLength := List.le_sum_of_mem hmem
  refine ⟨by omega, ?_⟩
  rw [String.toList_ofList]
  split
  · rw [List.length_dropLast]
    omega
  · omega

/-- **The places in a file that was read fit into words.** -/
theorem written_of_mem {content query : String} (hquery : query ≠ "")
    (hsize : byteLen content ≤ maxSearchFileBytes) {hit : SearchHit}
    (h : hit ∈ searchHits content query) : hit.Written := by
  have hne : query.toList ≠ [] := mt String.toList_eq_nil_iff.mp hquery
  obtain ⟨index, line, start, starts, hline, hstarts, hstart, rfl⟩ := (mem_searchHits_iff hquery).mp h
  have hbounds := searchLines_bounds hline
  have hcharacters := length_le_byteLen content
  have hbefore := (hstarts.occursAt hstart).lt_length hne
  have hword : maxSearchFileBytes + 1 < 2 ^ 64 := by decide
  rw [← String.length_toList] at hcharacters
  constructor
  · change index + 1 < 2 ^ 64
    omega
  · rw [column_hitAt hbefore.le]
    omega

theorem searchMatchKey_matchOf {path : RelativePath} {query : String} {hit : SearchHit}
    (h : hit.Written) : searchMatchKey (matchOf path query hit) =
      .ok (toLex (path.display, toLex (hit.lineIndex + 1, hit.column))) := by
  have hline : (UInt64.ofNat (hit.lineIndex + 1)).toNat = hit.lineIndex + 1 :=
    UInt64.toNat_ofNat_of_lt' h.line
  have hcolumn : (UInt64.ofNat hit.column).toNat = hit.column := UInt64.toNat_ofNat_of_lt' h.column
  change Except.ok (toLex (path.display, toLex ((UInt64.ofNat (hit.lineIndex + 1)).toNat,
    (UInt64.ofNat hit.column).toNat))) = _
  rw [hline, hcolumn]

end Xgeny
