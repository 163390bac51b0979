import Xgeny.Lib.Outcome
import Xgeny.Sidecar
import Xgeny.Slices
import Xgeny.Workspace.Arguments

set_option autoImplicit false

/-!
# Matches of a search

A search goes through the lines of a text and keeps, for each match, its place and a preview: the
line, or a window of it around the match when the line is long. The ends of the window are moved to
the left until they are between two characters.

* `boundedPreview`, with `previewStart`, `previewStop` and `narrow`: the window;
* `collectMatches`, with `matchIndices`: the matches of a text;
* **`bounded_preview_safe`**: the window holds the match, is not too long, and is never corrected;
* `matchIndices_occur`, **`collect_matches_previews`**: what is kept of a text.
-/

namespace Xgeny

inductive QueryFailure where
  | open_
  | read
  | tooManyEntries
  | limit
  | encode
  deriving DecidableEq

/-- `MAX_SEARCH_MATCHES`. -/
def maxSearchMatches : ℕ := 128

/-- `MAX_SEARCH_PREVIEW_BYTES`. -/
def maxSearchPreviewBytes : ℕ := 512

/-! ## Previews -/

/-- Where the window begins. -/
def previewStart (line : String) (matchStart matchEnd : ℕ) : ℕ :=
  let matchLen := matchEnd - matchStart
  let margin := (maxSearchPreviewBytes - matchLen) / 2
  retreat line 0 (matchStart - margin)

/-- Where the window ends. The sum is cut at the end of the line, so it does not overflow. -/
def previewStop (line : String) (matchStart matchEnd : ℕ) : ℕ :=
  retreat line matchEnd
    (min (previewStart line matchStart matchEnd + maxSearchPreviewBytes) (byteLen line))

/-- `while offset < ceiling && !line.is_char_boundary(offset) { offset += 1 }`. -/
def advance (line : String) (ceiling offset : ℕ) : ℕ :=
  if offset < ceiling ∧ isCharBoundary line offset = false then advance line ceiling (offset + 1)
  else offset
  termination_by ceiling - offset

theorem le_advance {line : String} {ceiling offset : ℕ} : offset ≤ advance line ceiling offset := by
  fun_induction advance line ceiling offset with
  | case1 offset hskip ih => omega
  | case2 offset hstop => exact le_rfl

/-- The beginning of a window that has to end with the match. -/
def narrow (line : String) (matchStart matchEnd start : ℕ) : ℕ :=
  if 0 < start ∧ maxSearchPreviewBytes < matchEnd - start then
    narrow line matchStart matchEnd (advance line matchStart (start + 1))
  else start
  termination_by matchEnd - start
  decreasing_by
    have := @le_advance line matchStart (start + 1)
    omega

/-- `bounded_preview`. -/
def boundedPreview (line : String) (matchStart matchEnd : ℕ) : Outcome QueryFailure String :=
  if byteLen line ≤ maxSearchPreviewBytes then .ok line
  else
    let start := previewStart line matchStart matchEnd
    let stop := previewStop line matchStart matchEnd
    if stop < matchEnd then
      Outcome.expect (slice line (narrow line matchStart matchEnd start) matchEnd)
        "byte index is not a char boundary"
    else Outcome.expect (slice line start stop) "byte index is not a char boundary"

/-! ## Matches -/

/-- `line.match_indices(query)`: from left to right, and each after the end of the one before.
`skip` counts the characters of the match before, and `offset` the bytes. -/
def matchIndices (query : List Char) : ℕ → ℕ → List Char → List ℕ
  | 0, offset, [] => if query = [] then [offset] else []
  | _ + 1, _, [] => []
  | 0, offset, c :: rest =>
    if query <+: c :: rest then
      offset :: matchIndices query (query.length - 1) (offset + c.utf8Size) rest
    else matchIndices query 0 (offset + c.utf8Size) rest
  | skip + 1, offset, c :: rest => matchIndices query skip (offset + c.utf8Size) rest

/-- `content.split('\n')`, and `line.strip_suffix('\r')` on each part. -/
def searchLines (content : String) : List String :=
  (content.toList.splitOn '\n').map fun line =>
    String.ofList (if line.getLast? = some '\r' then line.dropLast else line)

/-- A match before it is written down: the index of its line, the line, and the offset in it. -/
structure SearchHit where
  lineIndex : ℕ
  line : String
  byteIndex : ℕ
  deriving DecidableEq

/-- What the two loops run over. -/
def searchHits (content query : String) : List SearchHit :=
  (searchLines content).zipIdx.flatMap fun entry =>
    (matchIndices query.toList 0 0 entry.1.toList).map fun byteIndex =>
      ⟨entry.2, entry.1, byteIndex⟩

/-- A match in the output. -/
def matchJson (path : RelativePath) (line column : ℕ) (preview : String) : Json :=
  .object [("column", .number (.posInt (UInt64.ofNat column))),
    ("line", .number (.posInt (UInt64.ofNat line))), ("path", .string path.display),
    ("preview", .string preview)]

/-- The part of `SearchState` that is used on a text. -/
structure SearchState where
  found : List Json
  truncated : Bool

/-- The loops of `collect_matches`. -/
def pushHits (path : RelativePath) (query : String) :
    List SearchHit → SearchState → Outcome QueryFailure SearchState
  | [], state => .ok state
  | hit :: rest, state =>
    if state.found.length = maxSearchMatches then .ok { state with truncated := true }
    else do
      let before ← Outcome.expect (slice hit.line 0 hit.byteIndex)
        "byte index is not a char boundary"
      let preview ← boundedPreview hit.line hit.byteIndex (hit.byteIndex + byteLen query)
      let entry := matchJson path (hit.lineIndex + 1) (before.toList.length + 1) preview
      pushHits path query rest { state with found := state.found ++ [entry] }

/-- `collect_matches`. -/
def collectMatches (path : RelativePath) (content query : String) (state : SearchState) :
    Outcome QueryFailure SearchState :=
  pushHits path query (searchHits content query) state

/-! ## The window -/

section Window

variable {before query after : String}

theorem byteLen_around :
    byteLen (before ++ (query ++ after)) = byteLen before + byteLen query + byteLen after := by
  rw [byteLen_append, byteLen_append, Nat.add_assoc]

theorem previewStart_near (matchEnd : ℕ) :
    byteLen before ≤ previewStart (before ++ (query ++ after)) (byteLen before) matchEnd +
      (maxSearchPreviewBytes - (matchEnd - byteLen before)) / 2 + 3 := by
  have hinside : byteLen before - (maxSearchPreviewBytes - (matchEnd - byteLen before)) / 2 ≤
      byteLen (before ++ (query ++ after)) := by
    rw [byteLen_around]
    omega
  have hnear := @retreat_near _ 0 _ hinside
  unfold previewStart
  dsimp only
  omega

theorem previewStart_le (line : String) (matchStart matchEnd : ℕ) :
    previewStart line matchStart matchEnd ≤ matchStart := by
  unfold previewStart
  dsimp only
  have := @retreat_le line 0
    (matchStart - (maxSearchPreviewBytes - (matchEnd - matchStart)) / 2)
  omega

theorem match_within (hquery : byteLen query ≤ maxSearchQueryBytes) :
    byteLen before + byteLen query ≤
      min (previewStart (before ++ (query ++ after)) (byteLen before)
          (byteLen before + byteLen query) + maxSearchPreviewBytes)
        (byteLen (before ++ (query ++ after))) := by
  have hnear := @previewStart_near before query after (byteLen before + byteLen query)
  rw [Nat.add_sub_cancel_left] at hnear
  rw [byteLen_around]
  unfold maxSearchQueryBytes at hquery
  unfold maxSearchPreviewBytes at hnear ⊢
  omega

theorem isCharBoundary_matchEnd :
    isCharBoundary (before ++ (query ++ after)) (byteLen before + byteLen query) = true := by
  rw [← byteLen_append, ← String.append_assoc]
  exact isCharBoundary_append _ _

/-- **The window does not end inside the match.** -/
theorem matchEnd_le_previewStop (hquery : byteLen query ≤ maxSearchQueryBytes) :
    byteLen before + byteLen query ≤
      previewStop (before ++ (query ++ after)) (byteLen before)
        (byteLen before + byteLen query) :=
  le_retreat (match_within hquery) isCharBoundary_matchEnd

/-- What a preview of a match is. -/
structure PreviewOf (before query after preview : String) : Prop where
  fits : byteLen preview ≤ maxSearchPreviewBytes
  window : ∃ front left right back, before = front ++ left ∧ after = right ++ back ∧
    preview = left ++ (query ++ right)

theorem boundedPreview_window (hquery : byteLen query ≤ maxSearchQueryBytes) :
    ∃ preview, boundedPreview (before ++ (query ++ after)) (byteLen before)
        (byteLen before + byteLen query) = .ok preview ∧
      PreviewOf before query after preview := by
  unfold boundedPreview
  split
  · rename_i hshort
    exact ⟨_, rfl, hshort, "", before, after, "", by rw [String.empty_append],
      by rw [String.append_empty], rfl⟩
  · dsimp only
    have hbehind := @matchEnd_le_previewStop before query after hquery
    rw [if_neg (Nat.not_lt.mpr hbehind)]
    have hstart := previewStart_le (before ++ (query ++ after)) (byteLen before)
      (byteLen before + byteLen query)
    have hstop : previewStop (before ++ (query ++ after)) (byteLen before)
        (byteLen before + byteLen query) ≤ _ := retreat_le
    obtain ⟨front, preview, back, hslice, hline, hfront, hlength⟩ := slice_between
      (hstart.trans ((Nat.le_add_right _ _).trans hbehind))
      (retreat_boundary (Nat.zero_le _) isCharBoundary_zero)
      (retreat_boundary (match_within hquery) isCharBoundary_matchEnd)
    refine ⟨preview, by rw [hslice]; rfl, ?_, ?_⟩
    · change byteLen front + byteLen preview = previewStop _ _ _ at hlength
      omega
    · -- the window begins before the match and ends behind it
      obtain ⟨left, hbefore, hrest⟩ := append_split hline.symm (hfront.trans_le hstart)
      have hall : before ++ query ++ after = front ++ preview ++ back := by
        rw [String.append_assoc, String.append_assoc]
        exact hline
      obtain ⟨right, hwindow, hafter⟩ := append_split hall (by
        rw [byteLen_append, byteLen_append, hlength]
        exact hbehind)
      refine ⟨front, left, right, back, hbefore, hafter, ?_⟩
      rw [hbefore, String.append_assoc, String.append_assoc] at hwindow
      exact (String.append_right_inj front).mp hwindow

end Window

/-- **Previews are safe.** For every line and every match of a query that is not too long, there is a
preview; it is a part of the line that holds the match and is not too long, and the window is never
corrected. -/
theorem bounded_preview_safe {line query before after : String}
    (hline : line = before ++ (query ++ after)) (hquery : byteLen query ≤ maxSearchQueryBytes) :
    (∃ preview, boundedPreview line (byteLen before) (byteLen before + byteLen query) = .ok preview ∧
      byteLen preview ≤ maxSearchPreviewBytes ∧
      ∃ front left right back, line = front ++ (preview ++ back) ∧
        preview = left ++ (query ++ right) ∧ before = front ++ left ∧ after = right ++ back) ∧
    ¬ previewStop line (byteLen before) (byteLen before + byteLen query) <
      byteLen before + byteLen query := by
  subst hline
  obtain ⟨preview, hpreview, hfits, front, left, right, back, hbefore, hafter, hwindow⟩ :=
    @boundedPreview_window before query after hquery
  refine ⟨⟨preview, hpreview, hfits, front, left, right, back, ?_, hwindow, hbefore, hafter⟩, ?_⟩
  · rw [hwindow, hbefore, hafter]
    simp only [String.append_assoc]
  · exact Nat.not_lt.mpr (matchEnd_le_previewStop hquery)

/-- Text on either side of a match, of two bytes for every character. -/
def wideText : String := String.ofList (List.replicate 300 'é')

theorem byteLen_replicate (n : ℕ) : byteLen (String.ofList (List.replicate n 'é')) = n * 2 := by
  have hsize : 'é'.utf8Size = 2 := by decide
  rw [byteLen_ofList, List.map_replicate, List.sum_replicate, smul_eq_mul, hsize]

theorem byteLen_wideText : byteLen wideText = 600 := byteLen_replicate 300

/-- The line does not fit into the window, which is around the match. -/
theorem bounded_preview_safe_sample : ∃ preview left right,
    boundedPreview (wideText ++ ("limit" ++ wideText)) 600 605 = .ok preview ∧
      byteLen preview ≤ maxSearchPreviewBytes ∧ preview = left ++ ("limit" ++ right) ∧
      left ≠ wideText ∧ right ≠ wideText := by
  have hquery : byteLen "limit" = 5 := by decide
  obtain ⟨⟨preview, hpreview, hfits, _, left, right, _, -, hmatch, -, -⟩, -⟩ :=
    @bounded_preview_safe (wideText ++ ("limit" ++ wideText)) "limit" wideText wideText rfl (by decide)
  rw [byteLen_wideText, hquery] at hpreview
  have hbytes := hfits
  rw [hmatch, byteLen_append, byteLen_append] at hbytes
  have hwindow : maxSearchPreviewBytes = 512 := rfl
  refine ⟨preview, left, right, hpreview, hfits, hmatch, ?_, ?_⟩ <;>
  · rintro rfl
    rw [byteLen_wideText] at hbytes
    omega

/-! ## The matches of a text -/

theorem occurs_cons {query rest : List Char} {c : Char} {offset index : ℕ}
    (h : ∃ a b, rest = a ++ (query ++ b) ∧
      index = offset + c.utf8Size + byteLen (String.ofList a)) :
    ∃ a b, c :: rest = a ++ (query ++ b) ∧ index = offset + byteLen (String.ofList a) := by
  obtain ⟨a, b, hrest, hindex⟩ := h
  refine ⟨c :: a, b, by rw [hrest, List.cons_append], ?_⟩
  rw [byteLen_ofList, List.map_cons, List.sum_cons, ← byteLen_ofList]
  omega

theorem matchIndices_occur {query cs : List Char} {skip offset index : ℕ}
    (h : index ∈ matchIndices query skip offset cs) :
    ∃ a b, cs = a ++ (query ++ b) ∧ index = offset + byteLen (String.ofList a) := by
  fun_induction matchIndices query skip offset cs with
  | case1 offset hempty =>
    rw [List.mem_singleton.mp h, hempty]
    exact ⟨[], [], rfl, rfl⟩
  | case2 offset hempty => cases h
  | case3 skip offset => cases h
  | case4 offset c rest hprefix ih =>
    rcases List.mem_cons.mp h with hhere | hthere
    · obtain ⟨b, hb⟩ := hprefix
      exact ⟨[], b, hb.symm, hhere⟩
    · exact occurs_cons (ih hthere)
  | case5 offset c rest hprefix ih => exact occurs_cons (ih h)
  | case6 offset skip c rest ih => exact occurs_cons (ih h)

theorem mem_searchHits {content query : String} {hit : SearchHit}
    (h : hit ∈ searchHits content query) :
    ∃ before after, (searchLines content)[hit.lineIndex]? = some hit.line ∧
      hit.line = before ++ (query ++ after) ∧ hit.byteIndex = byteLen before := by
  obtain ⟨⟨line, index⟩, hline, hhit⟩ := List.mem_flatMap.mp h
  obtain ⟨byteIndex, hindex, rfl⟩ := List.mem_map.mp hhit
  obtain ⟨a, b, hcs, hbyte⟩ := matchIndices_occur hindex
  refine ⟨String.ofList a, String.ofList b, List.mk_mem_zipIdx_iff_getElem?.mp hline, ?_, ?_⟩
  · apply String.toList_inj.mp
    rw [String.toList_append, String.toList_append, String.toList_ofList, String.toList_ofList]
    exact hcs
  · rw [hbyte, Nat.zero_add]

/-- An entry for a match in the lines of a text, with a preview of it. -/
def EntryOf (path : RelativePath) (content query : String) (entry : Json) : Prop :=
  ∃ index before after preview,
    (searchLines content)[index]? = some (before ++ (query ++ after)) ∧
      PreviewOf before query after preview ∧
      entry = matchJson path (index + 1) (before.toList.length + 1) preview

theorem pushHits_previews {path : RelativePath} {content query : String}
    (hquery : byteLen query ≤ maxSearchQueryBytes) (hits : List SearchHit) (state : SearchState)
    (hhits : ∀ hit ∈ hits, hit ∈ searchHits content query)
    (hfound : state.found.length ≤ maxSearchMatches) :
    ∃ state' entries, pushHits path query hits state = .ok state' ∧
      state'.found = state.found ++ entries ∧ state'.found.length ≤ maxSearchMatches ∧
      ∀ entry ∈ entries, EntryOf path content query entry := by
  induction hits generalizing state with
  | nil => exact ⟨state, [], rfl, (List.append_nil _).symm, hfound, by simp⟩
  | cons hit rest ih =>
    unfold pushHits
    split
    · rename_i hfull
      exact ⟨_, [], rfl, (List.append_nil _).symm, hfound, by simp⟩
    · rename_i hroom
      obtain ⟨before, after, hline, hmatch, hindex⟩ :=
        mem_searchHits (hhits hit List.mem_cons_self)
      obtain ⟨preview, hpreview, hwindow⟩ := @boundedPreview_window before query after hquery
      have hslice : slice hit.line 0 hit.byteIndex = some before := by
        rw [hmatch, hindex]
        exact slice_front before (query ++ after)
      obtain ⟨state', entries, hpush, hentries, hlength, hall⟩ := ih
        { state with found := state.found ++
            [matchJson path (hit.lineIndex + 1) (before.toList.length + 1) preview] }
        (fun later hlater => hhits later (List.mem_cons_of_mem _ hlater))
        (by rw [List.length_append, List.length_singleton]; omega)
      refine ⟨state', matchJson path (hit.lineIndex + 1) (before.toList.length + 1) preview ::
        entries, ?_, ?_, hlength, ?_⟩
      · rw [hslice, hindex, hmatch, hpreview]
        exact hpush
      · rw [hentries, List.append_assoc, List.singleton_append]
      · intro entry hentry
        rcases List.mem_cons.mp hentry with rfl | hlater
        · exact ⟨hit.lineIndex, before, after, preview, hmatch ▸ hline, hwindow, rfl⟩
        · exact hall entry hlater

/-- **What is kept of a text.** No slice of a search panics, and every entry that it adds is for a
match in a line of the text, with the place of the match and a preview of it. -/
theorem collect_matches_previews {path : RelativePath} {content query : String} {state : SearchState}
    (hquery : byteLen query ≤ maxSearchQueryBytes) (hfound : state.found.length ≤ maxSearchMatches) :
    ∃ state' entries, collectMatches path content query state = .ok state' ∧
      state'.found = state.found ++ entries ∧ state'.found.length ≤ maxSearchMatches ∧
      ∀ entry ∈ entries, EntryOf path content query entry :=
  pushHits_previews hquery _ state (fun _ hhit => hhit) hfound

end Xgeny
