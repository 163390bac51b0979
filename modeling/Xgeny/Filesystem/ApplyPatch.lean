import Xgeny.Filesystem.AtomicCommit
import Xgeny.Workspace.Arguments

set_option autoImplicit false

/-!
# Exact patching

An edit names a text that must occur once in the source, and the text that replaces it. The ranges
are found in bytes, sorted, checked to be disjoint, and replaced from the right to the left.

* `uniqueRange`, **`uniqueRange_eq_ok`**: a text is found when it occurs once; overlapping
  occurrences count;
* `applyExactEdits`: the edits of one request;
* `Patchable`: when the edits apply;
* **`exact_patching`**: the edits apply exactly then, all at once, in any order, without a panic.
-/

namespace Xgeny

/-! ## The routine -/

namespace ApplyPatch

inductive PatchFailure where
  | readSource
  | preconditionConflict
  | contextMissing
  | contextAmbiguous
  | overlappingEdits
  | resultTooLarge
  | atomic (failure : AtomicCommitFailure)
  deriving DecidableEq

/-- `Range<usize>`. -/
structure ByteRange where
  start : ℕ
  stop : ℕ
  deriving DecidableEq

/-- `&source[offset..]`. -/
def sliceFrom (source : String) (offset : ℕ) : Outcome PatchFailure String := do
  let parts ← Outcome.expect (splitAtByte source offset) "byte index is not a char boundary"
  pure parts.2

/-- `source.char_indices().nth(1)`: where the second character starts. -/
def secondCharacter (source : String) : Option ℕ :=
  match source.toList with
  | first :: _ :: _ => some first.utf8Size
  | _ => none

/-- `str::find`. -/
def find (source needle : String) : Option ℕ := findFirst (bytes needle) (bytes source)

def uniqueRange (source needle : String) : Outcome PatchFailure ByteRange := do
  let start ← Outcome.okOr (find source needle) .contextMissing
  let tail ← sliceFrom source start
  Outcome.whenSome (secondCharacter tail) fun offset => do
    let rest ← sliceFrom source (start + offset)
    Outcome.failIf ((find rest needle).isSome = true) .contextAmbiguous
  pure ⟨start, start + byteLen needle⟩

/-- The ranges of all edits. -/
def resolveEdits (source : String) :
    List PatchEdit → Outcome PatchFailure (List (ByteRange × PatchEdit))
  | [] => pure []
  | edit :: rest => do
    let range ← uniqueRange source edit.oldText
    let resolved ← resolveEdits source rest
    pure ((range, edit) :: resolved)

/-- Some range starts before the range to its left ends. -/
def overlapping : List (ByteRange × PatchEdit) → Bool
  | left :: right :: rest =>
    decide (right.1.start < left.1.stop) || overlapping (right :: rest)
  | _ => false

/-- `String::replace_range`. -/
def replaceRange (result : String) (range : ByteRange) (newText : String) :
    Outcome PatchFailure String := do
  let front ← Outcome.expect (splitAtByte result range.start) "start is not a char boundary"
  let back ← Outcome.expect (splitAtByte result range.stop) "end is not a char boundary"
  Outcome.expect (if range.start ≤ range.stop then some () else none) "range start after its end"
  pure (front.1 ++ (newText ++ back.2))

def applyExactEdits (source : String) (edits : List PatchEdit) : Outcome PatchFailure String := do
  let resolved ← resolveEdits source edits
  let resolved := resolved.insertionSort fun left right => left.1.start ≤ right.1.start
  Outcome.failIf (overlapping resolved = true) .overlappingEdits
  let removedBytes := (resolved.map fun entry => byteLen entry.2.oldText).sum
  let insertedBytes := (resolved.map fun entry => byteLen entry.2.newText).sum
  Outcome.failIf (byteLen source < removedBytes) .resultTooLarge
  Outcome.failIf (byteLen source - removedBytes + insertedBytes > maxAtomicTextBytes)
    .resultTooLarge
  Outcome.foldl (fun result entry => replaceRange result entry.1 entry.2.newText) source
    resolved.reverse

/-! ## One text -/

section Unique

variable {source needle : String}

/-- The text occurs in the source at the offset, and nowhere else. -/
def OccursOnceAt (source needle : String) (k : ℕ) : Prop :=
  OccursAt (bytes needle) (bytes source) k ∧ ∀ j, OccursAt (bytes needle) (bytes source) j → j = k

theorem sliceFrom_eq_ok {offset : ℕ} {rest : String} :
    sliceFrom source offset = .ok rest ↔ ∃ front, source = front ++ rest ∧ byteLen front = offset := by
  simp only [sliceFrom, Outcome.bind_eq_ok, Outcome.expect_eq_ok, Outcome.pure_eq_ok, Prod.exists,
    splitAtByte_eq_some]
  constructor
  · rintro ⟨front, back, h, rfl⟩
    exact ⟨front, h⟩
  · rintro ⟨front, h⟩
    exact ⟨front, rest, h, rfl⟩

theorem sliceFrom_append (front rest : String) :
    sliceFrom (front ++ rest) (byteLen front) = .ok rest :=
  sliceFrom_eq_ok.mpr ⟨front, rfl, rfl⟩

theorem isSome_find : (find source needle).isSome = true ↔
    ∃ k, OccursAt (bytes needle) (bytes source) k := by
  rw [Option.isSome_iff_ne_none, ne_eq, find, findFirst_eq_none]
  exact not_forall_not

theorem later_occurrence {a b : String} {j : ℕ} (hneedle : needle ≠ "") (hj : byteLen a < j)
    (h : OccursAt (bytes needle) (bytes (a ++ b)) j) :
    ∃ c m rest, b.toList = c :: (m ++ (needle.toList ++ rest)) ∧
      j = byteLen a + c.utf8Size + (Utf8.encode m).length := by
  obtain ⟨a', b', hsource, rfl⟩ := (occursAt_bytes hneedle).mp h
  have hlist := congrArg String.toList hsource
  simp only [String.toList_append] at hlist
  simp only [byteLen_eq_length, bytes_eq_encode] at hj ⊢
  rcases List.append_eq_append_iff.mp hlist with ⟨m, ha', hb⟩ | ⟨m, ha, -⟩
  · cases m with
    | nil => simp [ha'] at hj
    | cons c m =>
      refine ⟨c, m, b'.toList, hb, ?_⟩
      rw [ha', Utf8.encode_append, List.length_append, Utf8.encode_cons, List.length_append,
        String.length_utf8EncodeChar, Nat.add_assoc]
  · rw [ha, Utf8.encode_append, List.length_append] at hj
    omega

/-- **A text that is found is found once, or it is ambiguous.** -/
theorem uniqueRange_found {start : ℕ} (hneedle : needle ≠ "")
    (hfind : find source needle = some start) :
    (uniqueRange source needle = .ok ⟨start, start + byteLen needle⟩ ∧
      OccursOnceAt source needle start) ∨
    (uniqueRange source needle = Outcome.fail .contextAmbiguous ∧
      ∃ j, OccursAt (bytes needle) (bytes source) j ∧ j ≠ start) := by
  obtain ⟨hoccurs, hfirst⟩ := findFirst_eq_some.mp hfind
  obtain ⟨a, b, hsource, hstart⟩ := (occursAt_bytes hneedle).mp hoccurs
  have hlater : ∀ j, OccursAt (bytes needle) (bytes source) j → j ≠ start → byteLen a < j := by
    intro j hj hne
    have hle : ¬ j < start := fun hlt => hfirst j hlt hj
    omega
  have htail : sliceFrom source start = .ok (needle ++ b) := by
    rw [hsource, ← hstart]
    exact sliceFrom_append a _
  unfold uniqueRange
  rw [hfind]
  cases hchars : (needle ++ b).toList with
  | nil =>
    have hnil : needle ++ b = "" := String.toList_eq_nil_iff.mp hchars
    exact absurd (String.append_eq_empty_iff.mp hnil).1 hneedle
  | cons c rest =>
    cases rest with
    | nil =>
      -- the text is the last character, so that nothing stands after it
      left
      refine ⟨?_, hoccurs, fun j hj => ?_⟩
      · simp only [Outcome.okOr, htail, secondCharacter, hchars, Outcome.whenSome, bind, Except.bind]
        rfl
      · by_contra hne
        rw [hsource] at hj
        obtain ⟨c', m, rest, hrest, -⟩ := later_occurrence hneedle (hlater j (hsource ▸ hj) hne) hj
        rw [hchars, List.cons.injEq] at hrest
        have hempty : needle.toList = [] :=
          (List.append_eq_nil_iff.mp (List.append_eq_nil_iff.mp hrest.2.symm).2).1
        exact hneedle (String.toList_eq_nil_iff.mp hempty)
    | cons d rest =>
      have hsplit : source = (a ++ String.singleton c) ++ String.ofList (d :: rest) := by
        apply String.toList_inj.mp
        rw [hsource, String.toList_append, hchars]
        simp
      have hnext : byteLen (a ++ String.singleton c) = start + c.utf8Size := by
        rw [byteLen_append, hstart]
        simp [byteLen]
      have hslice : sliceFrom source (start + c.utf8Size) = .ok (String.ofList (d :: rest)) := by
        rw [← hnext, hsplit]
        exact sliceFrom_append _ _
      have hambiguous : (find (String.ofList (d :: rest)) needle).isSome = true ↔
          ∃ j, OccursAt (bytes needle) (bytes source) j ∧ j ≠ start := by
        rw [isSome_find]
        constructor
        · rintro ⟨k, hk⟩
          refine ⟨byteLen (a ++ String.singleton c) + k, ?_, ?_⟩
          · rw [hsplit, bytes_append, byteLen_eq_length]
            exact occursAt_append.mpr hk
          · have hpos := c.utf8Size_pos
            omega
        · rintro ⟨j, hj, hne⟩
          have hlt := hlater j hj hne
          rw [hsource] at hj
          obtain ⟨c', m, rest', hrest, -⟩ := later_occurrence hneedle hlt hj
          rw [hchars, List.cons.injEq] at hrest
          refine ⟨(Utf8.encode m).length, occursAt_iff.mpr ⟨Utf8.encode m, Utf8.encode rest', ?_, rfl⟩⟩
          rw [bytes_eq_encode, String.toList_ofList, hrest.2, Utf8.encode_append,
            Utf8.encode_append, bytes_eq_encode]
      by_cases hsome : (find (String.ofList (d :: rest)) needle).isSome = true
      · right
        refine ⟨?_, hambiguous.mp hsome⟩
        simp only [Outcome.okOr, htail, secondCharacter, hchars, Outcome.whenSome, hslice,
          Outcome.failIf, hsome, bind, Except.bind, if_true]
        rfl
      · left
        refine ⟨?_, hoccurs, fun j hj => ?_⟩
        · simp only [Outcome.okOr, htail, secondCharacter, hchars, Outcome.whenSome, hslice,
            Outcome.failIf, hsome, bind, Except.bind]
          rfl
        · by_contra hne
          exact hsome (hambiguous.mpr ⟨j, hj, hne⟩)

theorem uniqueRange_missing (hfind : find source needle = none) :
    uniqueRange source needle = Outcome.fail .contextMissing := by
  unfold uniqueRange
  rw [hfind]
  rfl

theorem uniqueRange_eq_ok (hneedle : needle ≠ "") {range : ByteRange} :
    uniqueRange source needle = .ok range ↔
      OccursOnceAt source needle range.start ∧ range.stop = range.start + byteLen needle := by
  cases hfind : find source needle with
  | none =>
    rw [uniqueRange_missing hfind]
    simp only [Outcome.fail_eq_ok, false_iff]
    exact fun h => findFirst_eq_none.mp hfind _ h.1.1
  | some start =>
    rcases uniqueRange_found hneedle hfind with ⟨hok, honce⟩ | ⟨hfail, j, hj, hne⟩
    · rw [hok]
      constructor
      · intro h
        obtain rfl := Except.ok.inj h
        exact ⟨honce, rfl⟩
      · rintro ⟨⟨hoccurs, -⟩, hstop⟩
        obtain ⟨first, stop⟩ := range
        obtain rfl : first = start := honce.2 first hoccurs
        obtain rfl : stop = first + byteLen needle := hstop
        rfl
    · rw [hfail]
      simp only [Outcome.fail_eq_ok, false_iff]
      rintro ⟨⟨-, hunique⟩, -⟩
      have hstart := hunique start (findFirst_eq_some.mp hfind).1
      exact hne ((hunique j hj).trans hstart.symm)

theorem calm_uniqueRange (hneedle : needle ≠ "") : Outcome.Calm (uniqueRange source needle) := by
  cases hfind : find source needle with
  | none =>
    rw [uniqueRange_missing hfind]
    exact Outcome.calm_fail
  | some start =>
    rcases uniqueRange_found hneedle hfind with ⟨hok, -⟩ | ⟨hfail, -⟩
    · rw [hok]
      exact Outcome.calm_ok
    · rw [hfail]
      exact Outcome.calm_fail

end Unique

/-! ## All edits -/

section Edits

variable {source : String} {edits : List PatchEdit}

/-- An edit with the range that the search finds for it. -/
def located (source : String) (edit : PatchEdit) : ByteRange × PatchEdit :=
  let start := (find source edit.oldText).getD 0
  (⟨start, start + byteLen edit.oldText⟩, edit)

/-- The old text of an edit occurs once in the source. -/
def OccursOnce (source : String) (edit : PatchEdit) : Prop :=
  ∃! k, OccursAt (bytes edit.oldText) (bytes source) k

/-- The two old texts stand beside each other. -/
def Apart (source : String) (left right : PatchEdit) : Prop :=
  ∀ i j, OccursAt (bytes left.oldText) (bytes source) i →
    OccursAt (bytes right.oldText) (bytes source) j →
    i + byteLen left.oldText ≤ j ∨ j + byteLen right.oldText ≤ i

/-- The length of the source without the old texts and with the new ones. -/
def resultLength (source : String) (edits : List PatchEdit) : ℕ :=
  byteLen source - (edits.map fun edit => byteLen edit.oldText).sum +
    (edits.map fun edit => byteLen edit.newText).sum

/-- The edits apply to the source. -/
structure Patchable (source : String) (edits : List PatchEdit) : Prop where
  once : ∀ edit ∈ edits, OccursOnce source edit
  apart : edits.Pairwise (Apart source)
  size : resultLength source edits ≤ maxAtomicTextBytes

theorem occursOnce_iff {edit : PatchEdit} : OccursOnce source edit ↔
    OccursOnceAt source edit.oldText (located source edit).1.start := by
  constructor
  · rintro ⟨k, hk, hunique⟩
    cases hfind : find source edit.oldText with
    | none => exact absurd hk (findFirst_eq_none.mp hfind k)
    | some start =>
      have hstart := (findFirst_eq_some.mp hfind).1
      simp only [located, hfind, Option.getD_some]
      exact ⟨hstart, fun j hj => (hunique j hj).trans (hunique start hstart).symm⟩
  · exact fun h => ⟨_, h.1, h.2⟩

theorem resolveEdits_eq_ok (hedits : ∀ edit ∈ edits, edit.oldText ≠ "")
    {resolved : List (ByteRange × PatchEdit)} : resolveEdits source edits = .ok resolved ↔
      (∀ edit ∈ edits, OccursOnce source edit) ∧ resolved = edits.map (located source) := by
  induction edits generalizing resolved with
  | nil =>
    rw [resolveEdits, Outcome.pure_eq_ok]
    simp [eq_comm]
  | cons edit rest ih =>
    obtain ⟨hedit, hrest⟩ := List.forall_mem_cons.mp hedits
    simp only [resolveEdits, Outcome.bind_eq_ok, Outcome.pure_eq_ok, uniqueRange_eq_ok hedit,
      ih hrest, List.forall_mem_cons, List.map_cons]
    constructor
    · rintro ⟨range, ⟨honce, hstop⟩, _, ⟨hall, rfl⟩, rfl⟩
      have hunique : OccursOnce source edit := ⟨_, honce.1, honce.2⟩
      have hstart := honce.2 _ (occursOnce_iff.mp hunique).1
      refine ⟨⟨hunique, hall⟩, ?_⟩
      obtain ⟨start, stop⟩ := range
      obtain rfl : _ = start := hstart
      have hrange : stop = (located source edit).1.start + byteLen edit.oldText := hstop
      rw [hrange]
      rfl
    · rintro ⟨⟨hunique, hall⟩, rfl⟩
      exact ⟨_, ⟨occursOnce_iff.mp hunique, rfl⟩, _, ⟨hall, rfl⟩, rfl⟩

theorem calm_resolveEdits (hedits : ∀ edit ∈ edits, edit.oldText ≠ "") :
    Outcome.Calm (resolveEdits source edits) := by
  induction edits with
  | nil => exact Outcome.calm_pure
  | cons edit rest ih =>
    obtain ⟨hedit, hrest⟩ := List.forall_mem_cons.mp hedits
    simp only [resolveEdits, Outcome.calm_bind, Outcome.calm_pure]
    exact ⟨calm_uniqueRange hedit, fun _ _ => ⟨ih hrest, fun _ _ => trivial⟩⟩

/-! ### Disjoint ranges -/

/-- The left range ends before the right one starts. -/
def Before (left right : ByteRange × PatchEdit) : Prop := left.1.stop ≤ right.1.start

/-- A range of at least one byte. -/
def ByteRange.Proper (range : ByteRange) : Prop := range.start < range.stop

theorem located_proper {edit : PatchEdit} (hedit : edit.oldText ≠ "") :
    (located source edit).1.Proper := by
  have hpos : byteLen edit.oldText ≠ 0 := by
    rw [byteLen_eq_length, ne_eq, List.length_eq_zero_iff, bytes_eq_nil]
    exact hedit
  show (located source edit).1.start < (located source edit).1.start + byteLen edit.oldText
  omega

theorem overlapping_eq_false {entries : List (ByteRange × PatchEdit)} :
    overlapping entries = false ↔ entries.IsChain Before := by
  induction entries with
  | nil => simp [overlapping]
  | cons left rest ih =>
    cases rest with
    | nil => simp [overlapping]
    | cons right rest =>
      rw [overlapping, Bool.or_eq_false_iff, decide_eq_false_iff_not, ih, List.isChain_cons_cons,
        Nat.not_lt]
      rfl

theorem pairwise_before {entries : List (ByteRange × PatchEdit)}
    (hproper : ∀ entry ∈ entries, entry.1.Proper) (h : entries.IsChain Before) :
    entries.Pairwise Before := by
  induction entries with
  | nil => exact List.Pairwise.nil
  | cons left rest ih =>
    obtain ⟨-, hrest⟩ := List.forall_mem_cons.mp hproper
    have htail := ih hrest h.tail
    refine List.pairwise_cons.mpr ⟨fun entry hentry => ?_, htail⟩
    cases rest with
    | nil => simp at hentry
    | cons right rest =>
      have hfirst : Before left right := (List.isChain_cons_cons.mp h).1
      have hright : right.1.Proper := hrest right List.mem_cons_self
      rcases List.mem_cons.mp hentry with rfl | hentry
      · exact hfirst
      · have hnext : Before right entry := (List.pairwise_cons.mp htail).1 entry hentry
        unfold Before ByteRange.Proper at *
        omega

/-- The ranges sorted by their starts. -/
def sorted (entries : List (ByteRange × PatchEdit)) : List (ByteRange × PatchEdit) :=
  entries.insertionSort fun left right => left.1.start ≤ right.1.start

theorem sorted_perm (entries : List (ByteRange × PatchEdit)) : (sorted entries).Perm entries :=
  List.perm_insertionSort _ _

theorem sorted_pairwise (entries : List (ByteRange × PatchEdit)) :
    (sorted entries).Pairwise fun left right => left.1.start ≤ right.1.start := by
  have htotal : Std.Total fun left right : ByteRange × PatchEdit => left.1.start ≤ right.1.start :=
    ⟨fun left right => Nat.le_total left.1.start right.1.start⟩
  have htrans : IsTrans _ fun left right : ByteRange × PatchEdit => left.1.start ≤ right.1.start :=
    ⟨fun _ _ _ h h' => Nat.le_trans h h'⟩
  exact List.pairwise_insertionSort _ entries

/-- **The neighbours of the sorted ranges do not overlap when no two ranges do.** -/
theorem sorted_before_iff (hedits : ∀ edit ∈ edits, edit.oldText ≠ "")
    (honce : ∀ edit ∈ edits, OccursOnce source edit) :
    overlapping (sorted (edits.map (located source))) = false ↔ edits.Pairwise (Apart source) := by
  have hproper : ∀ entry ∈ sorted (edits.map (located source)), entry.1.Proper := by
    intro entry hentry
    obtain ⟨edit, hedit, rfl⟩ := List.mem_map.mp ((sorted_perm _).mem_iff.mp hentry)
    exact located_proper (hedits edit hedit)
  have hapart : edits.Pairwise (Apart source) ↔ (sorted (edits.map (located source))).Pairwise
      fun left right => Before left right ∨ Before right left := by
    rw [(sorted_perm _).pairwise_iff (fun {_ _} h => Or.symm h), List.pairwise_map]
    refine List.Pairwise.iff_of_mem fun {left right} hleft hright => ?_
    have hl := occursOnce_iff.mp (honce left hleft)
    have hr := occursOnce_iff.mp (honce right hright)
    constructor
    · exact fun h => h _ _ hl.1 hr.1
    · intro h i j hi hj
      rw [hl.2 i hi, hr.2 j hj]
      exact h
  rw [overlapping_eq_false, hapart]
  constructor
  · intro h
    exact (pairwise_before hproper h).imp fun hbefore => Or.inl hbefore
  · intro h
    refine (List.Pairwise.imp_of_mem (fun {left right} hleft hright hboth => ?_)
      ((sorted_pairwise _).and h)).isChain
    rcases hboth.2 with hbefore | hafter
    · exact hbefore
    · have hp := hproper right hright
      have hle := hboth.1
      unfold Before ByteRange.Proper at *
      omega

/-! ### Replacement from the right -/

theorem replaceRange_append (front old back new : String) :
    replaceRange (front ++ (old ++ back)) ⟨byteLen front, byteLen front + byteLen old⟩ new =
      .ok (front ++ (new ++ back)) := by
  have hfront : splitAtByte (front ++ (old ++ back)) (byteLen front) = some (front, old ++ back) :=
    splitAtByte_eq_some.mpr ⟨rfl, rfl⟩
  have hback : splitAtByte (front ++ (old ++ back)) (byteLen front + byteLen old) =
      some (front ++ old, back) :=
    splitAtByte_eq_some.mpr ⟨by rw [String.append_assoc], byteLen_append _ _⟩
  simp only [replaceRange, Outcome.bind_eq_ok, Outcome.expect_eq_ok, Outcome.pure_eq_ok, hfront,
    hback]
  exact ⟨_, rfl, _, rfl, (), by simp, rfl⟩

/-- The entry is located in the source. -/
def LocatedIn (source : String) (entry : ByteRange × PatchEdit) : Prop :=
  OccursAt (bytes entry.2.oldText) (bytes source) entry.1.start ∧
    entry.1.stop = entry.1.start + byteLen entry.2.oldText

/-- **Replacing from the right replaces all at once.** The part of the source before the ranges is
not touched. -/
theorem foldl_replaceRange {entries : List (ByteRange × PatchEdit)} {front s : String}
    (hedits : ∀ entry ∈ entries, entry.2.oldText ≠ "")
    (hlocated : ∀ entry ∈ entries, LocatedIn (front ++ s) entry)
    (hbefore : entries.Pairwise Before) (hfront : ∀ entry ∈ entries, byteLen front ≤ entry.1.start) :
    ∃ r, Outcome.foldl (fun result entry => replaceRange result entry.1 entry.2.newText)
        (front ++ s) entries.reverse = .ok (front ++ r) ∧
      Spliced (fun entry => entry.2.oldText.toList) (fun entry => entry.2.newText.toList) entries
        s.toList r.toList := by
  induction entries generalizing front s with
  | nil => exact ⟨s, rfl, .nil _⟩
  | cons entry rest ih =>
    obtain ⟨hedit, hedits⟩ := List.forall_mem_cons.mp hedits
    obtain ⟨⟨hoccurs, hstop⟩, hlocated⟩ := List.forall_mem_cons.mp hlocated
    obtain ⟨hentry, hbefore⟩ := List.pairwise_cons.mp hbefore
    obtain ⟨a, b, hsource, ha⟩ := (occursAt_bytes hedit).mp hoccurs
    have hle : byteLen front ≤ byteLen a := ha ▸ hfront entry List.mem_cons_self
    obtain ⟨gap, rfl⟩ : ∃ gap, a = front ++ gap := by
      have hlist := congrArg String.toList hsource
      rw [String.toList_append, String.toList_append] at hlist
      rcases List.append_eq_append_iff.mp hlist with ⟨gap, hgap, -⟩ | ⟨gap, hgap, -⟩
      · exact ⟨String.ofList gap, String.toList_inj.mp (by simp [hgap])⟩
      · have hfrontList : front = a ++ String.ofList gap := String.toList_inj.mp (by simp [hgap])
        have hempty : String.ofList gap = "" := by
          rw [← bytes_eq_nil, ← List.length_eq_zero_iff, ← byteLen_eq_length]
          rw [hfrontList, byteLen_append] at hle
          omega
        exact ⟨"", by rw [hfrontList, hempty, String.append_empty, String.append_empty]⟩
    have hs : s = gap ++ (entry.2.oldText ++ b) := by
      rw [String.append_assoc] at hsource
      exact (String.append_right_inj _).mp hsource
    have hnew : front ++ s = (front ++ gap ++ entry.2.oldText) ++ b := by
      rw [hsource, String.append_assoc, String.append_assoc, String.append_assoc]
    rw [hnew] at hlocated
    obtain ⟨r, hfold, hspliced⟩ := ih hedits hlocated hbefore fun other hother => by
      have hgap := hentry other hother
      unfold Before at hgap
      rw [byteLen_append]
      omega
    refine ⟨gap ++ (entry.2.newText ++ r), ?_, ?_⟩
    · have hrange : entry.1 = ⟨byteLen (front ++ gap),
          byteLen (front ++ gap) + byteLen entry.2.oldText⟩ := by
        rw [ha, ← hstop]
      have hreplace : replaceRange (front ++ gap ++ entry.2.oldText ++ r) entry.1 entry.2.newText =
          .ok (front ++ gap ++ (entry.2.newText ++ r)) := by
        rw [hrange, String.append_assoc]
        exact replaceRange_append _ _ _ _
      rw [List.reverse_cons, Outcome.foldl_append, hnew, hfold]
      simp only [Outcome.foldl, bind, Except.bind, hreplace]
      rw [String.append_assoc]
    · rw [hs]
      simp only [String.toList_append]
      exact .cons _ entry hspliced

/-! ### The law -/

theorem sorted_eq {other : List PatchEdit} (hedits : ∀ edit ∈ edits, edit.oldText ≠ "")
    (h : Patchable source edits) (hperm : other.Perm edits) :
    sorted (other.map (located source)) = sorted (edits.map (located source)) := by
  have hsorted : ∀ {l : List PatchEdit}, l.Perm edits →
      (sorted (l.map (located source))).Pairwise Before ∧
      ∀ entry ∈ sorted (l.map (located source)), entry.1.Proper := by
    intro l hl
    have hne : ∀ edit ∈ l, edit.oldText ≠ "" := fun edit hmem => hedits edit (hl.mem_iff.mp hmem)
    have honce : ∀ edit ∈ l, OccursOnce source edit :=
      fun edit hmem => h.once edit (hl.mem_iff.mp hmem)
    have hapart : l.Pairwise (Apart source) :=
      (hl.pairwise_iff fun {_ _} hboth i j hi hj => (hboth j i hj hi).symm).mpr h.apart
    have hproper : ∀ entry ∈ sorted (l.map (located source)), entry.1.Proper := by
      intro entry hentry
      obtain ⟨edit, hedit, rfl⟩ := List.mem_map.mp ((sorted_perm _).mem_iff.mp hentry)
      exact located_proper (hne edit hedit)
    have hchain := overlapping_eq_false.mp ((sorted_before_iff hne honce).mpr hapart)
    exact ⟨pairwise_before hproper hchain, hproper⟩
  obtain ⟨hleft, hleftProper⟩ := hsorted hperm
  obtain ⟨hright, hrightProper⟩ := hsorted (List.Perm.refl edits)
  have hlists : (sorted (other.map (located source))).Perm (sorted (edits.map (located source))) :=
    (sorted_perm _).trans ((hperm.map _).trans (sorted_perm _).symm)
  refine hlists.eq_of_pairwise (fun a b ha hb hab hba => ?_) hleft hright
  have hp := hleftProper a ha
  have hq := hrightProper b hb
  unfold Before ByteRange.Proper at *
  omega

theorem applyExactEdits_eq (hedits : ∀ edit ∈ edits, edit.oldText ≠ "")
    (honce : ∀ edit ∈ edits, OccursOnce source edit) : applyExactEdits source edits = (do
      let resolved := sorted (edits.map (located source))
      Outcome.failIf (overlapping resolved = true) .overlappingEdits
      let removedBytes := (resolved.map fun entry => byteLen entry.2.oldText).sum
      let insertedBytes := (resolved.map fun entry => byteLen entry.2.newText).sum
      Outcome.failIf (byteLen source < removedBytes) .resultTooLarge
      Outcome.failIf (byteLen source - removedBytes + insertedBytes > maxAtomicTextBytes)
        .resultTooLarge
      Outcome.foldl (fun result entry => replaceRange result entry.1 entry.2.newText) source
        resolved.reverse) := by
  unfold applyExactEdits
  rw [(resolveEdits_eq_ok hedits).mpr ⟨honce, rfl⟩]
  rfl

theorem removedBytes_eq : ((sorted (edits.map (located source))).map
    fun entry => byteLen entry.2.oldText).sum = (edits.map fun edit => byteLen edit.oldText).sum := by
  rw [((sorted_perm _).map _).sum_eq, List.map_map]
  rfl

theorem insertedBytes_eq : ((sorted (edits.map (located source))).map
    fun entry => byteLen entry.2.newText).sum = (edits.map fun edit => byteLen edit.newText).sum := by
  rw [((sorted_perm _).map _).sum_eq, List.map_map]
  rfl

theorem replaced (hedits : ∀ edit ∈ edits, edit.oldText ≠ "")
    (honce : ∀ edit ∈ edits, OccursOnce source edit)
    (hoverlap : overlapping (sorted (edits.map (located source))) = false) :
    ∃ r, Outcome.foldl (fun result entry => replaceRange result entry.1 entry.2.newText) source
        (sorted (edits.map (located source))).reverse = .ok r ∧
      ∃ ordered : List PatchEdit, ordered.Perm edits ∧
        Spliced (fun edit => bytes edit.oldText) (fun edit => bytes edit.newText) ordered
          (bytes source) (bytes r) := by
  have hmem : ∀ entry ∈ sorted (edits.map (located source)),
      ∃ edit ∈ edits, located source edit = entry := fun entry hentry =>
    List.mem_map.mp ((sorted_perm _).mem_iff.mp hentry)
  have hbefore : (sorted (edits.map (located source))).Pairwise Before := by
    refine pairwise_before (fun entry hentry => ?_) (overlapping_eq_false.mp hoverlap)
    obtain ⟨edit, hedit, rfl⟩ := hmem entry hentry
    exact located_proper (hedits edit hedit)
  have hne : ∀ entry ∈ sorted (edits.map (located source)), entry.2.oldText ≠ "" := by
    intro entry hentry
    obtain ⟨edit, hedit, rfl⟩ := hmem entry hentry
    exact hedits edit hedit
  have hlocated : ∀ entry ∈ sorted (edits.map (located source)), LocatedIn ("" ++ source) entry := by
    intro entry hentry
    obtain ⟨edit, hedit, rfl⟩ := hmem entry hentry
    rw [String.empty_append]
    exact ⟨(occursOnce_iff.mp (honce edit hedit)).1, rfl⟩
  obtain ⟨r, hfold, hspliced⟩ := foldl_replaceRange hne hlocated hbefore fun _ _ => Nat.zero_le _
  rw [String.empty_append, String.empty_append] at hfold
  refine ⟨r, hfold, (sorted (edits.map (located source))).map Prod.snd, ?_, ?_⟩
  · have hperm := (sorted_perm (edits.map (located source))).map Prod.snd
    rw [List.map_map] at hperm
    simpa [Function.comp_def, located] using hperm
  · apply Spliced.map
    simp only [bytes_eq_encode]
    exact hspliced.flatMap String.utf8EncodeChar

theorem applyExactEdits_eq_ok (hedits : ∀ edit ∈ edits, edit.oldText ≠ "") {r : String} :
    applyExactEdits source edits = .ok r ↔ Patchable source edits ∧
      Outcome.foldl (fun result entry => replaceRange result entry.1 entry.2.newText) source
        (sorted (edits.map (located source))).reverse = .ok r := by
  by_cases honce : ∀ edit ∈ edits, OccursOnce source edit
  · rw [applyExactEdits_eq hedits honce]
    simp only [Outcome.bind_eq_ok, Outcome.exists_unit, Outcome.failIf_eq_ok, removedBytes_eq,
      insertedBytes_eq, Bool.not_eq_true, Nat.not_lt]
    rw [← and_assoc, ← and_assoc]
    refine and_congr_left fun hfold => ?_
    constructor
    · rintro ⟨⟨hoverlap, -⟩, hsize⟩
      exact ⟨honce, (sorted_before_iff hedits honce).mp hoverlap, hsize⟩
    · rintro ⟨-, hapart, hsize⟩
      have hoverlap := (sorted_before_iff hedits honce).mpr hapart
      obtain ⟨_, _, ordered, hperm, hspliced⟩ := replaced hedits honce hoverlap
      have hle := hspliced.old_length_le
      simp only [← byteLen_eq_length] at hle
      rw [(hperm.map _).sum_eq] at hle
      exact ⟨⟨hoverlap, hle⟩, hsize⟩
  · constructor
    · intro h
      simp only [applyExactEdits, Outcome.bind_eq_ok] at h
      obtain ⟨_, hresolved, -⟩ := h
      exact absurd ((resolveEdits_eq_ok hedits).mp hresolved).1 honce
    · exact fun h => absurd h.1.once honce

theorem calm_applyExactEdits (hedits : ∀ edit ∈ edits, edit.oldText ≠ "") :
    Outcome.Calm (applyExactEdits source edits) := by
  unfold applyExactEdits
  simp only [Outcome.calm_bind, Outcome.calm_failIf, true_and]
  refine ⟨calm_resolveEdits hedits, fun resolved hresolved _ hoverlap _ _ _ _ => ?_⟩
  obtain ⟨honce, rfl⟩ := (resolveEdits_eq_ok hedits).mp hresolved
  rw [Outcome.failIf_eq_ok, Bool.not_eq_true] at hoverlap
  obtain ⟨r, hfold, -⟩ := replaced hedits honce hoverlap
  rw [sorted] at hfold
  rw [hfold]
  exact Outcome.calm_ok

/-- **Exact patching.** When no old text is empty, the routine does not panic. It succeeds exactly
when every old text occurs at one byte offset of the source, the ranges do not overlap and the result
is not too long. Then the result is the source with every range replaced and all other bytes as they
were, and it is the same for every order of the edits. -/
theorem exact_patching (source : String) (edits : List PatchEdit)
    (hedits : ∀ edit ∈ edits, edit.oldText ≠ "") :
    Outcome.Calm (applyExactEdits source edits) ∧
    ((∃ r, applyExactEdits source edits = .ok r) ↔ Patchable source edits) ∧
    ∀ r, applyExactEdits source edits = .ok r →
      (∃ ordered : List PatchEdit, ordered.Perm edits ∧
        Spliced (fun edit => bytes edit.oldText) (fun edit => bytes edit.newText) ordered
          (bytes source) (bytes r)) ∧
      ∀ other : List PatchEdit, other.Perm edits → applyExactEdits source other = .ok r := by
  have hreplaced : ∀ (h : Patchable source edits), _ := fun h =>
    replaced hedits h.once ((sorted_before_iff hedits h.once).mpr h.apart)
  refine ⟨calm_applyExactEdits hedits, ⟨?_, ?_⟩, ?_⟩
  · rintro ⟨r, hr⟩
    exact ((applyExactEdits_eq_ok hedits).mp hr).1
  · intro h
    obtain ⟨r, hfold, -⟩ := hreplaced h
    exact ⟨r, (applyExactEdits_eq_ok hedits).mpr ⟨h, hfold⟩⟩
  · intro r hr
    obtain ⟨h, hfold⟩ := (applyExactEdits_eq_ok hedits).mp hr
    obtain ⟨r', hfold', hspliced⟩ := hreplaced h
    obtain rfl := Except.ok.inj (hfold'.symm.trans hfold)
    refine ⟨hspliced, fun other hperm => ?_⟩
    have hother : ∀ edit ∈ other, edit.oldText ≠ "" :=
      fun edit hmem => hedits edit (hperm.mem_iff.mp hmem)
    have hapart : other.Pairwise (Apart source) :=
      (hperm.pairwise_iff fun {_ _} hboth i j hi hj => (hboth j i hj hi).symm).mpr h.apart
    refine (applyExactEdits_eq_ok hother).mpr ⟨⟨fun edit hmem => h.once edit (hperm.mem_iff.mp hmem),
      hapart, ?_⟩, ?_⟩
    · rw [resultLength, (hperm.map _).sum_eq, (hperm.map _).sum_eq]
      exact h.size
    · rw [sorted_eq hedits h hperm]
      exact hfold

/-- Two edits of a text with characters of several bytes, in either order. -/
theorem exact_patching_sample :
    applyExactEdits "한글 old" [⟨"한", "ㅎ"⟩, ⟨"old", "새 값"⟩] = .ok "ㅎ글 새 값" ∧
      applyExactEdits "한글 old" [⟨"old", "새 값"⟩, ⟨"한", "ㅎ"⟩] = .ok "ㅎ글 새 값" := by
  have hok : applyExactEdits "한글 old" [⟨"한", "ㅎ"⟩, ⟨"old", "새 값"⟩] = .ok "ㅎ글 새 값" := by
    decide
  obtain ⟨-, -, hall⟩ := exact_patching "한글 old" [⟨"한", "ㅎ"⟩, ⟨"old", "새 값"⟩] (by decide)
  exact ⟨hok, (hall _ hok).2 _ (List.Perm.swap _ _ _)⟩

end Edits

end ApplyPatch

end Xgeny
