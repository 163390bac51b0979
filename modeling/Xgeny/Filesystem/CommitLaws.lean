import Xgeny.Filesystem.CommitLedger

set_option autoImplicit false

/-!
# What an atomic commit does

Every run of the routine keeps what its ledger says, whatever fails and whatever other processes do to
the target.

* `Ledger.Holds`: what holds of the directory along a run; `Ledger.Holds.step`;
* **`target_step`**: only a rename changes the target;
* `Inspection.Shows`: what an inspection says while nothing else moves;
* **`atomic_commit_laws`**: what a run does, when the temporary file does not get the name of the
  target;
* **`temporary_left_behind`**: when copying the permissions fails, the temporary file stays.
-/

namespace Xgeny.AtomicCommit

open Prog (Sat)

/-! ## Single calls -/

/-- The call changes the directory. -/
def FileOp.Changes : FileOp → Prop
  | .createNew _ | .setPermissions _ _ | .writeAll _ _ | .removeFile _ | .rename _ _ => True
  | _ => False

/-- The temporary file does not get the name of the target. -/
def Distinct (leaf : String) : (op : FileOp) → op.Response → Prop
  | .createNew name, .ok _ => name ≠ leaf
  | _, _ => True

section

variable {d d' : Directory} {op : FileOp} {answer : op.Response} {leaf : String}

theorem Directory.Step.unchanged (h : d.Step op answer d') (hop : ¬ op.Changes) : d' = d := by
  rcases h with ⟨random, h⟩ | ⟨-, h⟩
  · cases op with
    | createNew | setPermissions | writeAll | removeFile | rename => exact absurd trivial hop
    | _ => exact (Prod.mk.inj h).2.symm
  · cases op with
    | createNew | setPermissions | writeAll | removeFile | rename => exact absurd trivial hop
    | _ => exact h

theorem Directory.Step.served {value : op.Value} (h : d.Step op (.ok value) d') :
    ∃ random, d.serve random op = (.ok value, d') := by
  rcases h with h | ⟨h, -⟩
  · exact h
  · cases h

theorem Directory.target_congr (hname : d'.names leaf = d.names leaf)
    (hfile : ∀ file, d.names leaf = some file → d'.files file = d.files file) :
    d'.target leaf = d.target leaf := by
  unfold Directory.target
  rw [hname]
  cases hleaf : d.names leaf with
  | none => rfl
  | some file => rw [Option.map_some, Option.map_some, hfile file hleaf]

theorem Directory.names_of_target {file : FileId} {state : FileState}
    (h : d.target leaf = some (file, state)) : d.names leaf = some file ∧ d.files file = state := by
  obtain ⟨file', hname, heq⟩ := Option.map_eq_some_iff.mp h
  obtain ⟨rfl, rfl⟩ := Prod.mk.inj heq
  exact ⟨hname, rfl⟩

theorem Directory.target_of_names {file : FileId} (h : d.names leaf = some file) :
    d.target leaf = some (file, d.files file) := by
  rw [Directory.target, h, Option.map_some]

theorem Directory.names_create {name n : String} :
    (d.create name).names n = if n = name then some d.fresh else d.names n := rfl

theorem Directory.names_unlink {name n : String} :
    (d.unlink name).names n = if n = name then none else d.names n := rfl

theorem Directory.names_move {source target n : String} : (d.move source target).names n =
    if n = target then d.names source else if n = source then none else d.names n := rfl

theorem opened_target {file : FileId} (h : d.Step (.openTarget leaf) (.ok file) d') :
    d.names leaf = some file := by
  obtain ⟨random, h⟩ := h.served
  have hanswer := (Prod.mk.inj h).1
  cases hleaf : d.names leaf with
  | none => simp [hleaf] at hanswer
  | some file' => simpa [hleaf] using hanswer

theorem absent_target (h : d.Step (.openTarget leaf) (.error .notFound) d') :
    d.names leaf = none := by
  rcases h with ⟨random, h⟩ | ⟨h, -⟩
  · have hanswer := (Prod.mk.inj h).1
    cases hleaf : d.names leaf with
    | none => rfl
    | some file => simp [hleaf] at hanswer
  · cases h

theorem entered_directory {directory : List String} {metadata : FileMetadata}
    (h : d.Step (.dirMetadata directory) (.ok metadata) d') :
    d.directories directory = some metadata := by
  obtain ⟨random, h⟩ := h.served
  have hanswer := (Prod.mk.inj h).1
  cases hdirectory : d.directories directory with
  | none => simp [hdirectory] at hanswer
  | some metadata' => simpa [hdirectory] using hanswer

theorem created_file {name : String} {file : FileId} (h : d.Step (.createNew name) (.ok file) d') :
    d.names name = none ∧ file = d.fresh ∧ d' = d.create name := by
  obtain ⟨random, h⟩ := h.served
  simp only [Directory.serve] at h
  split at h
  · cases (Prod.mk.inj h).1
  · rename_i hname
    obtain ⟨hfile, rfl⟩ := Prod.mk.inj h
    exact ⟨by simpa using hname, (Except.ok.inj hfile).symm, rfl⟩

theorem not_created {name : String} {error : IoError}
    (h : d.Step (.createNew name) (.error error) d') : d' = d := by
  rcases h with ⟨random, h⟩ | ⟨-, h⟩
  · simp only [Directory.serve] at h
    split at h
    · exact (Prod.mk.inj h).2.symm
    · cases (Prod.mk.inj h).1
  · exact h

theorem updated_file {file : FileId} (h : d.Step op answer d')
    (hop : (∃ permissions, op = .setPermissions file permissions) ∨
      ∃ content, op = .writeAll file content) : d' = d ∨ ∃ f, d' = d.update file f := by
  rcases hop with ⟨permissions, rfl⟩ | ⟨content, rfl⟩
  · rcases h with ⟨random, h⟩ | ⟨-, h⟩
    · exact Or.inr ⟨_, (Prod.mk.inj h).2.symm⟩
    · exact Or.inl h
  · rcases h with ⟨random, h⟩ | ⟨-, content', h⟩
    · exact Or.inr ⟨_, (Prod.mk.inj h).2.symm⟩
    · exact Or.inr ⟨_, h⟩

theorem removed_file {name : String} {value : Unit} (h : d.Step (.removeFile name) (.ok value) d') :
    d' = d.unlink name := by
  obtain ⟨random, h⟩ := h.served
  simp only [Directory.serve] at h
  split at h
  · exact (Prod.mk.inj h).2.symm
  · cases (Prod.mk.inj h).1

theorem not_removed {name : String} {error : IoError}
    (h : d.Step (.removeFile name) (.error error) d') : d' = d := by
  rcases h with ⟨random, h⟩ | ⟨-, h⟩
  · simp only [Directory.serve] at h
    split at h
    · cases (Prod.mk.inj h).1
    · exact (Prod.mk.inj h).2.symm
  · exact h

theorem renamed_directories {source target : String}
    {answer : (FileOp.rename source target).Response} (h : d.Step (.rename source target) answer d') :
    d'.directories = d.directories := by
  rcases h with ⟨random, h⟩ | ⟨-, rfl | ⟨-, rfl⟩⟩
  · simp only [Directory.serve] at h
    split at h
    · rw [← (Prod.mk.inj h).2]
      rfl
    · rw [← (Prod.mk.inj h).2]
  · rfl
  · rfl

end

/-! ## What holds along a run -/

/-- The names but the one of the target are as at the start. -/
def SameNames (leaf : String) (start d : Directory) : Prop :=
  ∀ name, name ≠ leaf → d.names name = start.names name

/-- Where the temporary file is; when it was moved, or could not be removed, nothing is known. -/
def Stage.Holds (start : Directory) (leaf : String) (lost : Bool) (d : Directory) : Stage → Prop
  | .before => SameNames leaf start d
  | .live name file => name ≠ leaf ∧ start.names name = none ∧ d.names name = some file ∧
    d.names leaf ≠ some file ∧ ∀ n, n ≠ leaf → n ≠ name → d.names n = start.names n
  | .past name => name ≠ leaf ∧ start.names name = none ∧ (lost = false → SameNames leaf start d)

structure Ledger.Holds (start : Directory) (leaf : String) (l : Ledger) (d : Directory) : Prop where
  directories : d.directories = start.directories
  entered : ∀ e ∈ l.entered, start.directories e.1 = some e.2
  stage : l.stage.Holds start leaf (l.renamed || l.removalFailed) d

section

variable {sha256 : List UInt8 → Sha256Hex} {leaf : String} {expectedDigest : Option String}
  {l : Ledger} {start d d' : Directory} {op : FileOp} {answer : op.Response}

theorem Ledger.holds_start : Ledger.start.Holds start leaf start :=
  ⟨rfl, fun _ he => absurd he List.not_mem_nil, fun _ _ => rfl⟩

theorem Stage.Holds.foreign {stage : Stage} {lost : Bool} (h : stage.Holds start leaf lost d)
    (hforeign : d.Foreign leaf d') : stage.Holds start leaf lost d' := by
  cases stage with
  | before => exact fun name hname => (hforeign.names name hname).trans (h name hname)
  | live name file =>
    obtain ⟨hname, hnew, htemporary, htarget, hothers⟩ := h
    refine ⟨hname, hnew, (hforeign.names name hname).trans htemporary, fun hfile => ?_,
      fun n hn hn' => (hforeign.names n hn).trans (hothers n hn hn')⟩
    rcases hforeign.own file hfile with hsame | hunnamed
    · exact htarget hsame
    · exact hunnamed name htemporary
  | past name =>
    exact ⟨h.1, h.2.1, fun hlost n hn => (hforeign.names n hn).trans (h.2.2 hlost n hn)⟩

theorem Ledger.Holds.foreign (h : l.Holds start leaf d) (hforeign : d.Foreign leaf d') :
    l.Holds start leaf d' :=
  ⟨hforeign.directories.trans h.directories, h.entered, h.stage.foreign hforeign⟩

theorem Stage.Holds.create {name : String} {lost lost' : Bool}
    (h : Stage.before.Holds start leaf lost d) (hname : d.names name = none) (hleaf : name ≠ leaf) :
    (Stage.live name d.fresh).Holds start leaf lost' (d.create name) := by
  refine ⟨hleaf, (h name hleaf).symm.trans hname, if_pos rfl, ?_, ?_⟩
  · rw [Directory.names_create, if_neg (Ne.symm hleaf)]
    exact fun hfresh => absurd (d.named_lt leaf _ hfresh) (lt_irrefl _)
  · intro n hn hn'
    rw [← h n hn]
    exact if_neg hn'

theorem Stage.Holds.unlink {stage : Stage} {lost : Bool} {name : String}
    (h : stage.Holds start leaf lost d)
    (hname : (∃ file, stage = .live name file) ∨ stage = .past name) :
    name ≠ leaf ∧ start.names name = none ∧
      (lost = false → SameNames leaf start (d.unlink name)) := by
  rcases hname with ⟨file, rfl⟩ | rfl
  · obtain ⟨hleaf, hnew, -, -, hothers⟩ := h
    refine ⟨hleaf, hnew, fun _ n hn => ?_⟩
    rw [Directory.names_unlink]
    by_cases heq : n = name
    · rw [if_pos heq, heq, hnew]
    · rw [if_neg heq]
      exact hothers n hn heq
  · obtain ⟨hleaf, hnew, hsame⟩ := h
    refine ⟨hleaf, hnew, fun hlost n hn => ?_⟩
    rw [Directory.names_unlink]
    by_cases heq : n = name
    · rw [if_pos heq, heq, hnew]
    · rw [if_neg heq]
      exact hsame hlost n hn

/-- **One call of the routine.** -/
theorem Ledger.Holds.step (h : l.Holds start leaf d)
    (hop : l.Allows sha256 leaf expectedDigest op) (hdistinct : Distinct leaf op answer)
    (hstep : d.Step op answer d') : (l.next op answer).Holds start leaf d' := by
  obtain ⟨hdirectories, hentered, hstage⟩ := h
  cases op with
  | tryClone | openDirNofollow | fillRandom | syncAll | openSelf | syncSelf =>
    rw [hstep.unchanged id]
    exact ⟨hdirectories, hentered, hstage⟩
  | dirMetadata directory =>
    obtain rfl := hstep.unchanged id
    cases answer with
    | error error => exact ⟨hdirectories, hentered, hstage⟩
    | ok metadata =>
      refine ⟨hdirectories, fun e he => ?_, hstage⟩
      rcases List.mem_cons.mp he with rfl | he
      · rw [← hdirectories]
        exact entered_directory hstep
      · exact hentered e he
  | openTarget name =>
    rw [hstep.unchanged id]
    rcases answer with (_ | _ | _) | file <;> exact ⟨hdirectories, hentered, hstage⟩
  | metadata file =>
    rw [hstep.unchanged id]
    cases answer <;> exact ⟨hdirectories, hentered, hstage⟩
  | readToEnd file limit =>
    rw [hstep.unchanged id]
    cases answer <;> exact ⟨hdirectories, hentered, hstage⟩
  | createNew name =>
    have hbefore : l.stage = .before := hop
    rw [hbefore] at hstage
    cases answer with
    | error error =>
      rw [not_created hstep]
      exact ⟨hdirectories, hentered, hbefore ▸ hstage⟩
    | ok file =>
      obtain ⟨hname, rfl, rfl⟩ := created_file hstep
      exact ⟨hdirectories, hentered, hstage.create hname hdistinct⟩
  | setPermissions file permissions =>
    have hnext : (l.next (.setPermissions file permissions) answer).Holds start leaf d := by
      cases answer <;> exact ⟨hdirectories, hentered, hstage⟩
    rcases updated_file hstep (Or.inl ⟨permissions, rfl⟩) with rfl | ⟨f, rfl⟩
    · exact hnext
    · exact ⟨hnext.1, hnext.2, hnext.3⟩
  | writeAll file content =>
    rcases updated_file hstep (Or.inr ⟨content, rfl⟩) with rfl | ⟨f, rfl⟩
    · exact ⟨hdirectories, hentered, hstage⟩
    · exact ⟨hdirectories, hentered, hstage⟩
  | removeFile name =>
    obtain ⟨hname, hnew, hgone⟩ := hstage.unlink hop
    cases answer with
    | ok value =>
      rw [removed_file hstep]
      exact ⟨hdirectories, hentered, hname, hnew, hgone⟩
    | error error =>
      rw [not_removed hstep]
      refine ⟨hdirectories, hentered, hname, hnew, fun hlost => ?_⟩
      rw [Ledger.next, Bool.or_true] at hlost
      cases hlost
  | rename source target =>
    have hlive := hop.1
    obtain ⟨file, hlive⟩ := hlive
    rw [hlive] at hstage
    exact ⟨(renamed_directories hstep).trans hdirectories, hentered, hstage.1, hstage.2.1,
      fun hlost => by cases hlost⟩

/-- **Only a rename changes the target.** -/
theorem target_step (h : l.Holds start leaf d) (hop : l.Allows sha256 leaf expectedDigest op)
    (hdistinct : Distinct leaf op answer) (hstep : d.Step op answer d')
    (hrename : ∀ source target, op ≠ .rename source target) : d'.target leaf = d.target leaf := by
  have hlive : ∀ {name file}, l.stage = .live name file → ∀ f,
      (d.update file f).target leaf = d.target leaf := by
    intro name file hstage f
    have hfile := h.stage
    rw [hstage] at hfile
    refine Directory.target_congr rfl fun target htarget => if_neg ?_
    rintro rfl
    exact hfile.2.2.2.1 htarget
  cases op with
  | createNew name =>
    cases answer with
    | error error => rw [not_created hstep]
    | ok file =>
      obtain ⟨-, -, rfl⟩ := created_file hstep
      have hleaf : name ≠ leaf := hdistinct
      refine Directory.target_congr (if_neg (Ne.symm hleaf)) fun file hfile => if_neg ?_
      exact (d.named_lt leaf file hfile).ne
  | setPermissions file permissions =>
    obtain ⟨name, hstage⟩ := hop
    rcases updated_file hstep (Or.inl ⟨permissions, rfl⟩) with rfl | ⟨f, rfl⟩
    · rfl
    · exact hlive hstage f
  | writeAll file content =>
    obtain ⟨name, hstage⟩ := hop
    rcases updated_file hstep (Or.inr ⟨content, rfl⟩) with rfl | ⟨f, rfl⟩
    · rfl
    · exact hlive hstage f
  | removeFile name =>
    cases answer with
    | error error => rw [not_removed hstep]
    | ok value =>
      obtain ⟨hleaf, -, -⟩ := h.stage.unlink hop
      rw [removed_file hstep]
      exact Directory.target_congr (if_neg (Ne.symm hleaf)) fun _ _ => rfl
  | rename source target => exact absurd rfl (hrename source target)
  | _ => rw [hstep.unchanged id]

/-! ## What an inspection says -/

/-- What the inspection has found is the target. -/
def Inspection.Shows (leaf : String) (d : Directory) : Inspection → Prop
  | .idle => True
  | .absent => d.target leaf = none
  | .opened file => ∃ state, d.target leaf = some (file, state)
  | .checked file metadata => ∃ state, d.target leaf = some (file, state) ∧ state.metadata = metadata
  | .read file metadata bytes => ∃ state, d.target leaf = some (file, state) ∧
    state.metadata = metadata ∧ state.content.take (maxAtomicTextBytes + 1) = bytes

theorem Inspection.shows_congr {inspection : Inspection} (h : d'.target leaf = d.target leaf)
    (hshows : inspection.Shows leaf d) : inspection.Shows leaf d' := by
  cases inspection with
  | idle => trivial
  | _ => simpa only [Inspection.Shows, h] using hshows

/-- **One call of the routine, while nothing else moves.** -/
theorem shows_step (h : l.Holds start leaf d)
    (hshows : (∀ name, op ≠ .openTarget name) → l.inspection.Shows leaf d)
    (hop : l.Allows sha256 leaf expectedDigest op) (hdistinct : Distinct leaf op answer)
    (hstep : d.Step op answer d') : (l.next op answer).inspection.Shows leaf d' := by
  cases op with
  | openTarget name =>
    obtain rfl : name = leaf := hop
    obtain rfl := hstep.unchanged id
    rcases answer with (_ | _ | _) | file
    · rw [Ledger.next, Inspection.Shows, Directory.target, absent_target hstep, Option.map_none]
    · trivial
    · trivial
    · exact ⟨_, Directory.target_of_names (opened_target hstep)⟩
  | metadata file =>
    replace hshows := hshows fun _ h => by cases h
    obtain rfl := hstep.unchanged id
    cases answer with
    | error error => exact hshows
    | ok metadata =>
      have hopened : l.inspection = .opened file := hop
      rw [hopened] at hshows
      obtain ⟨state, htarget⟩ := hshows
      obtain ⟨random, hserved⟩ := hstep.served
      refine ⟨state, htarget, ?_⟩
      rw [← (Directory.names_of_target htarget).2]
      exact Except.ok.inj (Prod.mk.inj hserved).1
  | readToEnd file limit =>
    replace hshows := hshows fun _ h => by cases h
    obtain rfl := hstep.unchanged id
    cases answer with
    | error error => exact hshows
    | ok bytes =>
      obtain ⟨rfl, metadata, hchecked⟩ := hop
      rw [hchecked] at hshows
      obtain ⟨state, htarget, hmetadata⟩ := hshows
      obtain ⟨random, hserved⟩ := hstep.served
      rw [Ledger.next, hchecked]
      refine ⟨state, htarget, hmetadata, ?_⟩
      rw [← (Directory.names_of_target htarget).2]
      exact Except.ok.inj (Prod.mk.inj hserved).1
  | rename source target => trivial
  | _ =>
    have htarget := target_step h hop hdistinct hstep fun _ _ h => by cases h
    have hsame := Inspection.shows_congr htarget (hshows fun _ h => by cases h)
    cases answer <;> exact hsame

end

/-! ## What the calls say -/

/-- The own moves of a run. -/
abbrev Moves := List (Move FileOp FileOp.Response)

/-- The move opens the target anew. -/
def Opens (move : Move FileOp FileOp.Response) : Prop := ∃ leaf, move.1 = .openTarget leaf

/-- A finished inspection. -/
def observation? : Move FileOp FileOp.Response → Option (Option (List UInt8))
  | ⟨.openTarget _, .error .notFound⟩ => some none
  | ⟨.readToEnd _ _, .ok bytes⟩ => some (some bytes)
  | _ => none

/-- The inspections of a run, with what they saw. -/
def observed (moves : Moves) : List (Option (List UInt8)) := moves.filterMap observation?

/-- The file was opened as the target, and the target was not opened again since. -/
def OpenedLast (leaf : String) (file : FileId) (moves : Moves) : Prop :=
  ∃ earlier later, moves = earlier ++ ⟨.openTarget leaf, .ok file⟩ :: later ∧
    ∀ move ∈ later, ¬ Opens move

/-- The moves that an inspection consists of. -/
def Inspection.Traced (leaf : String) (moves : Moves) : Inspection → Prop
  | .opened file | .checked file _ => OpenedLast leaf file moves
  | .read file _ bytes => ∃ earlier later,
    moves = earlier ++ ⟨.readToEnd file (maxAtomicTextBytes + 1), .ok bytes⟩ :: later ∧
      OpenedLast leaf file earlier ∧ ∀ move ∈ later, ¬ Opens move
  | _ => True

section

variable {sha256 : List UInt8 → Sha256Hex} {leaf : String} {expectedDigest : Option String}
  {l : Ledger} {op : FileOp} {answer : op.Response} {moves : Moves}

theorem observed_next :
    (l.next op answer).observed = l.observed ++ (observation? ⟨op, answer⟩).toList := by
  have hsame : l.observed = l.observed ++ [] := (List.append_nil _).symm
  cases op with
  | openTarget name =>
    rcases answer with (_ | _ | _) | file
    · rfl
    · exact hsame
    · exact hsame
    · exact hsame
  | readToEnd file limit =>
    cases answer with
    | error error => exact hsame
    | ok bytes => rfl
  | _ => cases answer <;> exact hsame

theorem observed_ghost : (Move.ghost Ledger.next l moves).observed = l.observed ++ observed moves := by
  induction moves generalizing l with
  | nil => exact (List.append_nil _).symm
  | cons move moves ih =>
    rw [Move.ghost_cons, ih, observed_next, List.append_assoc, observed, observed]
    congr 1
    cases hmove : observation? move with
    | none => rw [List.filterMap_cons_none hmove]; rfl
    | some seen => rw [List.filterMap_cons_some hmove]; rfl

theorem OpenedLast.push {file : FileId} (h : OpenedLast leaf file moves)
    (hop : ∀ name, op ≠ .openTarget name) : OpenedLast leaf file (Move.push moves op answer) := by
  obtain ⟨earlier, later, rfl, hlater⟩ := h
  refine ⟨earlier, Move.push later op answer, by simp, Move.forall_push hlater ?_⟩
  rintro ⟨name, hname⟩
  exact hop name hname

theorem Inspection.Traced.push {inspection : Inspection} (h : inspection.Traced leaf moves)
    (hop : ∀ name, op ≠ .openTarget name) :
    inspection.Traced leaf (Move.push moves op answer) := by
  cases inspection with
  | idle | absent => trivial
  | opened file => exact OpenedLast.push h hop
  | checked file metadata => exact OpenedLast.push h hop
  | read file metadata bytes =>
    obtain ⟨earlier, later, rfl, hopened, hlater⟩ := h
    refine ⟨earlier, Move.push later op answer, by simp, hopened, Move.forall_push hlater ?_⟩
    rintro ⟨name, hname⟩
    exact hop name hname

/-- **One more move.** -/
theorem traced_push (h : l.inspection.Traced leaf moves)
    (hop : l.Allows sha256 leaf expectedDigest op) :
    (l.next op answer).inspection.Traced leaf (Move.push moves op answer) := by
  cases op with
  | openTarget name =>
    obtain rfl : name = leaf := hop
    rcases answer with (_ | _ | _) | file
    · trivial
    · trivial
    · trivial
    · exact ⟨moves, [], rfl, fun _ h => absurd h List.not_mem_nil⟩
  | metadata file =>
    cases answer with
    | error error => exact h.push fun _ h => by cases h
    | ok metadata =>
      have hopened : l.inspection = .opened file := hop
      rw [hopened] at h
      exact OpenedLast.push h fun _ h => by cases h
  | readToEnd file limit =>
    cases answer with
    | error error => exact h.push fun _ h => by cases h
    | ok bytes =>
      obtain ⟨rfl, metadata, hchecked⟩ := hop
      rw [hchecked] at h
      rw [Ledger.next, hchecked]
      exact ⟨moves, [], rfl, h, fun _ h => absurd h List.not_mem_nil⟩
  | rename source target => trivial
  | _ =>
    have hpush : l.inspection.Traced leaf (Move.push moves _ answer) := h.push fun _ h => by cases h
    cases answer <;> exact hpush

theorem traced (hallowed : ∀ before op answer after, moves = before ++ ⟨op, answer⟩ :: after →
      (Move.ghost Ledger.next .start before).Allows sha256 leaf expectedDigest op) :
    (Move.ghost Ledger.next .start moves).inspection.Traced leaf moves := by
  induction moves using List.reverseRecOn with
  | nil => trivial
  | append_singleton moves move ih =>
    obtain ⟨op, answer⟩ := move
    have hbefore := ih fun before op' answer' after hsplit =>
      hallowed before op' answer' (after ++ [⟨op, answer⟩]) (by rw [hsplit]; simp)
    show (Move.ghost Ledger.next .start (Move.push moves op answer)).inspection.Traced leaf
      (Move.push moves op answer)
    rw [Move.ghost_push]
    exact traced_push hbefore (hallowed moves op answer [] rfl)

end

/-! ## Disciplined histories -/

section

variable {sha256 : List UInt8 → Sha256Hex} {leaf : String} {expectedDigest : Option String}
  {d m : Directory} {history earlier since : List (Happening FileOp FileOp.Response Unit)}

/-- The move is allowed by the ledger, and does not create the target. -/
def Ledger.Good (sha256 : List UInt8 → Sha256Hex) (leaf : String) (expectedDigest : Option String)
    (l : Ledger) (op : FileOp) (answer : op.Response) : Prop :=
  l.Allows sha256 leaf expectedDigest op ∧ Distinct leaf op answer

/-- Every own move was good. -/
def Disciplined (sha256 : List UInt8 → Sha256Hex) (leaf : String) (expectedDigest : Option String)
    (history : List (Happening FileOp FileOp.Response Unit)) : Prop :=
  ∀ before op answer after, history = before ++ .did op answer :: after →
    (Move.ghost Ledger.next .start (Happening.own before)).Good sha256 leaf expectedDigest op answer

theorem Disciplined.initial (h : Disciplined sha256 leaf expectedDigest (earlier ++ since)) :
    Disciplined sha256 leaf expectedDigest earlier := by
  rintro before op answer after rfl
  exact h before op answer (after ++ since) (by simp)

/-- **The ledger is right about the directory.** -/
theorem Disciplined.holds (h : Disciplined sha256 leaf expectedDigest history)
    (ht : Trace (fileSystem leaf) d history m) :
    (Move.ghost Ledger.next .start (Happening.own history)).Holds d leaf m :=
  ht.ghost_invariant h Ledger.holds_start
    (fun _ _ _ _ _ hholds hgood hstep => hholds.step hgood.1 hgood.2 hstep)
    fun _ _ _ _ hholds hforeign => hholds.foreign hforeign

/-- **The last inspection is right about the target**, while nothing else moves. -/
theorem Disciplined.shows {name : String} {answer : (FileOp.openTarget name).Response}
    (h : Disciplined sha256 leaf expectedDigest (earlier ++ .did (.openTarget name) answer :: since))
    (ht : Trace (fileSystem leaf) d (earlier ++ .did (.openTarget name) answer :: since) m)
    (hquiet : Happening.Quiet since) :
    (Move.ghost Ledger.next .start (Happening.own
      (earlier ++ .did (.openTarget name) answer :: since))).inspection.Shows leaf m := by
  obtain ⟨m₁, m₂, hearlier, hstep, hsince⟩ := ht.split_did
  have hholds := h.initial.holds hearlier
  obtain ⟨hop, hdistinct⟩ := h earlier _ answer since rfl
  have hopened := shows_step hholds (fun hopen => absurd rfl (hopen name)) hop hdistinct hstep
  have hgood : ∀ before op answer' after, since = before ++ .did op answer' :: after →
      (Move.ghost Ledger.next
        ((Move.ghost Ledger.next .start (Happening.own earlier)).next (.openTarget name) answer)
        (Happening.own before)).Good sha256 leaf expectedDigest op answer' := by
    intro before op answer' after hsplit
    have hgood := h (earlier ++ .did (.openTarget name) answer :: before) op answer' after
      (by rw [hsplit]; simp)
    rwa [Happening.own_append, Happening.own_did, Move.ghost_append, Move.ghost_cons] at hgood
  have hinvariant := (hsince.alone hquiet).ghost_invariant 
    (I := fun l m => l.Holds d leaf m ∧ l.inspection.Shows leaf m)
    hgood ⟨hholds.step hop hdistinct hstep, hopened⟩
    (fun _ _ _ _ _ hI hgood hstep => ⟨hI.1.step hgood.1 hgood.2 hstep,
      shows_step hI.1 (fun _ => hI.2) hgood.1 hgood.2 hstep⟩)
    fun _ _ _ _ _ hother => hother.elim
  rw [Happening.own_append, Happening.own_did, Move.ghost_append, Move.ghost_cons]
  exact hinvariant.2

theorem Disciplined.traced (h : Disciplined sha256 leaf expectedDigest history) :
    (Move.ghost Ledger.next .start (Happening.own history)).inspection.Traced leaf
      (Happening.own history) := by
  refine AtomicCommit.traced fun before op answer after hsplit =>
    (?_ : (Move.ghost Ledger.next .start before).Allows sha256 leaf expectedDigest op)
  obtain ⟨earlier, later, hhistory, rfl, -⟩ := Happening.own_split hsplit
  exact (h earlier op answer later hhistory).1

end

/-! ## Flags -/

section

variable {l : Ledger} {moves : Moves}

def isRename : Move FileOp FileOp.Response → Bool
  | ⟨.rename _ _, _⟩ => true
  | _ => false

/-- The temporary file gets the name of the target. -/
def createsTarget (leaf : String) : Move FileOp FileOp.Response → Bool
  | ⟨.createNew name, .ok _⟩ => name == leaf
  | _ => false

/-- A failed call to copy the permissions. -/
def failsPermissions : Move FileOp FileOp.Response → Bool
  | ⟨.setPermissions _ _, .error _⟩ => true
  | _ => false

/-- A failed call to remove a file. -/
def failsRemoval : Move FileOp FileOp.Response → Bool
  | ⟨.removeFile _, .error _⟩ => true
  | _ => false

theorem distinct_of_createsTarget {leaf : String} {op : FileOp} {answer : op.Response}
    (h : createsTarget leaf ⟨op, answer⟩ = false) : Distinct leaf op answer := by
  cases op with
  | createNew name =>
    cases answer with
    | error error => trivial
    | ok file => exact ne_of_beq_false h
  | _ => trivial

theorem renamed_ghost : (Move.ghost Ledger.next l moves).renamed = (l.renamed || moves.any isRename) := by
  refine Move.ghost_flag (fun l op answer => ?_) moves
  cases op with
  | rename source target => exact (Bool.or_true _).symm
  | openTarget name => rcases answer with (_ | _ | _) | file <;> exact (Bool.or_false _).symm
  | _ => cases answer <;> exact (Bool.or_false _).symm

theorem permissionsFailed_ghost : (Move.ghost Ledger.next l moves).permissionsFailed =
    (l.permissionsFailed || moves.any failsPermissions) := by
  refine Move.ghost_flag (fun l op answer => ?_) moves
  cases op with
  | setPermissions file permissions =>
    cases answer with
    | error error => exact (Bool.or_true _).symm
    | ok value => exact (Bool.or_false _).symm
  | openTarget name => rcases answer with (_ | _ | _) | file <;> exact (Bool.or_false _).symm
  | _ => cases answer <;> exact (Bool.or_false _).symm

theorem removalFailed_ghost : (Move.ghost Ledger.next l moves).removalFailed =
    (l.removalFailed || moves.any failsRemoval) := by
  refine Move.ghost_flag (fun l op answer => ?_) moves
  cases op with
  | removeFile name =>
    cases answer with
    | error error => exact (Bool.or_true _).symm
    | ok value => exact (Bool.or_false _).symm
  | openTarget name => rcases answer with (_ | _ | _) | file <;> exact (Bool.or_false _).symm
  | _ => cases answer <;> exact (Bool.or_false _).symm

end

/-! ## Running the same request again -/

section

variable {sha256 : List UInt8 → Sha256Hex} {platform : Platform} {random : Vector UInt8 16}
  {d : Directory} {leaf : String}

/-- The file system without faults. -/
abbrev reliable (random : Vector UInt8 16) (d : Directory) (op : FileOp) : op.Response × Directory :=
  d.serve random op

/-- Nobody else is there. -/
abbrev nobody (_ : Directory) (_ : FileOp) : Option (Unit × Directory) := none

theorem reliable_step (random : Vector UInt8 16) (d : Directory) (op : FileOp) :
    d.Step op (reliable random d op).1 (reliable random d op).2 :=
  Or.inl ⟨random, rfl⟩

theorem exec_alone {host : Directory → (op : FileOp) → op.Response × Directory} (leaf : String)
    (hhost : ∀ (d : Directory) (op : FileOp), d.Step op (host d op).1 (host d op).2) (p : Commit Bool) (d : Directory) :
    Exec (fileSystem leaf) p d (p.run host nobody d).1 (p.run host nobody d).2.1
      (some (p.run host nobody d).2.2) :=
  Prog.exec_run hhost (fun _ _ _ _ h => by cases h) p d

theorem run_ask {op : FileOp} {failure : AtomicCommitFailure} {value : op.Value}
    (h : d.serve random op = (.ok value, d)) :
    ((ask op failure).run (reliable random) nobody d).2 = (d, .ok value) := by
  unfold ask
  simp only [Prog.perform, bind, Prog.bind, Prog.run, h]
  rfl

theorem run_openParents {entered : List (List String × FileMetadata)} {opened parents : List String}
    (hentered : ∀ e ∈ entered, d.directories e.1 = some e.2)
    (hwalked : Walked platform entered opened parents) :
    ((openParents platform opened parents).run (reliable random) nobody d).2 = (d, .ok ()) := by
  induction parents generalizing opened with
  | nil => rfl
  | cons component parents ih =>
    obtain ⟨⟨metadata, hmem, hpoint⟩, hwalked⟩ := hwalked
    have hdirectory : d.directories (opened ++ [component]) = some metadata := hentered _ hmem
    have hopen : d.serve random (.openDirNofollow opened component) = (.ok (), d) := by
      simp [Directory.serve, hdirectory]
    have hmetadata : d.serve random (.dirMetadata (opened ++ [component])) = (.ok metadata, d) := by
      simp [Directory.serve, hdirectory]
    rw [openParents, Prog.run_bind (run_ask hopen), Prog.run_bind (run_ask hmetadata)]
    simp only [hpoint, Bool.false_eq_true]
    exact ih hwalked

theorem run_openParent {path : RelativePath} {l : Ledger}
    (hentered : ∀ e ∈ l.entered, d.directories e.1 = some e.2)
    (hlocated : l.Located platform path leaf) :
    ((openParent platform path).run (reliable random) nobody d).2 = (d, .ok leaf) := by
  rw [openParent, hlocated.1]
  show (((ask .tryClone .openParent) >>= _).run (reliable random) nobody d).2 = _
  rw [Prog.run_bind (run_ask (show d.serve random .tryClone = (.ok (), d) from rfl)),
    Prog.run_bind (run_openParents hentered hlocated.2)]
  rfl

theorem run_inspectTarget {file : FileId} {metadata : FileMetadata} {bytes : List UInt8}
    (hshows : (Inspection.read file metadata bytes).Shows leaf d) (hfile : metadata.isFile = true)
    (hpoint : isWindowsReparsePoint platform metadata = false)
    (hlength : bytes.length ≤ maxAtomicTextBytes) :
    ((inspectTarget sha256 platform leaf).run (reliable random) nobody d).2 =
      (d, .ok (some ⟨sha256Digest (sha256 bytes), metadata.permissions⟩)) := by
  obtain ⟨state, htarget, rfl, rfl⟩ := hshows
  obtain ⟨hname, rfl⟩ := Directory.names_of_target htarget
  have hopen : d.serve random (.openTarget leaf) = (.ok file, d) := by
    simp [Directory.serve, hname]
  have hrun : ((Prog.perform (.openTarget leaf) : Commit _).run (reliable random) nobody d).2 =
      (d, .ok (.ok file)) := by
    simp only [Prog.perform, Prog.run, hopen]
  rw [inspectTarget, Prog.run_bind hrun]
  show ((ask (.metadata file) .inspectTarget >>= _).run (reliable random) nobody d).2 = _
  rw [Prog.run_bind (run_ask rfl)]
  simp only [hfile, hpoint, Bool.true_eq_false, Bool.false_eq_true, or_self]
  show ((ask (.readToEnd file _) .inspectTarget >>= _).run (reliable random) nobody d).2 = _
  rw [Prog.run_bind (run_ask rfl)]
  simp only [Outcome.failIf, not_lt.mpr hlength, if_false]
  rfl

end

/-! ## The laws -/

/-- The content of the target. -/
def Directory.content (d : Directory) (leaf : String) : Option (List UInt8) :=
  (d.target leaf).map fun target => target.2.content

/-- In a run from `d`, the bytes read after `before` are what the file held that the target named when
it was opened last. -/
def ReadsTarget (leaf : String) (d : Directory)
    (before : List (Happening FileOp FileOp.Response Unit)) (file : FileId) (limit : ℕ)
    (bytes : List UInt8) : Prop :=
  ∃ earlier between m m', before = earlier ++ .did (.openTarget leaf) (.ok file) :: between ∧
    (∀ move ∈ Happening.own between, ¬ Opens move) ∧ Trace (fileSystem leaf) d earlier m ∧
    m.names leaf = some file ∧
    Trace (fileSystem leaf) m (.did (.openTarget leaf) (.ok file) :: between) m' ∧
    (m'.files file).content.take limit = bytes

/-- What a run of the routine does. -/
structure CommitLaws (sha256 : List UInt8 → Sha256Hex) (platform : Platform) (path : RelativePath)
    (content : List UInt8) (expectedDigest : Option String) (desiredDigest : String)
    (d d' : Directory) (history : List (Happening FileOp FileOp.Response Unit))
    (outcome : Option (Outcome AtomicCommitFailure Bool)) : Prop where
  /-- What is read is the target. -/
  reads : ∀ before file limit bytes after,
    history = before ++ .did (.readToEnd file limit) (.ok bytes) :: after →
      ReadsTarget path.leaf d before file limit bytes
  /-- What is found to be absent is so. -/
  absent : ∀ before after m, history = before ++ .did (.openTarget path.leaf) (.error .notFound) :: after →
    ∀ m', Trace (fileSystem path.leaf) d before m →
      m.Step (.openTarget path.leaf) (.error .notFound) m' → m.names path.leaf = none
  /-- A call that changes the target is a rename after two inspections that met the expectation, and
  the target is still what the second one saw, when nothing else moved. -/
  replaces : ∀ before op answer after m m', history = before ++ .did op answer :: after →
    Trace (fileSystem path.leaf) d before m → m.Step op answer m' →
      m'.target path.leaf ≠ m.target path.leaf →
        (∃ name, op = .rename name path.leaf) ∧ ∃ first second,
          observed (Happening.own before) = [first, second] ∧
            Meets sha256 expectedDigest first ∧ Meets sha256 expectedDigest second ∧
            ∀ earlier answer since, before = earlier ++ .did (.openTarget path.leaf) answer :: since →
              Happening.Quiet since → m.content path.leaf = second
  /-- After a definite failure, no call has changed the target. -/
  untouched : ∀ failure, outcome = some (Outcome.fail failure) → failure.outcomeIsUnknown = false →
    ∀ before op answer after m m', history = before ++ .did op answer :: after →
      Trace (fileSystem path.leaf) d before m → m.Step op answer m' →
        m'.target path.leaf = m.target path.leaf
  /-- After a definite failure, no temporary file is left, unless the permissions could not be
  copied. -/
  clean : ∀ failure, outcome = some (Outcome.fail failure) → failure.outcomeIsUnknown = false →
    (∀ move ∈ Happening.own history, failsRemoval move = false) →
      (SameNames path.leaf d d' ↔ ∀ move ∈ Happening.own history, failsPermissions move = false)
  /-- After a success, the target was last seen with the digest. -/
  committed : ∀ changed, outcome = some (.ok changed) → ∃ before file bytes after,
    history = before ++ .did (.readToEnd file (maxAtomicTextBytes + 1)) (.ok bytes) :: after ∧
      (∀ move ∈ Happening.own after, ¬ Opens move) ∧ bytes.length ≤ maxAtomicTextBytes ∧
      sha256Digest (sha256 bytes) = desiredDigest
  /-- After a success, the same request has nothing to do. -/
  again : ∀ changed earlier answer since random, outcome = some (.ok changed) →
    history = earlier ++ .did (.openTarget path.leaf) answer :: since → Happening.Quiet since →
      ((commitAtomic sha256 platform path content expectedDigest desiredDigest).run
        (reliable random) nobody d').2 = (d', .ok false)

section

variable {sha256 : List UInt8 → Sha256Hex} {platform : Platform} {path : RelativePath}
  {content : List UInt8} {expectedDigest : Option String} {desiredDigest leaf : String}
  {d d' m m' : Directory} {history before after : List (Happening FileOp FileOp.Response Unit)}
  {outcome : Option (Outcome AtomicCommitFailure Bool)}

theorem disciplined (hrun : Exec (fileSystem path.leaf)
      (commitAtomic sha256 platform path content expectedDigest desiredDigest) d history d' outcome)
    (hdistinct : ∀ move ∈ Happening.own history, createsTarget path.leaf move = false) :
    Disciplined sha256 path.leaf expectedDigest history := by
  intro before op answer after hsplit
  refine ⟨(hrun.ghost commitAtomic_sat).1 before op answer after hsplit, ?_⟩
  refine distinct_of_createsTarget (hdistinct ⟨op, answer⟩ ?_)
  rw [hsplit, Happening.own_append, Happening.own_did]
  exact List.mem_append_right _ List.mem_cons_self

theorem Disciplined.reads {file : FileId} {limit : ℕ} {bytes : List UInt8}
    (h : Disciplined sha256 leaf expectedDigest
      (before ++ .did (.readToEnd file limit) (.ok bytes) :: after))
    (ht : Trace (fileSystem leaf) d (before ++ .did (.readToEnd file limit) (.ok bytes) :: after) d') :
    ReadsTarget leaf d before file limit bytes := by
  obtain ⟨⟨-, metadata, hchecked⟩, -⟩ := h before _ _ after rfl
  have htraced := h.initial.traced
  rw [hchecked] at htraced
  obtain ⟨earlier, later, hmoves, hlater⟩ := htraced
  obtain ⟨first, between, rfl, -, rfl⟩ := Happening.own_split hmoves
  obtain ⟨m', m'', hbefore, hread, -⟩ := ht.split_did
  obtain ⟨m, m₁, hfirst, hopen, hbetween⟩ := hbefore.split_did
  obtain ⟨random, hserved⟩ := Directory.Step.served hread
  exact ⟨first, between, m, m', rfl, hlater, hfirst, opened_target hopen, .did hopen hbetween,
    Except.ok.inj (Prod.mk.inj hserved).1⟩

theorem content_of_shows {inspection : Inspection} {seen : Option (List UInt8)}
    (h : inspection.Shows leaf d) (hresult : inspection.result = some seen)
    (hmeets : Meets sha256 expectedDigest seen) : d.content leaf = seen := by
  cases inspection with
  | idle => cases hresult
  | opened file => cases hresult
  | checked file metadata => cases hresult
  | absent =>
    obtain rfl := Option.some.inj hresult
    have htarget : d.target leaf = none := h
    rw [Directory.content, htarget, Option.map_none]
  | read file metadata bytes =>
    obtain rfl := Option.some.inj hresult
    obtain ⟨state, htarget, -, hbytes⟩ := h
    have hlength := congrArg List.length hbytes
    rw [List.length_take] at hlength
    have hwhole : state.content.length ≤ maxAtomicTextBytes + 1 := by
      have hle := hmeets.1
      omega
    rw [List.take_of_length_le hwhole] at hbytes
    rw [Directory.content, htarget, Option.map_some, hbytes]

theorem Disciplined.replaces {op : FileOp} {answer : op.Response}
    (h : Disciplined sha256 leaf expectedDigest (before ++ .did op answer :: after))
    (ht : Trace (fileSystem leaf) d before m) (hstep : m.Step op answer m')
    (hchanged : m'.target leaf ≠ m.target leaf) :
    (∃ name, op = .rename name leaf) ∧ ∃ first second,
      observed (Happening.own before) = [first, second] ∧
        Meets sha256 expectedDigest first ∧ Meets sha256 expectedDigest second ∧
        ∀ earlier answer since, before = earlier ++ .did (.openTarget leaf) answer :: since →
          Happening.Quiet since → m.content leaf = second := by
  obtain ⟨hop, hdistinct⟩ := h before op answer after rfl
  have hrename : ∃ source target, op = .rename source target := by
    by_contra hother
    exact hchanged (target_step (h.initial.holds ht) hop hdistinct hstep fun source target heq =>
      hother ⟨source, target, heq⟩)
  obtain ⟨source, target, rfl⟩ := hrename
  obtain ⟨-, rfl, first, second, hobserved, hresult, hfirst, hsecond⟩ := hop
  rw [observed_ghost] at hobserved
  refine ⟨⟨source, rfl⟩, first, second, hobserved, hfirst, hsecond, ?_⟩
  rintro earlier answer since rfl hquiet
  exact content_of_shows (h.initial.shows ht hquiet) hresult hsecond

theorem Disciplined.committed (h : Disciplined sha256 leaf expectedDigest history)
    (hcommitted : (Move.ghost Ledger.next .start (Happening.own history)).Committed sha256 platform
      desiredDigest) :
    ∃ before file bytes after,
      history = before ++ .did (.readToEnd file (maxAtomicTextBytes + 1)) (.ok bytes) :: after ∧
        (∀ move ∈ Happening.own after, ¬ Opens move) ∧ bytes.length ≤ maxAtomicTextBytes ∧
        sha256Digest (sha256 bytes) = desiredDigest := by
  obtain ⟨file, metadata, bytes, hread, -, -, hlength, hdigest⟩ := hcommitted
  have htraced := h.traced
  rw [hread] at htraced
  obtain ⟨earlier, later, hmoves, -, hlater⟩ := htraced
  obtain ⟨before, after, hhistory, -, rfl⟩ := Happening.own_split hmoves
  exact ⟨before, file, bytes, after, hhistory, hlater, hlength, hdigest⟩

theorem Disciplined.again {earlier since : List (Happening FileOp FileOp.Response Unit)}
    {answer : (FileOp.openTarget leaf).Response} {random : Vector UInt8 16}
    (h : Disciplined sha256 leaf expectedDigest
      (earlier ++ .did (.openTarget leaf) answer :: since))
    (ht : Trace (fileSystem leaf) d (earlier ++ .did (.openTarget leaf) answer :: since) d')
    (hquiet : Happening.Quiet since)
    (hlocated : (Move.ghost Ledger.next .start (Happening.own
      (earlier ++ .did (.openTarget leaf) answer :: since))).Located platform path leaf)
    (hcommitted : (Move.ghost Ledger.next .start (Happening.own
      (earlier ++ .did (.openTarget leaf) answer :: since))).Committed sha256 platform
        desiredDigest) :
    ((commitAtomic sha256 platform path content expectedDigest desiredDigest).run
      (reliable random) nobody d').2 = (d', .ok false) := by
  have hshows := h.shows ht hquiet
  have hholds := h.holds ht
  obtain ⟨file, metadata, bytes, hread, hfile, hpoint, hlength, hdigest⟩ := hcommitted
  rw [hread] at hshows
  have hentered : ∀ e ∈ (Move.ghost Ledger.next .start (Happening.own
      (earlier ++ .did (.openTarget leaf) answer :: since))).entered,
      d'.directories e.1 = some e.2 := by
    rw [hholds.directories]
    exact hholds.entered
  rw [commitAtomic, Prog.run_bind (run_openParent hentered hlocated),
    Prog.run_bind (run_inspectTarget hshows hfile hpoint hlength)]
  have hdone : hasDigest (some ⟨sha256Digest (sha256 bytes), metadata.permissions⟩) desiredDigest =
      true := by
    rw [hasDigest, Option.any_some, hdigest]
    exact beq_self_eq_true _
  rw [if_pos hdone]
  rfl

/-- **Atomic commits.** -/
theorem atomic_commit_laws (hrun : Exec (fileSystem path.leaf)
      (commitAtomic sha256 platform path content expectedDigest desiredDigest) d history d' outcome)
    (hdistinct : ∀ move ∈ Happening.own history, createsTarget path.leaf move = false) :
    CommitLaws sha256 platform path content expectedDigest desiredDigest d d' history outcome := by
  have h := disciplined hrun hdistinct
  have hpost := (hrun.ghost commitAtomic_sat).2
  refine ⟨?_, ?_, ?_, ?_, ?_, ?_, ?_⟩
  · rintro before file limit bytes after rfl
    exact h.reads hrun.trace
  · exact fun _ _ _ _ _ _ hstep => absent_target hstep
  · rintro before op answer after m m' rfl ht hstep hchanged
    exact h.replaces ht hstep hchanged
  · rintro failure rfl hdefinite before op answer after m m' rfl ht hstep
    obtain ⟨hop, hdistinct⟩ := h before op answer after rfl
    refine target_step (h.initial.holds ht) hop hdistinct hstep fun source target hrename => ?_
    have hrenamed : (Move.ghost Ledger.next .start
        (Happening.own (before ++ .did op answer :: after))).renamed = false := by
      rcases hpost _ rfl hdefinite with ⟨⟨hrenamed, -⟩, -⟩ | ⟨hrenamed, -⟩ <;> exact hrenamed
    rw [renamed_ghost, Bool.or_eq_false_iff, List.any_eq_false] at hrenamed
    subst hrename
    exact hrenamed.2 ⟨.rename source target, answer⟩ (by simp) rfl
  · rintro failure rfl hdefinite hremoved
    have hholds := (h.holds hrun.trace).stage
    have hlost : (Move.ghost Ledger.next .start (Happening.own history)).removalFailed = false := by
      rw [removalFailed_ghost, List.any_eq_false.mpr fun move hmove => by simp [hremoved move hmove]]
      rfl
    have hflag : (Move.ghost Ledger.next .start (Happening.own history)).permissionsFailed = _ :=
      permissionsFailed_ghost
    rcases hpost _ rfl hdefinite with ⟨⟨hrenamed, hcopied⟩, hstage⟩ | ⟨-, hfailed, name, file, hlive⟩
    · rw [hcopied, eq_comm, Bool.or_eq_false_iff, List.any_eq_false] at hflag
      refine iff_of_true ?_ fun move hmove => Bool.eq_false_iff.mpr (hflag.2 move hmove)
      rcases hstage with hstage | ⟨name, hstage⟩
      · rwa [hstage] at hholds
      · rw [hstage, hrenamed, hlost] at hholds
        exact hholds.2.2 rfl
    · rw [hlive] at hholds
      obtain ⟨hname, hnew, htemporary, -, -⟩ := hholds
      rw [hfailed, eq_comm, Bool.or_eq_true, List.any_eq_true] at hflag
      obtain hstart | ⟨move, hmove, hfails⟩ := hflag
      · cases hstart
      · refine iff_of_false (fun hsame => ?_) fun hcopied => ?_
        · rw [hsame name hname, hnew] at htemporary
          cases htemporary
        · rw [hcopied move hmove] at hfails
          cases hfails
  · rintro changed rfl
    exact h.committed (hpost _ rfl).2
  · rintro changed earlier answer since random rfl rfl hquiet
    exact h.again hrun.trace hquiet (hpost _ rfl).1 (hpost _ rfl).2

end

/-- A hash that tells two texts apart. -/
def parityHash (text : List UInt8) : Sha256Hex :=
  if text.length % 2 = 0 then ⟨String.ofList (List.replicate 64 '0'), by decide +kernel⟩
  else ⟨String.ofList (List.replicate 64 '1'), by decide⟩

/-- A directory with one file, of one byte. -/
def oneFile : Directory where
  names name := if name = "notes" then some 0 else none
  files _ := ⟨[7], ⟨true, 0, 420⟩⟩
  fresh := 1
  named_lt name file h := by
    split at h
    · exact (Option.some.inj h) ▸ Nat.zero_lt_one
    · cases h
  directories _ := none

def noRandom : Vector UInt8 16 := Vector.replicate 16 0

/-- The request to replace it. -/
def replaceNotes : Commit Bool :=
  commitAtomic parityHash .unix ⟨["notes"]⟩ [] (some (sha256Digest (parityHash [7])))
    (sha256Digest (parityHash []))

/-- The file is replaced, and the same request has nothing to do then. -/
theorem atomic_commit_sample : ∃ history d',
    Exec (fileSystem "notes") replaceNotes oneFile history d' (some (.ok true)) ∧
      CommitLaws parityHash .unix ⟨["notes"]⟩ [] (some (sha256Digest (parityHash [7])))
        (sha256Digest (parityHash [])) oneFile d' history (some (.ok true)) := by
  have hrun := exec_alone "notes" (reliable_step noRandom) replaceNotes oneFile
  have hdone : (replaceNotes.run (reliable noRandom) nobody oneFile).2.2 = .ok true := by
    decide
  have hdistinct : ∀ move ∈ Happening.own (replaceNotes.run (reliable noRandom) nobody oneFile).1,
      createsTarget "notes" move = false := by
    decide
  rw [hdone] at hrun
  exact ⟨_, _, hrun, atomic_commit_laws hrun hdistinct⟩

/-- The file system when the permissions cannot be changed. -/
def fixedPermissions (d : Directory) : (op : FileOp) → op.Response × Directory
  | .setPermissions _ _ => (.error .other, d)
  | op => d.serve noRandom op

theorem fixedPermissions_step (d : Directory) (op : FileOp) :
    d.Step op (fixedPermissions d op).1 (fixedPermissions d op).2 := by
  cases op with
  | setPermissions file permissions => exact Or.inr ⟨rfl, rfl⟩
  | _ => exact Or.inl ⟨noRandom, rfl⟩

/-- **A temporary file is left behind** when the permissions of the target cannot be copied to it. -/
theorem temporary_left_behind : ¬ ∀ (sha256 : List UInt8 → Sha256Hex) (platform : Platform)
    (path : RelativePath) (content : List UInt8) (expectedDigest : Option String)
    (desiredDigest : String) (d d' : Directory)
    (history : List (Happening FileOp FileOp.Response Unit)) (failure : AtomicCommitFailure),
    Exec (fileSystem path.leaf)
      (commitAtomic sha256 platform path content expectedDigest desiredDigest) d history d'
      (some (Outcome.fail failure)) → failure.outcomeIsUnknown = false →
        (∀ move ∈ Happening.own history, failsRemoval move = false) →
          ∀ name, name ≠ path.leaf → d'.names name = d.names name := by
  intro hall
  have hrun := exec_alone "notes" fixedPermissions_step replaceNotes oneFile
  have hfailed : (replaceNotes.run fixedPermissions nobody oneFile).2.2 =
      Outcome.fail .writeTemporary := by
    decide
  have hremovals : ∀ move ∈ Happening.own (replaceNotes.run fixedPermissions nobody oneFile).1,
      failsRemoval move = false := by
    decide
  have hleft : (replaceNotes.run fixedPermissions nobody oneFile).2.1.names (temporaryName noRandom) ≠
      oneFile.names (temporaryName noRandom) := by
    decide
  rw [hfailed] at hrun
  exact hleft (hall parityHash .unix ⟨["notes"]⟩ [] (some (sha256Digest (parityHash [7])))
    (sha256Digest (parityHash [])) oneFile _ _ .writeTemporary hrun rfl hremovals
    (temporaryName noRandom) (by decide))

end Xgeny.AtomicCommit
