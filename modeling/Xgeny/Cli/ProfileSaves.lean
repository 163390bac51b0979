import Xgeny.Cli.ProfileStore
import Xgeny.Provider.Builders

set_option autoImplicit false

/-!
# What a save does

Every run of `save` keeps what its ledger says, whatever fails and whatever other processes do to the
profile file.

* `Ledger.Holds`, `Ledger.Holds.step`: what holds of the machine along a run;
* **`target_step`**: only a rename changes the profile file;
* `Shows`, `Disciplined.shows`, `QuietSinceReading`: what the last reading says while nothing else
  moves;
* `SafeFailure`, `SaveLaws`, **`profile_save_laws`**: what a run does;
* **`temporary_profile_left`**: when the directory cannot be opened, the temporary file stays.
-/

namespace Xgeny.ProfileStore

open AtomicCommit (Directory FileId FileOp FileMetadata IoError Stage SameNames)
open Prog (Sat)

/-! ## Single calls -/

section

variable {m m' : Machine} {op : StoreOp} {answer : op.Response}

/-- The call changes the machine. -/
def StoreOp.Changes : StoreOp → Prop
  | .createNew _ | .writeAll _ _ | .removeFile _ | .rename _ | .assignSourceDigest _ => True
  | _ => False

theorem step_unchanged (h : m.Step op answer m') (hop : ¬ op.Changes) : m' = m := by
  rcases h with ⟨random, h⟩ | ⟨-, h⟩
  · cases op with
    | createNew | writeAll | removeFile | rename | assignSourceDigest => exact absurd trivial hop
    | _ => exact (Prod.mk.inj h).2.symm
  · cases op with
    | createNew | writeAll | removeFile | rename | assignSourceDigest => exact absurd trivial hop
    | _ => exact h

theorem step_served {value : op.Value} (h : m.Step op (.ok value) m') :
    ∃ random, m.serve random op = (.ok value, m') := by
  rcases h with h | ⟨h, -⟩
  · exact h
  · cases h

theorem step_createNew {name : String} {answer : (StoreOp.createNew name).Response}
    (h : m.Step (.createNew name) answer m') :
    m.directory.Step (FileOp.createNew name) answer m'.directory ∧
      m'.sourceDigest = m.sourceDigest := by
  rcases h with ⟨random, h⟩ | ⟨rfl, rfl⟩
  · simp only [Machine.serve] at h
    by_cases hname : (m.directory.names name).isSome
    · rw [if_pos hname] at h
      obtain ⟨rfl, rfl⟩ := Prod.mk.inj h
      exact ⟨Or.inl ⟨random, if_pos hname⟩, rfl⟩
    · rw [if_neg hname] at h
      obtain ⟨rfl, rfl⟩ := Prod.mk.inj h
      exact ⟨Or.inl ⟨random, if_neg hname⟩, rfl⟩
  · exact ⟨Or.inr ⟨rfl, rfl⟩, rfl⟩

theorem step_writeAll {file : FileId} {content : List UInt8}
    {answer : (StoreOp.writeAll file content).Response} (h : m.Step (.writeAll file content) answer m') :
    (∃ f, m'.directory = m.directory.update file f) ∧ m'.sourceDigest = m.sourceDigest := by
  rcases h with ⟨random, h⟩ | ⟨-, content', rfl⟩
  · obtain ⟨-, rfl⟩ := Prod.mk.inj h
    exact ⟨⟨fun f => { f with content := content }, rfl⟩, rfl⟩
  · exact ⟨⟨fun f => { f with content := content' }, rfl⟩, rfl⟩

theorem step_removeFile {name : String} {answer : (StoreOp.removeFile name).Response}
    (h : m.Step (.removeFile name) answer m') :
    m.directory.Step (FileOp.removeFile name) answer m'.directory ∧
      m'.sourceDigest = m.sourceDigest := by
  rcases h with ⟨random, h⟩ | ⟨rfl, rfl⟩
  · simp only [Machine.serve] at h
    by_cases hname : (m.directory.names name).isSome
    · rw [if_pos hname] at h
      obtain ⟨rfl, rfl⟩ := Prod.mk.inj h
      exact ⟨Or.inl ⟨random, if_pos hname⟩, rfl⟩
    · rw [if_neg hname] at h
      obtain ⟨rfl, rfl⟩ := Prod.mk.inj h
      exact ⟨Or.inl ⟨random, if_neg hname⟩, rfl⟩
  · exact ⟨Or.inr ⟨rfl, rfl⟩, rfl⟩

theorem step_rename {source : String} {answer : (StoreOp.rename source).Response}
    (h : m.Step (.rename source) answer m') : m'.sourceDigest = m.sourceDigest ∧
      (answer = .ok () → m'.directory = m.directory.move source profileFile) := by
  rcases h with ⟨random, h⟩ | ⟨rfl, rfl | ⟨-, rfl⟩⟩
  · simp only [Machine.serve] at h
    by_cases hname : (m.directory.names source).isSome
    · rw [if_pos hname] at h
      obtain ⟨rfl, rfl⟩ := Prod.mk.inj h
      exact ⟨rfl, fun _ => rfl⟩
    · rw [if_neg hname] at h
      obtain ⟨rfl, rfl⟩ := Prod.mk.inj h
      exact ⟨rfl, fun h => by cases h⟩
  · exact ⟨rfl, fun h => by cases h⟩
  · exact ⟨rfl, fun h => by cases h⟩

theorem step_assign {digest : String} {answer : (StoreOp.assignSourceDigest digest).Response}
    (h : m.Step (.assignSourceDigest digest) answer m') :
    m' = { m with sourceDigest := some digest } := by
  rcases h with ⟨random, h⟩ | ⟨-, h⟩
  · exact (Prod.mk.inj h).2.symm
  · exact h.elim

theorem absent_of_metadata (h : m.Step .symlinkMetadata (.error .notFound) m') :
    m.content = none := by
  rcases h with ⟨random, h⟩ | ⟨h, -⟩
  · have hanswer := (Prod.mk.inj h).1
    unfold Machine.content Directory.content Directory.target
    cases hname : m.directory.names profileFile with
    | none => rfl
    | some file => simp [Machine.metadata, hname] at hanswer
  · cases h

theorem content_of_read {limit : ℕ} {bytes : List UInt8}
    (h : m.Step (.readToEnd limit) (.ok bytes) m') :
    m.content.map (List.take limit) = some bytes := by
  obtain ⟨random, h⟩ := step_served h
  have hanswer := (Prod.mk.inj h).1
  unfold Machine.content Directory.content Directory.target
  cases hname : m.directory.names profileFile with
  | none => simp [hname] at hanswer
  | some file => simpa [hname] using hanswer

end

/-! ## What holds along a run -/

structure Ledger.Holds (start : Machine) (l : Ledger) (m : Machine) : Prop where
  stage : l.stage.Holds start.directory profileFile (l.renamed || l.removalFailed) m.directory
  sourceDigest : m.sourceDigest = l.assigned.or start.sourceDigest

section

variable {sha256 : List UInt8 → Sha256Hex} {platform : AtomicCommit.Platform}
  {sourceDigest : Option String} {l : Ledger} {start m m' : Machine} {op : StoreOp}
  {answer : op.Response}

theorem Ledger.holds_start : Ledger.start.Holds start start := ⟨fun _ _ => rfl, rfl⟩

theorem Ledger.Holds.foreign (h : l.Holds start m) (hforeign : m.Foreign m') : l.Holds start m' :=
  ⟨h.stage.foreign hforeign.directory, hforeign.sourceDigest.trans h.sourceDigest⟩

theorem Ledger.holds_next :
    (l.next platform op answer).Holds start m ↔ (l.record op answer).Holds start m :=
  ⟨fun h => ⟨h.stage, h.sourceDigest⟩, fun h => ⟨h.stage, h.sourceDigest⟩⟩

/-- **One call of the routine.** -/
theorem Ledger.Holds.step (h : l.Holds start m) (hop : l.Allows sha256 sourceDigest op)
    (hstep : m.Step op answer m') : (l.next platform op answer).Holds start m' := by
  rw [Ledger.holds_next]
  obtain ⟨hstage, hdigest⟩ := h
  cases op with
  | ensurePrivateRoot | inspectPrivateRoot | privateMetadata | fillRandom | syncAll
    | openAmbientDir | syncDirectory =>
    rw [step_unchanged hstep id]
    exact ⟨hstage, hdigest⟩
  | symlinkMetadata =>
    rw [step_unchanged hstep id]
    rcases answer with (_ | _ | _) | metadata <;> exact ⟨hstage, hdigest⟩
  | readToEnd limit =>
    rw [step_unchanged hstep id]
    cases answer <;> exact ⟨hstage, hdigest⟩
  | createNew name =>
    obtain ⟨hbefore, hname⟩ := hop
    obtain ⟨hdirectory, hsame⟩ := step_createNew hstep
    rw [hbefore] at hstage
    cases answer with
    | error e =>
      refine ⟨?_, hsame.trans hdigest⟩
      rw [AtomicCommit.not_created hdirectory]
      exact hbefore ▸ hstage
    | ok file =>
      obtain ⟨hnew, rfl, hcreate⟩ := AtomicCommit.created_file hdirectory
      refine ⟨?_, hsame.trans hdigest⟩
      rw [hcreate]
      exact hstage.create hnew hname
  | writeAll file content =>
    obtain ⟨⟨f, hupdate⟩, hsame⟩ := step_writeAll hstep
    refine ⟨?_, hsame.trans hdigest⟩
    rw [hupdate]
    exact hstage
  | removeFile name =>
    obtain ⟨hdirectory, hsame⟩ := step_removeFile hstep
    obtain ⟨hname, hnew, hgone⟩ := hstage.unlink hop
    cases answer with
    | ok value =>
      refine ⟨?_, hsame.trans hdigest⟩
      rw [AtomicCommit.removed_file hdirectory]
      exact ⟨hname, hnew, hgone⟩
    | error e =>
      refine ⟨?_, hsame.trans hdigest⟩
      rw [AtomicCommit.not_removed hdirectory]
      refine ⟨hname, hnew, fun hlost => ?_⟩
      rw [Ledger.record, Bool.or_true] at hlost
      cases hlost
  | rename source =>
    obtain ⟨⟨file, hlive⟩, -⟩ := hop
    rw [hlive] at hstage
    exact ⟨⟨hstage.1, hstage.2.1, fun hlost => by cases hlost⟩,
      (step_rename hstep).1.trans hdigest⟩
  | assignSourceDigest digest =>
    rw [step_assign hstep]
    exact ⟨hstage, rfl⟩

/-- **Only a rename changes the profile file.** -/
theorem target_step (h : l.Holds start m) (hop : l.Allows sha256 sourceDigest op)
    (hstep : m.Step op answer m') (hrename : ∀ source, op ≠ .rename source) :
    m'.directory.target profileFile = m.directory.target profileFile := by
  cases op with
  | createNew name =>
    obtain ⟨hdirectory, -⟩ := step_createNew hstep
    cases answer with
    | error e => rw [AtomicCommit.not_created hdirectory]
    | ok file =>
      obtain ⟨-, -, hcreate⟩ := AtomicCommit.created_file hdirectory
      rw [hcreate]
      refine Directory.target_congr (if_neg (Ne.symm hop.2)) fun file hfile => if_neg ?_
      exact (m.directory.named_lt profileFile file hfile).ne
  | writeAll file content =>
    obtain ⟨name, hstage⟩ := hop
    obtain ⟨⟨f, hupdate⟩, -⟩ := step_writeAll hstep
    rw [hupdate]
    have hfile := h.stage
    rw [hstage] at hfile
    refine Directory.target_congr rfl fun target htarget => if_neg ?_
    rintro rfl
    exact hfile.2.2.2.1 htarget
  | removeFile name =>
    obtain ⟨hdirectory, -⟩ := step_removeFile hstep
    cases answer with
    | error e => rw [AtomicCommit.not_removed hdirectory]
    | ok value =>
      obtain ⟨hname, -, -⟩ := h.stage.unlink hop
      rw [AtomicCommit.removed_file hdirectory]
      exact Directory.target_congr (if_neg (Ne.symm hname)) fun _ _ => rfl
  | rename source => exact absurd rfl (hrename source)
  | assignSourceDigest digest => rw [step_assign hstep]
  | _ => rw [step_unchanged hstep id]

theorem renamed_target {source : String} {value : Unit} (h : l.Holds start m)
    (hop : l.Allows sha256 sourceDigest (.rename source))
    (hstep : m.Step (.rename source) (.ok value) m') :
    m'.directory.target profileFile ≠ m.directory.target profileFile := by
  obtain ⟨⟨file, hlive⟩, -⟩ := hop
  have hstage := h.stage
  rw [hlive] at hstage
  obtain ⟨-, -, htemporary, hother, -⟩ := hstage
  intro hsame
  have hmoved : m'.directory.names profileFile = some file := by
    rw [(step_rename hstep).2 rfl, Directory.names_move, if_pos rfl]
    exact htemporary
  have htarget := Directory.target_of_names hmoved
  rw [hsame] at htarget
  exact hother (Directory.names_of_target htarget).1

/-! ## What a reading says -/

/-- The profile file is what the last reading found. -/
def Shows (m : Machine) : Option (Option (List UInt8)) → Prop
  | none => True
  | some none => m.content = none
  | some (some bytes) => m.content.map (List.take (maxProfileFileBytes + 1)) = some bytes

theorem shows_congr {seen : Option (Option (List UInt8))}
    (h : m'.directory.target profileFile = m.directory.target profileFile) (hshows : Shows m seen) :
    Shows m' seen := by
  have hcontent : m'.content = m.content := congrArg (Option.map _) h
  cases seen with
  | none => trivial
  | some seen =>
    cases seen with
    | none => exact hcontent.trans hshows
    | some bytes =>
      show m'.content.map _ = _
      rw [hcontent]
      exact hshows

/-- A finished reading of the file. -/
def isReading : Move StoreOp StoreOp.Response → Bool
  | ⟨.symlinkMetadata, .error .notFound⟩ => true
  | ⟨.readToEnd _, .ok _⟩ => true
  | _ => false

/-- **One call of the routine, while nothing else moves.** -/
theorem shows_step (h : l.Holds start m)
    (hshows : isReading ⟨op, answer⟩ = false → Shows m l.seen)
    (hop : l.Allows sha256 sourceDigest op) (hstep : m.Step op answer m') :
    Shows m' (l.next platform op answer).seen := by
  show Shows m' (l.record op answer).seen
  cases op with
  | symlinkMetadata =>
    rcases answer with (_ | _ | _) | metadata
    · rw [step_unchanged hstep id]
      exact absent_of_metadata hstep
    · trivial
    · trivial
    · trivial
  | readToEnd limit =>
    obtain rfl : limit = _ := hop
    cases answer with
    | error e => trivial
    | ok bytes =>
      rw [step_unchanged hstep id]
      exact content_of_read hstep
  | rename source => trivial
  | _ =>
    have hsame := shows_congr (target_step h hop hstep fun _ h => by cases h) (hshows rfl)
    cases answer <;> exact hsame

theorem content_of_shows {seen : Option (List UInt8)} (h : Shows m (some seen))
    (hlength : ∀ bytes ∈ seen, bytes.length ≤ maxProfileFileBytes) : m.content = seen := by
  cases seen with
  | none => exact h
  | some bytes =>
    obtain ⟨content, hcontent, htake⟩ := Option.map_eq_some_iff.mp h
    have htaken := congrArg List.length htake
    rw [List.length_take] at htaken
    have hbound := hlength bytes rfl
    have hwhole : content.length ≤ maxProfileFileBytes + 1 := by omega
    rw [hcontent, ← htake, List.take_of_length_le hwhole]

end

/-! ## Disciplined histories -/

/-- The entries of a run. -/
abbrev Entries := List (Happening StoreOp StoreOp.Response Unit)

section

variable {sha256 : List UInt8 → Sha256Hex} {platform : AtomicCommit.Platform}
  {sourceDigest : Option String} {start m : Machine} {history earlier since : Entries}

/-- The ledger after some entries. -/
abbrev ledger (platform : AtomicCommit.Platform) (history : Entries) : Ledger :=
  Move.ghost (Ledger.next platform) .start (Happening.own history)

/-- The move is allowed by the ledger. -/
def Ledger.Good (sha256 : List UInt8 → Sha256Hex) (sourceDigest : Option String) (l : Ledger)
    (op : StoreOp) (_ : op.Response) : Prop := l.Allows sha256 sourceDigest op

/-- Every own move was allowed. -/
def Disciplined (sha256 : List UInt8 → Sha256Hex) (platform : AtomicCommit.Platform)
    (sourceDigest : Option String) (history : Entries) : Prop :=
  ∀ before op answer after, history = before ++ .did op answer :: after →
    (ledger platform before).Good sha256 sourceDigest op answer

theorem Disciplined.initial (h : Disciplined sha256 platform sourceDigest (earlier ++ since)) :
    Disciplined sha256 platform sourceDigest earlier := by
  rintro before op answer after rfl
  exact h before op answer (after ++ since) (by simp)

/-- **The ledger is right about the machine.** -/
theorem Disciplined.holds (h : Disciplined sha256 platform sourceDigest history)
    (ht : Trace profileStore start history m) : (ledger platform history).Holds start m :=
  ht.ghost_invariant h Ledger.holds_start
    (fun _ _ _ _ _ hholds hop hstep => hholds.step hop hstep)
    fun _ _ _ _ hholds hforeign => hholds.foreign hforeign

/-- **The last reading is right about the file**, while nothing else moves. -/
theorem Disciplined.shows {op : StoreOp} {answer : op.Response}
    (h : Disciplined sha256 platform sourceDigest (earlier ++ .did op answer :: since))
    (ht : Trace profileStore start (earlier ++ .did op answer :: since) m)
    (hreading : isReading ⟨op, answer⟩ = true) (hquiet : Happening.Quiet since) :
    Shows m (ledger platform (earlier ++ .did op answer :: since)).seen := by
  obtain ⟨m₁, m₂, hearlier, hstep, hsince⟩ := ht.split_did
  have hholds := h.initial.holds hearlier
  have hop := h earlier op answer since rfl
  have hread : Shows m₂ ((ledger platform earlier).next platform op answer).seen :=
    shows_step hholds (fun hother => by rw [hreading] at hother; cases hother) hop hstep
  have hgood : ∀ before op' answer' after, since = before ++ .did op' answer' :: after →
      (Move.ghost (Ledger.next platform) ((ledger platform earlier).next platform op answer)
        (Happening.own before)).Good sha256 sourceDigest op' answer' := by
    intro before op' answer' after hsplit
    have hallowed := h (earlier ++ .did op answer :: before) op' answer' after
      (by rw [hsplit]; simp)
    rwa [ledger, Happening.own_append, Happening.own_did, Move.ghost_append, Move.ghost_cons]
      at hallowed
  have hinvariant := (hsince.alone hquiet).ghost_invariant
    (I := fun (l : Ledger) m => l.Holds start m ∧ Shows m l.seen) hgood ⟨hholds.step hop hstep, hread⟩
    (fun _ _ _ _ _ hI hop hstep => ⟨hI.1.step hop hstep,
      shows_step hI.1 (fun _ => hI.2) hop hstep⟩)
    fun _ _ _ _ _ hother => hother.elim
  rw [ledger, Happening.own_append, Happening.own_did, Move.ghost_append, Move.ghost_cons]
  exact hinvariant.2

/-- Nothing else has moved since a reading of the file. -/
def QuietSinceReading (history : Entries) : Prop :=
  ∃ earlier op reading since, history = earlier ++ .did op reading :: since ∧
    isReading ⟨op, reading⟩ = true ∧ Happening.Quiet since

/-- Nothing else moves between the last reading of the digest and the rename. -/
def Undisturbed (history : Entries) : Prop :=
  ∀ before name answer after, history = before ++ .did (.rename name) answer :: after →
    QuietSinceReading before

/-- **The file is replaced only while it has the digest of the collection.** -/
theorem Disciplined.replaces {op : StoreOp} {answer : op.Response} {before after : Entries}
    {m' : Machine} (h : Disciplined sha256 platform sourceDigest history)
    (hundisturbed : Undisturbed history) (hsplit : history = before ++ .did op answer :: after)
    (ht : Trace profileStore start before m) (hstep : m.Step op answer m')
    (hchanged : m'.directory.target profileFile ≠ m.directory.target profileFile) :
    m.digest sha256 = sourceDigest := by
  have hop := h before op answer after hsplit
  have hbefore : Disciplined sha256 platform sourceDigest before := by
    rw [hsplit] at h
    exact h.initial
  obtain ⟨source, rfl⟩ : ∃ source, op = .rename source := by
    by_contra hother
    exact hchanged (target_step (hbefore.holds ht) hop hstep fun source heq =>
      hother ⟨source, heq⟩)
  obtain ⟨earlier, op', reading, since, rfl, hreading, hquiet⟩ :=
    hundisturbed before source answer after hsplit
  obtain ⟨-, seen, hseen, hlength, hdigest⟩ := hop
  have hshows := hbefore.shows ht hreading hquiet
  rw [hseen] at hshows
  rw [Machine.digest, content_of_shows hshows hlength]
  exact hdigest

end

/-! ## Flags -/

section

variable {platform : AtomicCommit.Platform} {l : Ledger} {moves : List (Move StoreOp StoreOp.Response)}

def isRename : Move StoreOp StoreOp.Response → Bool
  | ⟨.rename _, _⟩ => true
  | _ => false

/-- A rename that is answered. -/
def isReplacement : Move StoreOp StoreOp.Response → Bool
  | ⟨.rename _, .ok _⟩ => true
  | _ => false

/-- A failed call to remove a file. -/
def failsRemoval : Move StoreOp StoreOp.Response → Bool
  | ⟨.removeFile _, .error _⟩ => true
  | _ => false

theorem renamed_ghost : (Move.ghost (Ledger.next platform) l moves).renamed =
    (l.renamed || moves.any isRename) := by
  refine Move.ghost_flag (fun l op answer => ?_) moves
  show (l.record op answer).renamed = _
  cases op with
  | rename source => exact (Bool.or_true _).symm
  | symlinkMetadata => rcases answer with (_ | _ | _) | metadata <;> exact (Bool.or_false _).symm
  | _ => cases answer <;> exact (Bool.or_false _).symm

theorem replaced_ghost : (Move.ghost (Ledger.next platform) l moves).replaced =
    (l.replaced || moves.any isReplacement) := by
  refine Move.ghost_flag (fun l op answer => ?_) moves
  show (l.record op answer).replaced = _
  cases op with
  | symlinkMetadata => rcases answer with (_ | _ | _) | metadata <;> exact (Bool.or_false _).symm
  | rename source => cases answer <;> rfl
  | _ => cases answer <;> exact (Bool.or_false _).symm

theorem removalFailed_ghost : (Move.ghost (Ledger.next platform) l moves).removalFailed =
    (l.removalFailed || moves.any failsRemoval) := by
  refine Move.ghost_flag (fun l op answer => ?_) moves
  show (l.record op answer).removalFailed = _
  cases op with
  | removeFile name =>
    cases answer with
    | ok value => exact (Bool.or_false _).symm
    | error e => exact (Bool.or_true _).symm
  | symlinkMetadata => rcases answer with (_ | _ | _) | metadata <;> exact (Bool.or_false _).symm
  | _ => cases answer <;> exact (Bool.or_false _).symm

theorem created_next {op : StoreOp} {answer : op.Response} :
    (l.next platform op answer).created = (l.created || isCreated ⟨op, answer⟩) := by
  show (l.record op answer).created = _
  cases op with
  | createNew name =>
    cases answer with
    | ok file => exact (Bool.or_true _).symm
    | error e => exact (Bool.or_false _).symm
  | symlinkMetadata => rcases answer with (_ | _ | _) | metadata <;> exact (Bool.or_false _).symm
  | _ => cases answer <;> exact (Bool.or_false _).symm

theorem hindered_ghost : (Move.ghost (Ledger.next platform) l moves).hindered =
    (l.hindered || if l.created then moves.any (refuses platform) else hindered platform moves) := by
  induction moves generalizing l with
  | nil => cases hcreated : l.created <;> simp [hindered]
  | cons move moves ih =>
    have hnext : (l.next platform move.1 move.2).hindered =
        (l.hindered || (l.created && refuses platform move)) := rfl
    rw [Move.ghost_cons, ih, created_next, hnext, List.any_cons, hindered]
    cases hcreated : l.created <;> cases hmove : isCreated move <;>
      simp [Bool.or_assoc]

end

/-! ## The laws -/

/-- No own move has changed the profile file. -/
def Untouched (start : Machine) (history : Entries) : Prop :=
  ∀ before op answer after m m', history = before ++ .did op answer :: after →
    Trace profileStore start before m → m.Step op answer m' →
      m'.directory.target profileFile = m.directory.target profileFile

/-- An error that does not say that the outcome is unknown leaves the file and the collection as they
were and, when every removal succeeds, no temporary file. -/
def SafeFailure (start final : Machine) (history : Entries) :
    Outcome ModelProfileError Unit → Prop
  | .error (.err error) => error ≠ .profileCommitUnknown →
    Untouched start history ∧ final.sourceDigest = start.sourceDigest ∧
      ((∀ move ∈ Happening.own history, failsRemoval move = false) →
        SameNames profileFile start.directory final.directory)
  | _ => True

/-- The file system among other processes that, as a save does, change the digest of the profile file
only while it is the one they loaded. -/
def rivalStore (sha256 : List UInt8 → Sha256Hex) (sourceDigest : Option String) :
    System StoreOp StoreOp.Response Machine Unit where
  step := Machine.Step
  other m _ m' := m.Foreign m' ∧
    (m'.digest sha256 ≠ m.digest sha256 → m.digest sha256 = sourceDigest)

/-- What a run of `save` does. -/
structure SaveLaws (lib : ProviderCrates) (codec : ProfileCodec) (sha256 : List UInt8 → Sha256Hex)
    (platform : AtomicCommit.Platform) (profiles : ModelProfiles) (start final : Machine)
    (history : Entries) (outcome : Option (Outcome ModelProfileError Unit)) : Prop where
  /-- A failure is safe exactly when nothing stopped the run after the temporary file was made. -/
  failures : ∀ result, outcome = some result →
    (SafeFailure start final history result ↔ hindered platform (Happening.own history) = false)
  /-- The file is replaced only while it has the digest of the collection. -/
  replaces : Undisturbed history → ∀ before op answer after m m',
    history = before ++ .did op answer :: after → Trace profileStore start before m →
      m.Step op answer m' →
        m'.directory.target profileFile ≠ m.directory.target profileFile →
          m.digest sha256 = profiles.sourceDigest
  /-- After a success, the last reading of the file had the digest of the encoded collection. -/
  saved : outcome = some (.ok ()) → ∃ bytes content before after m,
    encodeProfiles codec profiles = .ok bytes ∧
      final.sourceDigest = some (sha256Digest (sha256 bytes)) ∧
      history = before ++ .did (.readToEnd (maxProfileFileBytes + 1)) (.ok content) :: after ∧
      (∀ move ∈ Happening.own after, isReading move = false) ∧
      Trace profileStore start before m ∧ m.content = some content ∧
      sha256 content = sha256 bytes
  /-- Among rivals that loaded the same file, the digest of the file changes once at most. -/
  single : Undisturbed history → ∀ before first middle second after m₁ m₂ m₃ m₄,
      history = before ++ first :: (middle ++ second :: after) →
      Trace (rivalStore sha256 profiles.sourceDigest) start before m₁ →
      Trace (rivalStore sha256 profiles.sourceDigest) m₁ [first] m₂ →
      Trace (rivalStore sha256 profiles.sourceDigest) m₂ middle m₃ →
      Trace (rivalStore sha256 profiles.sourceDigest) m₃ [second] m₄ →
        m₂.digest sha256 ≠ m₁.digest sha256 → m₄.digest sha256 = m₃.digest sha256

section

variable {lib : ProviderCrates} {codec : ProfileCodec} {sha256 : List UInt8 → Sha256Hex}
  {platform : AtomicCommit.Platform} {sourceDigest : Option String} {profiles : ModelProfiles}
  {start final m m' : Machine} {history before after : Entries}
  {outcome : Option (Outcome ModelProfileError Unit)}

theorem disciplined (hrun : Exec profileStore (save lib codec sha256 platform profiles) start history
    final outcome) : Disciplined sha256 platform profiles.sourceDigest history :=
  (hrun.ghost save_sat).1

theorem reading_of_seen {moves : List (Move StoreOp StoreOp.Response)} {content : List UInt8}
    (h : (Move.ghost (Ledger.next platform) .start moves).seen = some (some content)) :
    ∃ earlier limit later, moves = earlier ++ ⟨.readToEnd limit, .ok content⟩ :: later ∧
      ∀ move ∈ later, isReading move = false := by
  induction moves using List.reverseRecOn with
  | nil => cases h
  | append_singleton moves move ih =>
    obtain ⟨op, answer⟩ := move
    rw [Move.ghost_append, Move.ghost_cons, Move.ghost_nil] at h
    replace h : ((Move.ghost (Ledger.next platform) .start moves).record op answer).seen =
      some (some content) := h
    have hkeep : isReading ⟨op, answer⟩ = false →
        (Move.ghost (Ledger.next platform) .start moves).seen = some (some content) →
        ∃ earlier limit later, moves ++ [⟨op, answer⟩] =
          earlier ++ ⟨.readToEnd limit, .ok content⟩ :: later ∧
            ∀ move ∈ later, isReading move = false := by
      intro hother hseen
      obtain ⟨earlier, limit, later, rfl, hlater⟩ := ih hseen
      exact ⟨earlier, limit, later ++ [⟨op, answer⟩], by simp, Move.forall_push hlater hother⟩
    cases op with
    | readToEnd limit =>
      cases answer with
      | error e => cases h
      | ok bytes =>
        obtain rfl : bytes = content := by simpa [Ledger.record] using h
        exact ⟨moves, limit, [], rfl, fun _ hmove => absurd hmove List.not_mem_nil⟩
    | symlinkMetadata => rcases answer with (_ | _ | _) | metadata <;> cases h
    | rename source => cases h
    | _ => cases answer <;> exact hkeep rfl h

theorem Disciplined.untouched (h : Disciplined sha256 platform sourceDigest history)
    (hrenamed : (ledger platform history).renamed = false) : Untouched start history := by
  rintro before op answer after m m' rfl ht hstep
  refine target_step (h.initial.holds ht) (h before op answer after rfl) hstep fun source heq => ?_
  rw [ledger, renamed_ghost, Bool.or_eq_false_iff, List.any_eq_false] at hrenamed
  subst heq
  exact hrenamed.2 ⟨.rename source, answer⟩ (by simp) rfl

theorem Disciplined.safe_of_clean {error : ModelProfileError}
    (h : Disciplined sha256 platform sourceDigest history) (ht : Trace profileStore start history final)
    (hclean : (ledger platform history).Clean) (hassigned : (ledger platform history).assigned = none) :
    SafeFailure start final history (.error (.err error)) := by
  intro _
  have hholds := h.holds ht
  refine ⟨h.untouched hclean.renamed, ?_, fun hremovals => ?_⟩
  · rw [hholds.sourceDigest, hassigned]
    rfl
  · have hremoved : (ledger platform history).removalFailed = false := by
      rw [ledger, removalFailed_ghost, Bool.or_eq_false_iff, List.any_eq_false]
      exact ⟨rfl, fun move hmove => Bool.eq_false_iff.mp (hremovals move hmove)⟩
    have hstage := hholds.stage
    rw [hclean.renamed, hremoved] at hstage
    rcases hclean.stage with hbefore | ⟨name, hpast⟩
    · rwa [hbefore] at hstage
    · rw [hpast] at hstage
      exact hstage.2.2 rfl

theorem Disciplined.unsafe_of_stuck {error : ModelProfileError}
    (h : Disciplined sha256 platform sourceDigest history) (ht : Trace profileStore start history final)
    (hstuck : (ledger platform history).Stuck) (herror : error ≠ .profileCommitUnknown) :
    ¬ SafeFailure start final history (.error (.err error)) := by
  intro hsafe
  obtain ⟨huntouched, -, hsame⟩ := hsafe herror
  rcases hstuck.stage with ⟨name, file, hlive⟩ | hreplaced
  · have hremovals := hstuck.removals
    rw [ledger, removalFailed_ghost, Bool.or_eq_false_iff, List.any_eq_false] at hremovals
    have hstage := (h.holds ht).stage
    rw [hlive] at hstage
    obtain ⟨hname, hnew, htemporary, -, -⟩ := hstage
    have hnames := hsame (fun move hmove => Bool.eq_false_iff.mpr (hremovals.2 move hmove)) name hname
    rw [htemporary, hnew] at hnames
    cases hnames
  · rw [ledger, replaced_ghost, Bool.or_eq_true, List.any_eq_true] at hreplaced
    obtain hstart | ⟨⟨op, answer⟩, hmove, hanswered⟩ := hreplaced
    · cases hstart
    obtain ⟨before, after, hmoves⟩ := List.append_of_mem hmove
    obtain ⟨earlier, later, rfl, -, -⟩ := Happening.own_split hmoves
    obtain ⟨m, m', hearlier, hstep, -⟩ := ht.split_did
    have hop := h earlier op answer later rfl
    have hchanged := huntouched earlier op answer later m m' rfl hearlier hstep
    cases op with
    | rename source =>
      cases answer with
      | ok value => exact renamed_target (h.initial.holds hearlier) hop hstep hchanged
      | error e => cases hanswered
    | _ => cases hanswered

theorem Disciplined.saved (h : Disciplined sha256 platform sourceDigest history)
    (ht : Trace profileStore start history final) {content : List UInt8}
    (hseen : (ledger platform history).seen = some (some content))
    (hlength : content.length ≤ maxProfileFileBytes) : ∃ before after m,
      history = before ++ .did (.readToEnd (maxProfileFileBytes + 1)) (.ok content) :: after ∧
        (∀ move ∈ Happening.own after, isReading move = false) ∧
        Trace profileStore start before m ∧ m.content = some content := by
  obtain ⟨earlier, limit, later, hmoves, hlater⟩ := reading_of_seen hseen
  obtain ⟨before, after, rfl, -, rfl⟩ := Happening.own_split hmoves
  obtain rfl : limit = maxProfileFileBytes + 1 := h before _ _ after rfl
  obtain ⟨m, m', hbefore, hstep, -⟩ := ht.split_did
  refine ⟨before, after, m, rfl, hlater, hbefore, ?_⟩
  exact content_of_shows (content_of_read hstep) fun bytes hbytes => Option.some.inj hbytes ▸ hlength

/-! ### Rivals -/

theorem rival_trace (ht : Trace (rivalStore sha256 sourceDigest) start history final) :
    Trace profileStore start history final :=
  ht.mono (fun _ _ _ _ h => h) fun _ _ _ h => h.1

/-- **Whoever changes the digest does so while the file is the one that was loaded.** -/
theorem Disciplined.changes {entry : Happening StoreOp StoreOp.Response Unit}
    (h : Disciplined sha256 platform sourceDigest history) (hundisturbed : Undisturbed history)
    (hsplit : history = before ++ entry :: after)
    (hbefore : Trace (rivalStore sha256 sourceDigest) start before m)
    (hentry : Trace (rivalStore sha256 sourceDigest) m [entry] m')
    (hchanged : m'.digest sha256 ≠ m.digest sha256) : m.digest sha256 = sourceDigest := by
  cases hentry with
  | other hother hnil =>
    cases hnil
    exact hother.2 hchanged
  | did hstep hnil =>
    cases hnil
    refine h.replaces hundisturbed hsplit (rival_trace hbefore) hstep fun hsame => hchanged ?_
    exact congrArg (Option.map _) (congrArg (Option.map _) hsame)

theorem Disciplined.settled {middle : Entries}
    (h : Disciplined sha256 platform sourceDigest history) (hundisturbed : Undisturbed history)
    (hsplit : history = before ++ (middle ++ after))
    (hbefore : Trace (rivalStore sha256 sourceDigest) start before m)
    (hmiddle : Trace (rivalStore sha256 sourceDigest) m middle m')
    (hother : m.digest sha256 ≠ sourceDigest) : m'.digest sha256 ≠ sourceDigest := by
  induction middle generalizing before m with
  | nil =>
    cases hmiddle
    exact hother
  | cons entry middle ih =>
    obtain ⟨m₁, hentry, hrest⟩ := Trace.append_iff.mp (show Trace _ m ([entry] ++ middle) m' from hmiddle)
    have hsame : m₁.digest sha256 = m.digest sha256 := by
      by_contra hchanged
      exact hother (h.changes hundisturbed hsplit hbefore hentry hchanged)
    have hsplit' : history = (before ++ [entry]) ++ (middle ++ after) := by
      rw [hsplit]
      simp
    refine ih hsplit' (Trace.append_iff.mpr ⟨m, hbefore, hentry⟩) hrest ?_
    rw [hsame]
    exact hother

end

/-- **What a save does.** -/
theorem profile_save_laws (lib : ProviderCrates) (codec : ProfileCodec)
    (sha256 : List UInt8 → Sha256Hex) (platform : AtomicCommit.Platform) (profiles : ModelProfiles)
    (directory : Directory) (final : Machine) (history : Entries)
    (outcome : Option (Outcome ModelProfileError Unit))
    (hrun : Exec profileStore (save lib codec sha256 platform profiles)
      ⟨directory, profiles.sourceDigest⟩ history final outcome) :
    SaveLaws lib codec sha256 platform profiles ⟨directory, profiles.sourceDigest⟩ final history
      outcome := by
  have h := disciplined hrun
  have hpost := (hrun.ghost save_sat).2
  have hflag : (ledger platform history).hindered = hindered platform (Happening.own history) := by
    rw [ledger, hindered_ghost]
    rfl
  refine ⟨?_, ?_, ?_, ?_⟩
  · rintro result rfl
    have hconcluded := hpost result rfl
    rw [← hflag]
    cases result with
    | ok value => exact iff_of_true trivial hconcluded.1
    | error fault =>
      cases fault with
      | panic message => exact iff_of_true trivial hconcluded
      | err error =>
        obtain ⟨hassigned, hclean | ⟨rfl, hfree⟩ | ⟨herror, hstuck⟩⟩ := hconcluded
        · exact iff_of_true (h.safe_of_clean hrun.trace hclean hassigned) hclean.unhindered
        · exact iff_of_true (fun hne => absurd rfl hne) hfree
        · refine iff_of_false (h.unsafe_of_stuck hrun.trace hstuck herror) ?_
          rw [hstuck.hindered]
          decide
  · intro hundisturbed before op answer after m m' hsplit ht hstep hchanged
    exact h.replaces hundisturbed hsplit ht hstep hchanged
  · rintro rfl
    obtain ⟨-, bytes, content, hencoded, hseen, hlength, hcontent, hassigned⟩ := hpost _ rfl
    obtain ⟨before, after, m, hhistory, hafter, hbefore, hread⟩ :=
      h.saved hrun.trace hseen hlength
    refine ⟨bytes, content, before, after, m, hencoded, ?_, hhistory, hafter, hbefore, hread, hcontent⟩
    rw [(h.holds hrun.trace).sourceDigest]
    exact congrArg (Option.or · _) hassigned
  · intro hundisturbed before first middle second after m₁ m₂ m₃ m₄ hsplit h₁ h₂ h₃ h₄ hfirst
    have hsource := h.changes hundisturbed hsplit h₁ h₂ hfirst
    have hother : m₂.digest sha256 ≠ profiles.sourceDigest := by
      rw [← hsource]
      exact hfirst
    have hbefore : Trace _ _ (before ++ [first]) m₂ := Trace.append_iff.mpr ⟨m₁, h₁, h₂⟩
    have hsplit' : history = (before ++ [first]) ++ (middle ++ second :: after) := by
      rw [hsplit]
      simp
    have hsettled := h.settled hundisturbed hsplit' hbefore h₃ hother
    by_contra hsecond
    have hsplit'' : history = (before ++ [first] ++ middle) ++ second :: after := by
      rw [hsplit]
      simp
    have hmiddle := Trace.append_iff.mpr ⟨m₂, hbefore, h₃⟩
    exact hsettled (h.changes hundisturbed hsplit'' hmiddle h₄ hsecond)

/-- The document of the empty collection, as it is printed. -/
def emptyDocument : List UInt8 :=
  bytes "\x7b\n  \"formatVersion\": 1,\n  \"activeProfile\": null,\n  \"profiles\": []\n\x7d"

/-- A codec that knows this document. -/
def emptyCodec : ProfileCodec where
  toVecPretty document := if document = .fromProfiles .empty then some emptyDocument else none
  fromSlice text := if text = emptyDocument then some (.fromProfiles .empty) else none

/-- A root without files. -/
def emptyRoot : Directory where
  names _ := none
  files _ := ⟨[], ⟨true, 0, 0o600⟩⟩
  fresh := 0
  named_lt _ _ h := by cases h
  directories _ := none

/-- The first save of an empty collection. -/
def saveEmpty : Routine Unit := save sampleCrates emptyCodec AtomicCommit.parityHash .unix .empty

/-- A file system without faults. -/
def reliable (m : Machine) (op : StoreOp) : op.Response × Machine := m.serve AtomicCommit.noRandom op

/-- A file system where the root cannot be opened. -/
def closedRoot (m : Machine) : (op : StoreOp) → op.Response × Machine
  | .openAmbientDir => (.error .other, m)
  | op => m.serve AtomicCommit.noRandom op

theorem reliable_step (m : Machine) (op : StoreOp) :
    m.Step op (reliable m op).1 (reliable m op).2 := Or.inl ⟨AtomicCommit.noRandom, rfl⟩

theorem closedRoot_step (m : Machine) (op : StoreOp) :
    m.Step op (closedRoot m op).1 (closedRoot m op).2 := by
  cases op with
  | openAmbientDir => exact Or.inr ⟨rfl, rfl⟩
  | _ => exact Or.inl ⟨AtomicCommit.noRandom, rfl⟩

/-- Nobody else is there. -/
abbrev nobody (_ : Machine) (_ : StoreOp) : Option (Unit × Machine) := none

theorem exec_alone {host : Machine → (op : StoreOp) → op.Response × Machine}
    (hhost : ∀ (m : Machine) (op : StoreOp), m.Step op (host m op).1 (host m op).2)
    (p : Routine Unit) (m : Machine) :
    Exec profileStore p m (p.run host nobody m).1 (p.run host nobody m).2.1
      (some (p.run host nobody m).2.2) :=
  Prog.exec_run hhost (fun _ _ _ _ h => by cases h) p m

/-- The empty collection is saved. -/
theorem profile_save_laws_sample : ∃ history final,
    Exec profileStore saveEmpty ⟨emptyRoot, none⟩ history final (some (.ok ())) ∧
      SaveLaws sampleCrates emptyCodec AtomicCommit.parityHash .unix .empty ⟨emptyRoot, none⟩ final
        history (some (.ok ())) := by
  have hrun := exec_alone reliable_step saveEmpty ⟨emptyRoot, none⟩
  have hdone : (saveEmpty.run reliable nobody ⟨emptyRoot, none⟩).2.2 = .ok () := by
    decide
  rw [hdone] at hrun
  exact ⟨_, _, hrun, profile_save_laws sampleCrates emptyCodec AtomicCommit.parityHash .unix .empty
    emptyRoot _ _ _ hrun⟩

/-- **A temporary file is left behind** when the root cannot be opened. -/
theorem temporary_profile_left : ¬ ∀ (lib : ProviderCrates) (codec : ProfileCodec)
    (sha256 : List UInt8 → Sha256Hex) (platform : AtomicCommit.Platform) (profiles : ModelProfiles)
    (directory : Directory) (final : Machine) (history : Entries) (error : ModelProfileError),
    Exec profileStore (save lib codec sha256 platform profiles) ⟨directory, profiles.sourceDigest⟩
      history final (some (Outcome.fail error)) → error ≠ .profileCommitUnknown →
        (∀ move ∈ Happening.own history, failsRemoval move = false) →
          SameNames profileFile directory final.directory := by
  intro hall
  have hrun := exec_alone closedRoot_step saveEmpty ⟨emptyRoot, none⟩
  have hfailed : (saveEmpty.run closedRoot nobody ⟨emptyRoot, none⟩).2.2 =
      Outcome.fail .profileStoreUnavailable := by
    decide
  have hremovals : ∀ move ∈ Happening.own (saveEmpty.run closedRoot nobody ⟨emptyRoot, none⟩).1,
      failsRemoval move = false := by
    decide
  have hleft : (saveEmpty.run closedRoot nobody ⟨emptyRoot, none⟩).2.1.directory.names
      (temporaryName AtomicCommit.noRandom) ≠ none := by
    decide
  rw [hfailed] at hrun
  have hsame := hall sampleCrates emptyCodec AtomicCommit.parityHash .unix .empty emptyRoot _ _
    .profileStoreUnavailable hrun (by decide) hremovals
  exact hleft (hsame (temporaryName AtomicCommit.noRandom) (temporaryName_ne _))

end Xgeny.ProfileStore
