import Xgeny.Filesystem.AtomicCommit

set_option autoImplicit false

/-!
# What the calls of an atomic commit say

The ledger of a run is computed from its own calls and their answers alone.

* `Ledger`, `Ledger.next`: where the run stands;
* `Ledger.Allows`: which call it makes there. The target is renamed over only after two inspections
  that meet the expectation;
* **`commitAtomic_sat`**: the routine makes only these calls, and how it ends.
-/

namespace Xgeny.AtomicCommit

open Prog (Sat sat_bind sat_lift sat_mapErr sat_attempt sat_perform sat_pure sat_call sat_failIf)

/-! ## The ledger -/

/-- How far an inspection of the target has come. -/
inductive Inspection where
  | idle
  | absent
  | opened (file : FileId)
  | checked (file : FileId) (metadata : FileMetadata)
  | read (file : FileId) (metadata : FileMetadata) (bytes : List UInt8)

def Inspection.withContent (bytes : List UInt8) : Inspection → Inspection
  | .checked file metadata => .read file metadata bytes
  | inspection => inspection

/-- What a finished inspection saw. -/
def Inspection.result : Inspection → Option (Option (List UInt8))
  | .absent => some none
  | .read _ _ bytes => some (some bytes)
  | _ => none

/-- What has become of the temporary file. -/
inductive Stage where
  | before
  | live (name : String) (file : FileId)
  | past (name : String)

structure Ledger where
  entered : List (List String × FileMetadata)
  inspection : Inspection
  observed : List (Option (List UInt8))
  stage : Stage
  renamed : Bool
  permissionsFailed : Bool
  removalFailed : Bool

def Ledger.start : Ledger := ⟨[], .idle, [], .before, false, false, false⟩

def Ledger.next (l : Ledger) : (op : FileOp) → op.Response → Ledger
  | .dirMetadata directory, .ok metadata => { l with entered := (directory, metadata) :: l.entered }
  | .openTarget _, .ok file => { l with inspection := .opened file }
  | .openTarget _, .error .notFound =>
    { l with inspection := .absent, observed := l.observed ++ [none] }
  | .openTarget _, .error _ => { l with inspection := .idle }
  | .metadata file, .ok metadata => { l with inspection := .checked file metadata }
  | .readToEnd _ _, .ok bytes =>
    { l with inspection := l.inspection.withContent bytes, observed := l.observed ++ [some bytes] }
  | .createNew name, .ok file => { l with stage := .live name file }
  | .setPermissions _ _, .error _ => { l with permissionsFailed := true }
  | .removeFile name, .ok _ => { l with stage := .past name }
  | .removeFile name, .error _ => { l with stage := .past name, removalFailed := true }
  | .rename source _, _ => { l with inspection := .idle, stage := .past source, renamed := true }
  | _, _ => l

/-- What was seen of the target is what the request expects. -/
def Meets (sha256 : List UInt8 → Sha256Hex) (expectedDigest : Option String) :
    Option (List UInt8) → Prop
  | none => expectedDigest = none
  | some bytes =>
    bytes.length ≤ maxAtomicTextBytes ∧ expectedDigest = some (sha256Digest (sha256 bytes))

/-- The target was inspected twice, and both times it was as expected. -/
def Ledger.Confirmed (sha256 : List UInt8 → Sha256Hex) (expectedDigest : Option String)
    (l : Ledger) : Prop :=
  ∃ first second, l.observed = [first, second] ∧ l.inspection.result = some second ∧
    Meets sha256 expectedDigest first ∧ Meets sha256 expectedDigest second

/-- The calls that the routine makes where it stands. -/
def Ledger.Allows (sha256 : List UInt8 → Sha256Hex) (leaf : String) (expectedDigest : Option String)
    (l : Ledger) : FileOp → Prop
  | .openTarget name => name = leaf
  | .metadata file => l.inspection = .opened file
  | .readToEnd file limit =>
    limit = maxAtomicTextBytes + 1 ∧ ∃ metadata, l.inspection = .checked file metadata
  | .createNew _ => l.stage = .before
  | .setPermissions file _ | .writeAll file _ => ∃ name, l.stage = .live name file
  | .removeFile name => (∃ file, l.stage = .live name file) ∨ l.stage = .past name
  | .rename source target =>
    (∃ file, l.stage = .live source file) ∧ target = leaf ∧ l.Confirmed sha256 expectedDigest
  | _ => True

/-! ## The parts of the routine -/

section

variable {sha256 : List UInt8 → Sha256Hex} {platform : Platform} {leaf desiredDigest : String}
  {expectedDigest : Option String} {l : Ledger}

theorem sat_ask {α : Type} {op : FileOp} {failure : AtomicCommitFailure} {f : op.Value → Commit α}
    {post : Ledger → Outcome AtomicCommitFailure α → Prop} {allowed : Ledger → FileOp → Prop}
    (hop : allowed l op) (hok : ∀ value, Sat allowed Ledger.next (f value) (l.next op (.ok value)) post)
    (herror : ∀ error, post (l.next op (.error error)) (Outcome.fail failure)) :
    Sat allowed Ledger.next (ask op failure >>= f) l post := by
  rw [sat_bind]
  refine ⟨hop, fun answer => ?_⟩
  cases answer with
  | ok value => exact hok value
  | error error => exact herror error

/-- The directories on the way were entered, and none is a reparse point. -/
def Walked (platform : Platform) (entered : List (List String × FileMetadata)) :
    List String → List String → Prop
  | _, [] => True
  | opened, component :: parents =>
    (∃ metadata, (opened ++ [component], metadata) ∈ entered ∧
      isWindowsReparsePoint platform metadata = false) ∧
      Walked platform entered (opened ++ [component]) parents

theorem openParents_sat {parents opened : List String} :
    Sat (Ledger.Allows sha256 leaf expectedDigest) Ledger.next (openParents platform opened parents)
      l fun l' outcome => (∃ entered, l' = { l with entered } ∧ (∀ e ∈ l.entered, e ∈ entered) ∧
        ∀ a, outcome = .ok a → Walked platform entered opened parents) ∧
        (outcome = .ok () ∨ outcome = Outcome.fail .openParent) := by
  induction parents generalizing l opened with
  | nil => exact ⟨⟨l.entered, rfl, fun _ he => he, fun _ _ => trivial⟩, Or.inl rfl⟩
  | cons component parents ih =>
    have hfailed : ∀ {e : Fault AtomicCommitFailure}, e = .err .openParent → ∀ a : Unit,
        (Except.error e : Outcome AtomicCommitFailure Unit) = .ok a →
          Walked platform l.entered opened (component :: parents) := by
      intro e _ a h
      cases h
    refine sat_ask trivial (fun _ => ?_) fun _ =>
      ⟨⟨l.entered, rfl, fun _ he => he, hfailed rfl⟩, Or.inr rfl⟩
    refine sat_ask trivial (fun metadata => ?_) fun _ =>
      ⟨⟨l.entered, rfl, fun _ he => he, hfailed rfl⟩, Or.inr rfl⟩
    refine sat_failIf (fun _ => ?_) fun hreparse => ?_
    · refine ⟨⟨_, rfl, fun _ he => List.mem_cons_of_mem _ he, fun a h => ?_⟩, Or.inr rfl⟩
      cases h
    · refine ih.mono fun l' outcome hpost => ⟨?_, hpost.2⟩
      obtain ⟨⟨entered, rfl, hmono, hwalked⟩, -⟩ := hpost
      refine ⟨entered, rfl, fun e he => hmono e (List.mem_cons_of_mem _ he), fun a ha => ?_⟩
      exact ⟨⟨metadata, hmono _ List.mem_cons_self, Bool.eq_false_iff.mpr hreparse⟩, hwalked a ha⟩

/-- An inspection that says what the target is. -/
inductive Inspected (sha256 : List UInt8 → Sha256Hex) (platform : Platform) (l : Ledger) :
    Ledger → Option TargetObservation → Option (List UInt8) → Prop
  | absent : Inspected sha256 platform l
      { l with inspection := .absent, observed := l.observed ++ [none] } none none
  | read {file : FileId} {metadata : FileMetadata} {bytes : List UInt8}
      (hfile : metadata.isFile = true) (hpoint : isWindowsReparsePoint platform metadata = false)
      (hlength : bytes.length ≤ maxAtomicTextBytes) : Inspected sha256 platform l
        { l with
          inspection := .read file metadata bytes
          observed := l.observed ++ [some bytes] }
        (some ⟨sha256Digest (sha256 bytes), metadata.permissions⟩) (some bytes)

theorem inspectTarget_sat :
    Sat (Ledger.Allows sha256 leaf expectedDigest) Ledger.next (inspectTarget sha256 platform leaf) l
      fun l' outcome => (∃ target seen, outcome = .ok target ∧
        Inspected sha256 platform l l' target seen) ∨
        (outcome = Outcome.fail .inspectTarget ∧
          ∃ inspection observed, l' = { l with inspection, observed }) := by
  simp only [inspectTarget, sat_bind, sat_perform]
  refine ⟨rfl, fun answer => ?_⟩
  have hfailed : ∀ (inspection : Inspection) (observed : List (Option (List UInt8))),
      (∃ target seen, (Outcome.fail .inspectTarget :
          Outcome AtomicCommitFailure (Option TargetObservation)) = .ok target ∧
        Inspected sha256 platform l { l with inspection, observed } target seen) ∨
      ((Outcome.fail .inspectTarget : Outcome AtomicCommitFailure (Option TargetObservation)) =
          Outcome.fail .inspectTarget ∧ ∃ inspection' observed',
        ({ l with inspection, observed } : Ledger) =
          { l with inspection := inspection', observed := observed' }) :=
    fun inspection observed => Or.inr ⟨rfl, inspection, observed, rfl⟩
  rcases answer with (_ | _ | _) | file
  · exact Or.inl ⟨none, none, rfl, .absent⟩
  · exact hfailed .idle l.observed
  · exact hfailed .idle l.observed
  · refine sat_ask rfl (fun metadata => ?_) fun _ => hfailed (.opened file) l.observed
    refine sat_failIf (fun _ => hfailed (.checked file metadata) l.observed) fun hregular => ?_
    obtain ⟨hfile, hpoint⟩ := not_or.mp hregular
    refine sat_ask ⟨rfl, metadata, rfl⟩ (fun bytes => ?_) fun _ =>
      hfailed (.checked file metadata) l.observed
    refine sat_failIf (fun _ => hfailed (.read file metadata bytes) (l.observed ++ [some bytes]))
      fun hlength => ?_
    exact Or.inl ⟨_, some bytes, rfl, .read (by simpa using hfile) (by simpa using hpoint)
      (not_lt.mp hlength)⟩

theorem createAttempts_sat {attempts : ℕ} (hstage : l.stage = .before) :
    Sat (Ledger.Allows sha256 leaf expectedDigest) Ledger.next (createAttempts attempts) l
      fun l' outcome => (∃ name file, outcome = .ok (name, file) ∧
        l' = { l with stage := .live name file }) ∨
        (outcome = Outcome.fail .createTemporary ∧ l' = l) := by
  induction attempts with
  | zero => exact Or.inr ⟨rfl, rfl⟩
  | succ attempts ih =>
    refine sat_ask trivial (fun random => ?_) fun _ => Or.inr ⟨rfl, rfl⟩
    refine ⟨hstage, fun answer => ?_⟩
    rcases answer with (_ | _ | _) | file
    · exact Or.inr ⟨rfl, rfl⟩
    · exact ih
    · exact Or.inr ⟨rfl, rfl⟩
    · exact Or.inl ⟨_, file, rfl, rfl⟩

theorem syncParent_sat :
    Sat (Ledger.Allows sha256 leaf expectedDigest) Ledger.next (syncParent platform) l
      fun l' outcome => l' = l ∧ ∃ synced, outcome = .ok synced := by
  cases platform with
  | unix =>
    refine ⟨trivial, fun answer => ?_⟩
    cases answer with
    | error error => exact ⟨rfl, false, rfl⟩
    | ok value => exact ⟨trivial, fun answer => ⟨rfl, _, rfl⟩⟩
  | windows | other => exact ⟨rfl, true, rfl⟩

/-! ## What the inspections say -/

section

variable {l' m m' : Ledger} {target initial : Option TargetObservation}
  {seen first : Option (List UInt8)}

theorem Inspected.frame (h : Inspected sha256 platform l l' target seen) :
    ∃ inspection, inspection.result = some seen ∧
      l' = { l with inspection, observed := l.observed ++ [seen] } := by
  cases h with
  | absent => exact ⟨.absent, rfl, rfl⟩
  | read => exact ⟨.read _ _ _, rfl, rfl⟩

theorem Inspected.meets (h : Inspected sha256 platform l l' target seen)
    (hverify : verifyPrecondition target expectedDigest = .ok ()) :
    Meets sha256 expectedDigest seen := by
  cases h with
  | absent =>
    cases expectedDigest with
    | none => rfl
    | some expected => cases hverify
  | read _ _ hlength =>
    cases expectedDigest with
    | none => cases hverify
    | some expected =>
      rw [verifyPrecondition, Outcome.failIf_eq_ok, not_not] at hverify
      exact ⟨hlength, congrArg some hverify.symm⟩

theorem Inspected.meets_again (h : Inspected sha256 platform l l' target seen)
    (hinitial : Inspected sha256 platform m m' initial first)
    (hverify : verifySameObservation initial target = .ok ())
    (hmeets : Meets sha256 expectedDigest first) : Meets sha256 expectedDigest seen := by
  cases hinitial with
  | absent =>
    cases h with
    | absent => exact hmeets
    | read => cases hverify
  | read _ _ _ =>
    cases h with
    | absent => cases hverify
    | read _ _ hlength =>
      rw [verifySameObservation, Outcome.failIf_eq_ok, not_or, not_not] at hverify
      exact ⟨hlength, hmeets.2.trans (congrArg some hverify.1)⟩

theorem verifyPrecondition_error {fault : Fault AtomicCommitFailure}
    (h : verifyPrecondition target expectedDigest = .error fault) : fault = .err .conflict := by
  cases target <;> cases expectedDigest
  · cases h
  · exact (Except.error.inj h).symm
  · exact (Except.error.inj h).symm
  · rw [verifyPrecondition, Outcome.failIf] at h
    split at h
    · exact (Except.error.inj h).symm
    · cases h

theorem verifySameObservation_error {fault : Fault AtomicCommitFailure}
    (h : verifySameObservation initial target = .error fault) : fault = .err .conflict := by
  cases initial <;> cases target
  · cases h
  · exact (Except.error.inj h).symm
  · exact (Except.error.inj h).symm
  · rw [verifySameObservation, Outcome.failIf] at h
    split at h
    · exact (Except.error.inj h).symm
    · cases h

end

/-! ## The whole routine -/

/-- The target has been read, whole, and has the digest. -/
def Ledger.Committed (sha256 : List UInt8 → Sha256Hex) (platform : Platform) (desiredDigest : String)
    (l : Ledger) : Prop :=
  ∃ file metadata bytes, l.inspection = .read file metadata bytes ∧ metadata.isFile = true ∧
    isWindowsReparsePoint platform metadata = false ∧ bytes.length ≤ maxAtomicTextBytes ∧
    sha256Digest (sha256 bytes) = desiredDigest

/-- The run is in the parent directory of the target. -/
def Ledger.Located (platform : Platform) (path : RelativePath) (leaf : String) (l : Ledger) : Prop :=
  path.components.getLast? = some leaf ∧ Walked platform l.entered [] path.components.dropLast

/-- The target was not renamed over, and the permissions were copied. -/
def Ledger.Regular (l : Ledger) : Prop := l.renamed = false ∧ l.permissionsFailed = false

/-- How a run ends. -/
def Concluded (sha256 : List UInt8 → Sha256Hex) (platform : Platform) (path : RelativePath)
    (leaf desiredDigest : String) (l : Ledger) : Outcome AtomicCommitFailure Bool → Prop
  | .ok _ => l.Located platform path leaf ∧ l.Committed sha256 platform desiredDigest
  | .error (.err failure) => failure.outcomeIsUnknown = false →
    l.Regular ∧ (l.stage = .before ∨ ∃ name, l.stage = .past name) ∨
      l.renamed = false ∧ l.permissionsFailed = true ∧ ∃ name file, l.stage = .live name file
  | .error (.panic _) => False

variable {path : RelativePath}

theorem Inspected.committed {l' : Ledger} {target : Option TargetObservation}
    {seen : Option (List UInt8)} (h : Inspected sha256 platform l l' target seen)
    (hdigest : hasDigest target desiredDigest = true) :
    l'.Committed sha256 platform desiredDigest := by
  cases h with
  | absent => cases hdigest
  | read hfile hpoint hlength =>
    exact ⟨_, _, _, rfl, hfile, hpoint, hlength, by simpa [hasDigest] using hdigest⟩

theorem discard_sat {name : String} {failure : AtomicCommitFailure}
    (hstage : (∃ file, l.stage = .live name file) ∨ l.stage = .past name)
    (hregular : failure.outcomeIsUnknown = false → l.Regular) :
    Sat (Ledger.Allows sha256 leaf expectedDigest) Ledger.next (discard name failure) l
      (Concluded sha256 platform path leaf desiredDigest) := by
  refine ⟨hstage, fun answer => ?_⟩
  cases answer <;> exact fun h => Or.inl ⟨hregular h, Or.inr ⟨name, rfl⟩⟩

theorem replaceTarget_sat {name : String} {file : FileId} {initial : Option TargetObservation}
    {first : Option (List UInt8)} {m m' : Ledger} (hlocated : l.Located platform path leaf)
    (hstage : l.stage = .live name file) (hregular : l.Regular)
    (hobserved : l.observed = [first]) (hinitial : Inspected sha256 platform m m' initial first)
    (hmeets : Meets sha256 expectedDigest first) :
    Sat (Ledger.Allows sha256 leaf expectedDigest) Ledger.next
      (replaceTarget sha256 platform leaf name desiredDigest initial) l
      (Concluded sha256 platform path leaf desiredDigest) := by
  rw [replaceTarget, sat_bind, sat_attempt]
  refine inspectTarget_sat.mono fun l' outcome hpost => ?_
  rcases hpost with ⟨target, seen, rfl, hinspected⟩ | ⟨rfl, inspection, observed, rfl⟩
  swap
  · exact discard_sat (Or.inl ⟨file, hstage⟩) fun _ => hregular
  by_cases hdigest : hasDigest target desiredDigest = true
  · simp only [hdigest, if_true]
    have hcommitted := hinspected.committed hdigest
    obtain ⟨inspection, -, rfl⟩ := hinspected.frame
    refine ⟨Or.inl ⟨file, hstage⟩, fun answer => ?_⟩
    cases answer <;> exact ⟨hlocated, hcommitted⟩
  · simp only [hdigest, Bool.false_eq_true, if_false]
    rw [sat_bind, sat_attempt, sat_lift]
    cases hsame : verifySameObservation initial target with
    | error fault =>
      obtain rfl := verifySameObservation_error hsame
      obtain ⟨inspection, -, rfl⟩ := hinspected.frame
      exact discard_sat (Or.inl ⟨file, hstage⟩) fun _ => hregular
    | ok _ =>
      have hagain := hinspected.meets_again hinitial hsame hmeets
      obtain ⟨inspection, hresult, rfl⟩ := hinspected.frame
      refine sat_call ⟨⟨file, hstage⟩, rfl, first, seen, ?_, hresult, hmeets, hagain⟩ fun answer => ?_
      · rw [hobserved, List.singleton_append]
      cases answer with
      | error error => exact discard_sat (Or.inr rfl) fun h => by cases h
      | ok value =>
        -- Whatever goes wrong from here on is of unknown outcome.
        refine sat_bind.mpr (syncParent_sat.mono fun l' outcome hsync => ?_)
        obtain ⟨rfl, synced, rfl⟩ := hsync
        refine sat_failIf (fun _ h => by cases h) fun _ => ?_
        rw [sat_bind, sat_mapErr]
        refine inspectTarget_sat.mono fun l' outcome hpost => ?_
        rcases hpost with ⟨target, seen, rfl, hinspected⟩ | ⟨rfl, -⟩
        · refine sat_failIf (fun _ h => by cases h) fun hdigest => ?_
          have hcommitted := hinspected.committed (by simpa using hdigest)
          obtain ⟨inspection, -, rfl⟩ := hinspected.frame
          exact ⟨hlocated, hcommitted⟩
        · exact fun h => by cases h

theorem writeTemporary_sat {name : String} {file : FileId} {content : List UInt8}
    {initial : Option TargetObservation} {first : Option (List UInt8)} {m m' : Ledger}
    (hlocated : l.Located platform path leaf) (hstage : l.stage = .live name file)
    (hregular : l.Regular) (hobserved : l.observed = [first])
    (hinitial : Inspected sha256 platform m m' initial first)
    (hmeets : Meets sha256 expectedDigest first) :
    Sat (Ledger.Allows sha256 leaf expectedDigest) Ledger.next
      (writeTemporary sha256 platform leaf name file content desiredDigest initial) l
      (Concluded sha256 platform path leaf desiredDigest) := by
  refine sat_call ⟨name, hstage⟩ fun answer => ?_
  cases answer with
  | error error => exact discard_sat (Or.inl ⟨file, hstage⟩) fun _ => hregular
  | ok value =>
    refine sat_call trivial fun answer => ?_
    cases answer with
    | error error => exact discard_sat (Or.inl ⟨file, hstage⟩) fun _ => hregular
    | ok value => exact replaceTarget_sat hlocated hstage hregular hobserved hinitial hmeets

theorem openParent_sat :
    Sat (Ledger.Allows sha256 (path.leaf) expectedDigest) Ledger.next
      (openParent platform path) .start fun l' outcome =>
        (∃ entered, l' = { Ledger.start with entered }) ∧
          ((∃ leaf, outcome = .ok leaf ∧ l'.Located platform path leaf) ∨
            outcome = Outcome.fail .openParent) := by
  rw [openParent, sat_bind, sat_lift]
  cases hleaf : path.components.getLast? with
  | none => exact ⟨⟨[], rfl⟩, Or.inr rfl⟩
  | some leaf =>
    refine sat_ask trivial (fun _ => ?_) fun _ => ⟨⟨[], rfl⟩, Or.inr rfl⟩
    refine sat_bind.mpr (openParents_sat.mono fun l' outcome hpost => ?_)
    obtain ⟨⟨entered, rfl, -, hwalked⟩, rfl | rfl⟩ := hpost
    · exact ⟨⟨entered, rfl⟩, Or.inl ⟨leaf, rfl, hleaf, hwalked () rfl⟩⟩
    · exact ⟨⟨entered, rfl⟩, Or.inr rfl⟩

/-- **The routine makes only the calls that its ledger allows.** -/
theorem commitAtomic_sat {content : List UInt8} :
    Sat (Ledger.Allows sha256 (path.leaf) expectedDigest) Ledger.next
      (commitAtomic sha256 platform path content expectedDigest desiredDigest) .start
      (Concluded sha256 platform path (path.leaf) desiredDigest) := by
  rw [commitAtomic, sat_bind]
  refine openParent_sat.mono fun l outcome hopened => ?_
  obtain ⟨⟨entered, rfl⟩, ⟨leaf, rfl, hlocated⟩ | rfl⟩ := hopened
  swap
  · exact fun _ => Or.inl ⟨⟨rfl, rfl⟩, Or.inl rfl⟩
  have hleaf : path.leaf = leaf := by
    rw [RelativePath.leaf, List.getLastD_eq_getLast?, hlocated.1]
    rfl
  subst hleaf
  simp only [sat_bind]
  refine inspectTarget_sat.mono fun l' outcome hpost => ?_
  rcases hpost with ⟨initial, first, rfl, hinitial⟩ | ⟨rfl, inspection, observed, rfl⟩
  swap
  · exact fun _ => Or.inl ⟨⟨rfl, rfl⟩, Or.inl rfl⟩
  by_cases hdigest : hasDigest initial desiredDigest = true
  · simp only [hdigest, if_true]
    have hcommitted := hinitial.committed hdigest
    obtain ⟨inspection, -, rfl⟩ := hinitial.frame
    exact ⟨hlocated, hcommitted⟩
  simp only [hdigest, Bool.false_eq_true, if_false]
  rw [sat_bind, sat_lift]
  cases hverify : verifyPrecondition initial expectedDigest with
  | error fault =>
    obtain rfl := verifyPrecondition_error hverify
    obtain ⟨inspection, -, rfl⟩ := hinitial.frame
    exact fun _ => Or.inl ⟨⟨rfl, rfl⟩, Or.inl rfl⟩
  | ok _ =>
    have hmeets := hinitial.meets hverify
    obtain ⟨inspection, -, rfl⟩ := hinitial.frame
    refine sat_bind.mpr ((createAttempts_sat rfl).mono fun l' outcome hcreated => ?_)
    rcases hcreated with ⟨name, file, rfl, rfl⟩ | ⟨rfl, rfl⟩
    swap
    · exact fun _ => Or.inl ⟨⟨rfl, rfl⟩, Or.inl rfl⟩
    cases initial with
    | none => exact writeTemporary_sat hlocated rfl ⟨rfl, rfl⟩ rfl hinitial hmeets
    | some target =>
      refine sat_ask ⟨name, rfl⟩ (fun _ => ?_) fun _ _ => Or.inr ⟨rfl, rfl, name, file, rfl⟩
      exact writeTemporary_sat hlocated rfl ⟨rfl, rfl⟩ rfl hinitial hmeets

end

end Xgeny.AtomicCommit
