import Xgeny.Cli.ModelProfiles
import Xgeny.Filesystem.CommitLaws
import Xgeny.Sidecars.Binding

set_option autoImplicit false

/-!
# Saving and loading the profile file

A collection is saved over the file that it was loaded from: the digest of the file is compared before
and after a temporary file is written, and the temporary file is renamed over it. Every call to the
file system can fail, and other processes replace the profile file meanwhile.

* `Machine`, `StoreOp`, `Machine.Step`, `profileStore`: the file system and the collection in memory;
* `save`, `load`, with `currentFileDigest` and `createTemporary`: the routines;
* `Ledger`, `Ledger.Allows`: where a run of `save` stands, and which call it makes there;
* **`save_sat`**: `save` makes only these calls, and how it ends.
-/

namespace Xgeny.ProfileStore

open AtomicCommit (Directory FileId FileMetadata IoError Stage hexByte isWindowsReparsePoint)
open Prog (Sat sat_bind sat_lift sat_perform sat_pure sat_call sat_failIf)

/-! ## The file system -/

/-- `PROFILE_FILE`. -/
def profileFile : String := "model-profiles.json"

/-- The configuration root, and the digest in the collection that is saved. -/
structure Machine where
  directory : Directory
  sourceDigest : Option String

/-- A call to the file system, or the assignment to the collection. The metadata of the profile file is
asked for by `current_file_digest` and by `verify_private_file`. -/
inductive StoreOp where
  | ensurePrivateRoot
  | inspectPrivateRoot
  | symlinkMetadata
  | privateMetadata
  | readToEnd (limit : ℕ)
  | fillRandom
  | createNew (name : String)
  | writeAll (file : FileId) (content : List UInt8)
  | syncAll (file : FileId)
  | removeFile (name : String)
  | openAmbientDir
  | rename (source : String)
  | syncDirectory
  | assignSourceDigest (digest : String)

/-- What a call returns; the metadata comes with the length of the file. -/
abbrev StoreOp.Value : StoreOp → Type
  | .symlinkMetadata | .privateMetadata => FileMetadata × ℕ
  | .readToEnd _ => List UInt8
  | .fillRandom => Vector UInt8 16
  | .createNew _ => FileId
  | _ => Unit

abbrev StoreOp.Response (op : StoreOp) : Type := Except IoError op.Value

namespace Machine

variable (m : Machine)

/-- The content of the profile file. -/
def content : Option (List UInt8) := m.directory.content profileFile

/-- The digest of the profile file. -/
def digest (sha256 : List UInt8 → Sha256Hex) : Option String :=
  m.content.map fun bytes => sha256Digest (sha256 bytes)

/-- The metadata of the profile file. -/
def metadata : Except IoError (FileMetadata × ℕ) :=
  match m.directory.names profileFile with
  | some file => .ok ((m.directory.files file).metadata, (m.directory.files file).content.length)
  | none => .error .notFound

/-- A call that is answered without a fault. -/
def serve (random : Vector UInt8 16) : (op : StoreOp) → op.Response × Machine
  | .ensurePrivateRoot | .inspectPrivateRoot | .syncAll _ | .openAmbientDir | .syncDirectory => (.ok (), m)
  | .symlinkMetadata | .privateMetadata => (m.metadata, m)
  | .readToEnd limit =>
    (match m.directory.names profileFile with
      | some file => .ok ((m.directory.files file).content.take limit)
      | none => .error .notFound, m)
  | .fillRandom => (.ok random, m)
  | .createNew name =>
    if (m.directory.names name).isSome then (.error .alreadyExists, m)
    else (.ok m.directory.fresh, { m with directory := m.directory.create name })
  | .writeAll file content =>
    (.ok (), { m with directory := m.directory.update file fun f => { f with content } })
  | .removeFile name =>
    if (m.directory.names name).isSome then (.ok (), { m with directory := m.directory.unlink name })
    else (.error .notFound, m)
  | .rename source =>
    if (m.directory.names source).isSome then
      (.ok (), { m with directory := m.directory.move source profileFile })
    else (.error .notFound, m)
  | .assignSourceDigest digest => (.ok (), { m with sourceDigest := some digest })

/-- What a call that fails has done: a write may have stopped half way, and a rename may have taken
place. An assignment does not fail. -/
def Disturbed (m : Machine) (op : StoreOp) (m' : Machine) : Prop :=
  match op with
  | .writeAll file _ =>
    ∃ content, m' = { m with directory := m.directory.update file fun f => { f with content } }
  | .rename source => m' = m ∨
    (m.directory.names source).isSome ∧
      m' = { m with directory := m.directory.move source profileFile }
  | .assignSourceDigest _ => False
  | _ => m' = m

/-- A call is answered, or it fails. -/
def Step (m : Machine) (op : StoreOp) (answer : op.Response) (m' : Machine) : Prop :=
  (∃ random, m.serve random op = (answer, m')) ∨ (answer = .error .other ∧ m.Disturbed op m')

/-- What other processes do: they replace the profile file, or change what files hold. -/
structure Foreign (m m' : Machine) : Prop where
  directory : m.directory.Foreign profileFile m'.directory
  sourceDigest : m'.sourceDigest = m.sourceDigest

end Machine

/-- The file system among other processes. -/
def profileStore : System StoreOp StoreOp.Response Machine Unit where
  step := Machine.Step
  other m _ m' := m.Foreign m'

/-! ## The routines -/

abbrev Routine := Prog StoreOp StoreOp.Response ModelProfileError

/-- A call whose failure is `error`. -/
def ask (op : StoreOp) (error : ModelProfileError) : Routine op.Value := do
  let answer ← Prog.perform op
  match answer with
  | .ok value => pure value
  | .error _ => Prog.stop (.err error)

section

variable (lib : ProviderCrates) (codec : ProfileCodec) (sha256 : List UInt8 → Sha256Hex)
  (platform : AtomicCommit.Platform)

/-- `verify_private_file`. -/
def verifyPrivateFile : Routine Unit :=
  match platform with
  | .unix => do
    let metadata ← ask .privateMetadata .profileStoreUnavailable
    Prog.lift (Outcome.failIf (metadata.1.permissions &&& 0o077 ≠ 0) .profileStoreUnavailable)
  | _ => pure ()

/-- The content of the profile file, whose metadata is known. -/
def readProfileFile (metadata : FileMetadata × ℕ) : Routine (List UInt8) := do
  Prog.lift (Outcome.failIf
    (metadata.1.isFile = false ∨ isWindowsReparsePoint platform metadata.1 = true ∨
      maxProfileFileBytes < metadata.2) .profileStoreUnavailable)
  verifyPrivateFile platform
  let bytes ← ask (.readToEnd (maxProfileFileBytes + 1)) .profileStoreUnavailable
  Prog.lift (Outcome.failIf (maxProfileFileBytes < bytes.length) .profileStoreUnavailable)
  pure bytes

/-- `current_file_digest`. -/
def currentFileDigest : Routine (Option String) := do
  let answer ← Prog.perform .symlinkMetadata
  match answer with
  | .error .notFound => pure none
  | .error _ => Prog.stop (.err .profileStoreUnavailable)
  | .ok metadata => do
    let bytes ← readProfileFile platform metadata
    pure (some (sha256Digest (sha256 bytes)))

/-- `TEMP_CREATE_ATTEMPTS`. -/
def tempCreateAttempts : ℕ := 8

def temporaryName (random : Vector UInt8 16) : String :=
  ".xgeny-model-profiles-" ++ String.ofList (random.toList.flatMap hexByte) ++ ".tmp"

/-- The loop of `create_temporary`. -/
def createAttempts : ℕ → Routine (String × FileId)
  | 0 => Prog.stop (.err .profileStoreUnavailable)
  | attempts + 1 => do
    let random ← ask .fillRandom .profileStoreUnavailable
    let name := temporaryName random
    let answer ← Prog.perform (.createNew name)
    match answer with
    | .ok file => pure (name, file)
    | .error .alreadyExists => createAttempts attempts
    | .error _ => Prog.stop (.err .profileStoreUnavailable)

def createTemporary : Routine (String × FileId) := createAttempts tempCreateAttempts

/-- `sync_directory`. -/
def syncDirectory : Routine Unit :=
  match platform with
  | .unix => ask .syncDirectory .profileCommitUnknown
  | _ => pure ()

/-- Remove the temporary file, and stop. -/
def discard (temporaryName : String) (error : ModelProfileError) : Routine Unit := do
  let _ ← Prog.perform (.removeFile temporaryName)
  Prog.stop (.err error)

/-- `profiles.source_digest = Some(digest)`, the last statement of `save`. -/
def assignSourceDigest (digest : String) : Routine Unit := do
  let _ ← Prog.perform (.assignSourceDigest digest)
  pure ()

/-- The part of `save` after the rename. -/
def confirmReplaced (desiredDigest : String) : Routine Unit := do
  syncDirectory platform
  let current ← currentFileDigest sha256 platform
  Prog.lift (Outcome.failIf (current ≠ some desiredDigest) .profileCommitUnknown)
  assignSourceDigest desiredDigest

/-- The part of `save` after the temporary file was written. -/
def replaceProfileFile (temporaryName desiredDigest : String) (sourceDigest : Option String) :
    Routine Unit := do
  -- A digest that cannot be read, and a directory that cannot be opened, leave the temporary file.
  let current ← currentFileDigest sha256 platform
  if current ≠ sourceDigest then discard temporaryName .concurrentModification
  else do
    ask .openAmbientDir .profileStoreUnavailable
    let renamed ← Prog.perform (.rename temporaryName)
    match renamed with
    | .error _ => discard temporaryName .profileCommitUnknown
    | .ok _ => confirmReplaced sha256 platform desiredDigest

/-- The part of `save` that fills the temporary file. -/
def writeTemporary (temporaryName : String) (temporary : FileId) (bytes : List UInt8)
    (sourceDigest : Option String) : Routine Unit := do
  let written ← Prog.perform (.writeAll temporary bytes)
  match written with
  | .error _ => discard temporaryName .profileStoreUnavailable
  | .ok _ => do
    let synced ← Prog.perform (.syncAll temporary)
    match synced with
    | .error _ => discard temporaryName .profileStoreUnavailable
    | .ok _ =>
      replaceProfileFile sha256 platform temporaryName (sha256Digest (sha256 bytes)) sourceDigest

/-- `save`. -/
def save (profiles : ModelProfiles) : Routine Unit := do
  Prog.lift (profiles.validate lib)
  ask .ensurePrivateRoot .profileStoreUnavailable
  let bytes ← Prog.lift (encodeProfiles codec profiles)
  let desiredDigest := sha256Digest (sha256 bytes)
  let current ← currentFileDigest sha256 platform
  if current = some desiredDigest then assignSourceDigest desiredDigest
  else do
    let current ← currentFileDigest sha256 platform
    Prog.lift (Outcome.failIf (current ≠ profiles.sourceDigest) .concurrentModification)
    let created ← createTemporary
    writeTemporary sha256 platform created.1 created.2 bytes profiles.sourceDigest

/-- The part of `load` for a file that exists. -/
def loadFile (metadata : FileMetadata) : Routine ModelProfiles := do
  Prog.lift (Outcome.failIf
    (metadata.isFile = false ∨ isWindowsReparsePoint platform metadata = true)
    .profileStoreUnavailable)
  verifyPrivateFile platform
  let bytes ← ask (.readToEnd (maxProfileFileBytes + 1)) .profileStoreUnavailable
  Prog.lift (decodeProfiles lib codec sha256 bytes)

/-- The part of `load` in the root. -/
def loadProfileFile : Routine ModelProfiles := do
  let answer ← Prog.perform StoreOp.symlinkMetadata
  match answer with
  | .error .notFound => pure .empty
  | .error _ => Prog.stop (.err .profileStoreUnavailable)
  | .ok metadata => loadFile lib codec sha256 platform metadata.1

/-- `load`. -/
def load : Routine ModelProfiles := do
  let root ← Prog.perform .inspectPrivateRoot
  match root with
  | .error .notFound => pure .empty
  | .error _ => Prog.stop (.err .profileStoreUnavailable)
  | .ok _ => loadProfileFile lib codec sha256 platform

end

/-! ## The ledger -/

/-- The call made the temporary file. -/
def isCreated : Move StoreOp StoreOp.Response → Bool
  | ⟨.createNew _, .ok _⟩ => true
  | _ => false

/-- What stops a run at once: the digest of the file cannot be read, or the directory not opened. -/
def refuses (platform : AtomicCommit.Platform) : Move StoreOp StoreOp.Response → Bool
  | ⟨.symlinkMetadata, .ok metadata⟩ =>
    decide (metadata.1.isFile = false ∨ isWindowsReparsePoint platform metadata.1 = true ∨
      maxProfileFileBytes < metadata.2)
  | ⟨.symlinkMetadata, .error .notFound⟩ => false
  | ⟨.symlinkMetadata, .error _⟩ => true
  | ⟨.privateMetadata, .ok metadata⟩ => decide (metadata.1.permissions &&& 0o077 ≠ 0)
  | ⟨.privateMetadata, .error _⟩ => true
  | ⟨.readToEnd _, .ok bytes⟩ => decide (maxProfileFileBytes < bytes.length)
  | ⟨.readToEnd _, .error _⟩ => true
  | ⟨.openAmbientDir, .error _⟩ => true
  | _ => false

/-- Something stopped the run after the temporary file was made. -/
def hindered (platform : AtomicCommit.Platform) : List (Move StoreOp StoreOp.Response) → Bool
  | [] => false
  | move :: moves =>
    if isCreated move then moves.any (refuses platform) else hindered platform moves

/-- Where a run stands: what the last reading of the file found, what has become of the temporary file,
and what happened. -/
structure Ledger where
  seen : Option (Option (List UInt8))
  stage : Stage
  created : Bool
  hindered : Bool
  renamed : Bool
  replaced : Bool
  removalFailed : Bool
  assigned : Option String

def Ledger.start : Ledger := ⟨none, .before, false, false, false, false, false, none⟩

/-- What a call leaves, apart from what hinders the run. -/
def Ledger.record (l : Ledger) : (op : StoreOp) → op.Response → Ledger
  | .symlinkMetadata, .error .notFound => { l with seen := some none }
  | .symlinkMetadata, _ => { l with seen := none }
  | .readToEnd _, .ok bytes => { l with seen := some (some bytes) }
  | .readToEnd _, .error _ => { l with seen := none }
  | .createNew name, .ok file => { l with stage := .live name file, created := true }
  | .removeFile name, .ok _ => { l with stage := .past name }
  | .removeFile name, .error _ => { l with stage := .past name, removalFailed := true }
  | .rename source, answer =>
    { l with
      seen := none
      stage := .past source
      renamed := true
      replaced := l.replaced || answer.isOk }
  | .assignSourceDigest digest, _ => { l with assigned := some digest }
  | _, _ => l

def Ledger.next (platform : AtomicCommit.Platform) (l : Ledger) (op : StoreOp)
    (answer : op.Response) : Ledger :=
  { l.record op answer with hindered := l.hindered || (l.created && refuses platform ⟨op, answer⟩) }

/-- What was seen is the file that the collection was loaded from. -/
def Meets (sha256 : List UInt8 → Sha256Hex) (sourceDigest : Option String)
    (seen : Option (List UInt8)) : Prop :=
  (∀ bytes ∈ seen, bytes.length ≤ maxProfileFileBytes) ∧
    seen.map (fun bytes => sha256Digest (sha256 bytes)) = sourceDigest

/-- The calls that `save` makes where it stands. -/
def Ledger.Allows (sha256 : List UInt8 → Sha256Hex) (sourceDigest : Option String)
    (l : Ledger) : StoreOp → Prop
  | .readToEnd limit => limit = maxProfileFileBytes + 1
  | .createNew name => l.stage = .before ∧ name ≠ profileFile
  | .writeAll file _ => ∃ name, l.stage = .live name file
  | .removeFile name => (∃ file, l.stage = .live name file) ∨ l.stage = .past name
  | .rename source =>
    (∃ file, l.stage = .live source file) ∧ ∃ seen, l.seen = some seen ∧ Meets sha256 sourceDigest seen
  | .assignSourceDigest digest => ∃ bytes, l.seen = some (some bytes) ∧
    bytes.length ≤ maxProfileFileBytes ∧ sha256Digest (sha256 bytes) = digest
  | _ => True

/-- The run has not renamed, and left no temporary file. -/
structure Ledger.Clean (l : Ledger) : Prop where
  unhindered : l.hindered = false
  renamed : l.renamed = false
  stage : l.stage = .before ∨ ∃ name, l.stage = .past name

/-- The run was stopped with the temporary file in place, or after the rename. -/
structure Ledger.Stuck (l : Ledger) : Prop where
  hindered : l.hindered = true
  removals : l.removalFailed = false
  stage : (∃ name file, l.stage = .live name file) ∨ l.replaced = true

/-- How a run ends. -/
def Concluded (sha256 : List UInt8 → Sha256Hex) (encoded : Outcome ModelProfileError (List UInt8))
    (l : Ledger) : Outcome ModelProfileError Unit → Prop
  | .ok _ => l.hindered = false ∧ ∃ bytes content, encoded = .ok bytes ∧
    l.seen = some (some content) ∧ content.length ≤ maxProfileFileBytes ∧
    sha256 content = sha256 bytes ∧ l.assigned = some (sha256Digest (sha256 bytes))
  | .error (.err error) => l.assigned = none ∧
    (l.Clean ∨ (error = .profileCommitUnknown ∧ l.hindered = false) ∨
      (error ≠ .profileCommitUnknown ∧ l.Stuck))
  | .error (.panic _) => l.hindered = false

/-! ## The parts of the routine -/

section

variable {lib : ProviderCrates} {codec : ProfileCodec} {sha256 : List UInt8 → Sha256Hex}
  {platform : AtomicCommit.Platform} {sourceDigest : Option String} {l : Ledger} {op : StoreOp}
  {answer : op.Response}

theorem next_of_not_refuses (h : refuses platform ⟨op, answer⟩ = false) :
    l.next platform op answer = { l.record op answer with hindered := l.hindered } := by
  rw [Ledger.next, h, Bool.and_false, Bool.or_false]

theorem next_of_refuses (h : refuses platform ⟨op, answer⟩ = true) :
    l.next platform op answer =
      { l.record op answer with hindered := l.hindered || l.created } := by
  rw [Ledger.next, h, Bool.and_true]

theorem sat_ask {α : Type} {op : StoreOp} {error : ModelProfileError} {f : op.Value → Routine α}
    {post : Ledger → Outcome ModelProfileError α → Prop} {allowed : Ledger → StoreOp → Prop}
    (hop : allowed l op)
    (hok : ∀ value, Sat allowed (Ledger.next platform) (f value) (l.next platform op (.ok value)) post)
    (herror : ∀ e, post (l.next platform op (.error e)) (Outcome.fail error)) :
    Sat allowed (Ledger.next platform) (ask op error >>= f) l post := by
  rw [sat_bind]
  refine ⟨hop, fun answer => ?_⟩
  cases answer with
  | ok value => exact hok value
  | error e => exact herror e

/-- The reading failed. -/
def Refused (l l' : Ledger) : Prop :=
  ∃ seen, l' = { l with seen, hindered := l.hindered || l.created }

theorem verifyPrivateFile_sat :
    Sat (Ledger.Allows sha256 sourceDigest) (Ledger.next platform) (verifyPrivateFile platform) l
      fun l' outcome => (outcome = .ok () ∧ l' = l) ∨
        (outcome = Outcome.fail .profileStoreUnavailable ∧ Refused l l') := by
  cases platform with
  | windows | other => exact Or.inl ⟨rfl, rfl⟩
  | unix =>
    rw [verifyPrivateFile]
    refine sat_ask trivial (fun metadata => ?_) fun e => Or.inr ⟨rfl, ?_⟩
    · rw [sat_lift, Outcome.failIf]
      by_cases hpermissions : metadata.1.permissions &&& 0o077 ≠ 0
      · have hmove : refuses .unix ⟨.privateMetadata, .ok metadata⟩ = true :=
          decide_eq_true hpermissions
        rw [if_pos hpermissions, next_of_refuses hmove]
        exact Or.inr ⟨rfl, l.seen, rfl⟩
      · have hmove : refuses .unix ⟨.privateMetadata, .ok metadata⟩ = false :=
          decide_eq_false hpermissions
        rw [if_neg hpermissions, next_of_not_refuses hmove]
        exact Or.inl ⟨rfl, rfl⟩
    · rw [next_of_refuses rfl]
      exact ⟨l.seen, rfl⟩

theorem Refused.trans {l₁ l₂ l₃ : Ledger} {seen : Option (Option (List UInt8))}
    (h : l₂ = { l₁ with seen }) (hrefused : Refused l₂ l₃) : Refused l₁ l₃ := by
  obtain ⟨seen', rfl⟩ := hrefused
  subst h
  exact ⟨seen', rfl⟩

theorem readProfileFile_sat {metadata : FileMetadata × ℕ} :
    Sat (Ledger.Allows sha256 sourceDigest) (Ledger.next platform)
      (readProfileFile platform metadata) (l.next platform .symlinkMetadata (.ok metadata))
      fun l' outcome => (∃ bytes, outcome = .ok bytes ∧ bytes.length ≤ maxProfileFileBytes ∧
        l' = { l with seen := some (some bytes) }) ∨
        (outcome = Outcome.fail .profileStoreUnavailable ∧ Refused l l') := by
  refine sat_failIf (fun hrefused => Or.inr ⟨rfl, ?_⟩) fun hregular => ?_
  · have hmove : refuses platform ⟨.symlinkMetadata, .ok metadata⟩ = true :=
      decide_eq_true hrefused
    rw [next_of_refuses hmove]
    exact ⟨none, rfl⟩
  · have hmove : refuses platform ⟨.symlinkMetadata, .ok metadata⟩ = false :=
      decide_eq_false hregular
    rw [next_of_not_refuses hmove]
    refine sat_bind.mpr (verifyPrivateFile_sat.mono fun l' outcome hverified => ?_)
    rcases hverified with ⟨rfl, rfl⟩ | ⟨rfl, hrefused⟩
    swap
    · exact Or.inr ⟨rfl, hrefused.trans rfl⟩
    refine sat_ask rfl (fun bytes => ?_) fun e => Or.inr ⟨rfl, ?_⟩
    · refine sat_failIf (fun hlength => Or.inr ⟨rfl, ?_⟩) fun hlength => ?_
      · have hmove : refuses platform ⟨.readToEnd (maxProfileFileBytes + 1), .ok bytes⟩ = true :=
          decide_eq_true hlength
        rw [next_of_refuses hmove]
        exact ⟨_, rfl⟩
      · have hmove : refuses platform ⟨.readToEnd (maxProfileFileBytes + 1), .ok bytes⟩ = false :=
          decide_eq_false hlength
        rw [next_of_not_refuses hmove]
        exact Or.inl ⟨bytes, rfl, not_lt.mp hlength, rfl⟩
    · rw [next_of_refuses rfl]
      exact ⟨_, rfl⟩

/-- **A reading of the digest.** -/
theorem currentFileDigest_sat :
    Sat (Ledger.Allows sha256 sourceDigest) (Ledger.next platform)
      (currentFileDigest sha256 platform) l fun l' outcome =>
        (∃ seen : Option (List UInt8),
          outcome = .ok (seen.map fun bytes => sha256Digest (sha256 bytes)) ∧
          (∀ bytes ∈ seen, bytes.length ≤ maxProfileFileBytes) ∧ l' = { l with seen := some seen }) ∨
        (outcome = Outcome.fail .profileStoreUnavailable ∧ Refused l l') := by
  rw [currentFileDigest]
  refine sat_call trivial fun answer => ?_
  rcases answer with (_ | _ | _) | metadata
  · refine Or.inl ⟨none, rfl, fun bytes hbytes => (by cases hbytes), ?_⟩
    rw [next_of_not_refuses rfl]
    rfl
  · refine Or.inr ⟨rfl, none, ?_⟩
    rw [next_of_refuses rfl]
    rfl
  · refine Or.inr ⟨rfl, none, ?_⟩
    rw [next_of_refuses rfl]
    rfl
  · refine sat_bind.mpr (readProfileFile_sat.mono fun l' outcome hread => ?_)
    rcases hread with ⟨bytes, rfl, hlength, rfl⟩ | ⟨rfl, hrefused⟩
    · refine Or.inl ⟨some bytes, rfl, ?_, rfl⟩
      rintro _ ⟨⟩
      exact hlength
    · exact Or.inr ⟨rfl, hrefused⟩

theorem temporaryName_ne (random : Vector UInt8 16) : temporaryName random ≠ profileFile := by
  intro h
  have htexts : (temporaryName random).toList = profileFile.toList := by rw [h]
  have hdot : ".xgeny-model-profiles-".toList = '.' :: "xgeny-model-profiles-".toList := by simp
  have hletter : profileFile.toList = 'm' :: "odel-profiles.json".toList := by simp [profileFile]
  unfold temporaryName at htexts
  rw [String.toList_append, String.toList_append, hdot, hletter, List.cons_append,
    List.cons_append, List.cons.injEq] at htexts
  exact absurd htexts.1 (by decide)

theorem createAttempts_sat {attempts : ℕ} (hstage : l.stage = .before) :
    Sat (Ledger.Allows sha256 sourceDigest) (Ledger.next platform) (createAttempts attempts) l
      fun l' outcome => (∃ name file, outcome = .ok (name, file) ∧
        l' = { l with stage := .live name file, created := true }) ∨
        (outcome = Outcome.fail .profileStoreUnavailable ∧ l' = l) := by
  induction attempts with
  | zero => exact Or.inr ⟨rfl, rfl⟩
  | succ attempts ih =>
    have hsame : ∀ (op : StoreOp) (answer : op.Response), refuses platform ⟨op, answer⟩ = false →
        l.record op answer = l → l.next platform op answer = l := by
      intro op answer hanswer hrecord
      rw [next_of_not_refuses hanswer, hrecord]
    refine sat_ask trivial (fun random => ?_) fun _ => Or.inr ⟨rfl, hsame _ _ rfl rfl⟩
    rw [hsame _ _ rfl rfl]
    refine sat_call ⟨hstage, temporaryName_ne random⟩ fun answer => ?_
    rcases answer with (_ | _ | _) | file
    · exact Or.inr ⟨rfl, hsame _ _ rfl rfl⟩
    · rw [hsame _ _ rfl rfl]
      exact ih
    · exact Or.inr ⟨rfl, hsame _ _ rfl rfl⟩
    · refine Or.inl ⟨_, file, rfl, ?_⟩
      rw [next_of_not_refuses rfl]
      rfl

/-! ## The whole routine -/

variable {encoded : Outcome ModelProfileError (List UInt8)} {bytes : List UInt8}

theorem next_of_record (hmove : refuses platform ⟨op, answer⟩ = false)
    (hrecord : l.record op answer = l) : l.next platform op answer = l := by
  rw [next_of_not_refuses hmove, hrecord]

theorem discard_sat {name : String} {error : ModelProfileError}
    (hstage : (∃ file, l.stage = .live name file) ∨ l.stage = .past name)
    (hassigned : l.assigned = none) (hhindered : l.hindered = false)
    (hrenamed : error ≠ .profileCommitUnknown → l.renamed = false) :
    Sat (Ledger.Allows sha256 sourceDigest) (Ledger.next platform) (discard name error) l
      (Concluded sha256 encoded) := by
  refine ⟨hstage, fun answer => ?_⟩
  have hpost : ∀ l' : Ledger, l'.assigned = l.assigned → l'.hindered = l.hindered →
      l'.renamed = l.renamed → l'.stage = .past name →
      Concluded sha256 encoded l' (.error (.err error)) := by
    intro l' ha hh hr hs
    refine ⟨ha.trans hassigned, ?_⟩
    by_cases herror : error = .profileCommitUnknown
    · exact Or.inr (Or.inl ⟨herror, hh.trans hhindered⟩)
    · exact Or.inl ⟨hh.trans hhindered, hr.trans (hrenamed herror), Or.inr ⟨name, hs⟩⟩
  cases answer with
  | ok value =>
    rw [next_of_not_refuses rfl]
    exact hpost _ rfl rfl rfl rfl
  | error e =>
    rw [next_of_not_refuses rfl]
    exact hpost _ rfl rfl rfl rfl

theorem assignSourceDigest_sat {content : List UInt8} (hencoded : encoded = .ok bytes)
    (hseen : l.seen = some (some content)) (hlength : content.length ≤ maxProfileFileBytes)
    (hcontent : sha256 content = sha256 bytes) (hhindered : l.hindered = false) :
    Sat (Ledger.Allows sha256 sourceDigest) (Ledger.next platform)
      (assignSourceDigest (sha256Digest (sha256 bytes))) l (Concluded sha256 encoded) := by
  refine ⟨⟨content, hseen, hlength, congrArg sha256Digest hcontent⟩, fun answer => ?_⟩
  rw [next_of_not_refuses rfl]
  exact ⟨hhindered, bytes, content, hencoded, hseen, hlength, hcontent, rfl⟩

theorem hash_of_seen {seen : Option (List UInt8)}
    (h : seen.map (fun content => sha256Digest (sha256 content)) =
      some (sha256Digest (sha256 bytes))) :
    ∃ content, seen = some content ∧ sha256 content = sha256 bytes := by
  obtain ⟨content, rfl, hcontent⟩ := Option.map_eq_some_iff.mp h
  exact ⟨content, rfl, CanonicalEncoder.sha256Digest_injective hcontent⟩

theorem confirmReplaced_sat (hencoded : encoded = .ok bytes) (hreplaced : l.replaced = true)
    (hcreated : l.created = true) (hhindered : l.hindered = false)
    (hremovals : l.removalFailed = false) (hassigned : l.assigned = none) :
    Sat (Ledger.Allows sha256 sourceDigest) (Ledger.next platform)
      (confirmReplaced sha256 platform (sha256Digest (sha256 bytes))) l
      (Concluded sha256 encoded) := by
  have hsync : Sat (Ledger.Allows sha256 sourceDigest) (Ledger.next platform)
      (syncDirectory platform) l fun l' outcome => l' = l ∧
        (outcome = .ok () ∨ outcome = Outcome.fail .profileCommitUnknown) := by
    cases platform with
    | windows | other => exact ⟨rfl, Or.inl rfl⟩
    | unix =>
      refine ⟨trivial, fun answer => ?_⟩
      cases answer with
      | ok value => exact ⟨next_of_record rfl rfl, Or.inl rfl⟩
      | error e => exact ⟨next_of_record rfl rfl, Or.inr rfl⟩
  refine sat_bind.mpr (hsync.mono fun l' outcome hpost => ?_)
  obtain ⟨rfl, rfl | rfl⟩ := hpost
  swap
  · exact ⟨hassigned, Or.inr (Or.inl ⟨rfl, hhindered⟩)⟩
  refine sat_bind.mpr (currentFileDigest_sat.mono fun l'' outcome hread => ?_)
  rcases hread with ⟨seen, rfl, hlength, rfl⟩ | ⟨rfl, seen, rfl⟩
  · refine sat_failIf (fun _ => ⟨hassigned, Or.inr (Or.inl ⟨rfl, hhindered⟩)⟩) fun hdigest => ?_
    obtain ⟨content, rfl, hcontent⟩ := hash_of_seen (not_not.mp hdigest)
    exact assignSourceDigest_sat hencoded rfl (hlength content rfl) hcontent hhindered
  · -- The digest could not be read, but the file has been replaced.
    refine ⟨hassigned, Or.inr (Or.inr ⟨by decide, ?_, hremovals, Or.inr hreplaced⟩)⟩
    show (l'.hindered || l'.created) = true
    rw [hcreated, Bool.or_true]

theorem replaceProfileFile_sat {name : String} {file : FileId} (hencoded : encoded = .ok bytes)
    (hstage : l.stage = .live name file) (hcreated : l.created = true)
    (hhindered : l.hindered = false) (hrenamed : l.renamed = false)
    (hremovals : l.removalFailed = false) (hassigned : l.assigned = none) :
    Sat (Ledger.Allows sha256 sourceDigest) (Ledger.next platform)
      (replaceProfileFile sha256 platform name (sha256Digest (sha256 bytes)) sourceDigest) l
      (Concluded sha256 encoded) := by
  refine sat_bind.mpr (currentFileDigest_sat.mono fun l' outcome hread => ?_)
  rcases hread with ⟨seen, rfl, hlength, rfl⟩ | ⟨rfl, seen, rfl⟩
  swap
  · -- The digest could not be read, and the temporary file stays.
    refine ⟨hassigned, Or.inr (Or.inr ⟨by decide, ?_, hremovals, Or.inl ⟨name, file, hstage⟩⟩)⟩
    show (l.hindered || l.created) = true
    rw [hcreated, Bool.or_true]
  dsimp only
  by_cases hdigest : seen.map (fun bytes => sha256Digest (sha256 bytes)) ≠ sourceDigest
  · rw [if_pos hdigest]
    exact discard_sat (Or.inl ⟨file, hstage⟩) hassigned hhindered fun _ => hrenamed
  rw [if_neg hdigest]
  refine sat_ask trivial (fun _ => ?_) fun e => ?_
  swap
  · rw [next_of_refuses rfl]
    refine ⟨hassigned, Or.inr (Or.inr ⟨by decide, ?_, hremovals, Or.inl ⟨name, file, hstage⟩⟩)⟩
    show (l.hindered || l.created) = true
    rw [hcreated, Bool.or_true]
  rw [next_of_record rfl rfl]
  refine sat_call ⟨⟨file, hstage⟩, seen, rfl, hlength, not_not.mp hdigest⟩ fun answer => ?_
  rw [next_of_not_refuses rfl]
  cases answer with
  | error e => exact discard_sat (Or.inr rfl) hassigned hhindered fun h => absurd rfl h
  | ok value =>
    exact confirmReplaced_sat hencoded (Bool.or_true _) hcreated hhindered hremovals hassigned

theorem writeTemporary_sat {name : String} {file : FileId} (hencoded : encoded = .ok bytes)
    (hstage : l.stage = .live name file) (hcreated : l.created = true)
    (hhindered : l.hindered = false) (hrenamed : l.renamed = false)
    (hremovals : l.removalFailed = false) (hassigned : l.assigned = none) :
    Sat (Ledger.Allows sha256 sourceDigest) (Ledger.next platform)
      (writeTemporary sha256 platform name file bytes sourceDigest) l (Concluded sha256 encoded) := by
  refine sat_call ⟨name, hstage⟩ fun answer => ?_
  rw [next_of_record rfl rfl]
  cases answer with
  | error e => exact discard_sat (Or.inl ⟨file, hstage⟩) hassigned hhindered fun _ => hrenamed
  | ok value =>
    refine sat_call trivial fun answer => ?_
    rw [next_of_record rfl rfl]
    cases answer with
    | error e => exact discard_sat (Or.inl ⟨file, hstage⟩) hassigned hhindered fun _ => hrenamed
    | ok value =>
      exact replaceProfileFile_sat hencoded hstage hcreated hhindered hrenamed hremovals hassigned

theorem concluded_before {seen : Option (Option (List UInt8))} {fault : Fault ModelProfileError} :
    Concluded sha256 encoded { Ledger.start with seen } (.error fault) := by
  cases fault with
  | err error => exact ⟨rfl, Or.inl ⟨rfl, rfl, Or.inl rfl⟩⟩
  | panic message => rfl

/-- **`save` makes only the calls that its ledger allows.** -/
theorem save_sat {profiles : ModelProfiles} :
    Sat (Ledger.Allows sha256 profiles.sourceDigest) (Ledger.next platform)
      (save lib codec sha256 platform profiles) .start
      (Concluded sha256 (encodeProfiles codec profiles)) := by
  rw [save, sat_bind, sat_lift]
  cases hvalid : profiles.validate lib with
  | error fault => exact concluded_before
  | ok _ =>
    refine sat_ask trivial (fun _ => ?_) fun e => ?_
    swap
    · rw [next_of_record rfl rfl]
      exact concluded_before
    rw [next_of_record rfl rfl, sat_bind, sat_lift]
    cases hencoded : encodeProfiles codec profiles with
    | error fault => exact concluded_before
    | ok bytes =>
      refine sat_bind.mpr (currentFileDigest_sat.mono fun l outcome hread => ?_)
      rcases hread with ⟨seen, rfl, hlength, rfl⟩ | ⟨rfl, seen, rfl⟩
      swap
      · exact concluded_before
      dsimp only
      by_cases hdigest : seen.map (fun content => sha256Digest (sha256 content)) =
          some (sha256Digest (sha256 bytes))
      · rw [if_pos hdigest]
        obtain ⟨content, rfl, hcontent⟩ := hash_of_seen hdigest
        exact assignSourceDigest_sat rfl rfl (hlength content rfl) hcontent rfl
      rw [if_neg hdigest]
      refine sat_bind.mpr (currentFileDigest_sat.mono fun l outcome hread => ?_)
      rcases hread with ⟨seen, rfl, hlength, rfl⟩ | ⟨rfl, seen, rfl⟩
      swap
      · exact concluded_before
      refine sat_failIf (fun _ => concluded_before) fun _ => ?_
      refine sat_bind.mpr ((createAttempts_sat rfl).mono fun l outcome hcreated => ?_)
      rcases hcreated with ⟨name, file, rfl, rfl⟩ | ⟨rfl, rfl⟩
      · exact writeTemporary_sat rfl rfl rfl rfl rfl rfl rfl
      · exact concluded_before

end

end Xgeny.ProfileStore
