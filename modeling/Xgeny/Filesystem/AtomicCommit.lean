import Xgeny.Lib.Process
import Xgeny.Workspace.Arguments

set_option autoImplicit false

/-!
# Committing a text atomically

The content goes to a temporary file next to the target, and the temporary file is renamed over the
target. Every call to the file system can fail, and other processes change the target meanwhile.

* `Directory`, `Directory.serve`, `Directory.Step`, `Directory.Foreign`: the file system;
* `commitAtomic`: the routine, with `openParent`, `inspectTarget` and `createTemporary`.
-/

namespace Xgeny

inductive AtomicCommitFailure where
  | openParent
  | inspectTarget
  | conflict
  | createTemporary
  | writeTemporary
  | commitRenameUnknown
  | commitSyncUnknown
  | commitVerifyUnknown
  deriving DecidableEq

def AtomicCommitFailure.outcomeIsUnknown : AtomicCommitFailure → Bool
  | .commitRenameUnknown | .commitSyncUnknown | .commitVerifyUnknown => true
  | _ => false

/-- The name of the target in its directory. -/
def RelativePath.leaf (path : RelativePath) : String := path.components.getLastD ""

namespace AtomicCommit

/-! ## The file system -/

inductive Platform where
  | unix
  | windows
  | other
  deriving DecidableEq

abbrev FileId := ℕ

structure FileMetadata where
  isFile : Bool
  fileAttributes : UInt32
  permissions : ℕ
  deriving DecidableEq

structure FileState where
  content : List UInt8
  metadata : FileMetadata
  deriving DecidableEq

/-- `ErrorKind`. -/
inductive IoError where
  | notFound
  | alreadyExists
  | other
  deriving DecidableEq

/-- The parent directory of the target with the files that it names, and the directories below the
root. No file has the number `fresh` or a larger one. -/
structure Directory where
  names : String → Option FileId
  files : FileId → FileState
  fresh : FileId
  named_lt : ∀ name file, names name = some file → file < fresh
  directories : List String → Option FileMetadata

/-- A call to the file system; the parent directory, once opened, is the one meant. -/
inductive FileOp where
  | tryClone
  | openDirNofollow (opened : List String) (component : String)
  | dirMetadata (directory : List String)
  | openTarget (leaf : String)
  | metadata (file : FileId)
  | readToEnd (file : FileId) (limit : ℕ)
  | fillRandom
  | createNew (name : String)
  | setPermissions (file : FileId) (permissions : ℕ)
  | writeAll (file : FileId) (content : List UInt8)
  | syncAll (file : FileId)
  | removeFile (name : String)
  | rename (source target : String)
  | openSelf
  | syncSelf

/-- What a call returns. -/
abbrev FileOp.Value : FileOp → Type
  | .dirMetadata _ | .metadata _ => FileMetadata
  | .openTarget _ | .createNew _ => FileId
  | .readToEnd _ _ => List UInt8
  | .fillRandom => Vector UInt8 16
  | _ => Unit

abbrev FileOp.Response (op : FileOp) : Type := Except IoError op.Value

namespace Directory

variable (d : Directory)

/-- A new empty file. -/
def create (name : String) : Directory where
  names n := if n = name then some d.fresh else d.names n
  files f := if f = d.fresh then ⟨[], ⟨true, 0, 0⟩⟩ else d.files f
  fresh := d.fresh + 1
  named_lt n file h := by
    split at h
    · obtain rfl := Option.some.inj h
      exact Nat.lt_succ_self _
    · exact Nat.lt_succ_of_lt (d.named_lt n file h)
  directories := d.directories

def update (file : FileId) (f : FileState → FileState) : Directory :=
  { d with files := fun n => if n = file then f (d.files n) else d.files n }

def unlink (name : String) : Directory where
  names n := if n = name then none else d.names n
  files := d.files
  fresh := d.fresh
  named_lt n file h := by
    split at h
    · cases h
    · exact d.named_lt n file h
  directories := d.directories

def move (source target : String) : Directory where
  names n := if n = target then d.names source else if n = source then none else d.names n
  files := d.files
  fresh := d.fresh
  named_lt n file h := by
    split at h
    · exact d.named_lt source file h
    · split at h
      · cases h
      · exact d.named_lt n file h
  directories := d.directories

/-- A call that is answered without a fault. -/
def serve (random : Vector UInt8 16) : (op : FileOp) → op.Response × Directory
  | .tryClone | .syncAll _ | .openSelf | .syncSelf => (.ok (), d)
  | .openDirNofollow opened component =>
    (if (d.directories (opened ++ [component])).isSome then .ok () else .error .notFound, d)
  | .dirMetadata directory =>
    (match d.directories directory with
      | some metadata => .ok metadata
      | none => .error .notFound, d)
  | .openTarget leaf =>
    (match d.names leaf with
      | some file => .ok file
      | none => .error .notFound, d)
  | .metadata file => (.ok (d.files file).metadata, d)
  | .readToEnd file limit => (.ok ((d.files file).content.take limit), d)
  | .fillRandom => (.ok random, d)
  | .createNew name =>
    if (d.names name).isSome then (.error .alreadyExists, d) else (.ok d.fresh, d.create name)
  | .setPermissions file permissions =>
    (.ok (), d.update file fun f => { f with metadata.permissions := permissions })
  | .writeAll file content => (.ok (), d.update file fun f => { f with content })
  | .removeFile name =>
    if (d.names name).isSome then (.ok (), d.unlink name) else (.error .notFound, d)
  | .rename source target =>
    if (d.names source).isSome then (.ok (), d.move source target) else (.error .notFound, d)

/-- What a call that fails has done: a write may have stopped half way, and a rename may have taken
place. -/
def Disturbed (d : Directory) (op : FileOp) (d' : Directory) : Prop :=
  match op with
  | .writeAll file _ => ∃ content, d' = d.update file fun f => { f with content }
  | .rename source target => d' = d ∨ (d.names source).isSome ∧ d' = d.move source target
  | _ => d' = d

/-- A call is answered, or it fails. -/
def Step (d : Directory) (op : FileOp) (answer : op.Response) (d' : Directory) : Prop :=
  (∃ random, d.serve random op = (answer, d')) ∨ (answer = .error .other ∧ d.Disturbed op d')

/-- What another process does: it removes the target, puts a file of its own in its place, or changes
what files hold. -/
structure Foreign (leaf : String) (d d' : Directory) : Prop where
  names : ∀ name, name ≠ leaf → d'.names name = d.names name
  own : ∀ file, d'.names leaf = some file →
    d.names leaf = some file ∨ ∀ name, d.names name ≠ some file
  directories : d'.directories = d.directories

/-- What the target is. -/
def target (leaf : String) : Option (FileId × FileState) :=
  (d.names leaf).map fun file => (file, d.files file)

end Directory

/-- The file system among other processes. -/
def fileSystem (leaf : String) : System FileOp FileOp.Response Directory Unit where
  step := Directory.Step
  other d _ d' := Directory.Foreign leaf d d'

/-! ## The routine -/

abbrev Commit := Prog FileOp FileOp.Response AtomicCommitFailure

def isWindowsReparsePoint (platform : Platform) (metadata : FileMetadata) : Bool :=
  platform = .windows ∧ metadata.fileAttributes &&& 0x400 ≠ 0

/-- A call whose failure is `failure`. -/
def ask (op : FileOp) (failure : AtomicCommitFailure) : Commit op.Value := do
  let answer ← Prog.perform op
  match answer with
  | .ok value => pure value
  | .error _ => Prog.stop (.err failure)

/-- The loop of `open_parent`. -/
def openParents (platform : Platform) (opened : List String) : List String → Commit Unit
  | [] => pure ()
  | component :: parents => do
    ask (.openDirNofollow opened component) .openParent
    let metadata ← ask (.dirMetadata (opened ++ [component])) .openParent
    Prog.lift (Outcome.failIf (isWindowsReparsePoint platform metadata = true) .openParent)
    openParents platform (opened ++ [component]) parents

def openParent (platform : Platform) (path : RelativePath) : Commit String := do
  let leaf ← Prog.lift (Outcome.okOr path.components.getLast? .openParent)
  ask .tryClone .openParent
  openParents platform [] path.components.dropLast
  pure leaf

structure TargetObservation where
  digest : String
  permissions : ℕ
  deriving DecidableEq

section

variable (sha256 : List UInt8 → Sha256Hex) (platform : Platform)

def inspectTarget (leaf : String) : Commit (Option TargetObservation) := do
  let answer ← Prog.perform (.openTarget leaf)
  match answer with
  | .error .notFound => pure none
  | .error _ => Prog.stop (.err .inspectTarget)
  | .ok file => do
    let metadata ← ask (.metadata file) .inspectTarget
    Prog.lift (Outcome.failIf
      (metadata.isFile = false ∨ isWindowsReparsePoint platform metadata = true) .inspectTarget)
    let bytes ← ask (.readToEnd file (maxAtomicTextBytes + 1)) .inspectTarget
    Prog.lift (Outcome.failIf (maxAtomicTextBytes < bytes.length) .inspectTarget)
    pure (some ⟨sha256Digest (sha256 bytes), metadata.permissions⟩)

def verifyPrecondition (target : Option TargetObservation) (expectedDigest : Option String) :
    Outcome AtomicCommitFailure Unit :=
  match target, expectedDigest with
  | none, none => pure ()
  | some target, some expected => Outcome.failIf (target.digest ≠ expected) .conflict
  | _, _ => Outcome.fail .conflict

def verifySameObservation (initial current : Option TargetObservation) :
    Outcome AtomicCommitFailure Unit :=
  match initial, current with
  | none, none => pure ()
  | some initial, some current =>
    Outcome.failIf (initial.digest ≠ current.digest ∨ initial.permissions ≠ current.permissions)
      .conflict
  | _, _ => Outcome.fail .conflict

def tempCreateAttempts : ℕ := 8

/-- `{byte:02x}`. -/
def hexByte (byte : UInt8) : List Char :=
  [Nat.digitChar (byte.toNat / 16), Nat.digitChar (byte.toNat % 16)]

def temporaryName (random : Vector UInt8 16) : String :=
  ".xgeny-write-" ++ String.ofList (random.toList.flatMap hexByte) ++ ".tmp"

/-- The loop of `create_temporary`. -/
def createAttempts : ℕ → Commit (String × FileId)
  | 0 => Prog.stop (.err .createTemporary)
  | attempts + 1 => do
    let random ← ask .fillRandom .createTemporary
    let name := temporaryName random
    let answer ← Prog.perform (.createNew name)
    match answer with
    | .ok file => pure (name, file)
    | .error .alreadyExists => createAttempts attempts
    | .error _ => Prog.stop (.err .createTemporary)

def createTemporary : Commit (String × FileId) := createAttempts tempCreateAttempts

def syncParent : Commit Bool :=
  match platform with
  | .unix => do
    let opened ← Prog.perform .openSelf
    match opened with
    | .error _ => pure false
    | .ok _ => do
      let synced ← Prog.perform .syncSelf
      pure synced.isOk
  | _ => pure true

/-- Remove the temporary file, and stop. -/
def discard (temporaryName : String) (failure : AtomicCommitFailure) : Commit Bool := do
  let _ ← Prog.perform (.removeFile temporaryName)
  Prog.stop (.err failure)

/-- The content of the target has the digest. -/
def hasDigest (target : Option TargetObservation) (digest : String) : Bool :=
  target.any fun target => target.digest == digest

/-- The part of `commit_atomic` from the second inspection on. -/
def replaceTarget (leaf temporaryName desiredDigest : String)
    (initial : Option TargetObservation) : Commit Bool := do
  let inspected ← (inspectTarget sha256 platform leaf).attempt
  match inspected with
  | .error error => discard temporaryName error
  | .ok current =>
    if hasDigest current desiredDigest then do
      let _ ← Prog.perform (.removeFile temporaryName)
      pure false
    else do
      let same ← (Prog.lift (verifySameObservation initial current)).attempt
      match same with
      | .error error => discard temporaryName error
      | .ok () => do
        let renamed ← Prog.perform (.rename temporaryName leaf)
        match renamed with
        | .error _ => discard temporaryName .commitRenameUnknown
        | .ok _ => do
          let synced ← syncParent platform
          Prog.lift (Outcome.failIf (synced = false) .commitSyncUnknown)
          let committed ← (inspectTarget sha256 platform leaf).mapErr fun _ => .commitVerifyUnknown
          Prog.lift (Outcome.failIf (hasDigest committed desiredDigest = false)
            .commitVerifyUnknown)
          pure true

/-- The part of `commit_atomic` that fills the temporary file. -/
def writeTemporary (leaf temporaryName : String) (temporary : FileId) (content : List UInt8)
    (desiredDigest : String) (initial : Option TargetObservation) : Commit Bool := do
  let written ← Prog.perform (.writeAll temporary content)
  match written with
  | .error _ => discard temporaryName .writeTemporary
  | .ok _ => do
    let synced ← Prog.perform (.syncAll temporary)
    match synced with
    | .error _ => discard temporaryName .writeTemporary
    | .ok _ => replaceTarget sha256 platform leaf temporaryName desiredDigest initial

def commitAtomic (path : RelativePath) (content : List UInt8) (expectedDigest : Option String)
    (desiredDigest : String) : Commit Bool := do
  let leaf ← openParent platform path
  let initial ← inspectTarget sha256 platform leaf
  if hasDigest initial desiredDigest then pure false
  else do
    Prog.lift (verifyPrecondition initial expectedDigest)
    let created ← createTemporary
    match initial with
    | some target => ask (.setPermissions created.2 target.permissions) .writeTemporary
    | none => pure ()
    writeTemporary sha256 platform leaf created.1 created.2 content desiredDigest initial

end

end AtomicCommit

end Xgeny
