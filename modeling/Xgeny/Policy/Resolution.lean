import Xgeny.Policy.Documents

set_option autoImplicit false

/-!
# Resolving an invocation

The permission request of an invocation is derived from its arguments: every resource selector of the
definition points at a string, a trusted resolver makes the string canonical, and the canonical form
replaces it in the arguments.

* `Json.pointer`, `Json.setPointer`: the JSON pointers of `serde_json`;
* `resolveInvocation`: the request with the normalized arguments.
-/

namespace Xgeny

/-! ## JSON pointers -/

/-- `str::replace` of a two-character escape `~mark`. -/
def replaceEscape (mark replacement : Char) : List Char → List Char
  | [] => []
  | [c] => [c]
  | c :: d :: rest =>
    if c = '~' ∧ d = mark then replacement :: replaceEscape mark replacement rest
    else c :: replaceEscape mark replacement (d :: rest)

/-- One token of a pointer with its escapes undone, `~1` first. -/
def unescapeToken (token : List Char) : String :=
  String.ofList (replaceEscape '0' '~' (replaceEscape '1' '/' token))

/-- `str::split` at `/`. -/
def splitSlash : List Char → List (List Char)
  | [] => [[]]
  | c :: rest =>
    if c = '/' then [] :: splitSlash rest
    else
      match splitSlash rest with
      | [] => [[c]]
      | token :: tokens => (c :: token) :: tokens

/-- The tokens of a pointer; a text that is not empty has to start with `/`. -/
def pointerTokens (pointer : String) : Option (List String) :=
  match pointer.toList with
  | [] => some []
  | '/' :: rest => some ((splitSlash rest).map unescapeToken)
  | _ => none

/-- The array index that a token spells, without sign or leading zero. -/
def parseIndex (token : String) : Option ℕ := token.toNat?.filter fun n => toString n == token

namespace Json

/-- The member or element that a token names. -/
def child (self : Json) (token : String) : Option Json :=
  match self with
  | .object members => members.lookup token
  | .array values => (parseIndex token).bind fun index => values[index]?
  | _ => none

/-- The value at a path of tokens. -/
def get : List String → Json → Option Json
  | [], value => some value
  | token :: tokens, value => (value.child token).bind (get tokens)

/-- Replace a member or an element that exists. -/
def setChild (self : Json) (token : String) (value : Json) : Json :=
  match self with
  | .object members =>
    .object (members.map fun member => if member.1 = token then (member.1, value) else member)
  | .array values =>
    match parseIndex token with
    | some index => .array (values.set index value)
    | none => self
  | _ => self

/-- Replace the value at a path of tokens, when there is one. -/
def set : List String → Json → Json → Option Json
  | [], _, new => some new
  | token :: tokens, value, new =>
    (value.child token).bind fun inner => (set tokens inner new).map (value.setChild token)

/-- `Value::pointer`. -/
def pointer (self : Json) (pointer : String) : Option Json :=
  (pointerTokens pointer).bind fun tokens => get tokens self

/-- An assignment through `Value::pointer_mut`. -/
def setPointer (self : Json) (pointer : String) (new : Json) : Option Json :=
  (pointerTokens pointer).bind fun tokens => set tokens self new

/-- `Value::as_str`. -/
def asStr : Json → Option String
  | .string s => some s
  | _ => none

end Json

/-! ## Resolvers -/

inductive ResourceResolutionFailure where
  | invalidResource
  | outsideHostBoundary
  | unsupportedScope
  | resolverUnavailable
  deriving DecidableEq

def ResourceResolutionFailure.code : ResourceResolutionFailure → String
  | .invalidResource => "invalid_resource"
  | .outsideHostBoundary => "outside_host_boundary"
  | .unsupportedScope => "unsupported_scope"
  | .resolverUnavailable => "resolver_unavailable"

/-- A deterministic `ResourceResolver`: the canonical identity of a resource within a scope. -/
abbrev ResourceResolver := String → String → Except ResourceResolutionFailure String

inductive InvocationResolutionError where
  | unsupportedDefinitionApiVersion (actual : String)
  | unsupportedRequiredExtensions (extensions : List String)
  | emptyInvocationIdentity
  | emptyResourceSelectors
  | missingResourceArgument (scope argumentPointer : String)
  | resourceArgumentMustBeString (scope argumentPointer : String)
  | emptyResourceArgument (scope argumentPointer : String)
  | resolverRejected (scope code : String)
  | emptyCanonicalResource (scope : String)
  | duplicateConcreteResource (scope : String)
  | conflictingPointerCanonicalization (argumentPointer : String)
  | normalizationTargetLost (argumentPointer : String)
  | duplicateCriticalAction
  deriving DecidableEq

/-! ## The derived request -/

structure ResolvedInvocationRequest where
  permissionRequest : ResolvedPermissionRequest
  normalizedArguments : Json
  deriving DecidableEq

structure DerivedInvocationResources where
  normalizedArguments : Json
  requestedScopes : List String
  resources : List ConcreteResource

/-- `critical_action_rank`. -/
def CriticalAction.rank : CriticalAction → ℕ
  | .irreversibleDelete => 0
  | .credentialExport => 1
  | .paymentOrPurchase => 2
  | .externalPublishOrMessage => 3
  | .productionDeploy => 4
  | .privilegeEscalation => 5
  | .persistentStartup => 6

def validateDerivedRequestShape (requestId runId stepId : String)
    (definition : CapabilityDefinitionBody) : Outcome InvocationResolutionError Unit := do
  Outcome.failIf (definition.apiVersion ≠ apiVersionV1alpha1)
    (.unsupportedDefinitionApiVersion definition.apiVersion)
  Outcome.failIf (definition.requiredExtensions ≠ [])
    (.unsupportedRequiredExtensions
      (Std.ExtTreeSet.ofList definition.requiredExtensions compare).toList)
  Outcome.failIf (requestId = "" ∨ runId = "" ∨ stepId = "") .emptyInvocationIdentity
  Outcome.failIf (definition.spec.effect.resourceSelectors = []) .emptyResourceSelectors

/-- Selectors in the order in which they are resolved. -/
def selectorBefore (a b : ResourceSelector) : Prop :=
  a.scope < b.scope ∨ (a.scope = b.scope ∧ a.argumentPointer ≤ b.argumentPointer)

instance : DecidableRel selectorBefore := fun a b =>
  inferInstanceAs (Decidable (a.scope < b.scope ∨
    (a.scope = b.scope ∧ a.argumentPointer ≤ b.argumentPointer)))

/-- The canonical identity of what a selector points at. -/
def resolveSelectedResource (resolver : ResourceResolver) (arguments : Json)
    (selector : ResourceSelector) : Outcome InvocationResolutionError String := do
  let value ← Outcome.okOr (arguments.pointer selector.argumentPointer)
    (.missingResourceArgument selector.scope selector.argumentPointer)
  let raw ← Outcome.okOr value.asStr
    (.resourceArgumentMustBeString selector.scope selector.argumentPointer)
  Outcome.failIf (raw = "") (.emptyResourceArgument selector.scope selector.argumentPointer)
  match resolver selector.scope raw with
  | .error failure => Outcome.fail (.resolverRejected selector.scope failure.code)
  | .ok canonicalResource => do
    Outcome.failIf (canonicalResource = "") (.emptyCanonicalResource selector.scope)
    pure canonicalResource

/-- What the loop over the selectors has gathered. -/
structure SelectorAccumulator where
  requestedScopes : BTreeSet String := ∅
  resources : BTreeSet (String ×ₗ String) := ∅
  canonicalByPointer : BTreeMap String String := ∅

/-- One iteration of `derive_invocation_resources`. -/
def resolveSelector (resolver : ResourceResolver) (arguments : Json) (acc : SelectorAccumulator)
    (selector : ResourceSelector) : Outcome InvocationResolutionError SelectorAccumulator := do
  let canonicalResource ← resolveSelectedResource resolver arguments selector
  Outcome.whenSome acc.canonicalByPointer[selector.argumentPointer]? fun existing =>
    Outcome.failIf (existing ≠ canonicalResource)
      (.conflictingPointerCanonicalization selector.argumentPointer)
  let resource : ConcreteResource := ⟨selector.scope, canonicalResource⟩
  Outcome.failIf (resource.key ∈ acc.resources) (.duplicateConcreteResource selector.scope)
  pure {
    requestedScopes := acc.requestedScopes.insert selector.scope
    resources := acc.resources.insert resource.key
    canonicalByPointer := acc.canonicalByPointer.insert selector.argumentPointer canonicalResource }

/-- Put one canonical resource in its place. -/
def normalizeResourceArgument (normalized : Json) (entry : String × String) :
    Outcome InvocationResolutionError Json :=
  Outcome.okOr (normalized.setPointer entry.1 (.string entry.2)) (.normalizationTargetLost entry.1)

def normalizeResourceArguments (arguments : Json) (canonicalByPointer : BTreeMap String String) :
    Outcome InvocationResolutionError Json :=
  Outcome.foldl normalizeResourceArgument arguments canonicalByPointer.toList

def deriveInvocationResources (resolver : ResourceResolver) (definition : CapabilityDefinitionBody)
    (arguments : Json) : Outcome InvocationResolutionError DerivedInvocationResources := do
  let selectors := definition.spec.effect.resourceSelectors.insertionSort selectorBefore
  let acc ← Outcome.foldl (resolveSelector resolver arguments) {} selectors
  let normalizedArguments ← normalizeResourceArguments arguments acc.canonicalByPointer
  pure {
    normalizedArguments := normalizedArguments
    requestedScopes := acc.requestedScopes.toList
    resources := acc.resources.toList.map fun key => ⟨(ofLex key).1, (ofLex key).2⟩ }

def normalizedCriticalActions (definition : CapabilityDefinitionBody) :
    Outcome InvocationResolutionError (List CriticalAction) := do
  let criticalActions := definition.spec.effect.criticalActions.insertionSort
    (fun a b => a.rank ≤ b.rank)
  Outcome.failIf ((criticalActions.zip criticalActions.tail).any fun pair => pair.1 == pair.2)
    .duplicateCriticalAction
  pure criticalActions

def resolveInvocation (resolver : ResourceResolver) (requestId runId stepId : String)
    (definition : CapabilityDefinitionBody) (arguments : Json) (requestedLifetime : GrantLifetime) :
    Outcome InvocationResolutionError ResolvedInvocationRequest := do
  validateDerivedRequestShape requestId runId stepId definition
  let derived ← deriveInvocationResources resolver definition arguments
  let criticalActions ← normalizedCriticalActions definition
  pure {
    permissionRequest := {
      apiVersion := apiVersionV1alpha1
      requestId := requestId
      runId := runId
      stepId := stepId
      capability := definition.reference
      effectClass := definition.spec.effect.class_
      requestedScopes := derived.requestedScopes
      resources := derived.resources
      criticalActions := criticalActions
      requestedLifetime := requestedLifetime }
    normalizedArguments := derived.normalizedArguments }

end Xgeny
