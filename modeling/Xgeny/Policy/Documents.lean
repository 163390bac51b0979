import Xgeny.Capability

set_option autoImplicit false

/-!
# Permission requests and policy decisions

A permission request names the exact resources of one invocation, after a trusted resolver has made
them canonical; a policy decision records what the policy layers answered. Both are hashed into the
authorization of an effect.
-/

namespace Xgeny

/-- A resource that has crossed a trusted resolver. -/
structure ConcreteResource where
  scope : String
  canonicalResource : String
  deriving DecidableEq

/-- Resources are ordered by scope, then by identity. -/
def ConcreteResource.key (self : ConcreteResource) : String ×ₗ String :=
  toLex (self.scope, self.canonicalResource)

structure ResolvedPermissionRequest where
  apiVersion : String
  requestId : String
  runId : String
  stepId : String
  capability : CapabilityRef
  effectClass : ProtocolEffectClass
  requestedScopes : List String
  resources : List ConcreteResource
  criticalActions : List CriticalAction
  requestedLifetime : GrantLifetime
  deriving DecidableEq

inductive PolicySourceKind where
  | host
  | userProfile
  | runGrant
  | managedLease
  deriving DecidableEq

structure PolicySource where
  kind : PolicySourceKind
  id : String
  digest : String
  deriving DecidableEq

inductive Decision where
  | allow
  | ask
  | deny
  deriving DecidableEq

abbrev Metadata := BTreeMap String Json

structure ResolvedResource where
  scope : String
  resource : String
  normalized : Bool
  metadata : Metadata
  deriving DecidableEq

structure Grant where
  lifetime : GrantLifetime
  expiresAt : Option String
  scopes : List String
  resources : List ResolvedResource
  criticalActions : List CriticalAction
  deriving DecidableEq

structure PolicyDecisionBody where
  apiVersion : String
  extensions : Extensions
  requiredExtensions : List String
  decisionId : String
  requestId : String
  decision : Decision
  policySources : List PolicySource
  grant : Option Grant
  interactionId : Option String
  denyReasons : List String
  decidedAt : String
  deriving DecidableEq

end Xgeny
