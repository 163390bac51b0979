import Xgeny.Cli.ProcessTooling
import Xgeny.Cli.Recipes

set_option autoImplicit false

/-!
# The approval of the user

The command line answers a permission request by flags and catalogs: one flag for each kind of
effect, and the files, directories and executables that the user has named. What is outside the
catalogs is denied, and what is inside waits for its flag.

* `ExplicitLocalApproval`: the flags and catalogs, `decide`;
* `Consents`: what the user has said about a request;
* **`decide_approved_iff`**: a request is approved when the user consents to it, and only then;
* **`approved_is_allowed`**: the broker allows what is approved.
-/

namespace Xgeny

/-! ## Profiles -/

/-- `HOST_POLICY_PROFILE`. -/
def hostPolicyProfile : String := "xgeny.cli.host-exact-catalog-read/v1"

/-- `WORKSPACE_HOST_POLICY_PROFILE`. -/
def workspaceHostPolicyProfile : String := "xgeny.cli.host-workspace-descendant-fs/v3"

/-- `USER_READ_POLICY_PROFILE`. -/
def userReadPolicyProfile : String := "xgeny.cli.explicit-allow-read-flag/v1"

/-- `USER_WRITE_POLICY_PROFILE`. -/
def userWritePolicyProfile : String := "xgeny.cli.explicit-allow-write-flag/v1"

/-- `PROCESS_HOST_POLICY_PROFILE`. -/
def processHostPolicyProfile : String := "xgeny.cli.host-process-catalog/v1"

/-- `USER_EXECUTE_POLICY_PROFILE`. -/
def userExecutePolicyProfile : String := "xgeny.cli.explicit-allow-execute-flag/v1"

def filesystemReadScope : String := "filesystem.read"
def filesystemWriteScope : String := "filesystem.write"

/-! ## The port -/

inductive ApprovalCatalog where
  | exactFiles (catalog : AllowFileCatalog)
  | workspace (authorization : WorkspaceReadAuthorization)

namespace ApprovalCatalog

def hostPolicyProfile : ApprovalCatalog → String
  | .exactFiles _ => Xgeny.hostPolicyProfile
  | .workspace _ => workspaceHostPolicyProfile

/-- The catalog allows an effect of a capability on a resource. -/
def authorizes (self : ApprovalCatalog) (effectClass : ProtocolEffectClass)
    (capability : CapabilityRef) (resource : String) : Bool :=
  match self with
  | .exactFiles catalog =>
    effectClass == .readOnly && capability.capabilityId == "xgeny.fs/read-text" &&
      capability.contractVersion == "1.0.0" && catalog.containsCanonicalResource resource
  | .workspace authorization => authorization.authorizesResource capability resource

end ApprovalCatalog

/-- The checks on a request for either kind of action: its run, one use, one scope, one resource in
that scope which is authorized, and nothing critical. -/
def ResolvedPermissionRequest.isExactly (self : ResolvedPermissionRequest) (runId scope : String)
    (authorized : String → Bool) : Bool :=
  self.runId == runId && self.requestedLifetime == .once &&
    (self.requestedScopes.length == 1 &&
      self.requestedScopes.head?.any fun requested => requested == scope) &&
    (self.resources.length == 1 &&
      self.resources.head?.any fun resource =>
        resource.scope == scope && authorized resource.canonicalResource) &&
    self.criticalActions.isEmpty

structure ExplicitLocalApproval where
  allowRead : Bool
  allowWrite : Bool
  allowExecute : Bool
  runId : String
  catalog : ApprovalCatalog
  process : Option ProcessExecutionAuthorization

def policySource (sha256 : List UInt8 → Sha256Hex) (kind : PolicySourceKind) (id profile : String) :
    PolicySource where
  kind := kind
  id := id
  digest := sha256Digest (sha256 (bytes profile))

/-- `PolicyAllowance::from_trusted_evaluation` of a request, for one use. -/
def PolicyAllowance.onceFor (request : ResolvedPermissionRequest) : PolicyAllowance where
  scopes := Std.ExtTreeSet.ofList request.requestedScopes compare
  resources := Std.ExtTreeSet.ofList (request.resources.map ConcreteResource.key) compare
  criticalActions := request.criticalActions
  lifetimes := [.once]

namespace ExplicitLocalApproval

variable (self : ExplicitLocalApproval) (request : ResolvedPermissionRequest)

def authorizedProcessProfiles : Option (String × String × Bool) :=
  self.process.bind fun authorization =>
    if request.isExactly self.runId processExecuteScope authorization.authorizesResource &&
        request.capability.capabilityId == processExecuteCapability.capabilityId &&
        request.capability.contractVersion == processExecuteCapability.contractVersion then
      some (processHostPolicyProfile, userExecutePolicyProfile, self.allowExecute)
    else none

/-- The profiles of an action on files, by its scope, the profile of the user and the flag. -/
def authorizedFileProfiles (scope userProfile : String) (allowed : Bool) :
    Option (String × String × Bool) :=
  if request.isExactly self.runId scope
      (self.catalog.authorizes request.effectClass request.capability) then
    some (self.catalog.hostPolicyProfile, userProfile, allowed)
  else none

def authorizedActionProfiles : Option (String × String × Bool) :=
  match request.effectClass with
  | .nonIdempotent => self.authorizedProcessProfiles request
  | .readOnly =>
    self.authorizedFileProfiles request filesystemReadScope userReadPolicyProfile self.allowRead
  | .idempotent =>
    self.authorizedFileProfiles request filesystemWriteScope userWritePolicyProfile self.allowWrite
  | .compensatable | .unknown => none

/-- The policy of an approved request: host and user allow exactly what it names. -/
def policyInputs (sha256 : List UInt8 → Sha256Hex) (host user : String) : PolicyInputs where
  request := request
  layers := .localHost
    ⟨policySource sha256 .host "xgeny-cli-host" host, .allow (.onceFor request)⟩
    ⟨policySource sha256 .userProfile "xgeny-cli-user" user, .allow (.onceFor request)⟩

def decide (sha256 : List UInt8 → Sha256Hex) : ApprovalDecision :=
  match self.authorizedActionProfiles request with
  | none => .denied
  | some (host, user, approved) =>
    if approved = false then .pending else .approved (policyInputs request sha256 host user)

/-! ## Consent -/

/-- The user grants an effect of a capability on a resource of a scope: by the flag of its class, and
by a catalog that names the resource. -/
def Grants (effectClass : ProtocolEffectClass) (capability : CapabilityRef)
    (scope resource : String) : Prop :=
  match effectClass with
  | .readOnly => self.allowRead = true ∧ scope = filesystemReadScope ∧
      self.catalog.authorizes .readOnly capability resource = true
  | .idempotent => self.allowWrite = true ∧ scope = filesystemWriteScope ∧
      self.catalog.authorizes .idempotent capability resource = true
  | .nonIdempotent => self.allowExecute = true ∧ scope = processExecuteScope ∧
      capability = processExecuteCapability ∧
      ∃ authorization, self.process = some authorization ∧
        authorization.authorizesResource resource = true
  | .compensatable | .unknown => False

end ExplicitLocalApproval

/-- The user consents to a request: it is for one use in this run, nothing in it is critical, and its
one resource is granted. -/
structure ExplicitLocalApproval.Consents (approval : ExplicitLocalApproval)
    (request : ResolvedPermissionRequest) : Prop where
  runId : request.runId = approval.runId
  lifetime : request.requestedLifetime = .once
  critical : request.criticalActions = []
  granted : ∃ scope resource, request.requestedScopes = [scope] ∧
    request.resources = [⟨scope, resource⟩] ∧
    approval.Grants request.effectClass request.capability scope resource

/-! ## What is approved -/

section

variable {approval : ExplicitLocalApproval} {request : ResolvedPermissionRequest}
  {sha256 : List UInt8 → Sha256Hex} {inputs : PolicyInputs}

theorem length_eq_one_and_any {α : Type} {xs : List α} {test : α → Bool} :
    (xs.length == 1 && xs.head?.any test) = true ↔ ∃ x, xs = [x] ∧ test x = true := by
  rw [Bool.and_eq_true, beq_iff_eq, List.length_eq_one_iff]
  constructor
  · rintro ⟨⟨x, rfl⟩, hx⟩
    exact ⟨x, rfl, hx⟩
  · rintro ⟨x, rfl, hx⟩
    exact ⟨⟨x, rfl⟩, hx⟩

theorem isExactly_iff {runId scope : String} {authorized : String → Bool} :
    request.isExactly runId scope authorized = true ↔
      request.runId = runId ∧ request.requestedLifetime = .once ∧ request.criticalActions = [] ∧
        request.requestedScopes = [scope] ∧
        ∃ resource, request.resources = [⟨scope, resource⟩] ∧ authorized resource = true := by
  rw [ResolvedPermissionRequest.isExactly, Bool.and_eq_true, Bool.and_eq_true, Bool.and_eq_true,
    Bool.and_eq_true, length_eq_one_and_any, length_eq_one_and_any, beq_iff_eq, beq_iff_eq,
    List.isEmpty_iff]
  constructor
  · rintro ⟨⟨⟨⟨hrun, honce⟩, requested, hscopes, hscope⟩, ⟨found, resource⟩, hresources, hfound⟩,
      hcritical⟩
    obtain ⟨hsame, hauthorized⟩ := Bool.and_eq_true_iff.mp hfound
    obtain rfl := beq_iff_eq.mp hscope
    obtain rfl := beq_iff_eq.mp hsame
    exact ⟨hrun, honce, hcritical, hscopes, resource, hresources, hauthorized⟩
  · rintro ⟨hrun, honce, hcritical, hscopes, resource, hresources, hauthorized⟩
    exact ⟨⟨⟨⟨hrun, honce⟩, scope, hscopes, beq_self_eq_true scope⟩, ⟨scope, resource⟩, hresources,
      by simp [hauthorized]⟩, hcritical⟩

theorem decide_eq_approved : approval.decide request sha256 = .approved inputs ↔
    ∃ host user, approval.authorizedActionProfiles request = some (host, user, true) ∧
      ExplicitLocalApproval.policyInputs request sha256 host user = inputs := by
  rw [ExplicitLocalApproval.decide]
  cases approval.authorizedActionProfiles request with
  | none => simp
  | some profiles =>
    obtain ⟨host, user, approved⟩ := profiles
    cases approved with
    | false => simp
    | true => simp

theorem authorizedFileProfiles_eq_some {scope profile host user : String} {allowed : Bool} :
    approval.authorizedFileProfiles request scope profile allowed = some (host, user, true) ↔
      request.isExactly approval.runId scope
          (approval.catalog.authorizes request.effectClass request.capability) = true ∧
        approval.catalog.hostPolicyProfile = host ∧ profile = user ∧ allowed = true := by
  rw [ExplicitLocalApproval.authorizedFileProfiles]
  split
  · rename_i hexact
    simp [hexact]
  · rename_i hexact
    simp [hexact]

theorem authorizedProcessProfiles_eq_some {host user : String} :
    approval.authorizedProcessProfiles request = some (host, user, true) ↔
      ∃ authorization, approval.process = some authorization ∧
        request.isExactly approval.runId processExecuteScope authorization.authorizesResource = true ∧
        request.capability = processExecuteCapability ∧ processHostPolicyProfile = host ∧
        userExecutePolicyProfile = user ∧ approval.allowExecute = true := by
  rw [ExplicitLocalApproval.authorizedProcessProfiles, Option.bind_eq_some_iff]
  refine exists_congr fun authorization => and_congr_right fun _ => ?_
  have hcapability : request.capability = processExecuteCapability ↔
      request.capability.capabilityId = processExecuteCapability.capabilityId ∧
        request.capability.contractVersion = processExecuteCapability.contractVersion := by
    cases request.capability
    simp [processExecuteCapability]
  split
  · rename_i hexact
    simp only [Bool.and_eq_true, beq_iff_eq] at hexact
    simp [hexact.1.1, hcapability.mpr ⟨hexact.1.2, hexact.2⟩]
  · rename_i hexact
    simp only [Bool.and_eq_true, beq_iff_eq, not_and] at hexact
    constructor
    · intro h
      cases h
    · rintro ⟨hrequest, hsame, -⟩
      exact absurd (hcapability.mp hsame).2 (hexact ⟨hrequest, (hcapability.mp hsame).1⟩)

theorem consents_of_isExactly {scope : String} {authorized : String → Bool}
    (h : request.isExactly approval.runId scope authorized = true)
    (hgrants : ∀ resource, authorized resource = true →
      approval.Grants request.effectClass request.capability scope resource) :
    approval.Consents request := by
  obtain ⟨hrun, honce, hcritical, hscopes, resource, hresources, hauthorized⟩ := isExactly_iff.mp h
  exact ⟨hrun, honce, hcritical, scope, resource, hscopes, hresources, hgrants resource hauthorized⟩

/-- **What is approved is what the user consents to.** -/
theorem decide_approved_iff :
    (∃ inputs, approval.decide request sha256 = .approved inputs) ↔ approval.Consents request := by
  constructor
  · rintro ⟨inputs, h⟩
    obtain ⟨host, user, hprofiles, -⟩ := decide_eq_approved.mp h
    rw [ExplicitLocalApproval.authorizedActionProfiles] at hprofiles
    split at hprofiles
    · rename_i hclass
      obtain ⟨authorization, hprocess, hexact, hcapability, -, -, hflag⟩ :=
        authorizedProcessProfiles_eq_some.mp hprofiles
      refine consents_of_isExactly hexact fun resource hauthorized => ?_
      rw [hclass]
      exact ⟨hflag, rfl, hcapability, authorization, hprocess, hauthorized⟩
    · rename_i hclass
      obtain ⟨hexact, -, -, hflag⟩ := authorizedFileProfiles_eq_some.mp hprofiles
      refine consents_of_isExactly hexact fun resource hauthorized => ?_
      rw [hclass] at hauthorized ⊢
      exact ⟨hflag, rfl, hauthorized⟩
    · rename_i hclass
      obtain ⟨hexact, -, -, hflag⟩ := authorizedFileProfiles_eq_some.mp hprofiles
      refine consents_of_isExactly hexact fun resource hauthorized => ?_
      rw [hclass] at hauthorized ⊢
      exact ⟨hflag, rfl, hauthorized⟩
    · cases hprofiles
    · cases hprofiles
  · rintro ⟨hrun, honce, hcritical, scope, resource, hscopes, hresources, hgrants⟩
    have hexactly : ∀ authorized : String → Bool, authorized resource = true →
        request.isExactly approval.runId scope authorized = true := fun authorized hauthorized =>
      isExactly_iff.mpr ⟨hrun, honce, hcritical, hscopes, resource, hresources, hauthorized⟩
    have hprofiles : ∃ host user,
        approval.authorizedActionProfiles request = some (host, user, true) := by
      rw [ExplicitLocalApproval.authorizedActionProfiles]
      generalize hclass : request.effectClass = effectClass at hgrants
      cases effectClass with
      | readOnly | idempotent =>
        obtain ⟨hflag, rfl, hauthorized⟩ := hgrants
        exact ⟨_, _, authorizedFileProfiles_eq_some.mpr
          ⟨hexactly _ (by rw [hclass]; exact hauthorized), rfl, rfl, hflag⟩⟩
      | nonIdempotent =>
        obtain ⟨hflag, rfl, hcapability, authorization, hprocess, hauthorized⟩ := hgrants
        exact ⟨_, _, authorizedProcessProfiles_eq_some.mpr
          ⟨authorization, hprocess, hexactly _ hauthorized, hcapability, rfl, rfl, hflag⟩⟩
      | compensatable | unknown => exact hgrants.elim
    obtain ⟨host, user, hprofiles⟩ := hprofiles
    exact ⟨_, decide_eq_approved.mpr ⟨host, user, hprofiles, rfl⟩⟩

theorem coverageDenials_onceFor {kind : PolicySourceKind} (honce : request.requestedLifetime = .once) :
    coverageDenials request kind (.onceFor request) = [] := by
  have hscopes : request.requestedScopes.any
      (fun scope => decide (scope ∉ (PolicyAllowance.onceFor request).scopes)) = false := by
    refine List.any_eq_false.mpr fun scope hmem => ?_
    simp [PolicyAllowance.onceFor, Std.ExtTreeSet.mem_ofList, hmem]
  have hresources : request.resources.any
      (fun resource => decide (resource.key ∉ (PolicyAllowance.onceFor request).resources)) =
        false := by
    refine List.any_eq_false.mpr fun resource hmem => ?_
    have hkey : resource.key ∈ request.resources.map ConcreteResource.key := List.mem_map_of_mem hmem
    rw [decide_eq_true_eq, not_not, PolicyAllowance.onceFor, Std.ExtTreeSet.mem_ofList,
      List.contains_iff_mem]
    exact hkey
  have hactions : request.criticalActions.any
      (fun action => decide (action ∉ (PolicyAllowance.onceFor request).criticalActions)) = false := by
    refine List.any_eq_false.mpr fun action hmem => ?_
    rw [decide_eq_true_eq, not_not]
    exact hmem
  have hlifetime : request.requestedLifetime ∈ (PolicyAllowance.onceFor request).lifetimes := by
    rw [honce]
    exact List.mem_singleton_self _
  rw [coverageDenials, hscopes, hresources, hactions, if_neg (not_not.mpr hlifetime)]
  rfl

theorem validateContribution_policySource {kind : PolicySourceKind} {id profile : String}
    {allowance : PolicyAllowance} (hne : id ≠ "") (hlen : id.length ≤ 300)
    (hcontrol : id.toList.any isControl = false) :
    validateContribution kind ⟨policySource sha256 kind id profile, .allow allowance⟩ = .ok () := by
  simp [validateContribution, policySource, Outcome.failIf, hne, Nat.not_lt.mpr hlen, hcontrol,
    isSha256Digest_sha256Digest, ContributionVerdict.reason, bind, Except.bind]

/-- **The broker allows what is approved**: exactly what the request names. -/
theorem approved_is_allowed (h : approval.decide request sha256 = .approved inputs) :
    ∃ sources, evaluate request inputs = .ok (.allow
      ⟨.once, request.requestedScopes, request.resources, []⟩ sources) := by
  have hconsents := decide_approved_iff.mp ⟨inputs, h⟩
  obtain ⟨host, user, -, rfl⟩ := decide_eq_approved.mp h
  have hhost : validateContribution .host ⟨policySource sha256 .host "xgeny-cli-host" host,
      .allow (.onceFor request)⟩ = .ok () :=
    validateContribution_policySource (by decide) (by decide) (by decide)
  have huser : validateContribution .userProfile
      ⟨policySource sha256 .userProfile "xgeny-cli-user" user, .allow (.onceFor request)⟩ = .ok () :=
    validateContribution_policySource (by decide) (by decide) (by decide)
  refine ⟨[policySource sha256 .host "xgeny-cli-host" host,
    policySource sha256 .userProfile "xgeny-cli-user" user], ?_⟩
  simp [evaluate, ExplicitLocalApproval.policyInputs, PolicyInputs.ordered, Outcome.forEach, hhost,
    huser, denyReasons, askReasons, criticalReasons, coverageDenials_onceFor hconsents.lifetime,
    hconsents.critical, hconsents.lifetime, Outcome.failIf, bind, Except.bind]

theorem consents_process_iff {E : CanonicalEncoder} {process : ProcessResourceResolver}
    {logicalIds : List String} {authorization : ProcessExecutionAuthorization}
    (h : ProcessExecutionAuthorization.new E process logicalIds = .ok authorization)
    (hprocess : approval.process = some authorization)
    (hclass : request.effectClass = .nonIdempotent) :
    approval.Consents request ↔ approval.allowExecute = true ∧ request.runId = approval.runId ∧
      request.requestedLifetime = .once ∧ request.criticalActions = [] ∧
      request.capability = processExecuteCapability ∧
      request.requestedScopes = [processExecuteScope] ∧
      ∃ logicalId ∈ logicalIds, ∃ resource,
        process.resolve processExecuteScope logicalId = .ok resource ∧
          request.resources = [⟨processExecuteScope, resource⟩] := by
  constructor
  · rintro ⟨hrun, honce, hcritical, scope, resource, hscopes, hresources, hgrants⟩
    rw [hclass] at hgrants
    obtain ⟨hflag, rfl, hcapability, _, hfound, hauthorized⟩ := hgrants
    obtain rfl := Option.some.inj (hprocess.symm.trans hfound)
    obtain ⟨logicalId, hid, hresolved⟩ :=
      (ProcessExecutionAuthorization.authorizesResource_iff h resource).mp hauthorized
    exact ⟨hflag, hrun, honce, hcritical, hcapability, hscopes, logicalId, hid, resource, hresolved,
      hresources⟩
  · rintro ⟨hflag, hrun, honce, hcritical, hcapability, hscopes, logicalId, hid, resource, hresolved,
      hresources⟩
    refine ⟨hrun, honce, hcritical, processExecuteScope, resource, hscopes, hresources, ?_⟩
    rw [hclass]
    exact ⟨hflag, rfl, hcapability, authorization, hprocess,
      (ProcessExecutionAuthorization.authorizesResource_iff h resource).mpr
        ⟨logicalId, hid, hresolved⟩⟩

/-- **Flags and catalogs decide a request as the user means it**: it is approved exactly when the user
consents to it; the broker then allows what it names, for one use and nothing more; and for a catalog
of executables, the user consents to the executables that were listed. -/
theorem local_approval_exact (approval : ExplicitLocalApproval) (request : ResolvedPermissionRequest)
    (sha256 : List UInt8 → Sha256Hex) :
    ((∃ inputs, approval.decide request sha256 = .approved inputs) ↔ approval.Consents request) ∧
      (∀ inputs, approval.decide request sha256 = .approved inputs →
        ∃ sources, evaluate request inputs = .ok (.allow
          ⟨.once, request.requestedScopes, request.resources, []⟩ sources)) ∧
      ∀ (E : CanonicalEncoder) (process : ProcessResourceResolver) (logicalIds : List String)
        (authorization : ProcessExecutionAuthorization),
        ProcessExecutionAuthorization.new E process logicalIds = .ok authorization →
        approval.process = some authorization → request.effectClass = .nonIdempotent →
          (approval.Consents request ↔ approval.allowExecute = true ∧
            request.runId = approval.runId ∧ request.requestedLifetime = .once ∧
            request.criticalActions = [] ∧ request.capability = processExecuteCapability ∧
            request.requestedScopes = [processExecuteScope] ∧
            ∃ logicalId ∈ logicalIds, ∃ resource,
              process.resolve processExecuteScope logicalId = .ok resource ∧
                request.resources = [⟨processExecuteScope, resource⟩]) :=
  ⟨decide_approved_iff, fun _ => approved_is_allowed,
    fun _ _ _ _ hnew hprocess hclass => consents_process_iff hnew hprocess hclass⟩

end

/-! ## One executable -/

/-- A user who has catalogued one executable and may have allowed its execution. -/
def executeApproval (allowExecute : Bool) : ExplicitLocalApproval where
  allowRead := false
  allowWrite := false
  allowExecute := allowExecute
  runId := "run-1"
  catalog := .exactFiles ⟨[], ""⟩
  process := some ⟨Std.ExtTreeSet.ofList ["process:main/executables/tool"] compare, "", ""⟩

/-- A request to execute it. -/
def executeRequest : ResolvedPermissionRequest where
  apiVersion := apiVersionV1alpha1
  requestId := "permission-1"
  runId := "run-1"
  stepId := "step-1"
  capability := processExecuteCapability
  effectClass := .nonIdempotent
  requestedScopes := [processExecuteScope]
  resources := [⟨processExecuteScope, "process:main/executables/tool"⟩]
  criticalActions := []
  requestedLifetime := .once

theorem flatSha256_hex :
    isHex64 (bytes "aaaaaaaaaaaaaaaaaaaaaaaaaaaaaaaaaaaaaaaaaaaaaaaaaaaaaaaaaaaaaaaa") = true := by
  decide +kernel

/-- A hash that is the same for every text. -/
def flatSha256 (_ : List UInt8) : Sha256Hex :=
  ⟨"aaaaaaaaaaaaaaaaaaaaaaaaaaaaaaaaaaaaaaaaaaaaaaaaaaaaaaaaaaaaaaaa", flatSha256_hex⟩

/-- The host's resolver of three executables. -/
def toolResolver : ProcessResourceResolver :=
  ⟨sampleWorkspace, Std.ExtTreeSet.ofList ["cargo", "git", "rustc"] compare⟩

/-- A user who has catalogued executables and has allowed their execution. -/
def listedApproval (authorization : ProcessExecutionAuthorization) : ExplicitLocalApproval :=
  { executeApproval true with process := some authorization }

/-- A request to execute an executable of the workspace. -/
def listedRequest (logicalId : String) : ResolvedPermissionRequest :=
  { executeRequest with
    resources := [⟨processExecuteScope, canonicalExecutable toolResolver.workspaceId logicalId⟩] }

/-- With the flag the request is approved and allowed; without it the user does not consent. Of a catalog
of two executables the user consents to one of them, and not to another one of the workspace. -/
theorem local_approval_exact_sample :
    (∃ inputs sources, (executeApproval true).decide executeRequest flatSha256 = .approved inputs ∧
      evaluate executeRequest inputs = .ok (.allow
        ⟨.once, executeRequest.requestedScopes, executeRequest.resources, []⟩ sources)) ∧
      ¬ (executeApproval false).Consents executeRequest ∧
      ∃ authorization, ProcessExecutionAuthorization.new sampleEncoder toolResolver
          ["rustc", "cargo"] = .ok authorization ∧
        (listedApproval authorization).Consents (listedRequest "cargo") ∧
        ¬ (listedApproval authorization).Consents (listedRequest "git") := by
  refine ⟨?_, ?_, ?_⟩
  · have hgranted : (executeApproval true).Consents executeRequest :=
      ⟨rfl, rfl, rfl, processExecuteScope, "process:main/executables/tool", rfl, rfl, rfl, rfl, rfl,
        _, rfl, by decide⟩
    obtain ⟨hiff, hallowed, -⟩ := local_approval_exact (executeApproval true) executeRequest flatSha256
    obtain ⟨inputs, happroved⟩ := hiff.mpr hgranted
    obtain ⟨sources, hsources⟩ := hallowed inputs happroved
    exact ⟨inputs, sources, happroved, hsources⟩
  · rintro ⟨-, -, -, _, _, -, -, hflag, -⟩
    cases hflag
  · obtain ⟨authorization, hnew⟩ := Outcome.exists_ok_of_isSome (x := ProcessExecutionAuthorization.new
      sampleEncoder toolResolver ["rustc", "cargo"]) (by decide +kernel)
    have hexact := fun logicalId => (local_approval_exact (listedApproval authorization)
      (listedRequest logicalId) flatSha256).2.2 sampleEncoder toolResolver ["rustc", "cargo"]
      authorization hnew rfl rfl
    refine ⟨authorization, hnew, (hexact "cargo").mpr ⟨rfl, rfl, rfl, rfl, rfl, rfl, "cargo",
      by decide, _, by decide +kernel, rfl⟩, fun hconsents => ?_⟩
    obtain ⟨-, -, -, -, -, -, logicalId, hlisted, resource, hresolved, hresources⟩ :=
      (hexact "git").mp hconsents
    obtain rfl : canonicalExecutable toolResolver.workspaceId "git" = resource := by
      simpa [listedRequest] using hresources
    rcases List.mem_pair.mp hlisted with rfl | rfl
    · exact absurd hresolved (by decide +kernel)
    · exact absurd hresolved (by decide +kernel)

end Xgeny
