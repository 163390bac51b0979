import Xgeny.AgentLoop.Presentation
import Xgeny.Provider.JsonPrinting
import Xgeny.Provider.RequestSize

set_option autoImplicit false

/-!
# Artifacts are written as they were validated

The first pass prints the object of a step into the content that is written, the second pass looks at
the object itself. Both read the same body, so that they find the same steps; and what was printed is
parsed back as the object that was looked at.

* `ResponseSteps`: the proposal that a body carries;
* `part_of_field`: the fields of a record are parts of its value;
* `sent_arguments`: the three arguments of the atomic dialect;
* `decodeChatResponse_sent`, `validateArtifactResponse_sent`: what each pass finds;
* **`atomic_artifacts_as_validated`**: the artifacts.
-/

namespace Xgeny

/-- The proposal in the only choice of an answer. -/
def Carries (S : SerdeJson) (maxProposalBytes maxJsonDepth : ℕ) (body : List UInt8)
    (choice : ChatChoice) (proposal : ProposalDocument) : Prop :=
  ∃ response content, parseEnvelope S body maxJsonDepth = .ok response ∧
    response.choices = [choice] ∧ boundedContent choice maxProposalBytes = .ok content ∧
    parseProposal S content maxJsonDepth = .ok proposal

section

variable {S : SerdeJson} {spell : JsonNumber → String}

/-! ## Traversals -/

theorem mapM_eq_some {α β : Type} {f : α → Option β} {xs : List α} {ys : List β} :
    xs.mapM f = some ys ↔ List.Forall₂ (fun x y => f x = some y) xs ys := by
  induction xs generalizing ys with
  | nil => cases ys <;> simp
  | cons x xs ih =>
    rw [List.mapM_cons]
    simp only [Option.bind_eq_bind, Option.bind_eq_some_iff, Option.pure_def, Option.some.injEq, ih]
    constructor
    · rintro ⟨y, hy, ys, hys, rfl⟩
      exact .cons hy hys
    · rintro (_ | ⟨hy, hys⟩)
      exact ⟨_, hy, _, hys, rfl⟩

/-! ## Parts of a value -/

theorem mem_of_lookup {members : List (String × Json)} {name : String} {w : Json}
    (h : members.lookup name = some w) : (name, w) ∈ members := by
  obtain ⟨front, back, rfl, -⟩ := List.lookup_eq_some_iff.mp h
  exact List.mem_append_right _ List.mem_cons_self

/-- A value that can be printed within a depth. -/
def PrintableWithin (S : SerdeJson) (spell : JsonNumber → String) (d : ℕ) (v : Json) : Prop :=
  v.Printable S spell ∧ v.nesting ≤ d

theorem PrintableWithin.member {d : ℕ} {members : List (String × Json)} {name : String} {w : Json}
    (h : PrintableWithin S spell d (.object members)) (hw : members.lookup name = some w) :
    PrintableWithin S spell d w := by
  have hmem := mem_of_lookup hw
  have hdepth : Json.nestingMembers members + 1 ≤ d := h.2
  refine ⟨Json.printableMembers_iff.mp h.1.2 _ hmem, ?_⟩
  have hmember := Json.nestingMembers_le.mp (le_refl (Json.nestingMembers members)) _ hmem
  dsimp only at hmember
  omega

theorem PrintableWithin.element {d : ℕ} {values : List Json} {w : Json}
    (h : PrintableWithin S spell d (.array values)) (hw : w ∈ values) :
    PrintableWithin S spell d w := by
  have hdepth : Json.nestingValues values + 1 ≤ d := h.2
  refine ⟨Json.printableValues_iff.mp h.1 _ hw, ?_⟩
  have helement := Json.nestingValues_le.mp (le_refl (Json.nestingValues values)) _ hw
  omega

theorem part_of_field {d : ℕ} {shape : StructShape} {v w : Json} {field : String → Option Json}
    {name : String} (hv : PrintableWithin S spell d v) (h : structFields shape v = some field)
    (hw : field name = some w) : PrintableWithin S spell d w := by
  unfold structFields at h
  split at h
  · split_ifs at h
    obtain rfl := Option.some.inj h
    exact hv.member hw
  · split_ifs at h
    obtain rfl := Option.some.inj h
    exact hv.element (List.mem_of_getElem? hw)
  · simp at h

theorem arguments_of_step {d : ℕ} {v : Json} {step : ProposalStepDocument}
    (hv : PrintableWithin S spell d v) (h : ProposalStepDocument.fromValue v = some step) :
    PrintableWithin S spell d step.arguments := by
  simp only [ProposalStepDocument.fromValue, Option.bind_eq_bind, Option.bind_eq_some_iff,
    Option.some.injEq] at h
  obtain ⟨field, hfields, _, -, _, -, _, -, _, -, arguments, harguments, rfl⟩ := h
  exact part_of_field hv hfields harguments

theorem arguments_of_proposal {d : ℕ} {v : Json} {proposal : ProposalDocument}
    (hv : PrintableWithin S spell d v) (h : ProposalDocument.fromValue v = some proposal) :
    ∀ step ∈ proposal.steps, PrintableWithin S spell d step.arguments := by
  simp only [ProposalDocument.fromValue, Option.bind_eq_bind, Option.bind_eq_some_iff,
    Option.some.injEq] at h
  obtain ⟨field, hfields, _, -, _, -, steps, ⟨value, hvalue, hsteps⟩, _, -, rfl⟩ := h
  have hpart := part_of_field hv hfields hvalue
  cases value with
  | array values =>
    intro step hstep
    obtain ⟨w, hw, hfrom⟩ := Outcome.exists_left_of_mem (mapM_eq_some.mp hsteps) hstep
    exact arguments_of_step (hpart.element hw) hfrom
  | _ => simp [Json.asVec] at hsteps

/-! ## The arguments of the atomic dialect -/

theorem three_members {args : List (String × Json)}
    (hsorted : args.Pairwise fun left right => left.1 < right.1) (hlength : args.length = 3)
    (hdigest : (args.lookup "expectedDigest").isSome = true)
    (hcontent : (args.lookup "jsonContent").isSome = true)
    (hpath : (args.lookup "path").isSome = true) :
    ∃ digest content path,
      args = [("expectedDigest", digest), ("jsonContent", content), ("path", path)] := by
  have hkey : ∀ {name : String}, (args.lookup name).isSome = true → name ∈ args.map Prod.fst := by
    intro name h
    obtain ⟨w, hw⟩ := Option.isSome_iff_exists.mp h
    exact List.mem_map_of_mem (mem_of_lookup hw)
  have hkeys : ["expectedDigest", "jsonContent", "path"] = args.map Prod.fst := by
    have hsubset : ["expectedDigest", "jsonContent", "path"] ⊆ args.map Prod.fst := by
      intro name hname
      simp only [List.mem_cons, List.not_mem_nil, or_false] at hname
      rcases hname with rfl | rfl | rfl
      · exact hkey hdigest
      · exact hkey hcontent
      · exact hkey hpath
    have hperm : ["expectedDigest", "jsonContent", "path"].Perm (args.map Prod.fst) := by
      refine (List.subperm_of_subset (by decide) hsubset).perm_of_length_le ?_
      rw [List.length_map, hlength]
      rfl
    refine hperm.eq_of_pairwise (fun a b _ _ hab hba => ?_) (by decide)
      (List.pairwise_map.mpr hsorted)
    exact absurd (lt_trans hab hba) (lt_irrefl a)
  match args, hkeys with
  | [(_, digest), (_, content), (_, path)], hkeys =>
    simp only [List.map_cons, List.map_nil, List.cons.injEq, and_true] at hkeys
    obtain ⟨rfl, rfl, rfl⟩ := hkeys
    exact ⟨digest, content, path, rfl⟩

theorem decodeAtomicJsonArguments_eq_ok {d : ℕ} {capability : CapabilityRef}
    {value arguments : Json} (hv : PrintableWithin S spell d value)
    (h : decodeAtomicJsonArguments spell capability value = .ok arguments) :
    ∃ path digest artifact, capability = writeAtomicCapability ∧
      value = .object [("expectedDigest", digest), ("jsonContent", artifact),
        ("path", .string path)] ∧
      (digest = .null ∨ ∃ sent, digest = .string sent) ∧ artifact.isObject = true ∧
      arguments = .object [("content", .string (artifact.write spell)),
        ("expectedDigest", digest), ("path", .string path)] := by
  unfold decodeAtomicJsonArguments at h
  simp only [Outcome.bind_eq_ok, Outcome.exists_unit, Outcome.failIf_eq_ok, not_not] at h
  obtain ⟨hcapability, h⟩ := h
  cases value with
  | object args =>
    simp only [Outcome.bind_eq_ok, Outcome.exists_unit, Outcome.failIf_eq_ok, Outcome.okOr_eq_ok,
      Outcome.pure_eq_ok, not_or, not_not] at h
    obtain ⟨⟨hlength, hpath, hdigest, hcontent⟩, object, hobject, harguments⟩ := h
    have hsome : ∀ {name : String} {p : Json → Bool}, (args.lookup name).any p = true →
        (args.lookup name).isSome = true := by
      intro name p hany
      cases hlookup : args.lookup name with
      | none => simp [hlookup] at hany
      | some w => rfl
    obtain ⟨digest, content, path, rfl⟩ :=
      three_members hv.1.1 hlength (hsome hdigest) (hsome hcontent) (hsome hpath)
    obtain rfl : content = object := Option.some.inj hobject
    have hstring : path.isString = true := hpath
    have hkind : (decide (digest = .null) || digest.isString) = true := hdigest
    cases path with
    | string path =>
      refine ⟨path, digest, content, ?_, rfl, ?_, hcontent, ?_⟩
      · obtain ⟨capabilityId, contractVersion⟩ := capability
        simpa [CapabilityRef.toJson, writeAtomicCapability] using hcapability
      · rw [Bool.or_eq_true, decide_eq_true_eq] at hkind
        rcases hkind with hnull | hkind
        · exact .inl hnull
        · cases digest with
          | string sent => exact .inr ⟨sent, rfl⟩
          | _ => simp [Json.isString] at hkind
      · rw [← harguments]
        rfl
    | _ => simp [Json.isString] at hstring
  | _ => simp at h

/-! ## The two passes -/

theorem onlyChoice_eq_ok {response : ChatCompletionResponse} {choice : ChatChoice} :
    onlyChoice response = .ok choice ↔ response.choices = [choice] := by
  unfold onlyChoice
  split
  · rename_i only honly
    rw [Outcome.pure_eq_ok, honly]
    simp
  · rename_i hmany
    simp only [Outcome.fail_eq_ok, false_iff]
    exact hmany choice

theorem decodeChatResponse_sent {body : List UInt8} {model : String}
    {maxProposalBytes maxJsonDepth : ℕ} {atomicJson : Bool} {result : PlanProposal}
    (h : decodeChatResponseWithCodec S spell body model maxProposalBytes maxJsonDepth atomicJson =
      .ok result) :
    ∃ choice proposal, Carries S maxProposalBytes maxJsonDepth body choice proposal ∧
      choice.finishReason = "stop" ∧ decodeProposal spell atomicJson proposal = .ok result := by
  simp only [decodeChatResponseWithCodec, Outcome.bind_eq_ok, Outcome.exists_unit,
    Outcome.failIf_eq_ok, onlyChoice_eq_ok, not_or, not_not] at h
  obtain ⟨response, hresponse, -, choice, hchoice, -, -, ⟨hstop, -⟩, content, hcontent, proposal,
    hproposal, hdecode⟩ := h
  exact ⟨choice, proposal, ⟨response, content, hresponse, hchoice, hcontent, hproposal⟩, hstop,
    hdecode⟩

theorem validateArtifactResponse_sent {body : List UInt8} {maxProposalBytes maxJsonDepth : ℕ}
    {validator : Json → Bool} {choice : ChatChoice} {proposal : ProposalDocument}
    (h : Carries S maxProposalBytes maxJsonDepth body choice proposal)
    (hstop : choice.finishReason = "stop") :
    validateArtifactResponse S body maxProposalBytes maxJsonDepth validator =
      Outcome.forEach proposal.steps fun step =>
        Outcome.failIf (artifactAccepted validator step = false) .invalidResponse := by
  obtain ⟨response, content, hresponse, hchoice, hcontent, hproposal⟩ := h
  have hlength : ¬ choice.finishReason = "length" := by
    rw [hstop]
    decide
  unfold validateArtifactResponse
  rw [hresponse]
  show (onlyChoice response >>= _) = _
  rw [onlyChoice_eq_ok.mpr hchoice]
  show (Outcome.failIf _ _ >>= _) = _
  rw [Outcome.failIf, if_neg hlength]
  show (boundedContent choice maxProposalBytes >>= _) = _
  rw [hcontent]
  show (parseProposal S content maxJsonDepth >>= _) = _
  rw [hproposal]
  rfl

theorem forEach_eq_error {ε α : Type} {xs : List α} {f : α → Outcome ε Unit} {fault : Fault ε}
    (h : Outcome.forEach xs f = .error fault) : ∃ x ∈ xs, f x = .error fault := by
  induction xs with
  | nil => exact absurd h (by simp [Outcome.forEach])
  | cons x xs ih =>
    rcases Outcome.bind_eq_error.mp h with hx | ⟨_, -, hrest⟩
    · exact ⟨x, List.mem_cons_self, hx⟩
    · obtain ⟨y, hy, hfault⟩ := ih hrest
      exact ⟨y, List.mem_cons_of_mem _ hy, hfault⟩

/-- The steps of a proposal. -/
def PlanProposal.steps : PlanProposal → List ProposedPlanStep
  | .plan steps => steps
  | .completionCandidate _ => []

theorem decodeProposal_steps {atomicJson : Bool} {proposal : ProposalDocument}
    {result : PlanProposal} (h : decodeProposal spell atomicJson proposal = .ok result) :
    List.Forall₂ (fun sent step => decodeStep spell atomicJson sent = .ok step) proposal.steps
      result.steps := by
  simp only [decodeProposal, Outcome.bind_eq_ok, Outcome.exists_unit] at h
  obtain ⟨-, h⟩ := h
  cases hkind : proposal.kind with
  | plan =>
    rw [hkind] at h
    simp only [Outcome.bind_eq_ok, Outcome.exists_unit, Outcome.pure_eq_ok] at h
    obtain ⟨-, steps, hsteps, rfl⟩ := h
    exact Outcome.mapM_eq_ok.mp hsteps
  | completionCandidate =>
    rw [hkind] at h
    simp only [Outcome.bind_eq_ok, Outcome.exists_unit, Outcome.pure_eq_ok, Outcome.failIf_eq_ok,
      not_or, Bool.not_eq_false, List.isEmpty_iff] at h
    obtain ⟨⟨hempty, -⟩, rfl⟩ := h
    rw [hempty]
    exact .nil

theorem carried_arguments (hS : S.Documented) (hspell : S.RoundTrips spell) {body : List UInt8}
    {maxProposalBytes maxJsonDepth : ℕ} (hmax : maxJsonDepth ≤ 127) {choice : ChatChoice}
    {proposal : ProposalDocument}
    (h : Carries S maxProposalBytes maxJsonDepth body choice proposal) :
    ∀ step ∈ proposal.steps, PrintableWithin S spell maxJsonDepth step.arguments := by
  obtain ⟨_, content, -, -, -, hproposal⟩ := h
  simp only [parseProposal, Outcome.bind_eq_ok, Outcome.okOr_eq_ok] at hproposal
  obtain ⟨value, hvalue, hfrom⟩ := hproposal
  exact arguments_of_proposal (Json.printable_of_parse hS hspell hmax hvalue) hfrom

/-! ## Artifacts -/

/-- A step as it was sent and as it is returned: the object that the validator accepted is what the
content parses to. -/
def ArtifactWritten (S : SerdeJson) (maxJsonDepth : ℕ) (validator : Json → Bool)
    (sent : ProposalStepDocument) (step : ProposedPlanStep) : Prop :=
  ∃ path digest artifact content,
    sent.arguments = .object [("expectedDigest", digest), ("jsonContent", artifact),
      ("path", .string path)] ∧
    (digest = .null ∨ ∃ text, digest = .string text) ∧ artifact.isObject = true ∧
    validator artifact = true ∧ step.capability = ⟨"xgeny.fs/write-atomic", "1.0.0"⟩ ∧
    step.arguments = .object [("content", .string content), ("expectedDigest", digest),
      ("path", .string path)] ∧
    parseUniqueJson S (bytes content) maxJsonDepth = .ok artifact

theorem artifact_of_decodeStep {d : ℕ} {sent : ProposalStepDocument} {step : ProposedPlanStep}
    (hsent : PrintableWithin S spell d sent.arguments)
    (h : decodeStep spell true sent = .ok step) :
    ∃ artifact, sent.arguments.get? "jsonContent" = some artifact := by
  simp only [decodeStep, decodeArguments, if_true, Outcome.bind_eq_ok] at h
  obtain ⟨arguments, harguments, -⟩ := h
  obtain ⟨_, _, artifact, -, hvalue, -⟩ := decodeAtomicJsonArguments_eq_ok hsent harguments
  rw [hvalue]
  exact ⟨artifact, rfl⟩

theorem artifactWritten_of_decodeStep (hS : S.Documented) {maxJsonDepth : ℕ}
    (hmax : maxJsonDepth ≤ 127) {validator : Json → Bool} {sent : ProposalStepDocument}
    {step : ProposedPlanStep} (hsent : PrintableWithin S spell maxJsonDepth sent.arguments)
    (haccepted : artifactAccepted validator sent = true)
    (h : decodeStep spell true sent = .ok step) :
    ArtifactWritten S maxJsonDepth validator sent step := by
  simp only [decodeStep, decodeArguments, if_true, Outcome.bind_eq_ok, Outcome.pure_eq_ok] at h
  obtain ⟨arguments, harguments, dependsOn, -, rfl⟩ := h
  obtain ⟨path, digest, artifact, hcapability, hvalue, hdigest, hobject, rfl⟩ :=
    decodeAtomicJsonArguments_eq_ok hsent harguments
  rw [hvalue] at hsent
  unfold artifactAccepted at haccepted
  rw [hvalue] at haccepted
  have hpart : PrintableWithin S spell maxJsonDepth artifact :=
    hsent.member (rfl : List.lookup "jsonContent" _ = some artifact)
  exact ⟨path, digest, artifact, _, hvalue, hdigest, hobject, haccepted, hcapability, rfl,
    Json.parse_write hS hmax hpart.1 hpart.2⟩

end

/-- **Artifacts are written as they were validated**, and the second pass only fails on an artifact
that the validator refuses. -/
theorem atomic_artifacts_as_validated (lib : ProviderCrates) (hjson : lib.json.Documented)
    (hspell : lib.json.RoundTrips lib.spell) (baseUrl plannerId model tokenizer : String)
    (calls : List BuilderCall) (config : OpenAiPlannerConfig lib)
    (hbuild : OpenAiPlannerConfig.build lib baseUrl plannerId model tokenizer calls = .ok config)
    (hformat : config.responseFormat = .jsonSchemaAtomicJson) (validator : Json → Bool)
    (hvalidator : config.artifactValidator = some validator) :
    (∀ print send request result, config.plan print send request = .ok result →
      ∃ body response choice proposal, config.prepare print request = .ok body ∧
        send body = .ok response ∧
        Carries lib.json config.maxProposalBytes config.maxJsonDepth response choice proposal ∧
        List.Forall₂ (ArtifactWritten lib.json config.maxJsonDepth validator) proposal.steps
          result.steps) ∧
    ∀ response result, decodeChatResponseWithCodec lib.json lib.spell response config.model
        config.maxProposalBytes config.maxJsonDepth true = .ok result →
      ∃ choice proposal,
        Carries lib.json config.maxProposalBytes config.maxJsonDepth response choice proposal ∧
        ∀ fault, validateArtifactResponse lib.json response config.maxProposalBytes
            config.maxJsonDepth validator = .error fault →
          fault = .err .invalidResponse ∧ ∃ step ∈ proposal.steps, ∃ artifact,
            step.arguments.get? "jsonContent" = some artifact ∧ validator artifact = false := by
  have hmax : config.maxJsonDepth ≤ 127 := by
    rw [(build_described hbuild).maxJsonDepth]
    decide
  constructor
  · intro print send request result h
    simp only [OpenAiPlannerConfig.plan, OpenAiPlannerConfig.decodeResponse, Outcome.bind_eq_ok,
      Outcome.exists_unit, Outcome.whenSome_eq_ok, Outcome.pure_eq_ok, hformat, decide_true] at h
    obtain ⟨body, hbody, response, hresponse, proposal', hfirst, hsecond, rfl⟩ := h
    obtain ⟨choice, proposal, hcarries, hstop, hdecode⟩ := decodeChatResponse_sent hfirst
    refine ⟨body, response, choice, proposal, hbody, hresponse, hcarries, ?_⟩
    have hpass := hsecond validator hvalidator
    rw [validateArtifactResponse_sent hcarries hstop, Outcome.forEach_eq_ok] at hpass
    have hsent : ∀ step ∈ proposal.steps, artifactAccepted validator step = true ∧
        PrintableWithin lib.json lib.spell config.maxJsonDepth step.arguments := by
      intro step hstep
      have haccepted := Outcome.failIf_eq_ok.mp (hpass step hstep)
      rw [Bool.not_eq_false] at haccepted
      exact ⟨haccepted, carried_arguments hjson hspell hmax hcarries step hstep⟩
    refine ((List.forall₂_and_left _ _).mpr ⟨hsent, decodeProposal_steps hdecode⟩).imp ?_
    rintro step returned ⟨⟨haccepted, hprintable⟩, hreturned⟩
    exact artifactWritten_of_decodeStep hjson hmax hprintable haccepted hreturned
  · intro response result h
    obtain ⟨choice, proposal, hcarries, hstop, hdecode⟩ := decodeChatResponse_sent h
    refine ⟨choice, proposal, hcarries, fun fault hfault => ?_⟩
    rw [validateArtifactResponse_sent hcarries hstop] at hfault
    obtain ⟨step, hstep, hcheck⟩ := forEach_eq_error hfault
    obtain ⟨hrefused, rfl⟩ := Outcome.failIf_eq_error.mp hcheck
    obtain ⟨returned, -, hreturned⟩ :=
      Outcome.exists_left_of_mem (List.Forall₂.flip (decodeProposal_steps hdecode)) hstep
    obtain ⟨artifact, hartifact⟩ := artifact_of_decodeStep
      (carried_arguments hjson hspell hmax hcarries step hstep) hreturned
    refine ⟨rfl, step, hstep, artifact, hartifact, ?_⟩
    unfold artifactAccepted at hrefused
    rw [hartifact] at hrefused
    exact hrefused

theorem digit_prints {n : ℕ} (h : n < 10) :
    Prints sampleCrates.json sampleCrates.spell (.posInt (UInt64.ofNat n)) := by
  interval_cases n <;> exact ⟨by decide, _, rfl, rfl⟩

theorem sample_roundTrips : sampleCrates.json.RoundTrips sampleCrates.spell := by
  intro lexeme p h
  change digitNumber lexeme = some p at h
  unfold digitNumber at h
  split at h
  · rename_i c
    split_ifs at h with hc
    obtain rfl := Option.some.inj h
    have hbound : c.toNat - 48 < 10 := by
      have hrange : 48 ≤ c.toNat ∧ c.toNat ≤ 57 := Char.isDigit_iff_toNat.mp hc
      omega
    exact digit_prints hbound
  · simp at h

/-- The schema of the sample, which takes any object. -/
def objectSchema : Json := .object [("type", .string "object")]

/-- An atomic configuration with this schema. -/
def buildAtomic : Outcome OpenAiPlannerConfigError (OpenAiPlannerConfig sampleCrates) :=
  OpenAiPlannerConfig.build sampleCrates "https://models.example/v1" "planner" "m" "t"
    [.responseFormat .jsonSchemaAtomicJson, .artifactSchema "\x7b\"type\":\"object\"\x7d"]

theorem sample_atomic : ∃ config, buildAtomic = .ok config ∧
    config.responseFormat = .jsonSchemaAtomicJson ∧ config.artifactValidator = some Json.isObject ∧
    config.proposalSchema = atomicJsonProposalSchemaOf objectSchema := by
  obtain ⟨first, hfirst⟩ := sample_new sample_endpoints.1
  have hnone : first.artifactValidator = none := (Described.new hfirst).artifactValidator
  obtain ⟨atomic, hatomic, hformat, hschema⟩ : ∃ atomic,
      first.withResponseFormat .jsonSchemaAtomicJson = .ok atomic ∧
        atomic.responseFormat = .jsonSchemaAtomicJson ∧
        atomic.proposalSchema = atomicJsonProposalSchema := by
    unfold OpenAiPlannerConfig.withResponseFormat
    rw [hnone]
    exact ⟨_, rfl, rfl, rfl⟩
  have hparse : parseUniqueJson sampleCrates.json (bytes "\x7b\"type\":\"object\"\x7d") 32 =
      .ok objectSchema := by
    refine (parseUniqueJson_eq_ok sample_documented (by decide)).mpr
      ⟨_, .object [("type", .string "object")], rfl, JsonGrammar.read_eq_some.mp (by cbv),
        by decide, ?_, by cbv⟩
    simp [KeysDistinct, KeysDistinctMembers]
  obtain ⟨config, hconfig, hsame, hvalidator, hassigned⟩ : ∃ config,
      atomic.withArtifactSchema "\x7b\"type\":\"object\"\x7d" = .ok config ∧
        config.responseFormat = atomic.responseFormat ∧
        config.artifactValidator = some Json.isObject ∧
        config.proposalSchema = atomicJsonProposalSchemaOf objectSchema := by
    rw [← assign_jsonContent anyObjectSchema objectSchema, ← atomicJsonProposalSchema, ← hschema]
    unfold OpenAiPlannerConfig.withArtifactSchema
    rw [hparse, hformat]
    exact ⟨_, rfl, rfl, rfl, rfl⟩
  refine ⟨config, ?_, by rw [hsame, hformat], hvalidator, hassigned⟩
  exact Outcome.bind_eq_ok.mpr ⟨first, hfirst, Outcome.bind_eq_ok.mpr ⟨atomic, hatomic,
    Outcome.bind_eq_ok.mpr ⟨config, hconfig, rfl⟩⟩⟩

theorem byteLen_atomicJsonProposalSchemaOf (spell : JsonNumber → String) (schema other : Json) :
    byteLen ((atomicJsonProposalSchemaOf schema).write spell) + byteLen (other.write spell) =
      byteLen ((atomicJsonProposalSchemaOf other).write spell) + byteLen (schema.write spell) := by
  simp only [atomicJsonProposalSchemaOf, atomicArgumentsSchema, proposalSchemaOf, schemaObject,
    schemaString, schemaArray, schemaNonEmpty, Json.strings, List.map_cons, List.map_nil,
    List.cons_append, List.nil_append, Json.write, Json.writeMembers, Json.writeValues,
    byteLen_append]
  omega

/-- A call of the planner. -/
def artifactRequest : PlannerCallRequest where
  callId := "model-call-" ++ zeroHash.val
  requestDigest := sha256Digest zeroHash
  context :=
    { planSampleContext with
      payload :=
        { planSampleContext.payload with
          profileVersion := planningContextProfileV3
          capabilities := [] } }

/-- The proposal of the answer: one artifact is written. -/
def artifactProposal : Json :=
  .object
    [("formatVersion", .number (.posInt 1)), ("kind", .string "plan"),
      ("steps", .array
        [.object
          [("arguments", .object
              [("expectedDigest", .null), ("jsonContent", .object [("x", .number (.posInt 1))]),
                ("path", .string "workspace:a/x.json")]),
            ("capability", .object
              [("capabilityId", .string "xgeny.fs/write-atomic"),
                ("contractVersion", .string "1.0.0")]),
            ("dependsOn", .array []), ("key", .string "write"),
            ("objective", .string "Write it")]]),
      ("summary", .string "")]

/-- The answer, which carries the proposal as a text. -/
def artifactEnvelope : Json :=
  .object
    [("choices", .array
        [.object
          [("finish_reason", .string "stop"), ("index", .number (.posInt 0)),
            ("message", .object
              [("content", .string (artifactProposal.write sampleSpell)),
                ("role", .string "assistant")])]]),
      ("model", .string "m")]

theorem artifactProposal_parsed :
    parseUniqueJson sampleCrates.json (bytes (artifactProposal.write sampleSpell)) 64 =
      .ok artifactProposal := by
  have hone := @digit_prints 1 (by decide)
  refine @Json.parse_write _ sampleCrates.spell sample_documented _ _ (by decide) ?_ (by decide)
  simp only [artifactProposal, Json.Printable, Json.PrintableValues, Json.PrintableMembers, and_true,
    true_and]
  exact ⟨by decide, hone, by decide, ⟨by decide, by decide, hone⟩, by decide⟩

theorem artifactEnvelope_parsed :
    parseUniqueJson sampleCrates.json (bytes (artifactEnvelope.write sampleSpell)) 64 =
      .ok artifactEnvelope := by
  have hzero := @digit_prints 0 (by decide)
  refine @Json.parse_write _ sampleCrates.spell sample_documented _ _ (by decide) ?_ (by decide)
  simp only [artifactEnvelope, Json.Printable, Json.PrintableValues, Json.PrintableMembers, and_true,
    true_and]
  exact ⟨by decide, by decide, hzero, by decide⟩

/-- The step that the answer decodes to: the artifact is the text of its content. -/
def artifactStep : ProposedPlanStep where
  key := "write"
  objective := "Write it"
  dependsOn := []
  capability := writeAtomicCapability
  arguments := .object
    [("content", .string "\x7b\"x\":1\x7d"), ("expectedDigest", .null),
      ("path", .string "workspace:a/x.json")]

theorem artifact_content {choice : ChatChoice}
    (h : choice.message.content = some (artifactProposal.write sampleSpell)) :
    boundedContent choice (256 * 1024) = .ok (artifactProposal.write sampleSpell) := by
  have hshort : ¬ 256 * 1024 < byteLen (artifactProposal.write sampleSpell) := by decide +kernel
  simp only [boundedContent, Outcome.bind_eq_ok, Outcome.exists_unit, Outcome.okOr_eq_ok,
    Outcome.failIf_eq_ok, Outcome.pure_eq_ok]
  exact ⟨_, h, hshort, rfl⟩

theorem artifact_decoded : decodeChatResponseWithCodec sampleCrates.json sampleSpell
    (bytes (artifactEnvelope.write sampleSpell)) "m" (256 * 1024) 64 true =
      .ok (.plan [artifactStep]) := by
  simp only [decodeChatResponseWithCodec, parseEnvelope, artifactEnvelope_parsed,
    Outcome.bind_eq_ok, Outcome.okOr_eq_ok, Outcome.exists_unit, Outcome.failIf_eq_ok]
  refine ⟨_, ⟨_, rfl, rfl⟩, by decide, _, rfl, by simp, by simp, by simp,
    artifactProposal.write sampleSpell, artifact_content rfl, ?_⟩
  simp only [parseProposal, artifactProposal_parsed, Outcome.bind_eq_ok, Outcome.okOr_eq_ok]
  exact ⟨_, ⟨_, rfl, rfl⟩, rfl⟩

theorem artifact_validated : validateArtifactResponse sampleCrates.json
    (bytes (artifactEnvelope.write sampleSpell)) (256 * 1024) 64 Json.isObject = .ok () := by
  simp only [validateArtifactResponse, parseEnvelope, artifactEnvelope_parsed,
    Outcome.bind_eq_ok, Outcome.okOr_eq_ok, Outcome.exists_unit, Outcome.failIf_eq_ok]
  refine ⟨_, ⟨_, rfl, rfl⟩, _, rfl, by simp, artifactProposal.write sampleSpell, artifact_content rfl, ?_⟩
  simp only [parseProposal, artifactProposal_parsed, Outcome.bind_eq_ok, Outcome.okOr_eq_ok]
  exact ⟨_, ⟨_, rfl, rfl⟩, rfl⟩

theorem artifact_prepared {config : OpenAiPlannerConfig sampleCrates} (h : buildAtomic = .ok config)
    (hschema : config.proposalSchema = atomicJsonProposalSchemaOf objectSchema) :
    ∃ body, config.prepare (fun context => some (context.text sampleSpell)) artifactRequest =
      .ok body := by
  have hd := build_described h
  have hsize : byteLen (config.proposalSchema.write sampleCrates.spell) ≤ 1280 := by
    have hsame := byteLen_atomicJsonProposalSchemaOf sampleSpell objectSchema anyObjectSchema
    have hshorter : byteLen (objectSchema.write sampleSpell) ≤
        byteLen (anyObjectSchema.write sampleSpell) := by decide
    have hany : byteLen (atomicJsonProposalSchema.write sampleSpell) ≤ 1280 :=
      (byteLen_proposalSchemas fun _ => rfl).2
    rw [hschema]
    rw [atomicJsonProposalSchema] at hany
    change byteLen ((atomicJsonProposalSchemaOf objectSchema).write sampleSpell) ≤ 1280
    omega
  have hcall : byteLen artifactRequest.callId = 75 := by decide +kernel
  have hrequest : byteLen artifactRequest.requestDigest = 71 := by decide +kernel
  have hoverhead := hd.requestOverhead_le hsize (fun _ => rfl) (by decide) hcall hrequest
  have hbody := config.byteLen_requestBody artifactRequest.callId artifactRequest.requestDigest
    (artifactRequest.context.text sampleSpell)
  have hcontext : byteLen (artifactRequest.context.text sampleSpell) ≤ 4096 := by decide +kernel
  have hquoted := byteLen_quoted_le (artifactRequest.context.text sampleSpell)
  rw [byteLen_quoted_eq] at hquoted
  have hmax : config.maxRequestBytes = 1048576 := hd.maxRequestBytes
  have hnone : config.planningConstraintsRequired = false := hd.planningConstraintsRequired
  have hfits : ¬ config.maxRequestBytes < byteLen (config.requestBody artifactRequest.callId
      artifactRequest.requestDigest (artifactRequest.context.text sampleSpell)) := by
    omega
  simp only [OpenAiPlannerConfig.prepare, Outcome.bind_eq_ok, Outcome.exists_unit,
    Outcome.failIf_eq_ok, Outcome.okOr_eq_ok, Outcome.pure_eq_ok, hnone]
  exact ⟨_, not_not_intro rfl, by decide, _, rfl, hfits, rfl⟩

/-- One artifact is written as it was validated, from the configuration to the returned step. -/
theorem atomic_artifacts_as_validated_sample : ∃ config sent choice proposal,
    buildAtomic = .ok config ∧
    config.plan (fun context => some (context.text sampleSpell))
      (fun _ => .ok (bytes (artifactEnvelope.write sampleSpell))) artifactRequest =
        .ok (.plan [artifactStep]) ∧
    ArtifactWritten sampleCrates.json config.maxJsonDepth Json.isObject sent artifactStep ∧
    Carries sampleCrates.json config.maxProposalBytes config.maxJsonDepth
      (bytes (artifactEnvelope.write sampleSpell)) choice proposal ∧
    ∀ fault, validateArtifactResponse sampleCrates.json (bytes (artifactEnvelope.write sampleSpell))
        config.maxProposalBytes config.maxJsonDepth Json.isObject = .error fault →
      fault = .err .invalidResponse ∧ ∃ step ∈ proposal.steps, ∃ artifact,
        step.arguments.get? "jsonContent" = some artifact ∧ artifact.isObject = false := by
  obtain ⟨config, hbuild, hformat, hvalidator, hschema⟩ := sample_atomic
  have hd := build_described hbuild
  obtain ⟨body, hbody⟩ := artifact_prepared hbuild hschema
  obtain ⟨hwritten, hrefused⟩ := atomic_artifacts_as_validated sampleCrates sample_documented
    sample_roundTrips _ _ _ _ _ config hbuild hformat Json.isObject hvalidator
  have hfirst : decodeChatResponseWithCodec sampleCrates.json sampleCrates.spell
      (bytes (artifactEnvelope.write sampleSpell)) config.model config.maxProposalBytes
        config.maxJsonDepth true = .ok (.plan [artifactStep]) := by
    rw [hd.model, hd.maxProposalBytes, hd.maxJsonDepth]
    exact artifact_decoded
  have hsecond : validateArtifactResponse sampleCrates.json
      (bytes (artifactEnvelope.write sampleSpell)) config.maxProposalBytes config.maxJsonDepth
        Json.isObject = .ok () := by
    rw [hd.maxProposalBytes, hd.maxJsonDepth]
    exact artifact_validated
  have hplan : config.plan (fun context => some (context.text sampleSpell))
      (fun _ => .ok (bytes (artifactEnvelope.write sampleSpell))) artifactRequest =
        .ok (.plan [artifactStep]) := by
    simp only [OpenAiPlannerConfig.plan, OpenAiPlannerConfig.decodeResponse, Outcome.bind_eq_ok,
      Outcome.exists_unit, Outcome.whenSome_eq_ok, Outcome.pure_eq_ok, hformat, decide_true,
      hvalidator, Option.some.injEq]
    exact ⟨body, hbody, _, rfl, _, hfirst, fun _ hsame => hsame ▸ hsecond, rfl⟩
  obtain ⟨_, _, _, _, -, -, -, hsteps⟩ := hwritten _ _ _ _ hplan
  obtain ⟨sent, _, hsent, -, -⟩ := List.forall₂_cons_right_iff.mp hsteps
  obtain ⟨choice, proposal, hcarries, hfault⟩ := hrefused _ _ hfirst
  exact ⟨config, sent, choice, proposal, hbuild, hplan, hsent, hcarries, hfault⟩


end Xgeny
