import Xgeny.Provider.Builders
import Xgeny.Provider.Planner
import Xgeny.Sidecars.Binding

set_option autoImplicit false

/-!
# The digest of a request profile

Two configurations with one digest have the same canonical descriptor, as far as the hash does not
collide on the texts that were hashed. The descriptor has the options in it, or the wire fields that
determine them; the schema is in it through its own digest, so that it is the same up to the spelling
of numbers.

* `Json.SameSpelling`: values that differ in the spelling of numbers at most;
* `record_get?`, `SameSpelling.get?`: a field of a record, and of two records of one spelling;
* `CommitsProfile`: no collision on what two configurations hash;
* `Agree`: the options that a descriptor commits to;
* `SamePlanner`: the same requests, the same answers;
* **`profile_digest_commits`**: what equal digests mean, and when digests are equal.
-/

namespace Xgeny

/-! ## Values up to the spelling of numbers -/

mutual

/-- Two values that differ in the spelling of numbers at most. -/
def Json.SameSpelling (spell : JsonNumber → String) : Json → Json → Prop
  | .null, .null => True
  | .bool a, .bool b => a = b
  | .number a, .number b => spell a = spell b
  | .string a, .string b => a = b
  | .array a, .array b => SameSpellingValues spell a b
  | .object a, .object b => SameSpellingMembers spell a b
  | _, _ => False

def SameSpellingValues (spell : JsonNumber → String) : List Json → List Json → Prop
  | [], [] => True
  | a :: as, b :: bs => a.SameSpelling spell b ∧ SameSpellingValues spell as bs
  | _, _ => False

def SameSpellingMembers (spell : JsonNumber → String) :
    List (String × Json) → List (String × Json) → Prop
  | [], [] => True
  | (k, a) :: as, (l, b) :: bs => k = l ∧ a.SameSpelling spell b ∧ SameSpellingMembers spell as bs
  | _, _ => False

end

/-- Integers that every double can hold keep their digits in canonical JSON. -/
def ExactIntegers (spell : JsonNumber → String) : Prop :=
  ∀ m n : ℕ, m < 2 ^ 53 → n < 2 ^ 53 →
    spell (.posInt (UInt64.ofNat m)) = spell (.posInt (UInt64.ofNat n)) → m = n

section

variable {spell : JsonNumber → String}

mutual

theorem Json.SameSpelling.refl : ∀ value : Json, value.SameSpelling spell value
  | .null => trivial
  | .bool _ => rfl
  | .number _ => rfl
  | .string _ => rfl
  | .array values => SameSpellingValues.refl values
  | .object members => SameSpellingMembers.refl members

theorem SameSpellingValues.refl : ∀ values : List Json, SameSpellingValues spell values values
  | [] => trivial
  | value :: rest => ⟨Json.SameSpelling.refl value, SameSpellingValues.refl rest⟩

theorem SameSpellingMembers.refl :
    ∀ members : List (String × Json), SameSpellingMembers spell members members
  | [] => trivial
  | (_, value) :: rest => ⟨rfl, Json.SameSpelling.refl value, SameSpellingMembers.refl rest⟩

end

mutual

theorem Json.SameSpelling.symm {a b : Json} (h : a.SameSpelling spell b) :
    b.SameSpelling spell a := by
  cases a <;> cases b <;> first | exact h.elim | exact h | exact Eq.symm h | skip
  case array.array values values' => exact SameSpellingValues.symm h
  case object.object members members' => exact SameSpellingMembers.symm h

theorem SameSpellingValues.symm {as bs : List Json} (h : SameSpellingValues spell as bs) :
    SameSpellingValues spell bs as := by
  cases as <;> cases bs
  case cons.cons a as b bs => exact ⟨Json.SameSpelling.symm h.1, SameSpellingValues.symm h.2⟩
  all_goals exact h

theorem SameSpellingMembers.symm {as bs : List (String × Json)}
    (h : SameSpellingMembers spell as bs) : SameSpellingMembers spell bs as := by
  cases as <;> cases bs
  case cons.cons a as b bs =>
    exact ⟨h.1.symm, Json.SameSpelling.symm h.2.1, SameSpellingMembers.symm h.2.2⟩
  all_goals exact h

end

theorem SameSpellingMembers.lookup (key : String) {as bs : List (String × Json)}
    (h : SameSpellingMembers spell as bs) :
    Option.Rel (Json.SameSpelling spell) (as.lookup key) (bs.lookup key) := by
  induction as generalizing bs with
  | nil =>
    cases bs with
    | nil => exact .none
    | cons b bs => exact h.elim
  | cons a as ih =>
    cases bs with
    | nil => exact h.elim
    | cons b bs =>
      obtain ⟨k, a⟩ := a
      obtain ⟨l, b⟩ := b
      obtain ⟨rfl, hvalue, hrest⟩ := h
      by_cases hkey : key = k
      · subst hkey
        rw [List.lookup_cons_self, List.lookup_cons_self]
        exact .some hvalue
      · have hother : (key == k) = false := beq_eq_false_iff_ne.mpr hkey
        simp only [List.lookup_cons, hother]
        exact ih hrest

theorem Json.SameSpelling.get? {a b : Json} (h : a.SameSpelling spell b) (key : String) :
    Option.Rel (Json.SameSpelling spell) (a.get? key) (b.get? key) := by
  cases a <;> cases b <;> first | exact h.elim | exact .none | exact SameSpellingMembers.lookup key h

theorem Json.SameSpelling.member {a b x y : Json} (h : a.SameSpelling spell b) (key : String)
    (ha : a.get? key = some x) (hb : b.get? key = some y) : x.SameSpelling spell y := by
  have hmember := h.get? key
  rw [ha, hb] at hmember
  cases hmember with
  | some hmember => exact hmember

theorem record_get? {fields : List (String × Option Json)} (hkeys : (fields.map Prod.fst).Nodup)
    (key : String) : (Json.record fields).get? key = (fields.lookup key).join := by
  show (fields.filterMap fun field => field.2.map (Prod.mk field.1)).lookup key = _
  induction fields with
  | nil => rfl
  | cons field fields ih =>
    obtain ⟨name, value⟩ := field
    obtain ⟨hname, hrest⟩ := List.nodup_cons.mp hkeys
    by_cases hkey : key = name
    · subst hkey
      rw [List.lookup_cons_self]
      cases value with
      | some value => exact List.lookup_cons_self
      | none =>
        -- an empty field is left out, and no later one has its name
        have habsent : fields.lookup key = none := by
          rw [List.lookup_eq_none_iff]
          intro field hfield
          rw [bne_iff_ne]
          intro hkey
          apply hname
          show key ∈ _
          rw [hkey]
          exact List.mem_map_of_mem hfield
        rw [habsent] at ih
        exact ih hrest
    · have hother : (key == name) = false := beq_eq_false_iff_ne.mpr hkey
      cases value with
      | some value =>
        simp only [List.filterMap_cons, Option.map_some, List.lookup_cons, hother]
        exact ih hrest
      | none =>
        simp only [List.filterMap_cons, Option.map_none, List.lookup_cons, hother]
        exact ih hrest

theorem record_field {fields fields' : List (String × Option Json)}
    (h : (Json.record fields).SameSpelling spell (Json.record fields'))
    (hkeys : (fields.map Prod.fst).Nodup) (hkeys' : (fields'.map Prod.fst).Nodup) (key : String) :
    Option.Rel (Json.SameSpelling spell) (fields.lookup key).join (fields'.lookup key).join := by
  rw [← record_get? hkeys, ← record_get? hkeys']
  exact h.get? key

theorem string_of_rel {a b : String}
    (h : Option.Rel (Json.SameSpelling spell) (some (.string a)) (some (.string b))) : a = b := by
  cases h with
  | some h => exact h

theorem unsigned_of_rel (hspell : ExactIntegers spell) {m n : ℕ} (hm : m < 2 ^ 53) (hn : n < 2 ^ 53)
    (h : Option.Rel (Json.SameSpelling spell) (some (.unsigned m)) (some (.unsigned n))) : m = n := by
  cases h with
  | some h => exact hspell m n hm hn h

/-! ## What a descriptor commits to -/

variable {lib : ProviderCrates} {config config' : OpenAiPlannerConfig lib}

/-- The fields of a descriptor in their order. -/
def descriptorKeys : List String :=
  ["domain", "providerDialect", "requestEnvelopeProfile", "model", "tokenizer",
    "planningContextProfile", "promptTemplateRevision", "promptTemplateDigest",
    "proposalSchemaRevision", "proposalSchemaDigest", "temperatureMillis", "seed", "thinking",
    "chatTemplateKwargs", "reasoningEffort", "maxOutputTokens", "timeoutSeconds",
    "timeoutSubsecNanos", "maxRequestBytes", "maxResponseBytes", "maxProposalBytes",
    "maxJsonDepth", "stream", "redirects", "retries"]

theorem descriptorKeys_nodup : descriptorKeys.Nodup := by decide

/-- What two configurations with descriptors of one spelling share. -/
structure SameDescriptor (config config' : OpenAiPlannerConfig lib) : Prop where
  model : config.model = config'.model
  tokenizer : config.tokenizer = config'.tokenizer
  responseFormat : config.responseFormat = config'.responseFormat
  thinking : config.thinking = config'.thinking
  planningConstraintsRequired :
    config.planningConstraintsRequired = config'.planningConstraintsRequired
  maxOutputTokens : config.maxOutputTokens = config'.maxOutputTokens
  timeout : config.timeout = config'.timeout

theorem responseFormat_of_providerDialect
    (h : config.providerDialect = config'.providerDialect) :
    config.responseFormat = config'.responseFormat := by
  unfold OpenAiPlannerConfig.providerDialect at h
  revert h
  cases config.responseFormat <;> cases config'.responseFormat <;> decide

theorem constraints_of_promptTemplateRevision
    (hformat : config.responseFormat = config'.responseFormat)
    (h : config.promptTemplateRevision = config'.promptTemplateRevision) :
    config.planningConstraintsRequired = config'.planningConstraintsRequired := by
  unfold OpenAiPlannerConfig.promptTemplateRevision at h
  rw [hformat] at h
  revert h
  cases config'.responseFormat <;> cases config.planningConstraintsRequired <;>
    cases config'.planningConstraintsRequired <;> decide

theorem thinking_of_requests
    (h : Option.Rel (Json.SameSpelling spell) config.thinkingRequest config'.thinkingRequest)
    (htemplate : Option.Rel (Json.SameSpelling spell) config.chatTemplateRequest
      config'.chatTemplateRequest) : config.thinking = config'.thinking := by
  unfold OpenAiPlannerConfig.thinkingRequest at h
  unfold OpenAiPlannerConfig.chatTemplateRequest at htemplate
  cases hmode : config.thinking <;> cases hmode' : config'.thinking <;>
    rw [hmode, hmode'] at h htemplate <;>
    first
    | rfl
    | (exfalso; cases h; done)
    | (exfalso; cases htemplate; done)
    | (exfalso; cases h with | some h => simp [Json.SameSpelling, SameSpellingMembers] at h)

/-- **Descriptors of one spelling describe one profile.** -/
theorem sameDescriptor_of_sameSpelling {p s p' s' : String} (hspell : ExactIntegers spell)
    (hlimit : config.maxOutputTokens < 2 ^ 53 ∧ config'.maxOutputTokens < 2 ^ 53)
    (hdeadline : config.timeout.asSecs < 2 ^ 53 ∧ config'.timeout.asSecs < 2 ^ 53)
    (h : (config.descriptor p s).SameSpelling spell (config'.descriptor p' s')) :
    SameDescriptor config config' ∧ s = s' := by
  have field := record_field h descriptorKeys_nodup descriptorKeys_nodup
  have hmodel := field "model"
  have htokenizer := field "tokenizer"
  have hdialect := field "providerDialect"
  have hrevision := field "promptTemplateRevision"
  have hschema := field "proposalSchemaDigest"
  have hthinking := field "thinking"
  have htemplate := field "chatTemplateKwargs"
  have htokens := field "maxOutputTokens"
  have hseconds := field "timeoutSeconds"
  have hnanos := field "timeoutSubsecNanos"
  have hformat : config.responseFormat = config'.responseFormat :=
    responseFormat_of_providerDialect (string_of_rel hdialect)
  have htimeout : config.timeout = config'.timeout := by
    have hsecs : config.timeout.nanos / 1000000000 = config'.timeout.nanos / 1000000000 :=
      unsigned_of_rel hspell hdeadline.1 hdeadline.2 hseconds
    have hsub : config.timeout.nanos % 1000000000 = config'.timeout.nanos % 1000000000 :=
      unsigned_of_rel hspell
        ((Nat.mod_lt _ (by decide)).trans (by decide)) ((Nat.mod_lt _ (by decide)).trans (by decide))
        hnanos
    have hequal : config.timeout.nanos = config'.timeout.nanos := by omega
    cases hleft : config.timeout
    cases hright : config'.timeout
    rw [hleft, hright] at hequal
    exact congrArg Duration.mk hequal
  exact
    ⟨{ model := string_of_rel hmodel
       tokenizer := string_of_rel htokenizer
       responseFormat := hformat
       thinking := thinking_of_requests hthinking htemplate
       planningConstraintsRequired :=
        constraints_of_promptTemplateRevision hformat (string_of_rel hrevision)
       maxOutputTokens := unsigned_of_rel hspell hlimit.1 hlimit.2 htokens
       timeout := htimeout }, string_of_rel hschema⟩

/-! ## What a digest commits to -/

/-- Two documents that hash to one value are one document. -/
def NoCollision (lib : ProviderCrates) (spell : JsonNumber → String) (a b : Json) : Prop :=
  ∀ text text', lib.jcs a = some text → lib.jcs b = some text' → lib.sha256 text = lib.sha256 text' →
    a.SameSpelling spell b

/-- The descriptor that is hashed. -/
def OpenAiPlannerConfig.profileDescriptor (config : OpenAiPlannerConfig lib) : Option Json :=
  (lib.jcs config.proposalSchema).map fun schema =>
    config.descriptor config.promptTemplateDigest (OpenAiPlannerConfig.digestOf lib schema)

/-- No collision on the schemas and on the descriptors of two configurations. -/
structure CommitsProfile (spell : JsonNumber → String) (config config' : OpenAiPlannerConfig lib) :
    Prop where
  schema : NoCollision lib spell config.proposalSchema config'.proposalSchema
  descriptor : ∀ a ∈ config.profileDescriptor, ∀ b ∈ config'.profileDescriptor,
    NoCollision lib spell a b

/-- Numbers of one canonical spelling are one number to a validator. -/
def ReadsNumbers (library : JsonSchemaLibrary) (spell : JsonNumber → String) : Prop :=
  ∀ a b : Json, ∀ accepts ∈ library.build a, ∀ accepts' ∈ library.build b,
    a.SameSpelling spell b → accepts = accepts'

/-- The same requests up to the spelling of numbers in the schema, and the same answers. -/
structure SamePlanner (spell : JsonNumber → String) (config config' : OpenAiPlannerConfig lib) :
    Prop where
  schema : config.proposalSchema.SameSpelling spell config'.proposalSchema
  chatRequest : ∀ prompt : String,
    { config with proposalSchema := config'.proposalSchema }.chatRequest config.systemPrompt prompt =
      config'.chatRequest config'.systemPrompt prompt
  planningConstraintsRequired :
    config.planningConstraintsRequired = config'.planningConstraintsRequired
  maxRequestBytes : config.maxRequestBytes = config'.maxRequestBytes
  maxResponseBytes : config.maxResponseBytes = config'.maxResponseBytes
  timeout : config.timeout = config'.timeout
  decodeResponse : ∀ response : List UInt8,
    config.decodeResponse response = config'.decodeResponse response

theorem requestProfileDigest_eq (h : config.refreshProfileDigest = .ok config) :
    ∃ descriptor canonical, config.profileDescriptor = some descriptor ∧
      lib.jcs descriptor = some canonical ∧
      config.requestProfileDigest = OpenAiPlannerConfig.digestOf lib canonical := by
  simp only [OpenAiPlannerConfig.refreshProfileDigest, Outcome.bind_eq_ok, Outcome.okOr_eq_ok,
    Outcome.pure_eq_ok] at h
  obtain ⟨schema, hschema, canonical, hcanonical, hsame⟩ := h
  refine ⟨_, canonical, ?_, hcanonical,
    (congrArg OpenAiPlannerConfig.requestProfileDigest hsame).symm⟩
  rw [OpenAiPlannerConfig.profileDescriptor, hschema]
  rfl

theorem hash_of_digestOf {text text' : String}
    (h : OpenAiPlannerConfig.digestOf lib text = OpenAiPlannerConfig.digestOf lib text') :
    lib.sha256 text = lib.sha256 text' :=
  CanonicalEncoder.sha256Digest_injective h

/-! ### Schemas -/

theorem jsonContent_of_sameSpelling {a b : Json}
    (h : (atomicJsonProposalSchemaOf a).SameSpelling spell (atomicJsonProposalSchemaOf b)) :
    a.SameSpelling spell b := by
  have steps := (h.member "properties" rfl rfl).member "steps" rfl rfl
  have step := (steps.member "items" rfl rfl).member "properties" rfl rfl
  have arguments := (step.member "arguments" rfl rfl).member "properties" rfl rfl
  exact arguments.member "jsonContent" rfl rfl

theorem not_sameSpelling_anyObject {a : Json} (ha : localArtifactSchema a = true) :
    ¬ a.SameSpelling spell anyObjectSchema := by
  intro h
  cases a with
  | object members =>
    match members, h with
    | (key, value) :: rest, ⟨hkey, hvalue, _⟩ =>
      subst hkey
      cases value with
      | bool b =>
        obtain rfl : b = true := hvalue
        simp [localArtifactSchema, localKeywords, plainKeywords] at ha
      | _ => exact hvalue.elim
  | _ => exact h.elim

theorem artifactValidator_eq {model tokenizer model' tokenizer' : String}
    {options options' : ProfileOptions} (hreads : ReadsNumbers lib.jsonschema spell)
    (hd : Described model tokenizer options config)
    (hd' : Described model' tokenizer' options' config')
    (hformat : config.responseFormat = config'.responseFormat)
    (h : config.proposalSchema.SameSpelling spell config'.proposalSchema) :
    config.artifactValidator = config'.artifactValidator := by
  have hoptions : options.responseFormat = options'.responseFormat := by
    rw [← hd.responseFormat, ← hd'.responseFormat, hformat]
  rw [hd.proposalSchema, hd'.proposalSchema] at h
  unfold ProfileOptions.proposalSchema at h
  rw [hoptions] at h
  have hleft := hd.artifactValidator
  have hright := hd'.artifactValidator
  cases hschema : options.artifactSchema with
  | none =>
    rw [hschema] at h hleft
    cases hschema' : options'.artifactSchema with
    | none =>
      rw [hschema'] at hright
      exact hleft.trans hright.symm
    | some schema' =>
      rw [hschema'] at h hright
      obtain ⟨hatomic, validator, hattached, -⟩ := hright
      rw [hatomic] at h
      exact (not_sameSpelling_anyObject hattached.isLocal (jsonContent_of_sameSpelling h).symm).elim
  | some schema =>
    rw [hschema] at h hleft
    obtain ⟨hatomic, validator, hattached, hvalidator⟩ := hleft
    rw [← hoptions, hatomic] at h
    cases hschema' : options'.artifactSchema with
    | none =>
      rw [hschema'] at h
      exact (not_sameSpelling_anyObject hattached.isLocal (jsonContent_of_sameSpelling h)).elim
    | some schema' =>
      rw [hschema'] at h hright
      obtain ⟨-, validator', hattached', hvalidator'⟩ := hright
      rw [hvalidator, hvalidator', hreads schema schema' validator hattached.build validator'
        hattached'.build (jsonContent_of_sameSpelling h)]

theorem systemPrompt_eq {model tokenizer model' tokenizer' : String}
    {options options' : ProfileOptions} (hd : Described model tokenizer options config)
    (hd' : Described model' tokenizer' options' config') (hsame : SameDescriptor config config') :
    config.systemPrompt = config'.systemPrompt := by
  have hschema : config.responseFormat = .jsonObject →
      config.proposalSchema = config'.proposalSchema := by
    intro hformat
    rw [hd.proposalSchema, hd'.proposalSchema]
    unfold ProfileOptions.proposalSchema
    rw [← hd.responseFormat, ← hd'.responseFormat, ← hsame.responseFormat, hformat]
  unfold OpenAiPlannerConfig.systemPrompt OpenAiPlannerConfig.promptWithSchema
  rw [← hsame.responseFormat, ← hsame.planningConstraintsRequired]
  cases hformat : config.responseFormat with
  | jsonSchema => rfl
  | jsonSchemaAtomicJson => rfl
  | jsonObject => rw [hschema hformat]

theorem samePlanner_of_sameDescriptor {model tokenizer model' tokenizer' : String}
    {options options' : ProfileOptions} (hreads : ReadsNumbers lib.jsonschema spell)
    (hd : Described model tokenizer options config)
    (hd' : Described model' tokenizer' options' config')
    (hsame : SameDescriptor config config')
    (hschema : config.proposalSchema.SameSpelling spell config'.proposalSchema) :
    SamePlanner spell config config' where
  schema := hschema
  chatRequest prompt := by
    rw [systemPrompt_eq hd hd' hsame]
    unfold OpenAiPlannerConfig.chatRequest OpenAiPlannerConfig.temperature OpenAiPlannerConfig.seed
      OpenAiPlannerConfig.responseFormatRequest OpenAiPlannerConfig.thinkingRequest
      OpenAiPlannerConfig.chatTemplateRequest OpenAiPlannerConfig.reasoningEffort
    rw [hsame.model, hsame.responseFormat, hsame.thinking, hsame.maxOutputTokens]
  planningConstraintsRequired := hsame.planningConstraintsRequired
  maxRequestBytes := by rw [hd.maxRequestBytes, hd'.maxRequestBytes]
  maxResponseBytes := by rw [hd.maxResponseBytes, hd'.maxResponseBytes]
  timeout := hsame.timeout
  decodeResponse response := by
    unfold OpenAiPlannerConfig.decodeResponse
    rw [artifactValidator_eq hreads hd hd' hsame.responseFormat hschema, hsame.model,
      hsame.responseFormat, hd.maxProposalBytes, hd'.maxProposalBytes, hd.maxJsonDepth,
      hd'.maxJsonDepth]

/-- **One digest, one planner.** -/
theorem samePlanner_of_digest {model tokenizer model' tokenizer' : String}
    {options options' : ProfileOptions} (hspell : ExactIntegers spell)
    (hreads : ReadsNumbers lib.jsonschema spell)
    (hd : Described model tokenizer options config)
    (hd' : Described model' tokenizer' options' config')
    (hcommits : CommitsProfile spell config config')
    (h : config.requestProfileDigest = config'.requestProfileDigest) :
    SamePlanner spell config config' := by
  obtain ⟨descriptor, canonical, hdescriptor, hcanonical, hdigest⟩ :=
    requestProfileDigest_eq hd.fresh
  obtain ⟨descriptor', canonical', hdescriptor', hcanonical', hdigest'⟩ :=
    requestProfileDigest_eq hd'.fresh
  rw [hdigest, hdigest'] at h
  have hdescriptors := hcommits.descriptor descriptor hdescriptor descriptor' hdescriptor' canonical
    canonical' hcanonical hcanonical' (hash_of_digestOf h)
  obtain ⟨schema, hschema, rfl⟩ := Option.map_eq_some_iff.mp hdescriptor
  obtain ⟨schema', hschema', rfl⟩ := Option.map_eq_some_iff.mp hdescriptor'
  have htokens : config.maxOutputTokens < 2 ^ 53 ∧ config'.maxOutputTokens < 2 ^ 53 := by
    rw [hd.maxOutputTokens, hd'.maxOutputTokens]
    exact ⟨hd.tokens.2.trans_lt (by decide), hd'.tokens.2.trans_lt (by decide)⟩
  have hdeadline : config.timeout.asSecs < 2 ^ 53 ∧ config'.timeout.asSecs < 2 ^ 53 := by
    rw [hd.timeout, hd'.timeout]
    exact ⟨hd.deadline.2.trans_lt (by decide), hd'.deadline.2.trans_lt (by decide)⟩
  obtain ⟨hsame, hschemas⟩ := sameDescriptor_of_sameSpelling hspell htokens hdeadline hdescriptors
  exact samePlanner_of_sameDescriptor hreads hd hd' hsame
    (hcommits.schema schema schema' hschema hschema' (hash_of_digestOf hschemas))

theorem descriptor_of_options {model tokenizer : String} {options : ProfileOptions}
    (hd : Described model tokenizer options config)
    (hd' : Described model tokenizer options config') (p s : String) :
    config.descriptor p s = config'.descriptor p s := by
  unfold OpenAiPlannerConfig.descriptor OpenAiPlannerConfig.providerDialect
    OpenAiPlannerConfig.promptTemplateRevision OpenAiPlannerConfig.temperature
    OpenAiPlannerConfig.seed OpenAiPlannerConfig.thinkingRequest
    OpenAiPlannerConfig.chatTemplateRequest OpenAiPlannerConfig.reasoningEffort
  rw [hd.model, hd'.model, hd.tokenizer, hd'.tokenizer, hd.responseFormat, hd'.responseFormat,
    hd.thinking, hd'.thinking, hd.planningConstraintsRequired, hd'.planningConstraintsRequired,
    hd.maxOutputTokens, hd'.maxOutputTokens, hd.timeout, hd'.timeout, hd.maxRequestBytes,
    hd'.maxRequestBytes, hd.maxResponseBytes, hd'.maxResponseBytes, hd.maxProposalBytes,
    hd'.maxProposalBytes, hd.maxJsonDepth, hd'.maxJsonDepth]

theorem profileDescriptor_of_options {model tokenizer : String} {options : ProfileOptions}
    (hd : Described model tokenizer options config)
    (hd' : Described model tokenizer options config') :
    config.profileDescriptor = config'.profileDescriptor := by
  have hprompt : config.systemPrompt = config'.systemPrompt := by
    unfold OpenAiPlannerConfig.systemPrompt OpenAiPlannerConfig.promptWithSchema
    rw [hd.responseFormat, hd'.responseFormat, hd.planningConstraintsRequired,
      hd'.planningConstraintsRequired, hd.proposalSchema, hd'.proposalSchema]
  have hpromptDigest : config.promptTemplateDigest = config'.promptTemplateDigest :=
    congrArg (OpenAiPlannerConfig.digestOf lib) hprompt
  unfold OpenAiPlannerConfig.profileDescriptor
  rw [hd.proposalSchema, hd'.proposalSchema, hpromptDigest]
  congr 1
  funext schema
  exact descriptor_of_options hd hd' _ _

theorem digest_of_options {model tokenizer : String} {options : ProfileOptions}
    (hd : Described model tokenizer options config)
    (hd' : Described model tokenizer options config') :
    config.requestProfileDigest = config'.requestProfileDigest := by
  obtain ⟨descriptor, canonical, hdescriptor, hcanonical, hdigest⟩ :=
    requestProfileDigest_eq hd.fresh
  obtain ⟨descriptor', canonical', hdescriptor', hcanonical', hdigest'⟩ :=
    requestProfileDigest_eq hd'.fresh
  rw [profileDescriptor_of_options hd hd', hdescriptor'] at hdescriptor
  rw [← Option.some.inj hdescriptor, hcanonical'] at hcanonical
  rw [hdigest, hdigest', Option.some.inj hcanonical]

theorem NoCollision.of_eq {a b : Json} (h : a = b) : NoCollision lib spell a b := by
  subst h
  intro _ _ _ _ _
  exact Json.SameSpelling.refl a

theorem commitsProfile_of_options {model tokenizer : String} {options : ProfileOptions}
    (hd : Described model tokenizer options config)
    (hd' : Described model tokenizer options config') : CommitsProfile spell config config' where
  schema := .of_eq (by rw [hd.proposalSchema, hd'.proposalSchema])
  descriptor a ha b hb := by
    apply NoCollision.of_eq
    rw [profileDescriptor_of_options hd hd'] at ha
    exact Option.mem_unique ha hb

end

/-- **The digest commits to the planner.** With no collision on what two configurations hash, equal
digests mean the same requests up to the spelling of numbers in the schema, and the same answers;
the same model, tokenizer and options mean equal digests, whatever the calls and the location. -/
theorem profile_digest_commits (lib : ProviderCrates) (canonicalSpell : JsonNumber → String)
    (hspell : ExactIntegers canonicalSpell) (hreads : ReadsNumbers lib.jsonschema canonicalSpell)
    (baseUrl baseUrl' plannerId plannerId' model model' tokenizer tokenizer' : String)
    (calls calls' : List BuilderCall) (config config' : OpenAiPlannerConfig lib)
    (h : OpenAiPlannerConfig.build lib baseUrl plannerId model tokenizer calls = .ok config)
    (h' : OpenAiPlannerConfig.build lib baseUrl' plannerId' model' tokenizer' calls' =
      .ok config') :
    (CommitsProfile canonicalSpell config config' →
      config.requestProfileDigest = config'.requestProfileDigest →
      SamePlanner canonicalSpell config config') ∧
    (model = model' → tokenizer = tokenizer' →
      optionsOf lib.json calls = optionsOf lib.json calls' →
      config.requestProfileDigest = config'.requestProfileDigest) := by
  have hd := build_described h
  have hd' := build_described h'
  refine ⟨samePlanner_of_digest hspell hreads hd hd', ?_⟩
  rintro rfl rfl hoptions
  rw [← hoptions] at hd'
  exact digest_of_options hd hd'

theorem sample_exactIntegers : ExactIntegers sampleSpell := by
  intro m n hm hn h
  have hdigits : toString (UInt64.ofNat m).toNat = toString (UInt64.ofNat n).toNat := h
  rw [UInt64.toNat_ofNat_of_lt' (hm.trans (by decide)),
    UInt64.toNat_ofNat_of_lt' (hn.trans (by decide)), Nat.toString_eq_ofList_toDigits,
    Nat.toString_eq_ofList_toDigits, String.ofList_inj] at hdigits
  rw [← Nat.ofDigitChars_ten_toDigits (n := m), hdigits, Nat.ofDigitChars_ten_toDigits]

theorem sample_readsNumbers : ReadsNumbers sampleCrates.jsonschema sampleSpell := by
  rintro a b _ ⟨⟩ _ ⟨⟩ _
  rfl

/-- Two locations and two orders of calls, one planner. -/
theorem profile_digest_commits_sample : ∃ config config' : OpenAiPlannerConfig sampleCrates,
    OpenAiPlannerConfig.build sampleCrates "https://models.example/v1" "planner" "m" "t"
      [.thinking .disabled, .maxOutputTokens 512] = .ok config ∧
    OpenAiPlannerConfig.build sampleCrates "http://127.0.0.1:9988/v1" "planner" "m" "t"
      [.maxOutputTokens 9, .thinking .disabled, .maxOutputTokens 512] = .ok config' ∧
    config.requestProfileDigest = config'.requestProfileDigest ∧
    SamePlanner sampleSpell config config' := by
  obtain ⟨first, hfirst⟩ := sample_new sample_endpoints.1
  obtain ⟨second, hsecond⟩ := sample_new sample_endpoints.2
  obtain ⟨config, hconfig⟩ : ∃ config, Outcome.foldl BuilderCall.apply first
      [.thinking .disabled, .maxOutputTokens 512] = .ok config := ⟨_, rfl⟩
  obtain ⟨config', hconfig'⟩ : ∃ config, Outcome.foldl BuilderCall.apply second
      [.maxOutputTokens 9, .thinking .disabled, .maxOutputTokens 512] = .ok config := ⟨_, rfl⟩
  have h : OpenAiPlannerConfig.build sampleCrates _ _ _ _ _ = .ok config :=
    Outcome.bind_eq_ok.mpr ⟨first, hfirst, hconfig⟩
  have h' : OpenAiPlannerConfig.build sampleCrates _ _ _ _ _ = .ok config' :=
    Outcome.bind_eq_ok.mpr ⟨second, hsecond, hconfig'⟩
  have hoptions : optionsOf sampleCrates.json [.thinking .disabled, .maxOutputTokens 512] =
      optionsOf sampleCrates.json
        [.maxOutputTokens 9, .thinking .disabled, .maxOutputTokens 512] := rfl
  have hd' := build_described h'
  rw [← hoptions] at hd'
  have hcommits : CommitsProfile sampleSpell config config' :=
    commitsProfile_of_options (build_described h) hd'
  obtain ⟨hsame, hdigest⟩ := profile_digest_commits sampleCrates sampleSpell sample_exactIntegers
    sample_readsNumbers _ _ _ _ _ _ _ _ _ _ config config' h h'
  have hequal := hdigest rfl rfl hoptions
  exact ⟨config, config', h, h', hequal, hsame hcommits hequal⟩

end Xgeny
