import Xgeny.Provider.Config
import Xgeny.Workspace.Catalog

set_option autoImplicit false

/-!
# Sequences of builder calls

A configuration is the constructor and the calls that succeeded on it. It is determined by the values
of its options, whatever the calls that set them.

* `BuilderCall`, `build`: a call, and the constructor followed by calls;
* `ProfileOptions`, `optionsOf`: the options, and what a sequence of calls sets them to;
* `Described`: a configuration as its options describe it;
* **`build_described`**: every configuration that is built is described by its options.
-/

namespace Xgeny

/-- A call of a builder. -/
inductive BuilderCall where
  | responseFormat (responseFormat : ResponseFormat)
  | artifactSchema (encoded : String)
  | thinking (thinking : ThinkingMode)
  | maxOutputTokens (maxOutputTokens : ℕ)
  | timeout (timeout : Duration)
  | planningConstraintsRequired

/-- The options of a configuration. -/
structure ProfileOptions where
  responseFormat : ResponseFormat
  artifactSchema : Option Json
  thinking : ThinkingMode
  maxOutputTokens : ℕ
  timeout : Duration
  planningConstraintsRequired : Bool

namespace ProfileOptions

/-- The options of the constructor. -/
def initial : ProfileOptions where
  responseFormat := .jsonSchema
  artifactSchema := none
  thinking := .default
  maxOutputTokens := 4096
  timeout := .fromSecs 120
  planningConstraintsRequired := false

/-- The schema that is sent. -/
def proposalSchema (self : ProfileOptions) : Json :=
  match self.responseFormat with
  | .jsonSchemaAtomicJson => atomicJsonProposalSchemaOf (self.artifactSchema.getD anyObjectSchema)
  | .jsonSchema | .jsonObject => Xgeny.proposalSchema

end ProfileOptions

namespace BuilderCall

/-- The builder. -/
def apply {lib : ProviderCrates} (config : OpenAiPlannerConfig lib) :
    BuilderCall → Outcome OpenAiPlannerConfigError (OpenAiPlannerConfig lib)
  | .responseFormat format => config.withResponseFormat format
  | .artifactSchema encoded => config.withArtifactSchema encoded
  | .thinking mode => config.withThinking mode
  | .maxOutputTokens tokens => config.withMaxOutputTokens tokens
  | .timeout deadline => config.withTimeout deadline
  | .planningConstraintsRequired => config.withPlanningConstraintsRequired

/-- What a successful call sets. -/
def set (S : SerdeJson) (options : ProfileOptions) : BuilderCall → ProfileOptions
  | .responseFormat format => { options with responseFormat := format }
  | .artifactSchema encoded =>
    { options with artifactSchema := (parseUniqueJson S (bytes encoded) 32).value? }
  | .thinking mode => { options with thinking := mode }
  | .maxOutputTokens tokens => { options with maxOutputTokens := tokens }
  | .timeout deadline => { options with timeout := deadline }
  | .planningConstraintsRequired => { options with planningConstraintsRequired := true }

end BuilderCall

/-- The constructor and the calls after it. -/
def OpenAiPlannerConfig.build (lib : ProviderCrates) (baseUrl plannerId model tokenizer : String)
    (calls : List BuilderCall) : Outcome OpenAiPlannerConfigError (OpenAiPlannerConfig lib) := do
  let config ← OpenAiPlannerConfig.new lib baseUrl plannerId model tokenizer
  Outcome.foldl BuilderCall.apply config calls

/-- The options after a sequence of calls. -/
def optionsOf (S : SerdeJson) (calls : List BuilderCall) : ProfileOptions :=
  calls.foldl (BuilderCall.set S) .initial

/-! ## What describes a configuration -/

/-- A schema that was attached. -/
structure AttachedSchema (lib : ProviderCrates) (schema : Json) (validator : Json → Bool) :
    Prop where
  build : lib.jsonschema.build schema = some validator
  object : schema.get? "type" = some (.string "object")
  isLocal : localArtifactSchema schema = true

/-- A configuration as its options describe it. -/
structure Described {lib : ProviderCrates} (model tokenizer : String) (options : ProfileOptions)
    (config : OpenAiPlannerConfig lib) : Prop where
  model : config.model = model
  tokenizer : config.tokenizer = tokenizer
  maxOutputTokens : config.maxOutputTokens = options.maxOutputTokens
  timeout : config.timeout = options.timeout
  maxRequestBytes : config.maxRequestBytes = 1024 * 1024
  maxResponseBytes : config.maxResponseBytes = 512 * 1024
  maxProposalBytes : config.maxProposalBytes = 256 * 1024
  maxJsonDepth : config.maxJsonDepth = 64
  proposalSchema : config.proposalSchema = options.proposalSchema
  artifactValidator : match options.artifactSchema with
    | none => config.artifactValidator = none
    | some schema => options.responseFormat = .jsonSchemaAtomicJson ∧
        ∃ validator, AttachedSchema lib schema validator ∧ config.artifactValidator = some validator
  responseFormat : config.responseFormat = options.responseFormat
  thinking : config.thinking = options.thinking
  planningConstraintsRequired :
    config.planningConstraintsRequired = options.planningConstraintsRequired
  tokens : 0 < options.maxOutputTokens ∧ options.maxOutputTokens ≤ maxOutputTokensLimit
  deadline : 0 < options.timeout.nanos ∧ options.timeout.asSecs ≤ maxTimeoutSeconds
  fresh : config.refreshProfileDigest = .ok config

section

variable {lib : ProviderCrates} {model tokenizer : String} {options : ProfileOptions}
  {config config' : OpenAiPlannerConfig lib}

theorem refresh_eq_ok (h : config.refreshProfileDigest = .ok config') :
    config' = { config with requestProfileDigest := config'.requestProfileDigest } ∧
      config'.refreshProfileDigest = .ok config' := by
  have hrefresh := h
  simp only [OpenAiPlannerConfig.refreshProfileDigest, Outcome.bind_eq_ok, Outcome.okOr_eq_ok,
    Outcome.pure_eq_ok] at h
  obtain ⟨schema, hschema, canonical, hcanonical, rfl⟩ := h
  refine ⟨rfl, ?_⟩
  simp only [OpenAiPlannerConfig.refreshProfileDigest, Outcome.bind_eq_ok, Outcome.okOr_eq_ok,
    Outcome.pure_eq_ok]
  exact ⟨schema, hschema, canonical, hcanonical, rfl⟩

theorem assign_jsonContent (jsonContent schema : Json) :
    (atomicJsonProposalSchemaOf jsonContent).assign ["properties", "steps", "items", "properties",
      "arguments", "properties", "jsonContent"] schema = atomicJsonProposalSchemaOf schema := by
  rfl

/-! ### Every call keeps the description -/

theorem Described.new {baseUrl plannerId : String}
    (h : OpenAiPlannerConfig.new lib baseUrl plannerId model tokenizer = .ok config) :
    Described model tokenizer .initial config := by
  simp only [OpenAiPlannerConfig.new, Outcome.bind_eq_ok] at h
  obtain ⟨endpoints, -, _, -, _, -, _, -, hrefresh⟩ := h
  obtain ⟨hfields, hfresh⟩ := refresh_eq_ok hrefresh
  rw [hfields]
  exact
    { model := rfl
      tokenizer := rfl
      maxOutputTokens := rfl
      timeout := rfl
      maxRequestBytes := rfl
      maxResponseBytes := rfl
      maxProposalBytes := rfl
      maxJsonDepth := rfl
      proposalSchema := rfl
      artifactValidator := rfl
      responseFormat := rfl
      thinking := rfl
      planningConstraintsRequired := rfl
      tokens := by decide
      deadline := by decide
      fresh := by rw [← hfields]; exact hfresh }

theorem Described.withResponseFormat {format : ResponseFormat}
    (hd : Described model tokenizer options config)
    (h : config.withResponseFormat format = .ok config') :
    Described model tokenizer { options with responseFormat := format } config' := by
  simp only [OpenAiPlannerConfig.withResponseFormat, Outcome.bind_eq_ok, Outcome.exists_unit,
    Outcome.failIf_eq_ok, Bool.not_eq_true, Option.isSome_eq_false_iff, Option.isNone_iff_eq_none]
    at h
  obtain ⟨hvalidator, hrefresh⟩ := h
  obtain ⟨hfields, hfresh⟩ := refresh_eq_ok hrefresh
  have hnone : options.artifactSchema = none := by
    have hschema := hd.artifactValidator
    cases hartifact : options.artifactSchema with
    | none => rfl
    | some schema =>
      rw [hartifact] at hschema
      obtain ⟨-, validator, -, hsome⟩ := hschema
      rw [hsome] at hvalidator
      exact absurd hvalidator (by simp)
  rw [hfields]
  exact
    { hd with
      proposalSchema := by
        unfold ProfileOptions.proposalSchema
        rw [hnone]
        cases format <;> rfl
      artifactValidator := by
        rw [hnone]
        exact hvalidator
      responseFormat := rfl
      fresh := by rw [← hfields]; exact hfresh }

theorem Described.withArtifactSchema {encoded : String}
    (hd : Described model tokenizer options config)
    (h : config.withArtifactSchema encoded = .ok config') :
    Described model tokenizer { options with
      artifactSchema := (parseUniqueJson lib.json (bytes encoded) 32).value? } config' := by
  simp only [OpenAiPlannerConfig.withArtifactSchema, Outcome.bind_eq_ok, Outcome.exists_unit,
    Outcome.failIf_eq_ok, Outcome.mapErr_eq_ok, Outcome.okOr_eq_ok, not_or, not_not,
    Bool.not_eq_false] at h
  obtain ⟨⟨hformat, -⟩, schema, hparse, ⟨hobject, hlocal⟩, -, validator, hbuild, hrefresh⟩ := h
  obtain ⟨hfields, hfresh⟩ := refresh_eq_ok hrefresh
  have hoptions : options.responseFormat = .jsonSchemaAtomicJson := by
    rw [← hd.responseFormat, hformat]
  have hvalue : (parseUniqueJson lib.json (bytes encoded) 32).value? = some schema :=
    Outcome.value?_eq_some.mpr hparse
  rw [hfields]
  exact
    { hd with
      proposalSchema := by
        have hschema := hd.proposalSchema
        unfold ProfileOptions.proposalSchema at hschema ⊢
        rw [hoptions] at hschema ⊢
        rw [hvalue]
        dsimp only at hschema ⊢
        rw [hschema, assign_jsonContent]
        rfl
      artifactValidator := by
        rw [hvalue]
        exact ⟨hoptions, validator, ⟨hbuild, hobject, hlocal⟩, rfl⟩
      fresh := by rw [← hfields]; exact hfresh }

theorem Described.withThinking {mode : ThinkingMode}
    (hd : Described model tokenizer options config) (h : config.withThinking mode = .ok config') :
    Described model tokenizer { options with thinking := mode } config' := by
  obtain ⟨hfields, hfresh⟩ := refresh_eq_ok h
  rw [hfields]
  exact { hd with
    thinking := rfl
    fresh := by rw [← hfields]; exact hfresh }

theorem Described.withMaxOutputTokens {tokens : ℕ}
    (hd : Described model tokenizer options config)
    (h : config.withMaxOutputTokens tokens = .ok config') :
    Described model tokenizer { options with maxOutputTokens := tokens } config' := by
  simp only [OpenAiPlannerConfig.withMaxOutputTokens, Outcome.bind_eq_ok, Outcome.exists_unit,
    Outcome.failIf_eq_ok, not_or, not_lt] at h
  obtain ⟨⟨hzero, hlimit⟩, hrefresh⟩ := h
  obtain ⟨hfields, hfresh⟩ := refresh_eq_ok hrefresh
  rw [hfields]
  exact { hd with
    maxOutputTokens := rfl
    tokens := ⟨Nat.pos_of_ne_zero hzero, hlimit⟩
    fresh := by rw [← hfields]; exact hfresh }

theorem Described.withTimeout {deadline : Duration}
    (hd : Described model tokenizer options config)
    (h : config.withTimeout deadline = .ok config') :
    Described model tokenizer { options with timeout := deadline } config' := by
  simp only [OpenAiPlannerConfig.withTimeout, Outcome.bind_eq_ok, Outcome.exists_unit,
    Outcome.failIf_eq_ok, not_or, not_lt] at h
  obtain ⟨⟨hzero, hlimit⟩, hrefresh⟩ := h
  obtain ⟨hfields, hfresh⟩ := refresh_eq_ok hrefresh
  rw [hfields]
  exact { hd with
    timeout := rfl
    deadline := ⟨Nat.pos_of_ne_zero hzero, by
      have hnanos : deadline.nanos ≤ maxTimeoutSeconds * 1000000000 := hlimit
      show deadline.nanos / 1000000000 ≤ maxTimeoutSeconds
      omega⟩
    fresh := by rw [← hfields]; exact hfresh }

theorem Described.withPlanningConstraintsRequired
    (hd : Described model tokenizer options config)
    (h : config.withPlanningConstraintsRequired = .ok config') :
    Described model tokenizer { options with planningConstraintsRequired := true } config' := by
  obtain ⟨hfields, hfresh⟩ := refresh_eq_ok h
  rw [hfields]
  exact { hd with
    planningConstraintsRequired := rfl
    fresh := by rw [← hfields]; exact hfresh }

theorem Described.apply {call : BuilderCall} (hd : Described model tokenizer options config)
    (h : call.apply config = .ok config') :
    Described model tokenizer (call.set lib.json options) config' := by
  cases call with
  | responseFormat format => exact hd.withResponseFormat h
  | artifactSchema encoded => exact hd.withArtifactSchema h
  | thinking mode => exact hd.withThinking h
  | maxOutputTokens tokens => exact hd.withMaxOutputTokens h
  | timeout deadline => exact hd.withTimeout h
  | planningConstraintsRequired => exact hd.withPlanningConstraintsRequired h

theorem Described.run {calls : List BuilderCall} (hd : Described model tokenizer options config)
    (h : Outcome.foldl BuilderCall.apply config calls = .ok config') :
    Described model tokenizer (calls.foldl (BuilderCall.set lib.json) options) config' := by
  induction calls generalizing config options with
  | nil =>
    obtain rfl := Except.ok.inj h
    exact hd
  | cons call calls ih =>
    obtain ⟨next, hnext, hrest⟩ := Outcome.bind_eq_ok.mp h
    exact ih (hd.apply hnext) hrest

/-- **What is built is described by its options.** -/
theorem build_described {baseUrl plannerId : String} {calls : List BuilderCall}
    (h : OpenAiPlannerConfig.build lib baseUrl plannerId model tokenizer calls = .ok config) :
    Described model tokenizer (optionsOf lib.json calls) config := by
  obtain ⟨first, hnew, hcalls⟩ := Outcome.bind_eq_ok.mp h
  exact (Described.new hnew).run hcalls

end

/-! ## Sample crates -/

mutual

/-- The members of every object in key order. -/
def Json.sortKeys : Json → Json
  | .array values => .array (sortValues values)
  | .object members =>
    .object ((sortMembers members).insertionSort fun left right => left.1 ≤ right.1)
  | value => value

def sortValues : List Json → List Json
  | [] => []
  | value :: rest => value.sortKeys :: sortValues rest

def sortMembers : List (String × Json) → List (String × Json)
  | [] => []
  | (key, value) :: rest => (key, value.sortKeys) :: sortMembers rest

end

/-- Integers in decimal. -/
def sampleSpell : JsonNumber → String
  | .posInt n => toString n.toNat
  | .negInt n => toString n
  | .float _ => "0.5"

/-- Two endpoints. -/
def sampleUrls : UrlLibrary where
  Url := String
  parse s := if s = "https://models.example/v1" ∨ s = "http://127.0.0.1:9988/v1" then some s else none
  scheme url := if url = "https://models.example/v1" then "https" else "http"
  hostStr url := if url = "https://models.example/v1" then some "models.example" else some "127.0.0.1"
  username _ := ""
  password _ := none
  query _ := none
  fragment _ := none
  path _ := "/v1"
  setPath url path := (if url = "https://models.example/v1" then "https://models.example"
    else "http://127.0.0.1:9988") ++ path

/-- Crates that know these endpoints, the numbers of one digit and the schema of any object. -/
def sampleCrates : ProviderCrates where
  url := sampleUrls
  json := .reader digitNumber
  spell := sampleSpell
  jcs value := some (value.sortKeys.write sampleSpell)
  sha256 _ := zeroHash
  jsonschema := { metaValid := fun _ => true, build := fun _ => some Json.isObject }

theorem sample_documented : sampleCrates.json.Documented :=
  SerdeJson.reader_documented digitNumber_finite

theorem sample_refresh (config : OpenAiPlannerConfig sampleCrates) :
    config.refreshProfileDigest =
      .ok { config with requestProfileDigest := sha256Digest zeroHash } := rfl

theorem sample_endpoints : (∃ endpoints, apiEndpoints sampleUrls "https://models.example/v1" =
    .ok endpoints) ∧ ∃ endpoints, apiEndpoints sampleUrls "http://127.0.0.1:9988/v1" =
      .ok endpoints :=
  ⟨⟨("https://models.example/v1/chat/completions", "https://models.example/v1/models"), by cbv⟩,
    ⟨("http://127.0.0.1:9988/v1/chat/completions", "http://127.0.0.1:9988/v1/models"), by cbv⟩⟩

theorem sample_new {baseUrl : String}
    (h : ∃ endpoints, apiEndpoints sampleUrls baseUrl = .ok endpoints) :
    ∃ config, OpenAiPlannerConfig.new sampleCrates baseUrl "planner" "m" "t" = .ok config := by
  obtain ⟨endpoints, hendpoints⟩ := h
  have hurls : apiEndpoints sampleCrates.url baseUrl = .ok endpoints := hendpoints
  unfold OpenAiPlannerConfig.new
  rw [hurls]
  exact ⟨_, rfl⟩

end Xgeny
