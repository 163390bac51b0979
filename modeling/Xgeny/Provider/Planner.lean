import Xgeny.Provider.Config

set_option autoImplicit false

/-!
# One call of the planner

The adapter prints a prompt, sends one request and decodes the answer. The answer is a document whose
content is again a document, the proposal. In the atomic dialect the arguments of a step carry a JSON
object, which is printed into the string that the capability takes. A schema of the artifact is
checked in a second pass over the same body.

* `StructShape`, `structFields`: how a derived deserializer finds the fields of a record;
* `ChatCompletionResponse`, `ProposalDocument`: the two documents;
* `decodeAtomicJsonArguments`, `decodeChatResponseWithCodec`: the first pass;
* `validateArtifactResponse`: the second pass;
* `OpenAiPlannerConfig.plan`: the call.
-/

namespace Xgeny

/-! ## Derived deserializers -/

/-- The fields of a record in their order, of which the later ones may have defaults. -/
structure StructShape where
  names : List String
  required : ℕ
  denyUnknown : Bool

/-- A record is an object with its fields or an array of their values. -/
def structFields (shape : StructShape) : Json → Option (String → Option Json)
  | .object members =>
    if shape.denyUnknown ∧ ¬ members.all fun member => decide (member.1 ∈ shape.names) then none
    else some fun name => members.lookup name
  | .array values =>
    if shape.required ≤ values.length ∧ values.length ≤ shape.names.length then
      some fun name => values[shape.names.idxOf name]?
    else none
  | _ => none

namespace Json

def asString : Json → Option String
  | .string s => some s
  | _ => none

/-- `u32`. -/
def asU32 : Json → Option ℕ
  | .number (.posInt n) => if n.toNat < 2 ^ 32 then some n.toNat else none
  | _ => none

def asVec {α : Type} (f : Json → Option α) : Json → Option (List α)
  | .array values => values.mapM f
  | _ => none

/-- An optional field: null and a missing field are no value. -/
def asOption {α : Type} (f : Json → Option α) : Option Json → Option (Option α)
  | none | some .null => some none
  | some value => (f value).map some

/-- The variant of an enumeration without data: its name, or a map from its name to null. -/
def asVariant : Json → Option String
  | .string name => some name
  | .object [(name, .null)] => some name
  | _ => none

end Json

/-! ## The documents of an answer -/

structure AssistantMessage where
  role : String
  content : Option String
  refusal : Option Json
  toolCalls : Option Json
  functionCall : Option Json

structure ChatChoice where
  index : ℕ
  message : AssistantMessage
  finishReason : String

structure ChatCompletionResponse where
  model : String
  choices : List ChatChoice

inductive ProposalKind where
  | plan
  | completionCandidate
  deriving DecidableEq

inductive DependencyKind where
  | existingStep
  | proposedStep
  deriving DecidableEq

structure DependencyDocument where
  kind : DependencyKind
  stepId : String
  key : String

structure ProposalStepDocument where
  key : String
  objective : String
  dependsOn : List DependencyDocument
  capability : CapabilityRef
  arguments : Json

structure ProposalDocument where
  formatVersion : ℕ
  kind : ProposalKind
  steps : List ProposalStepDocument
  summary : String

def AssistantMessage.fromValue (value : Json) : Option AssistantMessage := do
  let field ← structFields
    ⟨["role", "content", "refusal", "tool_calls", "function_call"], 2, false⟩ value
  let role ← (field "role").bind Json.asString
  let content ← Json.asOption Json.asString (field "content")
  let refusal ← Json.asOption some (field "refusal")
  let toolCalls ← Json.asOption some (field "tool_calls")
  let functionCall ← Json.asOption some (field "function_call")
  some { role, content, refusal, toolCalls, functionCall }

def ChatChoice.fromValue (value : Json) : Option ChatChoice := do
  let field ← structFields ⟨["index", "message", "finish_reason"], 3, false⟩ value
  let index ← (field "index").bind Json.asU32
  let message ← (field "message").bind AssistantMessage.fromValue
  let finishReason ← (field "finish_reason").bind Json.asString
  some { index, message, finishReason }

def ChatCompletionResponse.fromValue (value : Json) : Option ChatCompletionResponse := do
  let field ← structFields ⟨["model", "choices"], 2, false⟩ value
  let model ← (field "model").bind Json.asString
  let choices ← (field "choices").bind (Json.asVec ChatChoice.fromValue)
  some { model, choices }

def ProposalKind.fromValue (value : Json) : Option ProposalKind :=
  match value.asVariant with
  | some "plan" => some .plan
  | some "completion_candidate" => some .completionCandidate
  | _ => none

def DependencyKind.fromValue (value : Json) : Option DependencyKind :=
  match value.asVariant with
  | some "existing_step" => some .existingStep
  | some "proposed_step" => some .proposedStep
  | _ => none

def DependencyDocument.fromValue (value : Json) : Option DependencyDocument := do
  let field ← structFields ⟨["kind", "stepId", "key"], 3, true⟩ value
  let kind ← (field "kind").bind DependencyKind.fromValue
  let stepId ← (field "stepId").bind Json.asString
  let key ← (field "key").bind Json.asString
  some { kind, stepId, key }

def CapabilityRef.fromValue (value : Json) : Option CapabilityRef := do
  let field ← structFields ⟨["capabilityId", "contractVersion"], 2, true⟩ value
  let capabilityId ← (field "capabilityId").bind Json.asString
  let contractVersion ← (field "contractVersion").bind Json.asString
  some { capabilityId, contractVersion }

def ProposalStepDocument.fromValue (value : Json) : Option ProposalStepDocument := do
  let field ← structFields ⟨["key", "objective", "dependsOn", "capability", "arguments"], 5, true⟩
    value
  let key ← (field "key").bind Json.asString
  let objective ← (field "objective").bind Json.asString
  let dependsOn ← (field "dependsOn").bind (Json.asVec DependencyDocument.fromValue)
  let capability ← (field "capability").bind CapabilityRef.fromValue
  let arguments ← field "arguments"
  some { key, objective, dependsOn, capability, arguments }

def ProposalDocument.fromValue (value : Json) : Option ProposalDocument := do
  let field ← structFields ⟨["formatVersion", "kind", "steps", "summary"], 4, true⟩ value
  let formatVersion ← (field "formatVersion").bind Json.asU32
  let kind ← (field "kind").bind ProposalKind.fromValue
  let steps ← (field "steps").bind (Json.asVec ProposalStepDocument.fromValue)
  let summary ← (field "summary").bind Json.asString
  some { formatVersion, kind, steps, summary }

/-! ## The first pass -/

/-- `decode_dependency`. -/
def decodeDependency (dependency : DependencyDocument) :
    Outcome PlannerPortFailure PlanDependency :=
  match dependency.kind with
  | .existingStep =>
    if dependency.stepId ≠ "" ∧ dependency.key = "" then pure (.existingStep dependency.stepId)
    else Outcome.fail .invalidResponse
  | .proposedStep =>
    if dependency.stepId = "" ∧ dependency.key ≠ "" then pure (.proposedStep dependency.key)
    else Outcome.fail .invalidResponse

/-- The capability of the atomic dialect. -/
def writeAtomicCapability : CapabilityRef := ⟨"xgeny.fs/write-atomic", "1.0.0"⟩

/-- `decode_atomic_json_arguments`. -/
def decodeAtomicJsonArguments (spell : JsonNumber → String) (capability : CapabilityRef)
    (value : Json) : Outcome PlannerPortFailure Json := do
  Outcome.failIf (capability.toJson ≠ writeAtomicCapability.toJson) .invalidResponse
  match value with
  | .object args => do
    Outcome.failIf (args.length ≠ 3 ∨ ¬ (args.lookup "path").any Json.isString ∨
      ¬ (args.lookup "expectedDigest").any (fun v => decide (v = .null) || v.isString) ∨
      ¬ (args.lookup "jsonContent").any Json.isObject) .invalidResponse
    let object ← Outcome.okOr (args.lookup "jsonContent") .invalidResponse
    let args := args.filter fun member => member.1 ≠ "jsonContent"
    pure (.object (Json.modifyMember "content" (fun _ => .string (object.write spell)) args))
  | _ => Outcome.fail .invalidResponse

/-- The arguments of a step, where the dialect has its own. -/
def decodeArguments (spell : JsonNumber → String) (atomicJson : Bool)
    (step : ProposalStepDocument) : Outcome PlannerPortFailure Json :=
  if atomicJson then decodeAtomicJsonArguments spell step.capability step.arguments
  else pure step.arguments

/-- One step of a plan. -/
def decodeStep (spell : JsonNumber → String) (atomicJson : Bool) (step : ProposalStepDocument) :
    Outcome PlannerPortFailure ProposedPlanStep := do
  let arguments ← decodeArguments spell atomicJson step
  let dependsOn ← step.dependsOn.mapM decodeDependency
  pure { key := step.key, objective := step.objective, dependsOn, capability := step.capability,
         arguments }

/-- The envelope of an answer. -/
def parseEnvelope (S : SerdeJson) (body : List UInt8) (maxJsonDepth : ℕ) :
    Outcome PlannerPortFailure ChatCompletionResponse := do
  let envelope ← parseUniqueJson S body maxJsonDepth
  Outcome.okOr (ChatCompletionResponse.fromValue envelope) .invalidResponse

/-- The proposal in the content of an answer. -/
def parseProposal (S : SerdeJson) (content : String) (maxJsonDepth : ℕ) :
    Outcome PlannerPortFailure ProposalDocument := do
  let proposal ← parseUniqueJson S (bytes content) maxJsonDepth
  Outcome.okOr (ProposalDocument.fromValue proposal) .invalidResponse

/-- The only choice of an answer. -/
def onlyChoice (response : ChatCompletionResponse) : Outcome PlannerPortFailure ChatChoice :=
  match response.choices with
  | [choice] => pure choice
  | _ => Outcome.fail .invalidResponse

/-- The content of a choice, within its bound. -/
def boundedContent (choice : ChatChoice) (maxProposalBytes : ℕ) :
    Outcome PlannerPortFailure String := do
  let content ← Outcome.okOr choice.message.content .invalidResponse
  Outcome.failIf (maxProposalBytes < byteLen content) .invalidResponse
  pure content

/-- What a proposal means to the runtime. -/
def decodeProposal (spell : JsonNumber → String) (atomicJson : Bool)
    (proposal : ProposalDocument) : Outcome PlannerPortFailure PlanProposal := do
  Outcome.failIf (proposal.formatVersion ≠ 1) .invalidResponse
  match proposal.kind with
  | .plan => do
    Outcome.failIf (proposal.summary ≠ "") .invalidResponse
    let steps ← proposal.steps.mapM (decodeStep spell atomicJson)
    pure (.plan steps)
  | .completionCandidate => do
    Outcome.failIf (proposal.steps.isEmpty = false ∨ proposal.summary = "") .invalidResponse
    pure (.completionCandidate proposal.summary)

/-- `decode_chat_response_with_codec`. -/
def decodeChatResponseWithCodec (S : SerdeJson) (spell : JsonNumber → String) (body : List UInt8)
    (expectedModel : String) (maxProposalBytes maxJsonDepth : ℕ) (atomicJson : Bool) :
    Outcome PlannerPortFailure PlanProposal := do
  let response ← parseEnvelope S body maxJsonDepth
  Outcome.failIf (response.model ≠ expectedModel) .invalidResponse
  let choice ← onlyChoice response
  Outcome.failIf (choice.index ≠ 0 ∨ choice.message.role ≠ "assistant") .invalidResponse
  Outcome.failIf (choice.finishReason = "length") .outputTruncated
  Outcome.failIf (choice.finishReason ≠ "stop" ∨ choice.message.refusal ≠ none ∨
    choice.message.toolCalls ≠ none ∨ choice.message.functionCall ≠ none) .invalidResponse
  let content ← boundedContent choice maxProposalBytes
  let proposal ← parseProposal S content maxJsonDepth
  decodeProposal spell atomicJson proposal

/-! ## The second pass -/

/-- The content of a step is an artifact that the validator accepts. -/
def artifactAccepted (validator : Json → Bool) (step : ProposalStepDocument) : Bool :=
  (step.arguments.get? "jsonContent").any validator

/-- `validate_artifact_response`. -/
def validateArtifactResponse (S : SerdeJson) (body : List UInt8) (maxProposalBytes maxJsonDepth : ℕ)
    (validator : Json → Bool) : Outcome PlannerPortFailure Unit := do
  let response ← parseEnvelope S body maxJsonDepth
  let choice ← onlyChoice response
  Outcome.failIf (choice.finishReason = "length") .outputTruncated
  let content ← boundedContent choice maxProposalBytes
  let proposal ← parseProposal S content maxJsonDepth
  Outcome.forEach proposal.steps fun step =>
    Outcome.failIf (artifactAccepted validator step = false) .invalidResponse

/-! ## The call -/

namespace OpenAiPlannerConfig

variable {lib : ProviderCrates} (self : OpenAiPlannerConfig lib)

/-- Both passes over the body of an answer. -/
def decodeResponse (response : List UInt8) : Outcome PlannerPortFailure PlanProposal := do
  let proposal ← decodeChatResponseWithCodec lib.json lib.spell response self.model
    self.maxProposalBytes self.maxJsonDepth (decide (self.responseFormat = .jsonSchemaAtomicJson))
  Outcome.whenSome self.artifactValidator fun validator =>
    validateArtifactResponse lib.json response self.maxProposalBytes self.maxJsonDepth validator
  pure proposal

/-- `PlannerPrompt`, around the printed context. -/
def plannerPrompt (callId requestDigest context : String) : String :=
  "\x7b\"profileVersion\":\"xgeny.planner-request/v2\",\"planningContext\":" ++ context ++
    ",\"callId\":" ++ quoted callId ++ ",\"requestDigest\":" ++ quoted requestDigest ++ "\x7d"

/-- The body of a request, for the printed context. -/
def requestBody (callId requestDigest context : String) : String :=
  (self.chatRequest self.systemPrompt (plannerPrompt callId requestDigest context)).write lib.spell

/-- The request up to the transport: the checks, the body and its size. `print` is how a context is
printed. -/
def prepare (print : PlanningContext → Option String) (request : PlannerCallRequest) :
    Outcome PlannerPortFailure String := do
  Outcome.failIf (request.context.payload.profileVersion ≠ planningContextProfileV3) .providerLimit
  Outcome.failIf (request.context.payload.planningConstraints.isEmpty =
    self.planningConstraintsRequired) .providerLimit
  let context ← Outcome.okOr (print request.context) .providerLimit
  let body := self.requestBody request.callId request.requestDigest context
  Outcome.failIf (self.maxRequestBytes < byteLen body) .requestTooLarge
  pure body

/-- `plan`, where `send` is the transport. -/
def plan (print : PlanningContext → Option String)
    (send : String → Outcome PlannerPortFailure (List UInt8)) (request : PlannerCallRequest) :
    Outcome PlannerPortFailure PlanProposal := do
  let body ← self.prepare print request
  let response ← send body
  self.decodeResponse response

end OpenAiPlannerConfig

end Xgeny
