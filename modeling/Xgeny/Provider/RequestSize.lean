import Xgeny.Provider.Builders
import Xgeny.Provider.Planner

set_option autoImplicit false

/-!
# The size of a request

A planning context is printed as JSON, and its print stands in a string of the request, where every
quote and every backslash of it takes one more byte. Around it stand the prompts, the schema and the
names of the call.

* `escapeGrowth`: what a text gains in a string; **`byteLen_quoted_eq`**: the size of the string;
* `escapedChars`: the quotes and backslashes; **`visible_write`**: a printed value gains these alone;
* `PlanningContext.text`: a context as it is serialized, with the members as they are declared;
* `requestOverhead`: the request without its context; **`byteLen_requestBody`**: with it;
* **`Described.requestOverhead_le`**: a bound for every configuration without a schema of its own.
-/

namespace Xgeny

/-! ## Strings -/

/-- The bytes that a text gains where it stands in a string. -/
def escapeGrowth (s : String) : ℕ :=
  (s.toList.map fun c => byteLen (escapeChar c) - c.utf8Size).sum

theorem byteLen_singleton (c : Char) : byteLen (String.singleton c) = c.utf8Size :=
  String.utf8ByteSize_singleton

theorem byteLen_eq_sum (s : String) : byteLen s = (s.toList.map Char.utf8Size).sum := by
  rw [← byteLen_ofList, String.ofList_toList]

theorem utf8Size_of_control {c : Char} (h : c.toNat < 0x20) : c.utf8Size = 1 := by
  have hval : c.val.toNat = c.toNat := rfl
  rw [Char.utf8Size_eq_one_iff, UInt32.le_iff_toNat_le, hval]
  exact Nat.le_trans (Nat.le_of_lt h) (by decide)

theorem utf8Size_le_escapeChar (c : Char) : c.utf8Size ≤ byteLen (escapeChar c) := by
  unfold escapeChar
  split_ifs with h1 h2 h3 h4 h5 h6 h7 h8
  · subst h1
    decide
  · subst h2
    decide
  · subst h3
    decide
  · subst h4
    decide
  · subst h5
    decide
  · subst h6
    decide
  · subst h7
    decide
  · rw [utf8Size_of_control h8, byteLen_append, byteLen_append]
    have hstart : byteLen "\\u00" = 4 := rfl
    omega
  · exact le_of_eq (byteLen_singleton c).symm

theorem byteLen_escapeChars (cs : List Char) : byteLen (escapeChars cs) =
    (cs.map Char.utf8Size).sum + (cs.map fun c => byteLen (escapeChar c) - c.utf8Size).sum := by
  induction cs with
  | nil => rfl
  | cons c cs ih =>
    have hle := utf8Size_le_escapeChar c
    rw [escapeChars, byteLen_append, ih, List.map_cons, List.map_cons, List.sum_cons, List.sum_cons]
    omega

/-- **The size of a string**: its text, what the text gains, and two quotes. -/
theorem byteLen_quoted_eq (s : String) : byteLen (quoted s) = byteLen s + escapeGrowth s + 2 := by
  have hquote : byteLen "\"" = 1 := rfl
  rw [quoted, byteLen_append, byteLen_append, byteLen_escapeChars, byteLen_eq_sum s, escapeGrowth]
  omega

theorem escapeGrowth_append (a b : String) :
    escapeGrowth (a ++ b) = escapeGrowth a + escapeGrowth b := by
  rw [escapeGrowth, String.toList_append, List.map_append, List.sum_append]
  rfl

theorem byteLen_escapeChar_le (c : Char) : byteLen (escapeChar c) ≤ 6 * c.utf8Size := by
  have hpos := c.utf8Size_pos
  have hsix : byteLen (escapeChar c) ≤ 6 ∨ escapeChar c = String.singleton c := by
    unfold escapeChar
    split_ifs
    · exact .inl (by decide)
    · exact .inl (by decide)
    · exact .inl (by decide)
    · exact .inl (by decide)
    · exact .inl (by decide)
    · exact .inl (by decide)
    · exact .inl (by decide)
    · refine .inl ?_
      have hdigit : ∀ n < 16, (hexDigit n).utf8Size = 1 := by decide
      have hstart : byteLen "\\u00" = 4 := rfl
      rw [byteLen_append, byteLen_append, byteLen_singleton, byteLen_singleton,
        hdigit _ (by omega), hdigit _ (by omega)]
      omega
    · exact .inr rfl
  rcases hsix with hsix | hsix
  · omega
  · rw [hsix, byteLen_singleton]
    omega

theorem byteLen_quoted_le (s : String) : byteLen (quoted s) ≤ 6 * byteLen s + 2 := by
  have hchars : ∀ cs : List Char,
      byteLen (escapeChars cs) ≤ 6 * (cs.map Char.utf8Size).sum := by
    intro cs
    induction cs with
    | nil => exact Nat.zero_le _
    | cons c cs ih =>
      have hc := byteLen_escapeChar_le c
      rw [escapeChars, byteLen_append, List.map_cons, List.sum_cons]
      omega
  have hquote : byteLen "\"" = 1 := rfl
  have htext := hchars s.toList
  rw [← byteLen_eq_sum] at htext
  rw [quoted, byteLen_append, byteLen_append]
  omega

/-- The quotes and backslashes of a text. -/
def escapedChars (s : String) : ℕ := s.toList.countP fun c => decide (c = '"' ∨ c = '\\')

/-- A text without control characters. -/
def Visible (s : String) : Prop := ∀ c ∈ s.toList, 0x20 ≤ c.toNat

instance (s : String) : Decidable (Visible s) :=
  List.decidableBAll (fun c : Char => 0x20 ≤ c.toNat) s.toList

theorem Visible.escapeGrowth_eq {s : String} (h : Visible s) : escapeGrowth s = escapedChars s := by
  unfold Visible at h
  unfold escapeGrowth escapedChars
  generalize s.toList = cs at h
  induction cs with
  | nil => rfl
  | cons c cs ih =>
    rw [List.map_cons, List.sum_cons, ih fun d hd => h d (List.mem_cons_of_mem _ hd),
      List.countP_cons]
    have hc := h c List.mem_cons_self
    have hne : ∀ d : Char, d.toNat < 0x20 → c ≠ d := by
      rintro d hd rfl
      omega
    by_cases hquote : c = '"'
    · subst hquote
      rw [if_pos (by decide), Nat.add_comm]
      rfl
    · by_cases hbackslash : c = '\\'
      · subst hbackslash
        rw [if_pos (by decide), Nat.add_comm]
        rfl
      · have hescape : escapeChar c = String.singleton c := by
          rw [escapeChar, if_neg hquote, if_neg hbackslash, if_neg (hne _ (by decide)),
            if_neg (hne _ (by decide)), if_neg (hne _ (by decide)), if_neg (hne _ (by decide)),
            if_neg (hne _ (by decide)), if_neg (by omega)]
        rw [hescape, byteLen_singleton, Nat.sub_self, if_neg (by simp [hquote, hbackslash])]
        omega

theorem escapedChars_le (s : String) : escapedChars s ≤ byteLen s := by
  rw [escapedChars, byteLen_eq_sum]
  refine Nat.le_trans List.countP_le_length ?_
  have hsum := List.card_nsmul_le_sum (s.toList.map Char.utf8Size) 1 fun size hsize => by
    obtain ⟨c, -, rfl⟩ := List.mem_map.mp hsize
    exact c.utf8Size_pos
  rwa [List.length_map, smul_eq_mul, Nat.mul_one] at hsum

theorem Visible.append {a b : String} (ha : Visible a) (hb : Visible b) : Visible (a ++ b) := by
  intro c hc
  rw [String.toList_append, List.mem_append] at hc
  cases hc with
  | inl hc => exact ha c hc
  | inr hc => exact hb c hc

theorem visible_toString (n : ℕ) : Visible (toString n) := by
  intro c hc
  rw [Nat.toString_eq_ofList_toDigits, String.toList_ofList] at hc
  have hdigit := Nat.isDigit_of_mem_toDigits (by omega) (by omega) hc
  have hle : 48 ≤ c.toNat := (Char.isDigit_iff_toNat.mp hdigit).1
  omega

theorem visible_escapeChar (c : Char) : Visible (escapeChar c) := by
  have hdigit : ∀ n < 16, 0x20 ≤ (hexDigit n).toNat := by decide
  unfold escapeChar
  split_ifs with h1 h2 h3 h4 h5 h6 h7 h8
  · decide
  · decide
  · decide
  · decide
  · decide
  · decide
  · decide
  · refine Visible.append (Visible.append (by decide) ?_) ?_
    · intro d hd
      rw [String.toList_singleton, List.mem_singleton] at hd
      rw [hd]
      exact hdigit _ (by omega)
    · intro d hd
      rw [String.toList_singleton, List.mem_singleton] at hd
      rw [hd]
      exact hdigit _ (by omega)
  · intro d hd
    rw [String.toList_singleton, List.mem_singleton] at hd
    rw [hd]
    omega

theorem visible_quoted (s : String) : Visible (quoted s) := by
  have hchars : ∀ cs : List Char, Visible (escapeChars cs) := by
    intro cs
    induction cs with
    | nil => decide
    | cons c cs ih => exact (visible_escapeChar c).append ih
  have hquote : Visible "\"" := by decide
  exact (hquote.append (hchars _)).append hquote

theorem visible_separator (first : Bool) : Visible (separator first) := by
  cases first with
  | true | false => decide

section

variable {spell : JsonNumber → String}

mutual

/-- **A printed value is visible**, if its numbers are. -/
theorem visible_write (hspell : ∀ n, Visible (spell n)) : ∀ value : Json, Visible (value.write spell)
  | .null => (by decide : Visible "null")
  | .bool true => (by decide : Visible "true")
  | .bool false => (by decide : Visible "false")
  | .number n => hspell n
  | .string s => visible_quoted s
  | .array values =>
    (Visible.append (by decide) (visible_writeValues hspell true values)).append
      (by decide)
  | .object members =>
    (Visible.append (by decide) (visible_writeMembers hspell true members)).append
      (by decide)

theorem visible_writeValues (hspell : ∀ n, Visible (spell n)) (first : Bool) :
    ∀ values : List Json, Visible (Json.writeValues spell first values)
  | [] => (by decide : Visible "")
  | value :: rest =>
    ((visible_separator first).append (visible_write hspell value)).append
      (visible_writeValues hspell false rest)

theorem visible_writeMembers (hspell : ∀ n, Visible (spell n)) (first : Bool) :
    ∀ members : List (String × Json), Visible (Json.writeMembers spell first members)
  | [] => (by decide : Visible "")
  | (key, value) :: rest =>
    ((((visible_separator first).append (visible_quoted key)).append
      (by decide)).append (visible_write hspell value)).append
        (visible_writeMembers hspell false rest)

end

end

/-! ## What the parts of a document gain -/

section

variable {spell : JsonNumber → String}

theorem escapeGrowth_writeValues (first : Bool) (values : List Json) :
    (values.map fun value => escapeGrowth (value.write spell)).sum ≤
      escapeGrowth (Json.writeValues spell first values) := by
  induction values generalizing first with
  | nil => exact Nat.zero_le _
  | cons value rest ih =>
    have hrest := ih false
    rw [List.map_cons, List.sum_cons, Json.writeValues, escapeGrowth_append, escapeGrowth_append]
    omega

theorem escapeGrowth_array (values : List Json) :
    (values.map fun value => escapeGrowth (value.write spell)).sum ≤
      escapeGrowth ((Json.array values).write spell) := by
  have hvalues := @escapeGrowth_writeValues spell true values
  rw [Json.write, escapeGrowth_append, escapeGrowth_append]
  omega

theorem escapeGrowth_writeMembers (first : Bool) {members : List (String × Json)}
    {member : String × Json} (h : member ∈ members) :
    escapeGrowth (member.2.write spell) ≤ escapeGrowth (Json.writeMembers spell first members) := by
  induction members generalizing first with
  | nil => cases h
  | cons head rest ih =>
    obtain ⟨key, value⟩ := head
    simp only [Json.writeMembers, escapeGrowth_append]
    rcases List.mem_cons.mp h with rfl | hrest
    · dsimp only
      omega
    · have hmember := ih false hrest
      omega

theorem escapeGrowth_object {members : List (String × Json)} {member : String × Json}
    (h : member ∈ members) :
    escapeGrowth (member.2.write spell) ≤ escapeGrowth ((Json.object members).write spell) := by
  have hmembers := @escapeGrowth_writeMembers spell true members member h
  rw [Json.write, escapeGrowth_append, escapeGrowth_append]
  omega

end

/-! ## Parts of a request -/

section

variable {spell : JsonNumber → String}

/-- The bytes of an optional value. -/
def valueBytes (spell : JsonNumber → String) (value : Option Json) : ℕ :=
  value.elim 0 fun value => byteLen (value.write spell)

/-- A field of a record takes its key, its value and two marks at most. -/
def fieldBytes (spell : JsonNumber → String) (field : String × Option Json) : ℕ :=
  byteLen (quoted field.1) + valueBytes spell field.2 + 2

theorem byteLen_record_le (fields : List (String × Option Json)) :
    byteLen ((Json.record fields).write spell) ≤ (fields.map (fieldBytes spell)).sum + 2 := by
  have hobject : ∀ members : List (String × Json), byteLen ((Json.object members).write spell) ≤
      (members.map fun member => fieldBytes spell (member.1, some member.2)).sum + 2 := by
    intro members
    cases members with
    | nil => exact Nat.le_refl 2
    | cons member members =>
      rw [Json.byteLen_object (List.cons_ne_nil _ _)]
      have hsum : ∀ members : List (String × Json),
          (members.map fun member => fieldBytes spell (member.1, some member.2)).sum =
            (members.map fun member => byteLen (quoted member.1)).sum +
              (members.map fun member => byteLen (member.2.write spell)).sum +
                2 * members.length := by
        intro members
        induction members with
        | nil => rfl
        | cons member members ih =>
          rw [List.map_cons, List.sum_cons, ih]
          simp only [List.map_cons, List.sum_cons, List.length_cons, fieldBytes, valueBytes,
            Option.elim_some]
          omega
      rw [hsum]
      omega
  have hfields : (((fields.filterMap fun field => field.2.map (Prod.mk field.1))).map fun member =>
      fieldBytes spell (member.1, some member.2)).sum ≤ (fields.map (fieldBytes spell)).sum := by
    induction fields with
    | nil => exact Nat.le_refl 0
    | cons field fields ih =>
      obtain ⟨key, value⟩ := field
      cases value with
      | none =>
        simp only [List.filterMap_cons, Option.map_none, List.map_cons, List.sum_cons]
        omega
      | some value =>
        simp only [List.filterMap_cons, Option.map_some, List.map_cons, List.sum_cons]
        omega
  have hrecord := hobject (fields.filterMap fun field => field.2.map (Prod.mk field.1))
  unfold Json.record
  omega

end

/-! ## The context on the wire -/

def PlanningToolOutput.serialized (self : PlanningToolOutput) : Json :=
  .object
    [("stepId", .string self.stepId), ("capability", self.capability.toJson),
      ("outputId", .string self.outputId), ("outputDigest", .string self.outputDigest),
      ("receiptDigest", .string self.receiptDigest),
      ("canonicalSizeBytes", .number (.posInt self.canonicalSizeBytes)), ("output", self.output)]

def PlanningStepSummary.serialized (self : PlanningStepSummary) : Json :=
  .object
    [("stepId", .string self.stepId), ("objective", .string self.objective),
      ("dependsOn", .array (self.dependsOn.map .string)), ("status", .string self.status.wireName),
      ("attempts", .unsigned self.attempts.toNat),
      ("capability", self.capability.elim .null CapabilityRef.toJson),
      ("dependencyReleased", .bool self.dependencyReleased)]

def PlanningResourceSelector.serialized (self : PlanningResourceSelector) : Json :=
  .object [("scope", .string self.scope), ("argumentPointer", .string self.argumentPointer)]

def PlanningCapabilitySummary.serialized (self : PlanningCapabilitySummary) : Json :=
  .object
    [("capability", self.capability.toJson), ("definitionDigest", .string self.definitionDigest),
      ("summary", .string self.summary), ("inputSchema", self.inputSchema),
      ("outputSchema", self.outputSchema), ("effectClass", .string self.effectClass.wireName),
      ("resourceSelectors",
        .array (self.resourceSelectors.map PlanningResourceSelector.serialized)),
      ("criticalActions", .array (self.criticalActions.map fun action => .string action.wireName)),
      ("executionStyles", .array (self.executionStyles.map fun style => .string style.wireName)),
      ("idempotencyKeySupported", .bool self.idempotencyKeySupported),
      ("defaultTimeoutMs", .number (.posInt self.defaultTimeoutMs)),
      ("maxTimeoutMs", .number (.posInt self.maxTimeoutMs))]

/-- `Serialize` of a planning context: the members of its payload in their wire order. -/
def PlanningContextPayload.serialized (self : PlanningContextPayload) : Json :=
  .object
    ([("profileVersion", .string self.profileVersion),
      ("capabilities", .array (self.capabilities.map PlanningCapabilitySummary.serialized)),
      ("omittedCapabilities", .unsigned self.omittedCapabilities),
      ("catalogDigest", .string self.catalogDigest), ("goal", .string self.goal)] ++
      self.constraintMembers ++
      [("steps", .array (self.steps.map PlanningStepSummary.serialized)),
      ("omittedSteps", .unsigned self.omittedSteps),
      ("toolOutputs", .array (self.toolOutputs.map PlanningToolOutput.serialized)),
      ("totalSteps", .unsigned self.totalSteps),
      ("verifiedCompletedSteps", .unsigned self.verifiedCompletedSteps),
      ("runId", .string self.runId), ("authority", .string self.authority),
      ("authorityEpoch", .number (.posInt self.authorityEpoch)),
      ("journalSequence", .number (.posInt self.journalSequence)),
      ("journalHeadDigest", .string self.journalHeadDigest)])

/-- `serde_json::to_string` of a planning context. -/
def PlanningContext.text (spell : JsonNumber → String) (self : PlanningContext) : String :=
  self.payload.serialized.write spell

section

variable {spell : JsonNumber → String}

theorem byteLen_array_map {α : Type} {f g : α → Json} (values : List α)
    (h : ∀ value, byteLen ((f value).write spell) = byteLen ((g value).write spell)) :
    byteLen ((Json.array (values.map f)).write spell) =
      byteLen ((Json.array (values.map g)).write spell) := by
  apply Json.byteLen_array_eq
  rw [List.map_map, List.map_map]
  apply List.Perm.of_eq
  exact List.map_congr_left fun value _ => h value

theorem PlanningToolOutput.byteLen_serialized (self : PlanningToolOutput) :
    byteLen (self.serialized.write spell) = byteLen (self.toJson.write spell) := by
  unfold serialized toJson
  rw [Json.byteLen_object (List.cons_ne_nil _ _), Json.byteLen_object (List.cons_ne_nil _ _)]
  simp only [List.map_cons, List.map_nil, List.sum_cons, List.sum_nil, List.length_cons,
    List.length_nil]
  omega

theorem PlanningStepSummary.byteLen_serialized (self : PlanningStepSummary) :
    byteLen (self.serialized.write spell) = byteLen (self.toJson.write spell) := by
  unfold serialized toJson
  rw [Json.byteLen_object (List.cons_ne_nil _ _), Json.byteLen_object (List.cons_ne_nil _ _)]
  simp only [List.map_cons, List.map_nil, List.sum_cons, List.sum_nil, List.length_cons,
    List.length_nil]
  omega

theorem PlanningResourceSelector.byteLen_serialized (self : PlanningResourceSelector) :
    byteLen (self.serialized.write spell) = byteLen (self.toJson.write spell) := by
  unfold serialized toJson
  rw [Json.byteLen_object (List.cons_ne_nil _ _), Json.byteLen_object (List.cons_ne_nil _ _)]
  simp only [List.map_cons, List.map_nil, List.sum_cons, List.sum_nil, List.length_cons,
    List.length_nil]
  omega

theorem PlanningCapabilitySummary.byteLen_serialized (self : PlanningCapabilitySummary) :
    byteLen (self.serialized.write spell) = byteLen (self.toJson.write spell) := by
  have hselectors := @byteLen_array_map spell _ _ _ self.resourceSelectors
    PlanningResourceSelector.byteLen_serialized
  unfold serialized toJson
  rw [Json.byteLen_object (List.cons_ne_nil _ _), Json.byteLen_object (List.cons_ne_nil _ _)]
  simp only [List.map_cons, List.map_nil, List.sum_cons, List.sum_nil, List.length_cons,
    List.length_nil, hselectors]
  omega

theorem PlanningContextPayload.byteLen_serialized (self : PlanningContextPayload) :
    byteLen (self.serialized.write spell) = byteLen (self.toJson.write spell) := by
  have hcapabilities := @byteLen_array_map spell _ _ _ self.capabilities
    PlanningCapabilitySummary.byteLen_serialized
  have hsteps := @byteLen_array_map spell _ _ _ self.steps
    PlanningStepSummary.byteLen_serialized
  have houtputs := @byteLen_array_map spell _ _ _ self.toolOutputs
    PlanningToolOutput.byteLen_serialized
  unfold serialized toJson
  rw [Json.byteLen_object (by simp), Json.byteLen_object (by simp)]
  simp only [List.map_append, List.map_cons, List.map_nil, List.sum_append, List.sum_cons,
    List.sum_nil, List.length_append, List.length_cons, List.length_nil, hcapabilities, hsteps,
    houtputs]
  omega

end

/-! ## The request -/

namespace OpenAiPlannerConfig

variable {lib : ProviderCrates} (self : OpenAiPlannerConfig lib)

theorem chatRequest_messages : ∃ rest, ∀ system user, self.chatRequest system user =
    .object (("model", .string self.model) ::
      ("messages", .array [chatMessage "system" system, chatMessage "user" user]) :: rest) :=
  ⟨_, fun _ _ => rfl⟩

theorem byteLen_chatRequest (system user : String) :
    byteLen ((self.chatRequest system user).write lib.spell) + 2 =
      byteLen ((self.chatRequest system "").write lib.spell) + byteLen (quoted user) := by
  have hempty : byteLen (quoted "") = 2 := rfl
  obtain ⟨rest, hrest⟩ := self.chatRequest_messages
  rw [hrest, hrest, Json.byteLen_object (List.cons_ne_nil _ _),
    Json.byteLen_object (List.cons_ne_nil _ _)]
  simp only [List.map_cons, List.sum_cons, List.length_cons, Json.write, Json.writeValues,
    Json.writeMembers, chatMessage, byteLen_append, hempty]
  omega

theorem byteLen_plannerPrompt (callId requestDigest context : String) :
    byteLen (quoted (plannerPrompt callId requestDigest context)) =
      byteLen (quoted (plannerPrompt callId requestDigest "")) + byteLen context +
        escapeGrowth context := by
  obtain ⟨front, back, hprompt⟩ : ∃ front back, ∀ context,
      plannerPrompt callId requestDigest context = front ++ (context ++ back) := by
    unfold plannerPrompt
    simp only [String.append_assoc]
    exact ⟨_, _, fun _ => rfl⟩
  have hzero : byteLen "" = 0 := rfl
  have hnone : escapeGrowth "" = 0 := rfl
  rw [hprompt, hprompt, byteLen_quoted_eq, byteLen_quoted_eq]
  simp only [byteLen_append, escapeGrowth_append, hzero, hnone]
  omega

/-- The bytes of a request around its context. -/
def requestOverhead (callId requestDigest : String) : ℕ :=
  byteLen (self.requestBody callId requestDigest "")

/-- **The size of a request**: what stands around the context, its text, and what the text gains. -/
theorem byteLen_requestBody (callId requestDigest context : String) :
    byteLen (self.requestBody callId requestDigest context) =
      self.requestOverhead callId requestDigest + byteLen context + escapeGrowth context := by
  have hwith := self.byteLen_chatRequest self.systemPrompt
    (plannerPrompt callId requestDigest context)
  have hwithout := self.byteLen_chatRequest self.systemPrompt
    (plannerPrompt callId requestDigest "")
  rw [byteLen_plannerPrompt] at hwith
  unfold requestOverhead requestBody
  generalize byteLen ((self.chatRequest self.systemPrompt "").write lib.spell) = empty at hwith hwithout
  omega

theorem systemPrompt_le (callId requestDigest : String) :
    byteLen self.systemPrompt ≤ self.requestOverhead callId requestDigest := by
  obtain ⟨rest, hrest⟩ := self.chatRequest_messages
  unfold requestOverhead requestBody
  rw [hrest, Json.byteLen_object (List.cons_ne_nil _ _)]
  simp only [List.map_cons, List.sum_cons, Json.write, Json.writeValues, Json.writeMembers,
    chatMessage, byteLen_append, byteLen_quoted_eq]
  omega

end OpenAiPlannerConfig

/-! ## The bytes around a context -/

section

variable {lib : ProviderCrates} {model tokenizer : String} {options : ProfileOptions}
  {config : OpenAiPlannerConfig lib}

theorem byteLen_prompts : byteLen plannerSystemPrompt ≤ 2056 ∧
    byteLen constrainedSystemPrompt ≤ 2056 ∧ byteLen atomicJsonPrompt ≤ 512 ∧
    byteLen jsonObjectPrompt ≤ 128 :=
  ⟨by decide +kernel, by decide +kernel, by decide +kernel, by decide +kernel⟩

example : byteLen jsonObjectPrompt ≤ 128 := by
  decide +kernel

theorem write_proposalSchemaOf {spell : JsonNumber → String}
    (hspell : ∀ n : UInt64, spell (.posInt n) = toString n.toNat) :
    proposalSchema.write spell = proposalSchema.write sampleSpell ∧
      atomicJsonProposalSchema.write spell = atomicJsonProposalSchema.write sampleSpell := by
  simp only [proposalSchema, atomicJsonProposalSchema, atomicJsonProposalSchemaOf,
    atomicArgumentsSchema, anyObjectSchema, proposalSchemaOf, schemaObject, schemaString,
    schemaArray, schemaNonEmpty, Json.strings, Json.unsigned, List.map_cons, List.map_nil,
    List.cons_append, List.nil_append, Json.write, Json.writeMembers, Json.writeValues, hspell,
    sampleSpell, and_self]

theorem byteLen_proposalSchemas {spell : JsonNumber → String}
    (hspell : ∀ n : UInt64, spell (.posInt n) = toString n.toNat) :
    byteLen (proposalSchema.write spell) ≤ 1280 ∧
      byteLen (atomicJsonProposalSchema.write spell) ≤ 1280 := by
  have hsizes : byteLen (proposalSchema.write sampleSpell) ≤ 1280 ∧
      byteLen (atomicJsonProposalSchema.write sampleSpell) ≤ 1280 :=
    ⟨by decide +kernel, by decide +kernel⟩
  obtain ⟨hplain, hatomic⟩ := write_proposalSchemaOf hspell
  exact ⟨Nat.le_trans (Nat.le_of_eq (congrArg byteLen hplain)) hsizes.1,
    Nat.le_trans (Nat.le_of_eq (congrArg byteLen hatomic)) hsizes.2⟩

theorem Described.byteLen_proposalSchema (hd : Described model tokenizer options config)
    (hartifact : options.artifactSchema = none)
    (hspell : ∀ n : UInt64, lib.spell (.posInt n) = toString n.toNat) :
    byteLen (config.proposalSchema.write lib.spell) ≤ 1280 := by
  obtain ⟨hplain, hatomic⟩ := byteLen_proposalSchemas hspell
  rw [hd.proposalSchema]
  unfold ProfileOptions.proposalSchema
  rw [hartifact]
  cases options.responseFormat with
  | jsonSchema | jsonObject => exact hplain
  | jsonSchemaAtomicJson => exact hatomic

theorem OpenAiPlannerConfig.byteLen_systemPrompt (config : OpenAiPlannerConfig lib)
    (hschema : byteLen (config.proposalSchema.write lib.spell) ≤ 1280) :
    byteLen config.systemPrompt ≤ 3464 := by
  obtain ⟨hplanner, hconstrained, hatomic, hobject⟩ := byteLen_prompts
  have hwith : ∀ prompt, byteLen prompt ≤ 2056 → byteLen (config.promptWithSchema prompt) ≤ 3464 := by
    intro prompt hprompt
    unfold OpenAiPlannerConfig.promptWithSchema
    cases config.responseFormat with
    | jsonSchema => exact Nat.le_trans hprompt (by decide)
    | jsonSchemaAtomicJson =>
      dsimp only
      rw [byteLen_append]
      omega
    | jsonObject =>
      dsimp only
      rw [byteLen_append, byteLen_append]
      omega
  unfold OpenAiPlannerConfig.systemPrompt
  split
  · exact hwith _ hconstrained
  · exact hwith _ hplanner

theorem byteLen_emptyPrompt {callId requestDigest : String} (hcall : byteLen callId = 75)
    (hrequest : byteLen requestDigest = 71) :
    byteLen (OpenAiPlannerConfig.plannerPrompt callId requestDigest "") ≤ 1024 := by
  have hcallId := byteLen_quoted_le callId
  have hdigest := byteLen_quoted_le requestDigest
  unfold OpenAiPlannerConfig.plannerPrompt
  rw [byteLen_append, byteLen_append, byteLen_append, byteLen_append, byteLen_append,
    byteLen_append]
  have hmarks : ∀ a b c d e : ℕ, a ≤ 72 → b ≤ 8 → c ≤ 24 → d ≤ 24 → e ≤ 8 →
      a + b + c + byteLen (quoted callId) + d + byteLen (quoted requestDigest) + e ≤ 1024 := by
    intro a b c d e ha hb hc hd he
    omega
  exact hmarks _ _ _ _ _ (by decide) (by decide) (by decide)
    (by decide) (by decide)

theorem byteLen_unsigned (hspell : ∀ n : UInt64, lib.spell (.posInt n) = toString n.toNat) {n : ℕ}
    (h : n ≤ maxOutputTokensLimit) : byteLen ((Json.unsigned n).write lib.spell) ≤ 5 := by
  have hlimit : n ≤ 65536 := h
  have hword : n < UInt64.size := Nat.lt_of_le_of_lt hlimit (by decide)
  rw [Json.unsigned, Json.write, hspell, UInt64.toNat_ofNat_of_lt' hword, byteLen_toString]
  exact (Nat.length_toDigits_le_iff (by omega) (by omega)).mpr (by omega)

example : byteLen ((Json.unsigned maxOutputTokensLimit).write sampleSpell) ≤ 5 := by
  decide +kernel

theorem valueBytes_messages (spell : JsonNumber → String) (system user : String) :
    valueBytes spell (some (.array [OpenAiPlannerConfig.chatMessage "system" system,
      OpenAiPlannerConfig.chatMessage "user" user])) ≤
        6 * byteLen system + 6 * byteLen user + 96 := by
  have hsystem := byteLen_quoted_le system
  have huser := byteLen_quoted_le user
  have hnames : byteLen (quoted "role") + byteLen (quoted "content") + byteLen (quoted "system") +
      byteLen (quoted "user") ≤ 32 := by decide
  have hmessage : ∀ role content, byteLen ((OpenAiPlannerConfig.chatMessage role content).write
      spell) = byteLen (quoted "role") + byteLen (quoted "content") + byteLen (quoted role) +
        byteLen (quoted content) + 5 := by
    intro role content
    unfold OpenAiPlannerConfig.chatMessage
    rw [Json.byteLen_object (List.cons_ne_nil _ _)]
    simp only [List.map_cons, List.map_nil, List.sum_cons, List.sum_nil, List.length_cons,
      List.length_nil, Json.write]
    omega
  have hmarks : byteLen "[" = 1 ∧ byteLen (separator true) = 0 ∧ byteLen (separator false) = 1 ∧
      byteLen "" = 0 ∧ byteLen "]" = 1 := ⟨rfl, rfl, rfl, rfl, rfl⟩
  rw [valueBytes, Option.elim_some]
  simp only [Json.write, Json.writeValues, byteLen_append, hmessage, hmarks]
  omega

theorem OpenAiPlannerConfig.options_short (config : OpenAiPlannerConfig lib)
    (hspell : ∀ n : UInt64, lib.spell (.posInt n) = toString n.toNat) :
    valueBytes lib.spell (config.temperature.map .unsigned) ≤ 5 ∧
      valueBytes lib.spell (config.seed.map .unsigned) ≤ 5 ∧
      valueBytes lib.spell config.thinkingRequest ≤ 32 ∧
      valueBytes lib.spell config.chatTemplateRequest ≤ 32 ∧
      valueBytes lib.spell (config.reasoningEffort.map .string) ≤ 32 := by
  have hzero := byteLen_unsigned hspell (Nat.zero_le _)
  refine ⟨?_, ?_, ?_, ?_, ?_⟩
  · unfold temperature
    split
    · exact hzero
    · exact Nat.zero_le _
  · unfold seed
    split
    · exact hzero
    · exact Nat.zero_le _
  · unfold thinkingRequest
    split
    · exact Nat.zero_le _
    · exact Nat.zero_le _
    · exact Nat.le_of_ble_eq_true rfl
    · exact Nat.le_of_ble_eq_true rfl
  · unfold chatTemplateRequest
    split
    · exact Nat.le_of_ble_eq_true rfl
    · exact Nat.zero_le _
  · unfold reasoningEffort
    split
    · exact Nat.le_of_ble_eq_true rfl
    · exact Nat.zero_le _

theorem OpenAiPlannerConfig.valueBytes_responseFormat (config : OpenAiPlannerConfig lib)
    (hschema : byteLen (config.proposalSchema.write lib.spell) ≤ 1280) :
    valueBytes lib.spell (some config.responseFormatRequest) ≤ 1536 := by
  have hsent : byteLen ((Json.record
      [("type", some (.string "json_schema")),
        ("json_schema", some (.object
          [("name", .string "xgeny_plan_proposal_v1"), ("strict", .bool true),
            ("schema", config.proposalSchema)]))]).write lib.spell) ≤ 1536 := by
    have hnames : byteLen (quoted "type") + byteLen (quoted "json_schema") + byteLen (quoted "name") +
        byteLen (quoted "xgeny_plan_proposal_v1") + byteLen (quoted "strict") + byteLen "true" +
        byteLen (quoted "schema") ≤ 96 := by decide
    refine Nat.le_trans (byteLen_record_le _) ?_
    simp only [List.map_cons, List.map_nil, List.sum_cons, List.sum_nil, fieldBytes, valueBytes,
      Option.elim_some]
    rw [Json.byteLen_object (List.cons_ne_nil _ _)]
    simp only [List.map_cons, List.map_nil, List.sum_cons, List.sum_nil, List.length_cons,
      List.length_nil, Json.write, if_true]
    omega
  rw [valueBytes, Option.elim_some]
  unfold OpenAiPlannerConfig.responseFormatRequest
  split
  · exact hsent
  · exact hsent
  · exact Nat.le_of_ble_eq_true rfl

/-- **The bytes of a request around its context**, for every configuration with a short schema and
every call. -/
theorem Described.requestOverhead_le (hd : Described model tokenizer options config)
    (hschema : byteLen (config.proposalSchema.write lib.spell) ≤ 1280)
    (hspell : ∀ n : UInt64, lib.spell (.posInt n) = toString n.toNat)
    (hmodel : byteLen model ≤ maxModelIdBytes) {callId requestDigest : String}
    (hcall : byteLen callId = 75) (hrequest : byteLen requestDigest = 71) :
    config.requestOverhead callId requestDigest ≤ 32768 := by
  have hsystem := config.byteLen_systemPrompt hschema
  have hprompt := byteLen_emptyPrompt hcall hrequest
  have hformat := config.valueBytes_responseFormat hschema
  obtain ⟨htemperature, hseed, hthinking, htemplate, heffort⟩ := config.options_short hspell
  unfold OpenAiPlannerConfig.requestOverhead OpenAiPlannerConfig.requestBody
    OpenAiPlannerConfig.chatRequest
  refine Nat.le_trans (byteLen_record_le _) ?_
  have hkeys : (["model", "messages", "temperature", "seed", "max_tokens", "stream", "n",
      "response_format", "thinking", "chat_template_kwargs", "reasoning_effort"].map fun key =>
        byteLen (quoted key)).sum ≤ 256 := by decide
  have hmodelBytes : valueBytes lib.spell (some (.string config.model)) ≤ 3074 := by
    have hquoted := byteLen_quoted_le config.model
    have hlimit : maxModelIdBytes = 512 := rfl
    rw [hd.model] at hquoted ⊢
    exact Nat.le_trans hquoted (by omega)
  have hmessages := valueBytes_messages lib.spell config.systemPrompt
    (OpenAiPlannerConfig.plannerPrompt callId requestDigest "")
  have htokens : valueBytes lib.spell (some (.unsigned config.maxOutputTokens)) ≤ 5 := by
    rw [hd.maxOutputTokens]
    exact byteLen_unsigned hspell hd.tokens.2
  have hone : valueBytes lib.spell (some (.unsigned 1)) ≤ 5 :=
    byteLen_unsigned hspell (by decide)
  have hstream : valueBytes lib.spell (some (.bool false)) ≤ 5 := Nat.le_of_ble_eq_true rfl
  simp only [List.map_cons, List.map_nil, List.sum_cons, List.sum_nil, fieldBytes] at hkeys ⊢
  omega

end

end Xgeny
