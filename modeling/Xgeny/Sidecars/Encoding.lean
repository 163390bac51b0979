import Xgeny.Sidecars.Binding

set_option autoImplicit false

/-!
# The stored text of a tool output

An output is accepted by its canonical bytes, and stored with the rest of its record in the other
spelling of doubles. The store bounds the text of the record.

* `ToolOutputRecord.recordJson`, `recordJsonFits`: the stored text and the bound of its column;
* `storedRecordBytes`: the length of the text, from what the record is built of;
* `byteLen_quoted_digest`: a digest needs no escape;
* **`tool_output_fits_iff`**: a record that was built fits exactly when this length does;
* `doubles_do_not_fit`: an accepted output of many doubles does not.
-/

namespace Xgeny

/-! ## The record -/

def InvocationBinding.toJson (self : InvocationBinding) : Json :=
  .object
    [("capabilityId", .string self.capabilityId), ("contractVersion", .string self.contractVersion),
      ("definitionDigest", .string self.definitionDigest), ("instanceId", .string self.instanceId),
      ("instanceBindingDigest", .string self.instanceBindingDigest)]

def ToolOutputRecord.toJson (self : ToolOutputRecord) : Json :=
  .object
    [("formatVersion", .number (.posInt self.formatVersion.toUInt64)),
      ("outputId", .string self.outputId), ("runId", .string self.runId),
      ("stepId", .string self.stepId), ("effectId", .string self.effectId),
      ("actionDigest", .string self.actionDigest), ("invocation", self.invocation.toJson),
      ("planId", .string self.planId),
      ("executionAttempt", .number (.posInt self.executionAttempt.toUInt64)),
      ("evidenceDigest", .string self.evidenceDigest),
      ("canonicalSizeBytes", .number (.posInt self.canonicalSizeBytes)),
      ("outputDigest", .string self.outputDigest), ("output", self.output),
      ("recordDigest", .string self.recordDigest)]

/-- The text in the column `tool_outputs.record_json`. -/
def ToolOutputRecord.recordJson (E : CanonicalEncoder) (self : ToolOutputRecord) : String :=
  self.toJson.stored E

def maxRecordJsonBytes : ℕ := 1100000

/-- The `CHECK` of the column, and the guard of its decoder. -/
def recordJsonFits (recordJson : String) : Bool :=
  decide (1 ≤ byteLen recordJson ∧ byteLen recordJson ≤ maxRecordJsonBytes)

/-! ## Lengths -/

theorem byteLen_quoted {s : String} (h : s.toList.all isPlain = true) :
    byteLen (quoted s) = byteLen s + 2 := by
  rw [quoted, escapeChars_plain h, String.ofList_toList, byteLen_append, byteLen_append]
  have hquote : byteLen "\"" = 1 := rfl
  omega

theorem isPlain_of_digit {c : Char} (h : 48 ≤ c.toNat ∧ c.toNat ≤ 57 ∨ 97 ≤ c.toNat ∧ c.toNat ≤ 102) :
    isPlain c = true := by
  have hne : ∀ d : Char, d.toNat < 48 ∨ d.toNat = 92 → c ≠ d := by
    rintro d hd rfl
    omega
  rw [isPlain, decide_eq_true_eq, escapeChar, if_neg (hne _ (by decide)), if_neg (hne _ (by decide)),
    if_neg (hne _ (by decide)), if_neg (hne _ (by decide)), if_neg (hne _ (by decide)),
    if_neg (hne _ (by decide)), if_neg (hne _ (by decide)), if_neg (by omega)]

theorem byteLen_quoted_digest {pre : String} (hpre : pre.toList.all isPlain = true)
    (hlength : byteLen pre = 7) (h : Sha256Hex) : byteLen (quoted (pre ++ h.val)) = 73 := by
  rw [byteLen_quoted, byteLen_append, hlength, h.byteLen_val]
  rw [String.toList_append, List.all_append, hpre, Bool.true_and, List.all_eq_true]
  exact fun c hc => isPlain_of_digit (h.digit hc)

namespace Json

variable {spell : JsonNumber → String}

theorem byteLen_writeMembers (first : Bool) (members : List (String × Json)) :
    byteLen (writeMembers spell first members) + (if first = true ∧ members ≠ [] then 1 else 0) =
      (members.map fun member => byteLen (quoted member.1)).sum +
        (members.map fun member => byteLen (member.2.write spell)).sum + 2 * members.length := by
  induction members generalizing first with
  | nil => simp [writeMembers, byteLen]
  | cons member rest ih =>
    obtain ⟨key, value⟩ := member
    have hrest := ih false
    have hseparator : byteLen (separator first) + (if first = true then 1 else 0) = 1 := by
      cases first <;> rfl
    have hcolon : byteLen ":" = 1 := rfl
    simp only [Bool.false_eq_true, false_and, if_false, Nat.add_zero] at hrest
    simp only [writeMembers, byteLen_append, List.map_cons, List.sum_cons, List.length_cons, ne_eq,
      reduceCtorEq, not_false_eq_true, and_true, hrest]
    omega

theorem byteLen_object {members : List (String × Json)} (hne : members ≠ []) :
    byteLen ((Json.object members).write spell) =
      (members.map fun member => byteLen (quoted member.1)).sum +
        (members.map fun member => byteLen (member.2.write spell)).sum + 2 * members.length + 1 := by
  have hmembers := @byteLen_writeMembers spell true members
  have hopen : byteLen "\x7b" = 1 := rfl
  have hclose : byteLen "\x7d" = 1 := rfl
  simp only [true_and, if_pos hne] at hmembers
  rw [write, byteLen_append, byteLen_append]
  omega

theorem byteLen_writeValues (first : Bool) (values : List Json) :
    byteLen (writeValues spell first values) + (if first = true ∧ values ≠ [] then 1 else 0) =
      (values.map fun value => byteLen (value.write spell)).sum + values.length := by
  induction values generalizing first with
  | nil => simp [writeValues, byteLen]
  | cons value rest ih =>
    have hrest := ih false
    have hseparator : byteLen (separator first) + (if first = true then 1 else 0) = 1 := by
      cases first <;> rfl
    simp only [Bool.false_eq_true, false_and, if_false, Nat.add_zero] at hrest
    simp only [writeValues, byteLen_append, List.map_cons, List.sum_cons, List.length_cons, ne_eq,
      reduceCtorEq, not_false_eq_true, and_true, hrest]
    omega

theorem byteLen_array_eq {values values' : List Json}
    (h : (values.map fun value => byteLen (value.write spell)).Perm
      (values'.map fun value => byteLen (value.write spell))) :
    byteLen ((Json.array values).write spell) = byteLen ((Json.array values').write spell) := by
  have hlength : values.length = values'.length := by simpa using h.length_eq
  have hempty : values = [] ↔ values' = [] := by
    rw [← List.length_eq_zero_iff, hlength, List.length_eq_zero_iff]
  have hvalues := @byteLen_writeValues spell true values
  have hvalues' := @byteLen_writeValues spell true values'
  rw [h.sum_nat, hlength, ← hvalues'] at hvalues
  simp only [true_and, ne_eq, hempty, Nat.add_right_cancel_iff] at hvalues
  simp only [write, byteLen_append, hvalues]

theorem byteLen_array_concat (values : List Json) (value : Json) :
    byteLen ((Json.array (values ++ [value])).write spell) =
      byteLen ((Json.array values).write spell) + byteLen (value.write spell) +
        if values = [] then 0 else 1 := by
  have hold := @byteLen_writeValues spell true values
  have hnew := @byteLen_writeValues spell true (values ++ [value])
  simp only [List.map_append, List.map_cons, List.map_nil, List.sum_append, List.sum_cons,
    List.sum_nil, List.length_append, List.length_cons, List.length_nil, ne_eq,
    List.append_eq_nil_iff, List.cons_ne_nil, and_false, not_false_eq_true, and_self, if_true,
    true_and] at hold hnew
  simp only [write, byteLen_append]
  by_cases hempty : values = []
  · rw [if_neg (not_not_intro hempty)] at hold
    rw [if_pos hempty]
    omega
  · rw [if_pos hempty] at hold
    rw [if_neg hempty]
    omega

end Json

/-! ## The stored record -/

section Stored

variable {E : CanonicalEncoder} {runId stepId : String} {intent : EffectIntent}
  {executionAttempt : UInt32} {evidenceDigest : String} {output : Json} {record : ToolOutputRecord}

/-- The identity fields of a record, which are written as strings. -/
def recordIdentity (runId stepId : String) (intent : EffectIntent) (evidenceDigest : String) :
    List String :=
  [runId, stepId, intent.effectId, intent.actionDigest, intent.invocation.capabilityId,
    intent.invocation.contractVersion, intent.invocation.definitionDigest,
    intent.invocation.instanceId, intent.invocation.instanceBindingDigest,
    (intent.receiptProvenance.map ReceiptProvenance.planId).getD "", evidenceDigest]

/-- The keys and the punctuation, the format version and three digests. -/
def recordOverhead : ℕ := 518

/-- The length of a stored record, from what it is built of. -/
def storedRecordBytes (E : CanonicalEncoder) (runId stepId : String) (intent : EffectIntent)
    (executionAttempt : UInt32) (evidenceDigest : String) (output : Json) : ℕ :=
  recordOverhead +
    ((recordIdentity runId stepId intent evidenceDigest).map fun field =>
      byteLen (quoted field)).sum +
    byteLen (toString executionAttempt.toNat) +
    byteLen (toString (byteLen (output.canonical E))) +
    byteLen (output.canonical E) + 2 * output.countNumbers E.isIntegral

theorem ToolOutputRecord.new_validated (h : ToolOutputRecord.new E.digests runId stepId intent
    executionAttempt evidenceDigest output = .ok record) :
    byteLen (output.canonical E) ≤ maxToolOutputCanonicalBytes := by
  simp only [ToolOutputRecord.new, Outcome.bind_eq_ok] at h
  obtain ⟨_, _, _, _, _, _, validated, hvalidated, _⟩ := h
  exact (validateToolOutput_eq_ok.mp hvalidated).1.2.2.2

theorem byteLen_invocation (self : InvocationBinding) :
    byteLen (self.toJson.write E.spellStored) = byteLen (quoted self.capabilityId) +
      byteLen (quoted self.contractVersion) + byteLen (quoted self.definitionDigest) +
      byteLen (quoted self.instanceId) + byteLen (quoted self.instanceBindingDigest) + 95 := by
  have hkeys : (["capabilityId", "contractVersion", "definitionDigest", "instanceId",
      "instanceBindingDigest"].map fun key => byteLen (quoted key)).sum = 84 := by decide
  simp only [List.map_cons, List.map_nil, List.sum_cons, List.sum_nil] at hkeys
  rw [InvocationBinding.toJson, Json.byteLen_object (List.cons_ne_nil _ _)]
  simp only [List.map_cons, List.map_nil, List.sum_cons, List.sum_nil, List.length_cons,
    List.length_nil, Json.write]
  omega

/-- **The length of a stored record.** -/
theorem byteLen_recordJson (hkeeps : E.KeepsFractions output)
    (h : ToolOutputRecord.new E.digests runId stepId intent executionAttempt evidenceDigest output =
      .ok record) :
    byteLen (record.recordJson E) =
      storedRecordBytes E runId stepId intent executionAttempt evidenceDigest output := by
  have hbound := ToolOutputRecord.new_validated h
  obtain ⟨rfl, hverified⟩ := ToolOutputRecord.new_verified h
  have haccepted := ToolOutputRecord.accepted hverified
  obtain ⟨name, -, hname⟩ := Digests.identifier_eq_ok.mp haccepted.name
  obtain ⟨document, -, hdocument⟩ := Digests.digest_eq_ok.mp haccepted.record
  have hid : byteLen (quoted record.outputId) = 73 := by
    rw [← hname]
    exact byteLen_quoted_digest (by decide) (by decide) _
  have houtput : byteLen (quoted record.outputDigest) = 73 := by
    rw [haccepted.output]
    exact byteLen_quoted_digest (by decide) (by decide) _
  have hrecord : byteLen (quoted record.recordDigest) = 73 := by
    rw [← hdocument]
    exact byteLen_quoted_digest (by decide) (by decide) _
  have hsize : record.canonicalSizeBytes.toNat = byteLen (record.output.canonical E) := by
    rw [haccepted.size, Nat.toUInt64_eq, UInt64.toNat_ofNat']
    exact Nat.mod_eq_of_lt (Nat.lt_of_le_of_lt hbound (by decide))
  have hplan : (intent.receiptProvenance.map ReceiptProvenance.planId).getD "" = record.planId := by
    rw [← haccepted.planId]
    rfl
  have hkeys : (["formatVersion", "outputId", "runId", "stepId", "effectId", "actionDigest",
      "invocation", "planId", "executionAttempt", "evidenceDigest", "canonicalSizeBytes",
      "outputDigest", "output", "recordDigest"].map fun key => byteLen (quoted key)).sum = 174 := by
    decide
  have hversion : byteLen (toString (1 : ℕ)) = 1 := by decide
  have hstored := byteLen_stored hkeeps
  have hinvocation := byteLen_invocation (E := E) intent.invocation
  rw [Json.stored] at hstored
  simp only [List.map_cons, List.map_nil, List.sum_cons, List.sum_nil] at hkeys
  rw [ToolOutputRecord.recordJson, Json.stored, ToolOutputRecord.toJson,
    Json.byteLen_object (List.cons_ne_nil _ _)]
  simp only [List.map_cons, List.map_nil, List.sum_cons, List.sum_nil, List.length_cons,
    List.length_nil, Json.write, CanonicalEncoder.spellStored, CanonicalEncoder.isIntegral,
    CanonicalEncoder.spellCanonical, Bool.false_eq_true, if_false, UInt32.toNat_toUInt64,
    haccepted.formatVersion, haccepted.runId, haccepted.stepId, haccepted.effectId,
    haccepted.actionDigest, haccepted.invocation, haccepted.executionAttempt,
    haccepted.evidenceDigest, hid, houtput, hrecord, hsize, hinvocation, hstored,
    storedRecordBytes, recordIdentity, recordOverhead, hplan]
  have htwo : toolOutputFormatVersion.toNat = 1 := rfl
  rw [htwo]
  omega

/-- **When an accepted output fits.** A record that was built fits in its column exactly when its
identity, its canonical output and two bytes for each double that is spelled as an integer do, if the
store writes the doubles of the output with their fractions. -/
theorem tool_output_fits_iff (hkeeps : E.KeepsFractions output)
    (h : ToolOutputRecord.new E.digests runId stepId intent executionAttempt evidenceDigest output =
      .ok record) :
    recordJsonFits (record.recordJson E) = true ↔
      storedRecordBytes E runId stepId intent executionAttempt evidenceDigest output ≤ 1100000 := by
  rw [recordJsonFits, decide_eq_true_eq, byteLen_recordJson hkeeps h]
  constructor
  · exact fun hfits => hfits.2
  · intro hfits
    refine ⟨?_, hfits⟩
    unfold storedRecordBytes recordOverhead
    omega

end Stored

/-! ## An output of many doubles -/

section Doubles

variable {spell : JsonNumber → String}

/-- The double `1.0`. -/
def oneDouble : Json := .number (.float 0x3FF0000000000000)

/-- Many doubles and a string of letters. -/
def doublesOutput (doubles letters : ℕ) : Json :=
  .array (List.replicate doubles oneDouble ++ [.string (String.ofList (List.replicate letters 'a'))])

theorem byteLen_letters (letters : ℕ) :
    byteLen (String.ofList (List.replicate letters 'a')) = letters := by
  rw [byteLen_ofList, List.map_replicate, List.sum_replicate]
  exact Nat.mul_one letters

theorem byteLen_quoted_letters (letters : ℕ) :
    byteLen (quoted (String.ofList (List.replicate letters 'a'))) = letters + 2 := by
  have hplain : (List.replicate letters 'a').all isPlain = true := by
    rw [List.all_replicate]
    have ha : isPlain 'a' = true := by decide
    simp [ha]
  rw [byteLen_quoted (by rw [String.toList_ofList]; exact hplain), byteLen_letters]

theorem byteLen_writeValues_replicate (value : Json) (n : ℕ) (rest : List Json) :
    byteLen (Json.writeValues spell false (List.replicate n value ++ rest)) =
      n * (1 + byteLen (value.write spell)) + byteLen (Json.writeValues spell false rest) := by
  induction n with
  | zero => simp
  | succ n ih =>
    have hcomma : byteLen (separator false) = 1 := rfl
    rw [List.replicate_succ, List.cons_append, Json.writeValues, byteLen_append, byteLen_append, ih,
      hcomma, Nat.succ_mul]
    omega

theorem byteLen_doubles (hone : byteLen (oneDouble.write spell) = 1) (doubles letters : ℕ) :
    byteLen ((doublesOutput (doubles + 1) letters).write spell) = 2 * doubles + letters + 6 := by
  have hopen : byteLen "[" = 1 := rfl
  have hclose : byteLen "]" = 1 := rfl
  have hfirst : byteLen (separator true) = 0 := rfl
  have hcomma : byteLen (separator false) = 1 := rfl
  have hempty : byteLen "" = 0 := rfl
  rw [doublesOutput, List.replicate_succ, List.cons_append, Json.write, Json.writeValues]
  simp only [byteLen_append, byteLen_writeValues_replicate, hone, Json.writeValues, Json.write,
    byteLen_quoted_letters, hopen, hclose, hfirst, hcomma, hempty]
  omega

theorem depth_doubles (doubles letters : ℕ) : (doublesOutput doubles letters).depth = 1 := by
  have hdepth : ∀ n, Json.depthValues (List.replicate n oneDouble ++
      [.string (String.ofList (List.replicate letters 'a'))]) = 1 := by
    intro n
    induction n with
    | zero => rfl
    | succ n ih =>
      rw [List.replicate_succ, List.cons_append, Json.depthValues, ih]
      rfl
  exact hdepth doubles

theorem nodes_doubles (doubles letters : ℕ) :
    (doublesOutput doubles letters).nodes = doubles + 2 := by
  have hnodes : ∀ n, Json.nodesValues (List.replicate n oneDouble ++
      [.string (String.ofList (List.replicate letters 'a'))]) = n + 1 := by
    intro n
    induction n with
    | zero => rfl
    | succ n ih =>
      rw [List.replicate_succ, List.cons_append, Json.nodesValues, ih]
      show 1 + (n + 1) = n + 1 + 1
      omega
  rw [doublesOutput, Json.nodes, hnodes]
  omega

theorem textBytes_doubles (doubles letters : ℕ) :
    (doublesOutput doubles letters).textBytes = letters := by
  have htext : ∀ n, Json.textBytesValues (List.replicate n oneDouble ++
      [.string (String.ofList (List.replicate letters 'a'))]) = letters := by
    intro n
    induction n with
    | zero => exact byteLen_letters letters
    | succ n ih =>
      rw [List.replicate_succ, List.cons_append, Json.textBytesValues, ih]
      exact Nat.zero_add letters
  exact htext doubles

theorem countNumbers_doubles (p : JsonNumber → Bool) (doubles letters : ℕ) :
    (doublesOutput doubles letters).countNumbers p =
      doubles * if p (.float 0x3FF0000000000000) then 1 else 0 := by
  have hcount : ∀ n, Json.countNumbersValues p (List.replicate n oneDouble ++
      [.string (String.ofList (List.replicate letters 'a'))]) =
        n * if p (.float 0x3FF0000000000000) then 1 else 0 := by
    intro n
    induction n with
    | zero => rw [Nat.zero_mul]; rfl
    | succ n ih =>
      rw [List.replicate_succ, List.cons_append, Json.countNumbersValues, ih, oneDouble,
        Json.countNumbers, Nat.succ_mul, Nat.add_comm]
  exact hcount doubles

end Doubles

def doublesHash : Sha256Hex :=
  sampleHash "161d2a1c555068030db708ec391dc30ac8975704bc56f9f5e1ccdff852eee05f"

def doublesIdHash : Sha256Hex :=
  sampleHash "4987a8f8989c2699e2c01a21b3bd3aa3a8e4c3a6ce45c16b363f30ce09d1dd03"

def doublesRecordHash : Sha256Hex :=
  sampleHash "1066cc7cbe6f7e66676fd787c931270fc719cef1d19aa10fb4e3784eabdfb4f5"

/-- The two structured documents of the record. -/
def doublesDocuments : List Spelled :=
  [{ input := .toolOutputId "run-1" "step-a" "effect-a" 1 (sha256Digest doublesHash)
     text := sampleText [("domain", .string "xgeny.tool-output.id/v1"),
       ("effectId", .string "effect-a"), ("executionAttempt", .number (.posInt 1)),
       ("outputDigest", .string (sha256Digest doublesHash)), ("runId", .string "run-1"),
       ("stepId", .string "step-a")]
     sha256 := doublesIdHash },
   { input := .toolOutputRecord 1 ("output-" ++ doublesIdHash.val) "run-1" "step-a" "effect-a"
       (sampleDigest 'a') sampleInvocationBinding "plan-1" 1 (sampleDigest '7') 1048576
       (sha256Digest doublesHash)
     text := sampleText [("actionDigest", .string (sampleDigest 'a')),
       ("canonicalSizeBytes", .number (.posInt 1048576)),
       ("domain", .string "xgeny.tool-output.record/v1"), ("effectId", .string "effect-a"),
       ("evidenceDigest", .string (sampleDigest '7')), ("executionAttempt", .number (.posInt 1)),
       ("formatVersion", .number (.posInt 1)),
       ("invocation", .object [("capabilityId", .string "file.write"),
         ("contractVersion", .string "1.0.0"), ("definitionDigest", .string (sampleDigest '1')),
         ("instanceBindingDigest", .string (sampleDigest '2')),
         ("instanceId", .string "local-fs")]),
       ("outputDigest", .string (sha256Digest doublesHash)),
       ("outputId", .string ("output-" ++ doublesIdHash.val)), ("planId", .string "plan-1"),
       ("runId", .string "run-1"), ("stepId", .string "step-a")]
     sha256 := doublesRecordHash }]

/-- The double `1.0` is spelled `1`, and `1.0` in the store; every text but the two documents has the hash of the output. -/
def doublesEncoder : CanonicalEncoder := .ofTable (fun _ => "1") doublesHash doublesDocuments

/-- An accepted output of 32766 doubles and 983040 letters. -/
def wideOutput : Json := doublesOutput 32766 983040

theorem byteLen_wideOutput : byteLen (wideOutput.canonical doublesEncoder) = 1048576 :=
  byteLen_doubles rfl 32765 983040

theorem wideOutput_keeps : doublesEncoder.KeepsFractions wideOutput :=
  countNumbers_doubles _ 32766 983040

theorem validateToolOutput_wideOutput :
    validateToolOutput doublesEncoder.digests wideOutput =
      .ok ⟨1048576, sha256Digest doublesHash⟩ := by
  refine validateToolOutput_eq_ok.mpr ⟨⟨?_, ?_, ?_, ?_⟩, ?_⟩
  · rw [wideOutput, depth_doubles]
    decide
  · rw [wideOutput, nodes_doubles]
    decide
  · rw [wideOutput, textBytes_doubles]
    decide
  · rw [byteLen_wideOutput]
    decide
  · have hother : ∀ entry ∈ doublesDocuments, entry.text ≠ wideOutput.canonical doublesEncoder := by
      intro entry hentry
      simp only [doublesDocuments, List.mem_cons, List.not_mem_nil, or_false] at hentry
      rcases hentry with rfl | rfl
      · exact Json.write_object_ne_array _ _
      · exact Json.write_object_ne_array _ _
    have hhash : doublesEncoder.sha256 (wideOutput.canonical doublesEncoder) = doublesHash :=
      CanonicalEncoder.ofTable_sha256_default hother
    rw [byteLen_wideOutput, hhash]
    rfl

theorem wideOutput_built : ∃ record, ToolOutputRecord.new doublesEncoder.digests "run-1" "step-a"
    boundIntent 1 (sampleDigest '7') wideOutput = .ok record := by
  have hinputs : (doublesDocuments.map Spelled.input).Nodup := by decide
  have htexts : (doublesDocuments.map Spelled.text).Nodup := by
    refine List.nodup_cons.mpr ⟨fun hmem => ?_, List.nodup_singleton _⟩
    have hkeys := Json.first_key (by decide) (by decide) (List.mem_singleton.mp hmem)
    exact absurd hkeys (by decide)
  have hname : doublesEncoder.digests.identifier "output-" (.toolOutputId "run-1" "step-a" "effect-a"
      1 (sha256Digest doublesHash)) (fun _ => ToolOutputError.canonicalization) =
        .ok ("output-" ++ doublesIdHash.val) :=
    Digests.identifier_eq_ok.mpr ⟨_, CanonicalEncoder.ofTable_canonicalize hinputs htexts
      List.mem_cons_self (by simp), rfl⟩
  have hrecord : doublesEncoder.digests.digest (.toolOutputRecord 1 ("output-" ++ doublesIdHash.val)
      "run-1" "step-a" "effect-a" (sampleDigest 'a') sampleInvocationBinding "plan-1" 1
      (sampleDigest '7') 1048576 (sha256Digest doublesHash))
      (fun _ => ToolOutputError.canonicalization) = .ok (sha256Digest doublesRecordHash) :=
    Digests.digest_eq_ok.mpr ⟨_, CanonicalEncoder.ofTable_canonicalize hinputs htexts
      (List.mem_cons_of_mem _ List.mem_cons_self) (by simp), rfl⟩
  have hidentity : validateToolOutputIdentity "run-1" "step-a" boundIntent 1 = .ok () := by
    decide
  exact ⟨_, ToolOutputRecord.new_eq_ok rfl hidentity (by decide)
    validateToolOutput_wideOutput hname hrecord⟩

/-- The wide output is accepted, and its record does not fit. -/
theorem doubles_do_not_fit : ∃ record, ToolOutputRecord.new doublesEncoder.digests "run-1" "step-a"
    boundIntent 1 (sampleDigest '7') wideOutput = .ok record ∧
      byteLen (record.recordJson doublesEncoder) = 1114988 ∧
      recordJsonFits (record.recordJson doublesEncoder) = false := by
  obtain ⟨record, hbuilt⟩ := wideOutput_built
  have hidentity : ((recordIdentity "run-1" "step-a" boundIntent (sampleDigest '7')).map
      fun field => byteLen (quoted field)).sum = 354 := by decide
  have hdigits : byteLen (toString (1048576 : ℕ)) = 7 := by decide
  have hattempt : byteLen (toString (1 : UInt32).toNat) = 1 := by decide
  have hcount : wideOutput.countNumbers doublesEncoder.isIntegral = 32766 :=
    countNumbers_doubles _ 32766 983040
  have hlength : byteLen (record.recordJson doublesEncoder) = 1114988 := by
    rw [byteLen_recordJson wideOutput_keeps hbuilt, storedRecordBytes, hidentity, byteLen_wideOutput, hdigits,
      hattempt, hcount]
    rfl
  refine ⟨record, hbuilt, hlength, ?_⟩
  rw [recordJsonFits, hlength]
  decide

/-- The law on the record of the wide output. -/
theorem tool_output_fits_sample : ∃ record, ToolOutputRecord.new doublesEncoder.digests "run-1"
    "step-a" boundIntent 1 (sampleDigest '7') wideOutput = .ok record ∧
      (recordJsonFits (record.recordJson doublesEncoder) = true ↔
        storedRecordBytes doublesEncoder "run-1" "step-a" boundIntent 1 (sampleDigest '7')
          wideOutput ≤ 1100000) := by
  obtain ⟨record, hbuilt⟩ := wideOutput_built
  exact ⟨record, hbuilt, tool_output_fits_iff wideOutput_keeps hbuilt⟩

end Xgeny
