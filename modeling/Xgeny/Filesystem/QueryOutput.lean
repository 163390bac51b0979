import Xgeny.Adapter.ProcessEnvironment
import Xgeny.Filesystem.SearchMatches
import Xgeny.Sidecars.Encoding

set_option autoImplicit false

/-!
# The output of a query

A query returns the front of a list of values that fits into a bound on the canonical output, and a
flag that tells whether some values are missing. The output names the digest of the rest of it, so
that its size is known before the digest is.

* `boundedCollectionOutput`, `ObservedOutput.finish`: the routines; `retain`: the loop over the values;
* `outputSize`, **`collectionOutputSize_eq`**: the size of an output;
* `retain_measured`: the running size is the size of the output without the flag;
* **`bounded_collection_output_laws`**: what is returned;
* **`bounded_collection_not_maximal`**: with the flag, one more value could fit.
-/

namespace Xgeny

/-- `MAX_QUERY_OUTPUT_CANONICAL_BYTES`. -/
def maxQueryOutputCanonicalBytes : ℕ := 128 * 1024

/-! ## The routines -/

/-- `Map::insert`; the keys stay sorted. -/
def Json.insertMember (key : String) (value : Json) : List (String × Json) → List (String × Json)
  | [] => [(key, value)]
  | (other, old) :: rest =>
    if key = other then (other, value) :: rest
    else if key < other then (key, value) :: (other, old) :: rest
    else (other, old) :: insertMember key value rest

/-- `serde_jcs::to_vec` on a value. -/
def encodeValue (E : CanonicalEncoder) (value : Json) : Outcome QueryFailure String :=
  match E.toVec (.toolOutput value) with
  | .ok canonical => .ok canonical
  | .error _ => Outcome.fail .encode

structure ObservedOutput where
  payload : Json

structure FinishedOutput where
  output : Json
  digest : String

def ObservedOutput.finish (E : CanonicalEncoder) (self : ObservedOutput) :
    Outcome QueryFailure FinishedOutput := do
  let canonical ← encodeValue E self.payload
  let digest := sha256Digest (E.sha256 canonical)
  let object ← Outcome.okOr self.payload.asObject .encode
  let output := Json.object (Json.insertMember "digest" (.string digest) object)
  let text ← encodeValue E output
  Outcome.failIf (maxQueryOutputCanonicalBytes < byteLen text) .limit
  pure ⟨output, digest⟩

def collectionPayload (field : String) (values : List Json) (truncated : Bool) : Json :=
  .object (Json.insertMember "truncated" (.bool truncated)
    (Json.insertMember field (.array values) []))

def collectionOutputSizeFromPayload (E : CanonicalEncoder) (payload : Json) :
    Outcome QueryFailure ℕ := do
  let canonical ← encodeValue E payload
  let digest := sha256Digest (E.sha256 canonical)
  let object ← Outcome.okOr payload.asObject .encode
  let text ← encodeValue E (.object (Json.insertMember "digest" (.string digest) object))
  pure (byteLen text)

def collectionOutputSize (E : CanonicalEncoder) (field : String) (values : List Json)
    (truncated : Bool) : Outcome QueryFailure ℕ :=
  collectionOutputSizeFromPayload E (collectionPayload field values truncated)

/-- The variables of the loop. -/
structure Retained where
  retained : List Json
  projectedSize : ℕ

/-- One value is retained, or the loop ends before it. -/
def retainOne (E : CanonicalEncoder) (state : Retained) (candidate : Json) :
    Outcome QueryFailure (Option Retained) := do
  let text ← encodeValue E candidate
  let separator := if state.retained = [] then 0 else 1
  match (usizeCheckedAdd state.projectedSize separator).bind (usizeCheckedAdd · (byteLen text)) with
  | none => pure none
  | some nextSize =>
    if maxQueryOutputCanonicalBytes < nextSize then pure none
    else pure (some ⟨state.retained ++ [candidate], nextSize⟩)

/-- The loop over the values, and whether it ended before the last one. -/
def retain (E : CanonicalEncoder) : Retained → List Json → Outcome QueryFailure (Retained × Bool)
  | state, [] => .ok (state, false)
  | state, candidate :: rest => do
    match ← retainOne E state candidate with
    | none => pure (state, true)
    | some state => retain E state rest

def boundedCollectionOutput (E : CanonicalEncoder) (field : String) (candidates : List Json)
    (truncated : Bool) : Outcome QueryFailure ObservedOutput := do
  let base ← collectionOutputSize E field [] false
  let (state, ended) ← retain E ⟨[], base⟩ candidates
  let payload := collectionPayload field state.retained (truncated || ended)
  let size ← collectionOutputSizeFromPayload E payload
  Outcome.failIf (maxQueryOutputCanonicalBytes < size) .limit
  pure ⟨payload⟩

/-! ## Sizes -/

/-- The fields under which values are returned. -/
def collectionFields : List String := ["entries", "matches"]

section Sizes

variable {E : CanonicalEncoder} {field : String}

theorem encodeValue_eq (value : Json) : encodeValue E value = .ok (value.canonical E) := rfl

/-- The members of an output, in their order. -/
def outputMembers (field : String) (values : List Json) (truncated : Bool) (digest : String) :
    List (String × Json) :=
  [("digest", .string digest), (field, .array values), ("truncated", .bool truncated)]

theorem collectionPayload_eq (hfield : field ∈ collectionFields) (values : List Json)
    (truncated : Bool) :
    collectionPayload field values truncated =
      .object [(field, .array values), ("truncated", .bool truncated)] := by
  rw [collectionFields, List.mem_cons, List.mem_singleton] at hfield
  rcases hfield with rfl | rfl
  · rfl
  · rfl

theorem insert_digest (hfield : field ∈ collectionFields) (values : List Json) (truncated : Bool)
    (digest : String) :
    Json.insertMember "digest" (.string digest)
      [(field, .array values), ("truncated", .bool truncated)] =
      outputMembers field values truncated digest := by
  rw [collectionFields, List.mem_cons, List.mem_singleton] at hfield
  rcases hfield with rfl | rfl
  · rfl
  · rfl

/-- The size of an output: all but the values and the flag takes 108 bytes. -/
def outputSize (E : CanonicalEncoder) (values : List Json) (truncated : Bool) : ℕ :=
  108 + byteLen ((Json.array values).canonical E) + if truncated then 4 else 5

theorem byteLen_outputMembers (hfield : field ∈ collectionFields) (values : List Json)
    (truncated : Bool) (digest : Sha256Hex) :
    byteLen ((Json.object (outputMembers field values truncated (sha256Digest digest))).canonical E) =
      outputSize E values truncated := by
  have hdigest : byteLen ((Json.string (sha256Digest digest)).write E.spellCanonical) = 73 :=
    byteLen_quoted_digest (by decide) rfl digest
  have hkey : byteLen (quoted "digest") = 8 := by decide
  have hname : byteLen (quoted field) = 9 := by
    rw [collectionFields, List.mem_cons, List.mem_singleton] at hfield
    rcases hfield with rfl | rfl
    · decide
    · decide
  have hflag : byteLen (quoted "truncated") = 11 := by decide
  have hvalue : byteLen ((Json.bool truncated).write E.spellCanonical) =
      if truncated then 4 else 5 := by
    cases truncated with
    | false => rfl
    | true => rfl
  rw [Json.canonical, outputMembers, Json.byteLen_object (List.cons_ne_nil _ _)]
  simp only [List.map_cons, List.map_nil, List.sum_cons, List.sum_nil, List.length_cons,
    List.length_nil, hkey, hname, hflag, hvalue, hdigest]
  rw [outputSize, Json.canonical]
  omega

theorem size_object (members : List (String × Json)) :
    collectionOutputSizeFromPayload E (.object members) =
      .ok (byteLen ((Json.object (Json.insertMember "digest"
        (.string (sha256Digest (E.sha256 ((Json.object members).canonical E)))) members)).canonical E)) :=
  rfl

/-- **The size that is computed is that of the output.** -/
theorem collectionOutputSize_eq (hfield : field ∈ collectionFields) (values : List Json)
    (truncated : Bool) :
    collectionOutputSize E field values truncated = .ok (outputSize E values truncated) := by
  rw [collectionOutputSize, collectionPayload_eq hfield, size_object, insert_digest hfield,
    byteLen_outputMembers hfield]

theorem outputSize_concat (values : List Json) (value : Json) (truncated : Bool) :
    outputSize E (values ++ [value]) truncated =
      outputSize E values truncated + (if values = [] then 0 else 1) + byteLen (value.canonical E) := by
  unfold outputSize Json.canonical
  rw [Json.byteLen_array_concat]
  omega

end Sizes

/-! ## The loop -/

section Loop

variable {E : CanonicalEncoder}

/-- The running size is the size of the output without the flag. -/
def Retained.Measured (E : CanonicalEncoder) (state : Retained) : Prop :=
  state.projectedSize = outputSize E state.retained false

theorem usizeCheckedAdd_bind (a b c : ℕ) :
    (usizeCheckedAdd a b).bind (usizeCheckedAdd · c) =
      if a + b + c < 2 ^ 64 then some (a + b + c) else none := by
  unfold usizeCheckedAdd
  by_cases hfirst : a + b < 2 ^ 64
  · rw [if_pos hfirst, Option.bind_some]
  · rw [if_neg hfirst, if_neg (by omega), Option.bind_none]

theorem retainOne_eq {state : Retained} (h : state.Measured E) (candidate : Json) :
    retainOne E state candidate = .ok
      (if outputSize E (state.retained ++ [candidate]) false ≤ maxQueryOutputCanonicalBytes then
        some ⟨state.retained ++ [candidate], outputSize E (state.retained ++ [candidate]) false⟩
      else none) := by
  have hnext := @outputSize_concat E state.retained candidate false
  have hword : maxQueryOutputCanonicalBytes < 2 ^ 64 := by decide
  rw [← h] at hnext
  rw [retainOne, encodeValue_eq]
  simp only [bind, Except.bind]
  rw [usizeCheckedAdd_bind, ← hnext]
  by_cases hfits :
      outputSize E (state.retained ++ [candidate]) false ≤ maxQueryOutputCanonicalBytes
  · rw [if_pos (hfits.trans_lt hword), if_pos hfits]
    exact if_neg (Nat.not_lt.mpr hfits)
  · rw [if_neg hfits]
    -- either the sum does not fit into a word, or it is above the bound
    by_cases hsum : outputSize E (state.retained ++ [candidate]) false < 2 ^ 64
    · rw [if_pos hsum]
      exact if_pos (Nat.not_le.mp hfits)
    · rw [if_neg hsum]
      rfl

theorem retain_eq {state : Retained} (h : state.Measured E)
    (hfits : outputSize E state.retained false ≤ maxQueryOutputCanonicalBytes)
    (candidates : List Json) :
    ∃ count last, retain E state candidates = .ok (last, decide (count < candidates.length)) ∧
      last.retained = state.retained ++ candidates.take count ∧ last.Measured E ∧
      outputSize E last.retained false ≤ maxQueryOutputCanonicalBytes ∧
      count ≤ candidates.length ∧
      (count < candidates.length → maxQueryOutputCanonicalBytes <
        outputSize E (state.retained ++ candidates.take (count + 1)) false) := by
  induction candidates generalizing state with
  | nil => exact ⟨0, state, rfl, (List.append_nil _).symm, h, hfits, le_rfl, by simp⟩
  | cons candidate rest ih =>
    rw [retain, retainOne_eq h]
    by_cases hnext :
        outputSize E (state.retained ++ [candidate]) false ≤ maxQueryOutputCanonicalBytes
    · rw [if_pos hnext]
      obtain ⟨count, last, hretain, hfront, hmeasured, hsize, hcount, hmaximal⟩ :=
        @ih ⟨state.retained ++ [candidate], outputSize E (state.retained ++ [candidate]) false⟩ rfl
          hnext
      refine ⟨count + 1, last, ?_, ?_, hmeasured, hsize, Nat.succ_le_succ hcount, ?_⟩
      · simp only [List.length_cons, Nat.succ_lt_succ_iff]
        exact hretain
      · rw [hfront, List.take_succ_cons, List.append_assoc, List.singleton_append]
      · intro hmore
        have hlarge := hmaximal (Nat.succ_lt_succ_iff.mp hmore)
        rw [List.append_assoc, List.singleton_append] at hlarge
        exact hlarge
    · rw [if_neg hnext]
      refine ⟨0, state, rfl, (List.append_nil _).symm, h, hfits, Nat.zero_le _, fun _ => ?_⟩
      rw [List.take_succ_cons, List.take_zero]
      exact Nat.not_le.mp hnext

theorem retain_measured (candidates : List Json) :
    ∃ count last, retain E ⟨[], outputSize E [] false⟩ candidates =
        .ok (last, decide (count < candidates.length)) ∧
      last.retained = candidates.take count ∧ last.Measured E ∧
      outputSize E last.retained false ≤ maxQueryOutputCanonicalBytes ∧
      count ≤ candidates.length ∧
      (count < candidates.length →
        maxQueryOutputCanonicalBytes < outputSize E (candidates.take (count + 1)) false) := by
  have hempty : outputSize E [] false ≤ maxQueryOutputCanonicalBytes := by
    rw [outputSize, Json.canonical, Json.write, Json.writeValues]
    decide
  exact @retain_eq E ⟨[], outputSize E [] false⟩ rfl hempty candidates

end Loop

/-! ## What is returned -/

section Laws

variable {E : CanonicalEncoder} {field : String}

theorem finish_eq (hfield : field ∈ collectionFields) {values : List Json} {truncated : Bool}
    (hfits : outputSize E values truncated ≤ maxQueryOutputCanonicalBytes) :
    ∃ digest, digest = sha256Digest (E.sha256 ((collectionPayload field values truncated).canonical E)) ∧
      ObservedOutput.finish E ⟨collectionPayload field values truncated⟩ =
        .ok ⟨.object (outputMembers field values truncated digest), digest⟩ := by
  have hobject : ∀ members : List (String × Json),
      ObservedOutput.finish E ⟨.object members⟩ =
        let digest := sha256Digest (E.sha256 ((Json.object members).canonical E))
        let output := Json.object (Json.insertMember "digest" (.string digest) members)
        Outcome.failIf (maxQueryOutputCanonicalBytes < byteLen (output.canonical E)) .limit >>=
          fun _ => .ok ⟨output, digest⟩ := fun _ => rfl
  refine ⟨_, rfl, ?_⟩
  rw [collectionPayload_eq hfield, hobject]
  dsimp only
  rw [insert_digest hfield, byteLen_outputMembers hfield, Outcome.failIf,
    if_neg (Nat.not_lt.mpr hfits)]
  rfl

theorem boundedCollectionOutput_eq (hfield : field ∈ collectionFields) {candidates : List Json}
    {truncated ended : Bool} {last : Retained}
    (hretain : retain E ⟨[], outputSize E [] false⟩ candidates = .ok (last, ended))
    (hfits : outputSize E last.retained (truncated || ended) ≤ maxQueryOutputCanonicalBytes) :
    boundedCollectionOutput E field candidates truncated =
      .ok ⟨collectionPayload field last.retained (truncated || ended)⟩ := by
  have hsize := collectionOutputSize_eq (E := E) hfield last.retained (truncated || ended)
  unfold collectionOutputSize at hsize
  rw [boundedCollectionOutput, collectionOutputSize_eq hfield]
  simp only [bind, Except.bind]
  rw [hretain]
  dsimp only
  rw [hsize]
  dsimp only
  rw [Outcome.failIf, if_neg (Nat.not_lt.mpr hfits)]
  rfl

theorem outputSize_truncated (values : List Json) (truncated : Bool) :
    outputSize E values truncated ≤ outputSize E values false := by
  unfold outputSize
  cases truncated with
  | false => exact le_rfl
  | true => exact Nat.add_le_add_left (by decide) _

end Laws

/-- **What a query returns.** The size limit is never reached. A front of the values is returned, with
the flag set when it was set before or a value is missing, in an output that fits; the running size is
exact for the output without the flag, after every value; and the value behind the front would not
fit into the output without the flag. -/
theorem bounded_collection_output_laws (E : CanonicalEncoder) {field : String}
    (hfield : field ∈ collectionFields) (candidates : List Json) (truncated : Bool) :
    (∃ count observed finished, count ≤ candidates.length ∧
      boundedCollectionOutput E field candidates truncated = .ok observed ∧
      observed.finish E = .ok finished ∧
      observed.payload = collectionPayload field (candidates.take count)
        (truncated || decide (count < candidates.length)) ∧
      finished.digest = sha256Digest (E.sha256 (observed.payload.canonical E)) ∧
      finished.output = .object (outputMembers field (candidates.take count)
        (truncated || decide (count < candidates.length)) finished.digest) ∧
      byteLen (finished.output.canonical E) ≤ maxQueryOutputCanonicalBytes ∧
      (count < candidates.length →
        ∃ size, collectionOutputSize E field (candidates.take (count + 1)) false = .ok size ∧
          maxQueryOutputCanonicalBytes < size)) ∧
    ∀ done, ∃ base state ended, collectionOutputSize E field [] false = .ok base ∧
      retain E ⟨[], base⟩ (candidates.take done) = .ok (state, ended) ∧
      collectionOutputSize E field state.retained false = .ok state.projectedSize := by
  constructor
  · obtain ⟨count, last, hretain, hfront, -, hsize, hcount, hmaximal⟩ :=
      @retain_measured E candidates
    have hfits : outputSize E last.retained (truncated || decide (count < candidates.length)) ≤
        maxQueryOutputCanonicalBytes := (outputSize_truncated _ _).trans hsize
    obtain ⟨digest, hdigest, hfinish⟩ := finish_eq hfield hfits
    have houtput := boundedCollectionOutput_eq hfield hretain hfits
    rw [hfront] at houtput hfinish hdigest hfits
    refine ⟨count, _, _, hcount, houtput, hfinish, rfl, hdigest, rfl, ?_, fun hmore => ?_⟩
    · dsimp only
      rw [hdigest, byteLen_outputMembers hfield]
      exact hfits
    · exact ⟨_, collectionOutputSize_eq hfield _ _, hmaximal hmore⟩
  · intro done
    obtain ⟨count, last, hretain, -, hmeasured, -⟩ := @retain_measured E (candidates.take done)
    refine ⟨_, last, _, collectionOutputSize_eq hfield _ _, hretain, ?_⟩
    rw [collectionOutputSize_eq hfield, hmeasured]

/-- An encoder whose documents and digests do not matter. -/
def queryEncoder : CanonicalEncoder where
  spellDouble _ := "0.5"
  spellStoredDouble _ := "0.5"
  document _ := .ok "\x7b\x7d"
  sha256 _ := doublesHash

/-- A value that is one byte too long for an output without the flag. -/
def longEntry : Json := .string (String.ofList (List.replicate 130956 'a'))

theorem byteLen_longEntry : byteLen (longEntry.canonical queryEncoder) = 130958 := by
  rw [longEntry, Json.canonical, Json.write, byteLen_quoted_letters]

theorem outputSize_empty (truncated : Bool) :
    outputSize queryEncoder [] truncated = 110 + if truncated then 4 else 5 := by
  have harray : byteLen ((Json.array []).canonical queryEncoder) = 2 := rfl
  rw [outputSize, harray]

/-- Of two values the first fits, and the second one is left out. -/
theorem bounded_collection_output_laws_sample : ∃ observed finished,
    boundedCollectionOutput queryEncoder "entries" [.string "a.rs", longEntry] false = .ok observed ∧
      observed.payload = collectionPayload "entries" [.string "a.rs"] true ∧
      observed.finish queryEncoder = .ok finished ∧
      byteLen (finished.output.canonical queryEncoder) ≤ maxQueryOutputCanonicalBytes := by
  obtain ⟨⟨count, observed, finished, hcount, houtput, hfinish, hpayload, hdigest, hmembers, hfits,
    hmaximal⟩, -⟩ := @bounded_collection_output_laws queryEncoder "entries" (by decide)
      [.string "a.rs", longEntry] false
  have hname : byteLen ((Json.string "a.rs").canonical queryEncoder) = 6 := by decide
  have hfirst : ∀ flag, outputSize queryEncoder [.string "a.rs"] flag =
      116 + if flag then 4 else 5 := by
    intro flag
    have hconcat := @outputSize_concat queryEncoder [] (.string "a.rs") flag
    rw [hname, outputSize_empty, if_pos rfl, List.nil_append] at hconcat
    omega
  have hlimit : maxQueryOutputCanonicalBytes = 131072 := rfl
  have hone : count = 1 := by
    rcases count with _ | _ | _ | count
    · -- the first value fits
      obtain ⟨size, hsize, hlong⟩ := hmaximal (by decide)
      rw [collectionOutputSize_eq (by decide)] at hsize
      have hsame := Except.ok.inj hsize
      rw [List.take, List.take, hfirst] at hsame
      simp at hsame
      omega
    · rfl
    · -- both do not
      rw [hmembers, hdigest, byteLen_outputMembers (by decide)] at hfits
      have hconcat := @outputSize_concat queryEncoder [.string "a.rs"] longEntry false
      rw [byteLen_longEntry, hfirst, if_neg (by simp)] at hconcat
      simp at hconcat hfits
      omega
    · simp at hcount
  subst hone
  exact ⟨observed, finished, houtput, hpayload, hfinish, hfits⟩

/-- **One more value could fit.** Where the flag is set already, a value is left out although the
output with it is as long as the limit. -/
theorem bounded_collection_not_maximal :
    boundedCollectionOutput queryEncoder "entries" [longEntry] true =
        .ok ⟨collectionPayload "entries" [] true⟩ ∧
      collectionOutputSize queryEncoder "entries" [longEntry] true =
        .ok maxQueryOutputCanonicalBytes := by
  have hfield : "entries" ∈ collectionFields := by decide
  have hsize : ∀ flag, outputSize queryEncoder [longEntry] flag = 131068 + if flag then 4 else 5 := by
    intro flag
    have hconcat := @outputSize_concat queryEncoder [] longEntry flag
    rw [byteLen_longEntry, outputSize_empty, if_pos rfl] at hconcat
    rw [← List.nil_append [longEntry], hconcat]
    omega
  have hretain : retain queryEncoder ⟨[], outputSize queryEncoder [] false⟩ [longEntry] =
      .ok (⟨[], outputSize queryEncoder [] false⟩, true) := by
    rw [retain, @retainOne_eq queryEncoder ⟨[], outputSize queryEncoder [] false⟩ rfl, if_neg]
    · rfl
    · dsimp only
      rw [List.nil_append, hsize]
      decide
  constructor
  · refine boundedCollectionOutput_eq hfield hretain ?_
    rw [outputSize_empty]
    decide
  · rw [collectionOutputSize_eq hfield, hsize]
    rfl

end Xgeny
