import Xgeny.Event

set_option autoImplicit false

/-!
# Sidecar records

The four kinds of self-verifying records that are committed beside the journal and never inside
it: the recipe of a planned invocation, the material of an effect intent, the output of a tool and
the output of a completion. A JSON value is `serde_json::Value`; the members of an object stand in
key order.
-/

namespace Xgeny

/-! ## JSON values -/

/-- `serde_json::Number`; a float is given by its IEEE 754 bits. -/
inductive JsonNumber where
  | posInt (n : UInt64)
  | negInt (n : Int)
  | float (bits : UInt64)
  deriving DecidableEq

/-- `serde_json::Value`. -/
inductive Json where
  | null
  | bool (b : Bool)
  | number (n : JsonNumber)
  | string (s : String)
  | array (values : List Json)
  | object (members : List (String × Json))

namespace Json

mutual

/-- Equality of JSON values, computed along the first one. -/
def same : Json → Json → Bool
  | .null, .null => true
  | .bool a, .bool b => a == b
  | .number a, .number b => decide (a = b)
  | .string a, .string b => a == b
  | .array a, .array b => sameValues a b
  | .object a, .object b => sameMembers a b
  | _, _ => false

/-- Equality of arrays. -/
def sameValues : List Json → List Json → Bool
  | [], [] => true
  | a :: as, b :: bs => same a b && sameValues as bs
  | _, _ => false

/-- Equality of objects. -/
def sameMembers : List (String × Json) → List (String × Json) → Bool
  | [], [] => true
  | (k, a) :: as, (l, b) :: bs => k == l && same a b && sameMembers as bs
  | _, _ => false

end

mutual

theorem same_iff (a b : Json) : same a b = true ↔ a = b := by
  cases a <;> cases b <;> simp [same]
  case array.array xs ys => exact sameValues_iff xs ys
  case object.object xs ys => exact sameMembers_iff xs ys

theorem sameValues_iff (xs ys : List Json) : sameValues xs ys = true ↔ xs = ys := by
  cases xs <;> cases ys <;> simp [sameValues]
  case cons.cons x xs y ys => rw [same_iff x y, sameValues_iff xs ys]

theorem sameMembers_iff (xs ys : List (String × Json)) : sameMembers xs ys = true ↔ xs = ys := by
  match xs, ys with
  | [], [] => simp [sameMembers]
  | [], _ :: _ => simp [sameMembers]
  | _ :: _, [] => simp [sameMembers]
  | (k, x) :: xs, (l, y) :: ys =>
    simp only [sameMembers, Bool.and_eq_true, beq_iff_eq, List.cons.injEq, Prod.mk.injEq]
    rw [same_iff x y, sameMembers_iff xs ys]

end

instance : DecidableEq Json := fun a b => decidable_of_iff _ (same_iff a b)

end Json

/-! ## Records -/

/-- The version-pinned recipe reference from which arguments are rebuilt. -/
structure ReconstructableMaterialReference where
  providerId : String
  referenceId : String
  revision : String
  deriving DecidableEq

inductive InvocationMaterialRetention where
  | ephemeral
  | reconstructableReference (reference : ReconstructableMaterialReference)
  deriving DecidableEq

/-- The immutable recipe of one planned invocation. -/
structure PlannedInvocationMaterialRecord where
  formatVersion : UInt32
  runId : String
  stepId : String
  planId : String
  proposalDigest : String
  specDigest : String
  reference : ReconstructableMaterialReference
  recordDigest : String
  deriving DecidableEq

/-- The secret-free material binding of one effect intent. -/
structure InvocationMaterialRecord where
  formatVersion : UInt32
  materialId : String
  runId : String
  stepId : String
  effectId : String
  actionDigest : String
  invocation : InvocationBinding
  materialDigest : String
  retention : InvocationMaterialRetention
  recordDigest : String
  deriving DecidableEq

/-- One bounded tool observation. -/
structure ToolOutputRecord where
  formatVersion : UInt32
  outputId : String
  runId : String
  stepId : String
  effectId : String
  actionDigest : String
  invocation : InvocationBinding
  planId : String
  executionAttempt : UInt32
  evidenceDigest : String
  canonicalSizeBytes : UInt64
  outputDigest : String
  output : Json
  recordDigest : String
  deriving DecidableEq

/-- One final model summary. -/
structure CompletionOutputRecord where
  formatVersion : UInt32
  candidateId : String
  runId : String
  turnIndex : UInt32
  modelCallId : String
  contextDigest : String
  proposalDigest : String
  summarySizeBytes : UInt64
  summaryDigest : String
  summary : String
  recordDigest : String
  deriving DecidableEq

end Xgeny
