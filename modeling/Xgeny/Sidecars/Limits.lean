import Xgeny.SidecarChecks
import Xgeny.Sidecars.JsonText

set_option autoImplicit false

/-!
# The limits of a tool output

A tool output is bounded before it is recorded: the nesting, the number of values, the bytes of its
text and the canonical bytes. The program walks the value with a stack and counts as it goes; here
the four quantities are defined by recursion, and the walk is shown to test exactly them.

* `Json.depth`, `Json.nodes`, `Json.textBytes`: the quantities;
* `StackShallow`, `stackNodes`, `stackText`: what the walk tests of a stack;
* `walkToolOutput_eq_ok`, `walkToolOutput_nodes`: the walk;
* **`tool_output_limits_exact`**: the limits of a tool output.
-/

namespace Xgeny

namespace Json

/-! ## The quantities -/

mutual

/-- The nesting depth: a value without members has depth zero. -/
def depth : Json → ℕ
  | .array values => depthValues values
  | .object members => depthMembers members
  | _ => 0

def depthValues : List Json → ℕ
  | [] => 0
  | value :: rest => max (depth value + 1) (depthValues rest)

def depthMembers : List (String × Json) → ℕ
  | [] => 0
  | (_, value) :: rest => max (depth value + 1) (depthMembers rest)

end

mutual

/-- The number of JSON values in a value, itself included. -/
def nodes : Json → ℕ
  | .array values => 1 + nodesValues values
  | .object members => 1 + nodesMembers members
  | _ => 1

def nodesValues : List Json → ℕ
  | [] => 0
  | value :: rest => nodes value + nodesValues rest

def nodesMembers : List (String × Json) → ℕ
  | [] => 0
  | (_, value) :: rest => nodes value + nodesMembers rest

end

mutual

/-- The bytes of all strings and object keys. -/
def textBytes : Json → ℕ
  | .string text => byteLen text
  | .array values => textBytesValues values
  | .object members => textBytesMembers members
  | _ => 0

def textBytesValues : List Json → ℕ
  | [] => 0
  | value :: rest => textBytes value + textBytesValues rest

def textBytesMembers : List (String × Json) → ℕ
  | [] => 0
  | (key, value) :: rest => byteLen key + textBytes value + textBytesMembers rest

end

theorem nodes_pos (value : Json) : 0 < value.nodes := by
  cases value <;> simp [nodes]

theorem length_le_nodesValues (values : List Json) : values.length ≤ nodesValues values := by
  induction values with
  | nil => exact Nat.le_refl _
  | cons value rest ih =>
    have hvalue := nodes_pos value
    simp only [List.length_cons, nodesValues]
    omega

theorem length_le_nodesMembers (members : List (String × Json)) :
    members.length ≤ nodesMembers members := by
  induction members with
  | nil => exact Nat.le_refl _
  | cons member rest ih =>
    have hvalue := nodes_pos member.2
    simp only [List.length_cons, nodesMembers]
    omega

end Json

/-! ## Stacks -/

/-- The values on a stack of the walk. -/
def stackNodes : List (Json × ℕ) → ℕ
  | [] => 0
  | (value, _) :: pending => value.nodes + stackNodes pending

/-- The text of the values on a stack of the walk. -/
def stackText : List (Json × ℕ) → ℕ
  | [] => 0
  | (value, _) :: pending => value.textBytes + stackText pending

/-- No value on the stack is nested too deep. -/
def StackShallow (stack : List (Json × ℕ)) : Prop :=
  ∀ entry ∈ stack, entry.1.depth + entry.2 ≤ maxToolOutputDepth

theorem length_le_stackNodes (stack : List (Json × ℕ)) : stack.length ≤ stackNodes stack := by
  induction stack with
  | nil => exact Nat.le_refl _
  | cons entry pending ih =>
    have hvalue := Json.nodes_pos entry.1
    simp only [List.length_cons, stackNodes]
    omega

theorem stackShallow_cons {value : Json} {depth : ℕ} {pending : List (Json × ℕ)} :
    StackShallow ((value, depth) :: pending) ↔
      value.depth + depth ≤ maxToolOutputDepth ∧ StackShallow pending :=
  List.forall_mem_cons

theorem stackNodes_values (values : List Json) (depth : ℕ) (pending : List (Json × ℕ)) :
    stackNodes (values.map (fun value => (value, depth)) ++ pending) =
      Json.nodesValues values + stackNodes pending := by
  induction values with
  | nil => simp [Json.nodesValues]
  | cons value rest ih =>
    simp only [List.map_cons, List.cons_append, stackNodes, Json.nodesValues, ih]
    omega

theorem stackNodes_members (members : List (String × Json)) (depth : ℕ)
    (pending : List (Json × ℕ)) :
    stackNodes (members.map (fun member => (member.2, depth)) ++ pending) =
      Json.nodesMembers members + stackNodes pending := by
  induction members with
  | nil => simp [Json.nodesMembers]
  | cons member rest ih =>
    simp only [List.map_cons, List.cons_append, stackNodes, Json.nodesMembers, ih]
    omega

theorem stackText_values (values : List Json) (depth : ℕ) (pending : List (Json × ℕ)) :
    stackText (values.map (fun value => (value, depth)) ++ pending) =
      Json.textBytesValues values + stackText pending := by
  induction values with
  | nil => simp [Json.textBytesValues]
  | cons value rest ih =>
    simp only [List.map_cons, List.cons_append, stackText, Json.textBytesValues, ih]
    omega

/-- The keys of an object. -/
def keyBytes (members : List (String × Json)) : ℕ :=
  (members.map fun member => byteLen member.1).sum

theorem stackText_members (members : List (String × Json)) (depth : ℕ)
    (pending : List (Json × ℕ)) :
    keyBytes members + stackText (members.map (fun member => (member.2, depth)) ++ pending) =
      Json.textBytesMembers members + stackText pending := by
  induction members with
  | nil => simp [Json.textBytesMembers, keyBytes]
  | cons member rest ih =>
    simp only [keyBytes, List.map_cons, List.sum_cons, List.cons_append, stackText,
      Json.textBytesMembers] at ih ⊢
    omega

theorem stackShallow_values (values : List Json) (depth : ℕ) (pending : List (Json × ℕ))
    (hdepth : depth ≤ maxToolOutputDepth) :
    StackShallow (values.map (fun value => (value, depth + 1)) ++ pending) ↔
      Json.depthValues values + depth ≤ maxToolOutputDepth ∧ StackShallow pending := by
  induction values with
  | nil => simp [Json.depthValues, hdepth]
  | cons value rest ih =>
    simp only [List.map_cons, List.cons_append, stackShallow_cons, ih, Json.depthValues]
    rw [← and_assoc]
    refine and_congr_left fun _ => ?_
    omega

theorem stackShallow_members (members : List (String × Json)) (depth : ℕ)
    (pending : List (Json × ℕ)) (hdepth : depth ≤ maxToolOutputDepth) :
    StackShallow (members.map (fun member => (member.2, depth + 1)) ++ pending) ↔
      Json.depthMembers members + depth ≤ maxToolOutputDepth ∧ StackShallow pending := by
  induction members with
  | nil => simp [Json.depthMembers, hdepth]
  | cons member rest ih =>
    simp only [List.map_cons, List.cons_append, stackShallow_cons, ih, Json.depthMembers]
    rw [← and_assoc]
    refine and_congr_left fun _ => ?_
    omega

/-! ## The steps of the walk -/

theorem boundedToolOutputTextAdd_eq_ok {current added total : ℕ} :
    boundedToolOutputTextAdd current added = .ok total ↔
      current + added ≤ maxToolOutputTextBytes ∧ total = current + added := by
  simp only [boundedToolOutputTextAdd, Outcome.bind_eq_ok, Outcome.exists_unit,
    Outcome.failIf_eq_ok, Decidable.not_not, Outcome.pure_eq_ok]
  exact and_congr_right fun _ => eq_comm

theorem foldl_boundedToolOutputTextAdd {members : List (String × Json)} {text total : ℕ}
    (htext : text ≤ maxToolOutputTextBytes) :
    Outcome.foldl (fun total member => boundedToolOutputTextAdd total (byteLen member.1)) text
        members = .ok total ↔
      text + keyBytes members ≤ maxToolOutputTextBytes ∧ total = text + keyBytes members := by
  induction members generalizing text with
  | nil =>
    simp only [Outcome.foldl, keyBytes, List.map_nil, List.sum_nil, Nat.add_zero, htext, true_and,
      Except.ok.injEq]
    exact eq_comm
  | cons member rest ih =>
    simp only [Outcome.foldl, Outcome.bind_eq_ok, boundedToolOutputTextAdd_eq_ok]
    have hkeys : keyBytes (member :: rest) = byteLen member.1 + keyBytes rest := by
      simp [keyBytes]
    rw [hkeys, ← Nat.add_assoc]
    constructor
    · rintro ⟨_, ⟨hfits, rfl⟩, hrest⟩
      exact (ih hfits).mp hrest
    · intro h
      have hfits : text + byteLen member.1 ≤ maxToolOutputTextBytes := by omega
      exact ⟨_, ⟨hfits, rfl⟩, (ih hfits).mpr h⟩

theorem keyBytes_reverse (members : List (String × Json)) :
    keyBytes members.reverse = keyBytes members := by
  rw [keyBytes, keyBytes, List.map_reverse, List.sum_reverse]

theorem ensureToolOutputPendingBound_eq_ok {visited pending children : ℕ} :
    ensureToolOutputPendingBound visited pending children = .ok () ↔
      visited + pending + children ≤ maxToolOutputNodes := by
  simp [ensureToolOutputPendingBound]

/-- **The walk tests the stack.** It succeeds when no value is nested too deep, the values fit in
what is left of the node budget, and the text fits in what is left of the text budget. -/
theorem walkToolOutput_eq_ok {remaining text : ℕ} {stack : List (Json × ℕ)}
    (hremaining : remaining ≤ maxToolOutputNodes) (htext : text ≤ maxToolOutputTextBytes) :
    walkToolOutput remaining text stack = .ok () ↔ StackShallow stack ∧
      stackNodes stack ≤ remaining ∧ text + stackText stack ≤ maxToolOutputTextBytes := by
  induction remaining generalizing text stack with
  | zero =>
    cases stack with
    | nil => simp [walkToolOutput, StackShallow, stackNodes, stackText, htext]
    | cons entry pending =>
      have hnodes := Json.nodes_pos entry.1
      simp only [walkToolOutput, Outcome.bind_eq_ok, stackNodes]
      constructor
      · rintro ⟨_, _, hfail⟩
        simp at hfail
      · rintro ⟨_, hfits, _⟩
        omega
  | succ remaining ih =>
    cases stack with
    | nil => simp [walkToolOutput, StackShallow, stackNodes, stackText, htext]
    | cons entry pending =>
      obtain ⟨value, depth⟩ := entry
      have hbudget : remaining ≤ maxToolOutputNodes := by omega
      rw [stackShallow_cons]
      cases value with
      | null | bool | number =>
        simp only [walkToolOutput, Outcome.bind_eq_ok, Outcome.exists_unit, Outcome.failIf_eq_ok,
          ih hbudget htext, stackNodes, stackText, Json.depth, Json.nodes, Json.textBytes]
        constructor
        · rintro ⟨hdepth, hshallow, hnodes, hbytes⟩
          exact ⟨⟨by omega, hshallow⟩, by omega, by omega⟩
        · rintro ⟨⟨hdepth, hshallow⟩, hnodes, hbytes⟩
          exact ⟨by omega, hshallow, by omega, by omega⟩
      | string content =>
        simp only [walkToolOutput, Outcome.bind_eq_ok, Outcome.exists_unit, Outcome.failIf_eq_ok,
          boundedToolOutputTextAdd_eq_ok, stackNodes, stackText, Json.depth, Json.nodes,
          Json.textBytes]
        constructor
        · rintro ⟨hdepth, _, ⟨hfits, rfl⟩, hrest⟩
          obtain ⟨hshallow, hnodes, hbytes⟩ := (ih hbudget hfits).mp hrest
          exact ⟨⟨by omega, hshallow⟩, by omega, by omega⟩
        · rintro ⟨⟨hdepth, hshallow⟩, hnodes, hbytes⟩
          have hfits : text + byteLen content ≤ maxToolOutputTextBytes := by omega
          exact ⟨by omega, _, ⟨hfits, rfl⟩,
            (ih hbudget hfits).mpr ⟨hshallow, by omega, by omega⟩⟩
      | array values =>
        -- the pending bound follows from the node budget: every pending value is a node
        have hlength := Json.length_le_nodesValues values
        have hpending := length_le_stackNodes pending
        simp only [walkToolOutput, Outcome.bind_eq_ok, Outcome.exists_unit, Outcome.failIf_eq_ok,
          ensureToolOutputPendingBound_eq_ok, ih hbudget htext, stackNodes_values,
          stackText_values, stackNodes, stackText, Json.depth, Json.nodes, Json.textBytes]
        constructor
        · rintro ⟨hdepth, _, hshallow, hnodes, hbytes⟩
          rw [stackShallow_values _ _ _ (by omega)] at hshallow
          exact ⟨hshallow, by omega, by omega⟩
        · rintro ⟨hshallow, hnodes, hbytes⟩
          have hdepth : depth ≤ maxToolOutputDepth := by omega
          rw [stackShallow_values _ _ _ hdepth]
          exact ⟨by omega, by omega, hshallow, by omega, by omega⟩
      | object members =>
        have hlength := Json.length_le_nodesMembers members
        have hpending := length_le_stackNodes pending
        have htexts := stackText_members members (depth + 1) pending
        simp only [walkToolOutput, Outcome.bind_eq_ok, Outcome.exists_unit, Outcome.failIf_eq_ok,
          ensureToolOutputPendingBound_eq_ok, foldl_boundedToolOutputTextAdd htext,
          keyBytes_reverse, stackNodes, stackText, Json.depth, Json.nodes, Json.textBytes]
        constructor
        · rintro ⟨hdepth, _, _, ⟨hfits, rfl⟩, hrest⟩
          obtain ⟨hshallow, hnodes, hbytes⟩ := (ih hbudget hfits).mp hrest
          rw [stackShallow_members _ _ _ (by omega)] at hshallow
          rw [stackNodes_members] at hnodes
          exact ⟨hshallow, by omega, by omega⟩
        · rintro ⟨hshallow, hnodes, hbytes⟩
          have hdepth : depth ≤ maxToolOutputDepth := by omega
          have hfits : text + keyBytes members ≤ maxToolOutputTextBytes := by omega
          refine ⟨by omega, by omega, _, ⟨hfits, rfl⟩, (ih hbudget hfits).mpr ?_⟩
          rw [stackShallow_members _ _ _ hdepth, stackNodes_members]
          exact ⟨hshallow, by omega, by omega⟩

theorem boundedToolOutputTextAdd_eq_error {current added : ℕ} {fault : Fault ToolOutputError}
    (h : boundedToolOutputTextAdd current added = .error fault) : fault = .err .textBytesExceeded := by
  simp only [boundedToolOutputTextAdd, Outcome.bind_eq_error, Outcome.failIf_eq_error] at h
  rcases h with ⟨_, hfault⟩ | ⟨_, _, hpure⟩
  · exact hfault
  · cases hpure

theorem foldl_boundedToolOutputTextAdd_eq_error {members : List (String × Json)} {text : ℕ}
    {fault : Fault ToolOutputError}
    (h : Outcome.foldl (fun total member => boundedToolOutputTextAdd total (byteLen member.1)) text
      members = .error fault) : fault = .err .textBytesExceeded := by
  induction members generalizing text with
  | nil => simp [Outcome.foldl] at h
  | cons member rest ih =>
    simp only [Outcome.foldl, Outcome.bind_eq_error] at h
    rcases h with hfirst | ⟨_, _, hrest⟩
    · exact boundedToolOutputTextAdd_eq_error hfirst
    · exact ih hrest

/-- **The early bound is about the nodes.** The walk reports the node count only when the values do
not fit in what is left of the node budget. -/
theorem walkToolOutput_nodes {remaining text : ℕ} {stack : List (Json × ℕ)}
    (hremaining : remaining ≤ maxToolOutputNodes)
    (h : walkToolOutput remaining text stack = .error (.err .nodeCountExceeded)) :
    remaining < stackNodes stack := by
  induction remaining generalizing text stack with
  | zero =>
    cases stack with
    | nil => simp [walkToolOutput] at h
    | cons entry pending =>
      have hnodes := Json.nodes_pos entry.1
      simp only [stackNodes]
      omega
  | succ remaining ih =>
    cases stack with
    | nil => simp [walkToolOutput] at h
    | cons entry pending =>
      obtain ⟨value, depth⟩ := entry
      have hbudget : remaining ≤ maxToolOutputNodes := by omega
      have hpending := length_le_stackNodes pending
      cases value with
      | null | bool | number =>
        simp only [walkToolOutput, Outcome.bind_eq_error, Outcome.failIf_eq_error,
          Fault.err.injEq, reduceCtorEq, and_false, false_or] at h
        obtain ⟨_, _, hrest⟩ := h
        have hnodes := ih hbudget hrest
        simp only [stackNodes, Json.nodes]
        omega
      | string content =>
        simp only [walkToolOutput, Outcome.bind_eq_error, Outcome.failIf_eq_error,
          Fault.err.injEq, reduceCtorEq, and_false, false_or] at h
        rcases h with ⟨_, _, htext | ⟨_, _, hrest⟩⟩
        · simpa using boundedToolOutputTextAdd_eq_error htext
        · have hnodes := ih hbudget hrest
          simp only [stackNodes, Json.nodes]
          omega
      | array values =>
        have hlength := Json.length_le_nodesValues values
        simp only [walkToolOutput, Outcome.bind_eq_error, Outcome.failIf_eq_error,
          ensureToolOutputPendingBound, Fault.err.injEq, reduceCtorEq, and_false, and_true,
          false_or] at h
        simp only [stackNodes, Json.nodes]
        rcases h with ⟨_, _, hbound | ⟨_, _, hrest⟩⟩
        · omega
        · have hnodes := ih hbudget hrest
          rw [stackNodes_values] at hnodes
          omega
      | object members =>
        have hlength := Json.length_le_nodesMembers members
        simp only [walkToolOutput, Outcome.bind_eq_error, Outcome.failIf_eq_error,
          ensureToolOutputPendingBound, Fault.err.injEq, reduceCtorEq, and_false, and_true,
          false_or] at h
        simp only [stackNodes, Json.nodes]
        rcases h with ⟨_, _, hbound | ⟨_, _, htext | ⟨_, _, hrest⟩⟩⟩
        · omega
        · simpa using foldl_boundedToolOutputTextAdd_eq_error htext
        · have hnodes := ih hbudget hrest
          rw [stackNodes_members] at hnodes
          omega

/-! ## The limits -/

variable {E : CanonicalEncoder} {output : Json}

theorem validateToolOutput_eq_ok {validated : ValidatedToolOutput} :
    validateToolOutput E.digests output = .ok validated ↔
      (output.depth ≤ maxToolOutputDepth ∧ output.nodes ≤ maxToolOutputNodes ∧
        output.textBytes ≤ maxToolOutputTextBytes ∧
        byteLen (output.canonical E) ≤ maxToolOutputCanonicalBytes) ∧
      validated = ⟨(byteLen (output.canonical E)).toUInt64,
        sha256Digest (E.sha256 (output.canonical E))⟩ := by
  have hwalk : walkToolOutput maxToolOutputNodes 0 [(output, 0)] = .ok () ↔ _ :=
    walkToolOutput_eq_ok (Nat.le_refl maxToolOutputNodes) (Nat.zero_le _)
  simp only [StackShallow, List.mem_singleton, forall_eq, stackNodes, stackText, Nat.add_zero,
    Nat.zero_add] at hwalk
  simp only [validateToolOutput, Outcome.bind_eq_ok, Outcome.exists_unit, hwalk,
    Digests.toVec_eq_ok, CanonicalEncoder.canonicalize_eq_ok, CanonicalEncoder.toVec,
    Outcome.failIf_eq_ok, Outcome.pure_eq_ok, Except.ok.injEq, Json.canonical, not_lt, gt_iff_lt]
  constructor
  · rintro ⟨⟨hdepth, hnodes, htext⟩, _, ⟨_, rfl, rfl⟩, hsize, rfl⟩
    exact ⟨⟨hdepth, hnodes, htext, hsize⟩, rfl⟩
  · rintro ⟨⟨hdepth, hnodes, htext, hsize⟩, rfl⟩
    exact ⟨⟨hdepth, hnodes, htext⟩, _, ⟨_, rfl, rfl⟩, hsize, rfl⟩

/-- **The limits of a tool output are exact.** A JSON value is accepted exactly when it is nested at
most 64 deep, has at most 32768 values, at most 1048576 bytes of text and at most 1048576 canonical
bytes; the node limit is reported only for a value that exceeds it; and the reported size and digest
are those of the canonical bytes. -/
theorem tool_output_limits_exact (E : CanonicalEncoder) (output : Json) :
    ((∃ validated, validateToolOutput E.digests output = .ok validated) ↔
      output.depth ≤ 64 ∧ output.nodes ≤ 32768 ∧ output.textBytes ≤ 1048576 ∧
        byteLen (output.canonical E) ≤ 1048576) ∧
    (validateToolOutput E.digests output = Outcome.fail .nodeCountExceeded →
      32768 < output.nodes) ∧
    ∀ validated, validateToolOutput E.digests output = .ok validated →
      validated.canonicalSizeBytes.toNat = byteLen (output.canonical E) ∧
        validated.outputDigest = sha256Digest (E.sha256 (output.canonical E)) := by
  refine ⟨?_, fun hfail => ?_, fun validated hok => ?_⟩
  · constructor
    · rintro ⟨_, hok⟩
      exact (validateToolOutput_eq_ok.mp hok).1
    · exact fun hlimits => ⟨_, validateToolOutput_eq_ok.mpr ⟨hlimits, rfl⟩⟩
  · simp only [validateToolOutput, Outcome.fail, Outcome.bind_eq_error] at hfail
    rcases hfail with hwalk | ⟨_, _, hcanonical | ⟨_, _, hsize | ⟨_, _, hpure⟩⟩⟩
    · have hnodes := walkToolOutput_nodes (Nat.le_refl maxToolOutputNodes) hwalk
      simpa [stackNodes, maxToolOutputNodes] using hnodes
    · simp only [Digests.toVec, CanonicalEncoder.digests, CanonicalEncoder.toVec, Except.map] at hcanonical
      simp at hcanonical
    · simp [Outcome.failIf_eq_error] at hsize
    · cases hpure
  · obtain ⟨⟨_, _, _, hsize⟩, rfl⟩ := validateToolOutput_eq_ok.mp hok
    refine ⟨?_, rfl⟩
    show (byteLen (output.canonical E)).toUInt64.toNat = _
    rw [Nat.toUInt64_eq, UInt64.toNat_ofNat']
    exact Nat.mod_eq_of_lt (Nat.lt_of_le_of_lt hsize (by decide))

end Xgeny
