import Xgeny.Lib.EventLog
import Xgeny.Reducer.Intent
import Xgeny.Reducer.Plan

set_option autoImplicit false

/-!
# Applying and replaying records

`applyRecord` checks one record against the current projection and applies its event; `replay`
rebuilds the projection of a whole journal.

* `Reachable`: the states that some journal replays to.
-/

namespace Xgeny

section

variable (D : Digests)

def applyBody (state : RunState) (body : RunEventBody) : Outcome TransitionError RunState :=
  match body with
  | .runCreated _ => Outcome.abort "handled by apply_record"
  | .agentLoopConfigured budget => configureAgentLoop state budget
  | .modelCallLifecycleConfigured budget => configureModelCallLifecycle state budget
  | .modelCallReserved reservation => reserveModelCall D state reservation
  | .modelCallBecameUnknown callId reason => markModelCallUnknown state callId reason
  | .modelCallSettled callId settlement => settleModelCall state callId settlement
  | .planAccepted decision steps => acceptPlan D state decision steps
  | .completionCandidateRecorded decision candidateId summaryDigest completionOutputRecordDigest =>
    recordCompletionCandidate state decision candidateId summaryDigest completionOutputRecordDigest
  | .stepPlanned stepId objective dependsOn => planStep state stepId objective dependsOn none
  | .effectIntentCommitted stepId intent => commitEffectIntent D state stepId intent
  | _ => applyEffectLifecycle state body

/-- The identity of a record agrees with that of the run. -/
def checkRunIdentity (state : RunState) (record : EventRecord) : Outcome TransitionError Unit := do
  Outcome.failIf (record.event.runId ≠ state.runId) .runIdMismatch
  Outcome.failIf (record.event.authority ≠ state.authority) .authorityMismatch
  Outcome.failIf (record.event.authorityEpoch ≠ state.authorityEpoch) .authorityEpochMismatch

/-- The sequence number that the next record must carry. -/
def nextSequence (current : Option RunState) : Option UInt64 :=
  match current with
  | none => some 1
  | some state => state.journalSequence.checkedAdd 1

def verifyRecordAgainstState (current : Option RunState) (record : EventRecord) :
    Outcome TransitionError Unit := do
  let expectedSequence ← Outcome.okOr (nextSequence current) (.record .sequenceOverflow)
  Outcome.failIf (record.sequence ≠ expectedSequence)
    (.unexpectedSequence expectedSequence record.sequence)
  let expectedPrevious := current.map RunState.journalHeadDigest
  Outcome.failIf (record.previousDigest ≠ expectedPrevious)
    (.previousDigestMismatch record.sequence expectedPrevious record.previousDigest)
  (record.verifyDigest D).mapErr .record
  Outcome.whenSome current fun state => checkRunIdentity state record

/-- The projection right after a run was created, before the record is entered. -/
def RunState.created (event : RunEvent) (goal : String) : RunState where
  runId := event.runId
  authority := event.authority
  authorityEpoch := event.authorityEpoch
  goal := goal
  revision := 0
  journalSequence := 0
  journalHeadDigest := ""
  steps := ∅
  authorizationConsumption := ∅
  agentLoop := none

/-- Enter a record as the new head. -/
def RunState.advance (state : RunState) (record : EventRecord) : RunState :=
  { state with
    revision := record.sequence
    journalSequence := record.sequence
    journalHeadDigest := record.digest }

/-- The event of a record, applied to the current projection. -/
def applyEvent (current : Option RunState) (event : RunEvent) : Outcome TransitionError RunState :=
  match current, event.body with
  | none, .runCreated goal => pure (RunState.created event goal)
  | none, _ => Outcome.fail .firstEventMustCreateRun
  | some _, .runCreated _ => Outcome.fail .runAlreadyCreated
  | some state, body => applyBody D state body

def applyRecord (current : Option RunState) (record : EventRecord) :
    Outcome TransitionError RunState := do
  verifyRecordAgainstState D current record
  let state ← applyEvent D current record.event
  pure (state.advance record)

def replayTransitionError : TransitionError → ReplayError
  | .unexpectedSequence expected actual => .unexpectedSequence expected actual
  | .previousDigestMismatch sequence expected actual =>
    .previousDigestMismatch sequence expected actual
  | .record error => .record error
  | error => .transition error

/-- Rebuild a projection from committed records only. -/
def replay (records : List EventRecord) : Outcome ReplayError RunState := do
  let state ← EventLog.run
    (fun current record => (applyRecord D current record).mapErr replayTransitionError) records
  Outcome.okOr state .emptyJournal

/-- The states that some journal replays to. -/
def Reachable (state : RunState) : Prop := ∃ records, replay D records = .ok state

end

end Xgeny
