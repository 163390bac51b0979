import Xgeny.Cli.Repl
import Xgeny.Lib.Monitor

set_option autoImplicit false

/-!
# Consent in a session

What the user consents to goes into one invocation only, and a cancellation that was seen at a pause
ends the invocations until the next entry.

* `sessionAfter`, `Approved`, `CancelledAtPause`, `EntryRead`: what a history tells;
* `ConsentMonitor`: the same along a session, one operation at a time;
* `MayCall`: when a start or a resumption is allowed; **`run_ensures`**: the session keeps to it;
* `ghost_session`, `approved_of_ghost`, `halted_until_entry`: the monitor and the history agree;
* **`repl_consent_never_leaks`**: every start and every resumption of every session.
-/

namespace Xgeny

open Prog

abbrev ReplMove := Move ReplOp ReplOp.Answer

/-! ## What a history tells -/

/-- The variables that a move assigns. -/
def assigned? : ReplMove → Option ReplSession
  | ⟨.assign session, _⟩ => some session
  | _ => none

/-- The variables of the session. -/
def sessionAfter (moves : List ReplMove) : ReplSession :=
  (moves.filterMap assigned?).getLast?.getD .initial

/-- The step of the host. -/
def hostStep? : ReplMove → Option HostStep
  | ⟨.host _, step⟩ => some step
  | ⟨.control _, step⟩ => some step
  | _ => none

def ReplOp.isHostCall : ReplOp → Bool
  | host _ => true
  | _ => false

def HostStep.isPause : HostStep → Bool
  | finished (.ok (.paused _ _)) => true
  | _ => false

/-- The host paused because of a cancellation. -/
def HostStep.isCancelled : HostStep → Bool
  | finished (.ok (.paused _ .userCancelled)) => true
  | _ => false

/-- A line that the terminal delivers for an interrupt. -/
def isInterrupt : Except InputFailure (Option String) → Bool
  | .ok (some line) => line == "\x03"
  | _ => false

/-- The answer to a prompt. -/
def consents : Except InputFailure (Option String) → Bool
  | .ok (some line) => isConsent line
  | _ => false

/-- A prompt for the kind was answered with consent, and no invocation was made since. -/
def Approved (kind : PermissionKind) (moves : List ReplMove) : Prop :=
  ∃ earlier answer later,
    moves = earlier ++ ⟨.print (.approvalPrompt kind), true⟩ :: ⟨.readLine, answer⟩ :: later ∧
      consents answer = true ∧ ∀ move ∈ later, move.1.isHostCall = false

/-- The last host step was a pause. -/
def pausedAfter (moves : List ReplMove) : Bool :=
  (moves.filterMap hostStep?).getLast?.elim false HostStep.isPause

/-- The last move tells of a cancellation at a pause: the host reports it, the flag is read after the
pause, or an interrupt arrives in place of a line. -/
inductive CancelledAtPause : List ReplMove → Prop
  | reported {moves : List ReplMove} {move : ReplMove} {step : HostStep}
      (hstep : hostStep? move = some step) (hcancelled : step.isCancelled = true) :
      CancelledAtPause (moves ++ [move])
  | requested {moves : List ReplMove} (hpaused : pausedAfter moves = true) :
      CancelledAtPause (moves ++ [⟨.isRequested, true⟩])
  | interrupted {moves : List ReplMove} {answer : Except InputFailure (Option String)}
      (hanswer : isInterrupt answer = true) : CancelledAtPause (moves ++ [⟨.readLine, answer⟩])

/-- The user was prompted for an entry, and a line was awaited. -/
def EntryRead (moves : List ReplMove) : Prop :=
  ∃ earlier answer later,
    moves = earlier ++ ⟨.print (.entryPrompt false), true⟩ :: ⟨.readLine, answer⟩ :: later

/-! ## The monitor -/

structure ConsentMonitor where
  session : ReplSession
  printed : Option ReplOutput
  approved : PermissionKind → Bool
  paused : Bool
  halted : Bool

namespace ConsentMonitor

def initial : ConsentMonitor := ⟨.initial, none, fun _ => false, false, false⟩

/-- A line, after what was printed. -/
def line (s : ConsentMonitor) (answer : Except InputFailure (Option String)) : ConsentMonitor :=
  match s.printed with
  | some (.approvalPrompt kind) =>
    { s with
      printed := none
      approved := fun kind' => s.approved kind' || (decide (kind = kind') && consents answer)
      halted := s.halted || isInterrupt answer }
  | some (.entryPrompt false) => { s with printed := none, halted := isInterrupt answer }
  | _ => { s with printed := none, halted := s.halted || isInterrupt answer }

/-- A step of the host. -/
def step (s : ConsentMonitor) (step : HostStep) : ConsentMonitor :=
  { s with printed := none, paused := step.isPause, halted := s.halted || step.isCancelled }

def next (s : ConsentMonitor) : (op : ReplOp) → op.Answer → ConsentMonitor
  | .print output, written => { s with printed := if written = true then some output else none }
  | .readLine, answer => s.line answer
  | .isRequested, requested =>
    { s with printed := none, halted := s.halted || (requested && s.paused : Bool) }
  | .host _, step => { s.step step with approved := fun _ => false }
  | .control _, step => s.step step
  | .assign session, _ => { s with printed := none, session := session }
  | .clearCancellation, _ | .model, _ | .useModel _, _ | .executableIds, _ =>
    { s with printed := none }

end ConsentMonitor

/-- The kinds that may be granted now. -/
def MayGrant (s : ConsentMonitor) (kind : PermissionKind) : Prop :=
  s.session.permissions.get kind = .allow ∨
    s.session.permissions.get kind = .ask ∧ s.approved kind = true

/-- When a start or a resumption is allowed. -/
structure MayCall (s : ConsentMonitor) (call : HostCall) : Prop where
  running : s.halted = false
  granted : ∀ kind, call.grants.get kind = true → MayGrant s kind
  inactive : ∀ goal grants, call = .start goal grants → s.session.activeRun = none

/-- Everything but a start or a resumption is always allowed. -/
def ReplAllows (s : ConsentMonitor) : ReplOp → Prop
  | .host invocation => MayCall s invocation
  | _ => True

/-- The session keeps to what is allowed, and `post` holds where it returns. -/
abbrev Keeps {α : Type} (p : Repl α) (s : ConsentMonitor) (post : ConsentMonitor → α → Prop) : Prop :=
  p.Ensures ReplAllows ConsentMonitor.next s post

/-! ## The terminal and the variables -/

section

variable {s : ConsentMonitor}

@[simp] theorem keeps_print {output : ReplOutput} {post : ConsentMonitor → Unit → Prop} :
    Keeps (Repl.print output) s post ↔ post { s with printed := some output } () := by
  unfold Repl.print
  rw [Keeps, ensures_call]
  constructor
  · exact fun h => ensures_ret.mp (h.2 true)
  · intro h
    refine ⟨trivial, fun written : Bool => ?_⟩
    cases written with
    | true => exact ensures_ret.mpr h
    | false => exact ensures_stop

@[simp] theorem keeps_assign {session : ReplSession} {post : ConsentMonitor → Unit → Prop} :
    Keeps (Repl.assign session) s post ↔ post { s with printed := none, session := session } () := by
  unfold Repl.assign
  rw [Keeps, ensures_call]
  exact ⟨fun h => ensures_ret.mp (h.2 ()), fun h => ⟨trivial, fun _ => ensures_ret.mpr h⟩⟩

@[simp] theorem keeps_clearCancellation {post : ConsentMonitor → Unit → Prop} :
    Keeps Repl.clearCancellation s post ↔ post { s with printed := none } () := by
  unfold Repl.clearCancellation
  rw [Keeps, ensures_call]
  exact ⟨fun h => ensures_ret.mp (h.2 ()), fun h => ⟨trivial, fun _ => ensures_ret.mpr h⟩⟩

/-! ## Prompts -/

/-- **A prompt**: consent is for the kind that was asked for, and goes on only without an interrupt. -/
theorem promptApproval_keeps {kind : PermissionKind} (hrunning : s.halted = false) :
    Keeps (promptApproval kind) s fun s' approved => s'.session = s.session ∧
      (approved = true → s'.halted = false ∧ s'.approved kind = true) := by
  unfold promptApproval
  rw [Keeps, ensures_bind, ← Keeps, keeps_print, ensures_call]
  refine ⟨trivial, fun answer : Except InputFailure (Option String) => ?_⟩
  rcases answer with (_ | _ | _) | (_ | value)
  · exact ensures_stop
  · exact ensures_ret.mpr ⟨rfl, by simp⟩
  · exact ensures_ret.mpr ⟨rfl, by simp⟩
  · exact ensures_ret.mpr ⟨rfl, by simp⟩
  · refine ensures_ret.mpr ⟨rfl, fun happroved => ?_⟩
    have hline : (value == "\x03") = false := by
      by_contra hline
      rw [Bool.not_eq_false, beq_iff_eq] at hline
      rw [hline] at happroved
      revert happroved
      decide
    simp [ConsentMonitor.next, ConsentMonitor.line, consents, isInterrupt, happroved, hrunning, hline]

/-- **An entry**: whatever was seen before it, the session may go on, unless it is an interrupt. By
induction on the bound; the lines after the first one keep what the first one has established. -/
theorem readEntry_keeps {bound : ℕ} {first : Bool} {lines : List String}
    (hstart : lines = [] ∨ s.halted = false) :
    Keeps (readEntry bound first lines) s fun s' result => s'.session = s.session ∧
      ∀ entry, result.1 = .ok entry → entry ≠ .interrupted → s'.halted = false := by
  induction bound generalizing s first lines with
  | zero => exact ensures_stop
  | succ bound ih =>
    unfold readEntry
    refine ensures_call.mpr ⟨trivial, fun written : Bool => ?_⟩
    cases written with
    | false => exact ensures_ret.mpr ⟨rfl, by simp⟩
    | true =>
      rw [if_pos rfl]
      refine ensures_call.mpr ⟨trivial, fun answer : Except InputFailure (Option String) => ?_⟩
      have hread : (ConsentMonitor.next (ConsentMonitor.next s
          (.print (.entryPrompt (lines ≠ []))) true) .readLine answer).halted = isInterrupt answer := by
        by_cases hlines : lines = []
        · simp [ConsentMonitor.next, ConsentMonitor.line, hlines]
        · have hrunning := hstart.resolve_left hlines
          simp [ConsentMonitor.next, ConsentMonitor.line, hlines, hrunning]
      have hsession : (ConsentMonitor.next (ConsentMonitor.next s
          (.print (.entryPrompt (lines ≠ []))) true) .readLine answer).session = s.session := by
        by_cases hlines : lines = [] <;> simp [ConsentMonitor.next, ConsentMonitor.line, hlines]
      rcases answer with failure | (_ | line)
      · exact ensures_ret.mpr ⟨hsession, by simp⟩
      · exact ensures_ret.mpr ⟨hsession, fun _ _ _ => hread⟩
      · by_cases hline : line = "\x03"
        · show Keeps (if line = "\x03" then _ else _) _ _
          rw [if_pos hline]
          refine ensures_ret.mpr ⟨hsession, fun entry hentry hnot => absurd ?_ hnot⟩
          exact (Except.ok.inj hentry).symm
        · show Keeps (if line = "\x03" then _ else _) _ _
          rw [if_neg hline]
          have hrunning := hread.trans (beq_eq_false_iff_ne.mpr hline)
          cases takeLine lines (dropByteOrderMark first line) with
          | done entry => exact ensures_ret.mpr ⟨hsession, fun _ _ _ => hrunning⟩
          | more lines =>
            refine (ih (Or.inr hrunning)).mono fun s' result hresult => ?_
            exact ⟨hresult.1.trans hsession, hresult.2⟩

/-! ## Invocations -/

/-- What is known after an invocation: the variables are as before, and the monitor knows the result. -/
def ResultKnown (session : ReplSession) (s : ConsentMonitor)
    (result : Except ReplFailure LocalCommandResult) : Prop :=
  s.session = session ∧ s.paused = (HostStep.finished result).isPause ∧
    s.halted = (HostStep.finished result).isCancelled

/-- The host's steps, by induction on the bound. While it reports progress nothing is halted, since
the flag is not read at a pause. -/
theorem followHost_keeps {bound : ℕ} {failed : Bool} {step : HostStep}
    (hpaused : s.paused = step.isPause) (hhalted : s.halted = step.isCancelled) :
    Keeps (followHost bound failed step) s (ResultKnown s.session) := by
  induction bound generalizing s failed step with
  | zero => exact ensures_stop
  | succ bound ih =>
    cases step with
    | finished result =>
      unfold followHost
      cases failed with
      | true => exact ensures_stop
      | false => exact ensures_ret.mpr ⟨rfl, hpaused, hhalted⟩
    | progress event =>
      have hgo : ∀ (failed : Bool) (s' : ConsentMonitor), s'.session = s.session →
          s'.paused = false → s'.halted = false →
          Keeps (.call .isRequested fun requested : Bool =>
            .call (.control (if requested || failed then .cancel else .continue_))
              (followHost bound failed)) s' (ResultKnown s.session) := by
        intro failed s' hsession hpaused' hhalted'
        refine ensures_call.mpr ⟨trivial, fun requested : Bool => ?_⟩
        refine ensures_call.mpr ⟨trivial, fun step : HostStep => ?_⟩
        rw [← hsession]
        refine ih rfl ?_
        simp [ConsentMonitor.next, ConsentMonitor.step, hpaused', hhalted']
      unfold followHost
      cases failed with
      | true => exact hgo true s rfl hpaused hhalted
      | false =>
        refine ensures_call.mpr ⟨trivial, fun written : Bool => ?_⟩
        exact hgo (!written) _ rfl hpaused hhalted

/-- **An invocation** that is allowed. -/
theorem invokeWithProgress_keeps {bound : ℕ} {invocation : HostCall} (hmay : MayCall s invocation) :
    Keeps (invokeWithProgress bound invocation) s (ResultKnown s.session) := by
  refine ensures_call.mpr ⟨hmay, fun step : HostStep => ?_⟩
  refine followHost_keeps rfl ?_
  simp [ConsentMonitor.next, ConsentMonitor.step, hmay.running]

theorem mayGrant_with {kind kind' : PermissionKind} (hkind : MayGrant s kind)
    (h : (s.session.permissions.grants.with_ kind).get kind' = true) : MayGrant s kind' := by
  rw [InvocationGrants.get_with, PermissionSettings.get_grants, Bool.or_eq_true] at h
  rcases h with h | h
  · rwa [← of_decide_eq_true h]
  · exact Or.inl (of_decide_eq_true h)

theorem mayGrant_grants {kind : PermissionKind} (h : s.session.permissions.grants.get kind = true) :
    MayGrant s kind := by
  rw [PermissionSettings.get_grants] at h
  exact Or.inl (of_decide_eq_true h)

theorem approve_keeps {kind : PermissionKind} (hrunning : s.halted = false) :
    Keeps (approve (s.session.permissions.get kind) kind) s fun s' approved =>
      s'.session = s.session ∧ (approved = true → s'.halted = false ∧ MayGrant s' kind) := by
  unfold approve
  cases hmode : s.session.permissions.get kind with
  | allow => exact ensures_ret.mpr ⟨rfl, fun _ => ⟨hrunning, Or.inl hmode⟩⟩
  | deny => exact ensures_ret.mpr ⟨rfl, by simp⟩
  | ask =>
    refine (promptApproval_keeps hrunning).mono fun s' approved hprompt => ⟨hprompt.1, ?_⟩
    intro happroved
    obtain ⟨hgo, hasked⟩ := hprompt.2 happroved
    exact ⟨hgo, Or.inr ⟨hprompt.1 ▸ hmode, hasked⟩⟩

theorem isCancelled_keeps {reason : PauseReason} (hpaused : s.paused = true)
    (hhalted : s.halted = decide (reason = .userCancelled)) :
    Keeps (isCancelled reason) s fun s' cancelled => s'.session = s.session ∧
      s'.halted = cancelled := by
  unfold isCancelled
  by_cases hreason : reason = .userCancelled
  · rw [if_pos hreason]
    exact ensures_ret.mpr ⟨rfl, by simpa [hreason] using hhalted⟩
  · rw [if_neg hreason]
    refine ensures_call.mpr ⟨trivial, fun requested : Bool => ensures_ret.mpr ⟨rfl, ?_⟩⟩
    simp [ConsentMonitor.next, hpaused, hhalted, hreason]

/-- **The results**, by induction on the bound: a resumption is made only after a pause that was not
cancelled, and with the consent that was given at it. -/
theorem handleResult_keeps {bound : ℕ} {session : ReplSession}
    {result : Except ReplFailure LocalCommandResult} (hknown : ResultKnown session s result) :
    Keeps (handleResult bound session result) s fun s' session' => s'.session = session' := by
  induction bound generalizing s session result with
  | zero => exact ensures_stop
  | succ bound ih =>
    obtain ⟨hsession, hpaused, hhalted⟩ := hknown
    rcases result with failure | (⟨runId, summary⟩ | ⟨runId, reason⟩ | ⟨runId, reason⟩ | ⟨runId, reason⟩)
    · simpa [handleResult, printFailure, Repl.println] using hsession
    · simp [handleResult, Repl.println]
    · unfold handleResult
      refine ensures_bind.mpr (keeps_assign.mpr ?_)
      refine Ensures.and_then (@isCancelled_keeps _ reason hpaused ?_) ?_
      · rw [hhalted]
        cases reason <;> rfl
      rintro s₁ cancelled ⟨hs₁, hrunning⟩
      have hs₁ : s₁.session = session.pause runId := hs₁
      cases cancelled with
      | true => simpa [Repl.println] using hs₁
      | false =>
        rw [if_neg Bool.false_ne_true]
        cases pausePermission reason with
        | none => simpa [Repl.println] using hs₁
        | some kind =>
          cases hactive : (session.pause runId).activeRun with
          | none => simpa [Repl.println] using hs₁
          | some active =>
            rw [← hs₁]
            refine Ensures.and_then (approve_keeps hrunning) ?_
            rintro s₂ approved ⟨hs₂, happroved⟩
            cases approved with
            | false => simpa [Repl.println] using hs₂
            | true =>
              obtain ⟨hgo, hkind⟩ := happroved rfl
              rw [if_pos rfl, ← hs₂]
              have hmay : MayCall s₂ (.resume active (s₂.session.permissions.grants.with_ kind)) :=
                ⟨hgo, fun kind' hgrant => mayGrant_with hkind hgrant, by simp⟩
              exact Ensures.and_then (invokeWithProgress_keeps hmay) fun s₃ result h => ih h
    · simp [handleResult, Repl.println]
    · simp [handleResult, Repl.println]

/-! ## Entries -/

theorem invoked_keeps {bound : ℕ} {invocation : HostCall} {session : ReplSession}
    (hsession : s.session = session) (hmay : MayCall s invocation) :
    Keeps (invokeWithProgress bound invocation >>= handleResult bound session) s
      fun s' session' => s'.session = session' := by
  refine Ensures.and_then (invokeWithProgress_keeps hmay) fun s' result hknown => ?_
  exact handleResult_keeps (hsession ▸ hknown)

theorem enterGoal_keeps {bound : ℕ} {goal : String} (hrunning : s.halted = false) :
    Keeps (enterGoal bound s.session goal) s fun s' session' => s'.session = session' := by
  unfold enterGoal
  by_cases hactive : s.session.activeRun.isSome = true
  · rw [if_pos hactive]
    simp [Repl.println]
  · have hnone : s.session.activeRun = none := by simpa using hactive
    rw [if_neg hactive]
    cases hmode : s.session.permissions.model with
    | allow =>
      exact invoked_keeps rfl ⟨hrunning, fun kind => mayGrant_grants, fun _ _ _ => hnone⟩
    | deny => simp [Repl.println]
    | ask =>
      refine Ensures.and_then (promptApproval_keeps hrunning) ?_
      rintro s' approved ⟨hs', happroved⟩
      cases approved with
      | false => simpa [Repl.println] using hs'
      | true =>
        obtain ⟨hgo, hasked⟩ := happroved rfl
        rw [if_pos rfl, ← hs']
        have hkind : MayGrant s' .model := Or.inr ⟨by rw [hs']; exact hmode, hasked⟩
        exact invoked_keeps rfl ⟨hgo, fun kind hgrant => mayGrant_with hkind hgrant,
          fun _ _ _ => by rw [hs']; exact hnone⟩

theorem enterResume_keeps {bound : ℕ} {runId : Option String} (hrunning : s.halted = false) :
    Keeps (enterResume bound s.session runId) s fun s' session' => s'.session = session' := by
  unfold enterResume
  cases (runId <|> s.session.activeRun <|> s.session.lastRun) with
  | none => simp [Repl.println]
  | some selected =>
    exact invoked_keeps rfl ⟨hrunning, fun kind => mayGrant_grants, by simp⟩

theorem printExecutables_keeps {ids : List String} :
    Keeps (printExecutables ids) s fun s' _ => s'.session = s.session := by
  unfold printExecutables
  by_cases hids : ids = []
  · rw [if_pos hids]
    exact ensures_ret.mpr rfl
  · rw [if_neg hids]
    simp [Repl.println]

theorem printModelAnswer_keeps {answer : Except ReplFailure ModelView} :
    Keeps (printModelAnswer answer) s fun s' _ => s'.session = s.session := by
  cases answer <;> simp [printModelAnswer, printModel, printFailure, Repl.println]

theorem enterCommand_keeps {bound : ℕ} {command : ReplCommand} (hrunning : s.halted = false) :
    Keeps (enterCommand bound s.session command) s fun s' session' => s'.session = session' := by
  cases command with
  | help => simp [enterCommand, printHelp, Repl.println]
  | model name =>
    cases name <;>
      exact ensures_call.mpr ⟨trivial, fun answer => Ensures.and_then printModelAnswer_keeps
        fun _ _ hsame => ensures_ret.mpr hsame⟩
  | status =>
    have hstatus : Keeps (printStatus s.session) s fun s' _ => s'.session = s.session := by
      simp only [printStatus, printPermissions, Repl.println, ensures_bind, keeps_print, ensures_call]
      exact ⟨trivial, fun _ => by simp [ConsentMonitor.next]⟩
    exact Ensures.and_then hstatus fun _ _ hsame => ensures_ret.mpr hsame
  | permissions update =>
    refine ensures_bind.mpr (keeps_assign.mpr ?_)
    refine ensures_bind.mpr (keeps_print.mpr ?_)
    refine ensures_bind.mpr (ensures_call.mpr ⟨trivial, fun ids => ?_⟩)
    exact printExecutables_keeps.mono fun _ _ hsame => ensures_ret.mpr hsame
  | resume runId => exact enterResume_keeps hrunning
  | clear => simp [enterCommand, Repl.println]
  | exit => simp [enterCommand]

theorem enter_keeps {bound : ℕ} {entry : ReplEntry}
    (hrunning : entry ≠ .interrupted → s.halted = false) :
    Keeps (enter bound s.session entry) s fun s' session' =>
      ∀ session, session' = some session → s'.session = session := by
  have hsome : ∀ {p : Repl ReplSession}, Keeps p s (fun s' session' => s'.session = session') →
      Keeps (p >>= fun session => pure (some session)) s fun s' session' =>
        ∀ session, session' = some session → s'.session = session := by
    intro p hp
    refine Ensures.and_then hp fun s' session' hsame => ensures_ret.mpr ?_
    intro session hsession
    rwa [← Option.some.inj hsession]
  cases entry with
  | empty => simp [enter]
  | interrupted => simp [enter, Repl.println]
  | endOfInput => simp [enter, Repl.println]
  | goal goal => exact hsome (enterGoal_keeps (hrunning (by simp)))
  | command command =>
    cases command with
    | exit => simp [enter, Repl.println]
    | _ => exact hsome (enterCommand_keeps (hrunning (by simp)))

/-- **The session**, by induction on the entries that are left. -/
theorem sessionLoop_keeps {bound count : ℕ} {first : Bool} {session : ReplSession}
    (hsession : s.session = session) :
    Keeps (sessionLoop bound count first session) s fun _ _ => True := by
  induction count generalizing s first session with
  | zero => exact ensures_stop
  | succ count ih =>
    unfold sessionLoop
    refine Ensures.and_then (readEntry_keeps (Or.inl rfl)) ?_
    rintro s₁ ⟨entry, first⟩ ⟨hs₁, hrunning⟩
    rw [← hsession, ← hs₁]
    rcases entry with (_ | _ | _) | entry
    · exact ensures_stop
    · exact ensures_bind.mpr (keeps_print.mpr (ih rfl))
    · exact ensures_bind.mpr (keeps_print.mpr (ih rfl))
    · refine Ensures.and_then (enter_keeps (hrunning entry rfl)) ?_
      rintro s₂ (_ | session) hs₂
      · exact ensures_ret.mpr trivial
      · exact ih (hs₂ session rfl)

/-- **The session keeps to what is allowed.** -/
theorem run_ensures (bound : ℕ) : Keeps (run bound) .initial fun _ _ => True := by
  unfold run
  simp only [Repl.println, ensures_bind, keeps_print]
  exact sessionLoop_keeps rfl

end

/-! ## The monitor and the history -/

section

variable {moves : List ReplMove}

/-- The monitor after some moves. -/
def monitorAfter (moves : List ReplMove) : ConsentMonitor :=
  Move.ghost ConsentMonitor.next .initial moves

theorem monitorAfter_snoc (moves : List ReplMove) (move : ReplMove) :
    monitorAfter (moves ++ [move]) = (monitorAfter moves).next move.1 move.2 :=
  Move.ghost_append

theorem ghost_session (moves : List ReplMove) :
    (monitorAfter moves).session = sessionAfter moves := by
  induction moves using List.reverseRecOn with
  | nil => rfl
  | append_singleton moves move ih =>
    obtain ⟨op, answer⟩ := move
    rw [monitorAfter_snoc, sessionAfter, List.filterMap_append]
    cases op with
    | assign session => simp [ConsentMonitor.next, assigned?]
    | readLine =>
      rw [show [(⟨.readLine, answer⟩ : ReplMove)].filterMap assigned? = [] from rfl, List.append_nil,
        ← sessionAfter, ← ih]
      simp only [ConsentMonitor.next, ConsentMonitor.line]
      split <;> rfl
    | _ => simpa [ConsentMonitor.next, ConsentMonitor.step, assigned?, sessionAfter] using ih

theorem ghost_paused (moves : List ReplMove) : (monitorAfter moves).paused = pausedAfter moves := by
  induction moves using List.reverseRecOn with
  | nil => rfl
  | append_singleton moves move ih =>
    obtain ⟨op, answer⟩ := move
    rw [monitorAfter_snoc, pausedAfter, List.filterMap_append]
    cases op with
    | host invocation => simp [ConsentMonitor.next, ConsentMonitor.step, hostStep?]
    | control control => simp [ConsentMonitor.next, ConsentMonitor.step, hostStep?]
    | readLine =>
      rw [show [(⟨.readLine, answer⟩ : ReplMove)].filterMap hostStep? = [] from rfl, List.append_nil,
        ← pausedAfter, ← ih]
      simp only [ConsentMonitor.next, ConsentMonitor.line]
      split <;> rfl
    | _ => simpa [ConsentMonitor.next, hostStep?, pausedAfter] using ih

theorem ghost_printed {output : ReplOutput} (h : (monitorAfter moves).printed = some output) :
    ∃ earlier, moves = earlier ++ [⟨.print output, true⟩] := by
  induction moves using List.reverseRecOn with
  | nil => cases h
  | append_singleton moves move _ =>
    obtain ⟨op, answer⟩ := move
    rw [monitorAfter_snoc] at h
    cases op with
    | print written =>
      cases answer with
      | true =>
        obtain rfl : written = output := Option.some.inj h
        exact ⟨moves, rfl⟩
      | false => cases h
    | readLine =>
      simp only [ConsentMonitor.next, ConsentMonitor.line] at h
      split at h <;> cases h
    | _ => cases h

theorem Approved.snoc {kind : PermissionKind} {move : ReplMove} (h : Approved kind moves)
    (hmove : move.1.isHostCall = false) : Approved kind (moves ++ [move]) := by
  obtain ⟨earlier, answer, later, rfl, hconsents, hlater⟩ := h
  refine ⟨earlier, answer, later ++ [move], by simp, hconsents, ?_⟩
  intro other hother
  rcases List.mem_append.mp hother with hother | hother
  · exact hlater other hother
  · rwa [List.mem_singleton.mp hother]

/-- **What the monitor takes for approved was approved.** -/
theorem approved_of_ghost {kind : PermissionKind} (h : (monitorAfter moves).approved kind = true) :
    Approved kind moves := by
  induction moves using List.reverseRecOn with
  | nil => cases h
  | append_singleton moves move ih =>
    obtain ⟨op, answer⟩ := move
    rw [monitorAfter_snoc] at h
    cases op with
    | host invocation => cases h
    | readLine =>
      simp only [ConsentMonitor.next, ConsentMonitor.line] at h
      split at h
      · rename_i asked hprinted
        rw [Bool.or_eq_true, Bool.and_eq_true, decide_eq_true_eq] at h
        rcases h with h | ⟨rfl, hconsents⟩
        · exact (ih h).snoc rfl
        · obtain ⟨earlier, rfl⟩ := ghost_printed hprinted
          exact ⟨earlier, answer, [], by simp, hconsents, by simp⟩
      · exact (ih h).snoc rfl
      · exact (ih h).snoc rfl
    | _ => exact (ih h).snoc rfl

/-- **What was seen at a pause halts the monitor.** -/
theorem halted_of_cancelled (h : CancelledAtPause moves) :
    (monitorAfter moves).halted = true ∧ (monitorAfter moves).printed = none := by
  cases h with
  | @reported moves move step hstep hcancelled =>
    obtain ⟨op, answer⟩ := move
    rw [monitorAfter_snoc]
    cases op with
    | host invocation =>
      obtain rfl : answer = step := Option.some.inj hstep
      simp [ConsentMonitor.next, ConsentMonitor.step, hcancelled]
    | control control =>
      obtain rfl : answer = step := Option.some.inj hstep
      simp [ConsentMonitor.next, ConsentMonitor.step, hcancelled]
    | _ => cases hstep
  | @requested moves hpaused =>
    rw [monitorAfter_snoc]
    simp [ConsentMonitor.next, ghost_paused, hpaused]
  | @interrupted moves answer hanswer =>
    rw [monitorAfter_snoc]
    simp only [ConsentMonitor.next, ConsentMonitor.line]
    split <;> simp [hanswer]

theorem EntryRead.snoc (h : EntryRead moves) (move : ReplMove) : EntryRead (moves ++ [move]) := by
  obtain ⟨earlier, answer, later, rfl⟩ := h
  exact ⟨earlier, answer, later ++ [move], by simp⟩

/-- **It stays halted until an entry is read.** -/
theorem halted_until_entry {earlier later : List ReplMove} (hcancelled : CancelledAtPause earlier)
    (hentry : ¬ EntryRead later) : (monitorAfter (earlier ++ later)).halted = true := by
  obtain ⟨hhalted, hnothing⟩ := halted_of_cancelled hcancelled
  induction later using List.reverseRecOn with
  | nil => rwa [List.append_nil]
  | append_singleton later move ih =>
    have hbefore := ih fun hread => hentry (hread.snoc move)
    obtain ⟨op, answer⟩ := move
    rw [← List.append_assoc, monitorAfter_snoc]
    cases op with
    | readLine =>
      simp only [ConsentMonitor.next, ConsentMonitor.line]
      split
      · simp [hbefore]
      · rename_i hprinted
        -- the prompt for an entry was printed since
        obtain ⟨before, hsplit⟩ := ghost_printed hprinted
        rcases List.eq_nil_or_concat later with rfl | ⟨init, last, rfl⟩
        · rw [List.append_nil] at hprinted
          rw [hnothing] at hprinted
          cases hprinted
        · rw [List.concat_eq_append, ← List.append_assoc] at hsplit
          obtain ⟨-, hlast⟩ := List.append_inj' hsplit rfl
          refine absurd ⟨init, answer, [], ?_⟩ hentry
          rw [List.concat_eq_append, hlast]
          simp
      · simp [hbefore]
    | _ => simp [ConsentMonitor.next, ConsentMonitor.step, hbefore]

end

/-! ## Every session -/

/-- **Consent never leaks.** A start or a resumption grants a kind only when its mode is to allow it,
or when its mode is to ask and the user consented to that kind since the last one; a start is made
only while no run is active, and neither follows a cancellation that was seen at a pause before the
next entry is read. -/
theorem repl_consent_never_leaks {World Label : Type} {S : System ReplOp ReplOp.Answer World Label}
    {bound : ℕ} {w w' : World} {history : List (Happening ReplOp ReplOp.Answer Label)}
    {outcome : Option (Outcome ReplError Unit)} {before after : List ReplMove}
    {invocation : HostCall} {step : HostStep} (hexec : Exec S (run bound) w history w' outcome)
    (hsplit : Happening.own history = before ++ ⟨.host invocation, step⟩ :: after) :
    (∀ kind, invocation.grants.get kind = true →
      (sessionAfter before).permissions.get kind = .allow ∨
        (sessionAfter before).permissions.get kind = .ask ∧ Approved kind before) ∧
      (∀ goal grants, invocation = .start goal grants → (sessionAfter before).activeRun = none) ∧
      ∀ earlier later, before = earlier ++ later → CancelledAtPause earlier → EntryRead later := by
  have hmay : MayCall (monitorAfter before) invocation :=
    Ensures.allowed_own hexec (run_ensures bound) hsplit
  refine ⟨fun kind hgrant => ?_, fun goal grants hstart => ?_, ?_⟩
  · rw [← ghost_session]
    exact (hmay.granted kind hgrant).imp_right (And.imp_right approved_of_ghost)
  · rw [← ghost_session]
    exact hmay.inactive goal grants hstart
  · rintro earlier later rfl hcancelled
    by_contra hentry
    have hhalted := halted_until_entry hcancelled hentry
    rw [hmay.running] at hhalted
    exact Bool.false_ne_true hhalted

/-- A host that reads the given lines, pauses a new run for a write, and completes it then. -/
def sampleTerminal (lines : List String) : (op : ReplOp) → op.Answer × List String
  | .print _ => (true, lines)
  | .readLine => (.ok lines.head?, lines.tail)
  | .isRequested => (false, lines)
  | .clearCancellation => ((), lines)
  | .model | .useModel _ => (.error ⟨"model_unavailable"⟩, lines)
  | .executableIds => ([], lines)
  | .host (.start _ _) => (.finished (.ok (.paused (some "run-1") .writeApprovalRequired)), lines)
  | .host (.resume runId _) => (.finished (.ok (.completed runId "done")), lines)
  | .control _ => (.finished (.error ⟨"cancelled"⟩), lines)
  | .assign _ => ((), lines)

def sampleSystem : System ReplOp ReplOp.Answer (List String) Empty where
  step lines op answer lines' := sampleTerminal lines op = (answer, lines')
  other _ _ _ := False

/-- The lines of the sample. -/
def sampleEntries : List String := ["fix the build", "y", "yes", "/exit"]

/-- The own moves of the sample. -/
def sampleMoves : List ReplMove :=
  Happening.own ((run 8).run sampleTerminal (fun _ _ => (none : Option (Empty × List String)))
    sampleEntries).1

theorem repl_consent_never_leaks_sample : ∃ before step after,
    sampleMoves =
      before ++ ⟨.host (.resume "run-1" ⟨false, false, true, false⟩), step⟩ :: after ∧
    Approved .write before := by
  have hop : sampleMoves[12]?.map Sigma.fst =
      some (.host (.resume "run-1" ⟨false, false, true, false⟩)) := by decide
  obtain ⟨⟨op, step⟩, hmove, rfl⟩ := Option.map_eq_some_iff.mp hop
  obtain ⟨hlength, hget⟩ := List.getElem?_eq_some_iff.mp hmove
  have hsplit : sampleMoves = sampleMoves.take 12 ++ _ :: sampleMoves.drop 13 :=
    (List.take_append_drop 12 sampleMoves).symm.trans (by rw [List.drop_eq_getElem_cons hlength, hget])
  have hnobody : ∀ (lines : List String) (op : ReplOp) (label : Empty) (lines' : List String),
      (none : Option (Empty × List String)) = some (label, lines') → False := by simp
  have hexec := Prog.exec_run (S := sampleSystem) (fun _ _ => rfl) hnobody (run 8) sampleEntries
  have hgranted := (repl_consent_never_leaks hexec hsplit).1 .write rfl
  have hask : (sessionAfter (sampleMoves.take 12)).permissions.get .write ≠ .allow := by
    decide
  exact ⟨_, step, _, hsplit, (hgranted.resolve_left hask).2⟩

end Xgeny
