import Xgeny.Lib.AsciiCase
import Xgeny.Runtime.Operations
import Xgeny.Text

set_option autoImplicit false

/-!
# The interactive session

The loop that reads goals and commands from a terminal, asks for consent, and starts and resumes runs
through a host. The lines of the terminal, the answers of the host and the cancellation flag are
operations; the variables of the session are assigned by an operation as well, so that a history
tells their values. What is never read or written again is left out.

* `PermissionSettings`, `InvocationGrants`: the mode of each kind, and the kinds of one invocation;
* `readEntry`, `parseCommand`: an entry of one or several lines;
* `promptApproval`, `invokeWithProgress`, `handleResult`, `run`: the session. The source's loops do
  not end by themselves, so each of them is given a bound; a session is cut off when it is reached.
-/

namespace Xgeny

/-- `MAX_REPL_GOAL_BYTES`. -/
def maxReplGoalBytes : ℕ := 16 * 1024

/-! ## Permissions -/

/-- Whether a kind of permission is asked for. -/
inductive PermissionMode where
  | ask
  | allow
  | deny
  deriving DecidableEq

namespace PermissionMode

def label : PermissionMode → String
  | ask => "ask"
  | allow => "allow"
  | deny => "deny"

def parse (value : String) : Option PermissionMode :=
  if value = "ask" then some ask
  else if value = "allow" then some allow
  else if value = "deny" then some deny
  else none

end PermissionMode

/-- The kinds of permission of a session. -/
inductive PermissionKind where
  | model
  | read
  | write
  | execute
  deriving DecidableEq

namespace PermissionKind

def label : PermissionKind → String
  | model => "model"
  | read => "read"
  | write => "write"
  | execute => "execute"

def parse (value : String) : Option PermissionKind :=
  if value = "model" ∨ value = "egress" then some model
  else if value = "read" then some read
  else if value = "write" then some write
  else if value = "execute" ∨ value = "process" then some execute
  else none

end PermissionKind

/-- The permissions of one invocation. -/
structure InvocationGrants where
  model : Bool
  read : Bool
  write : Bool
  execute : Bool
  deriving DecidableEq

namespace InvocationGrants

def get (grants : InvocationGrants) : PermissionKind → Bool
  | .model => grants.model
  | .read => grants.read
  | .write => grants.write
  | .execute => grants.execute

/-- `InvocationGrants::with`. -/
def with_ (grants : InvocationGrants) : PermissionKind → InvocationGrants
  | .model => { grants with model := true }
  | .read => { grants with read := true }
  | .write => { grants with write := true }
  | .execute => { grants with execute := true }

theorem get_with (grants : InvocationGrants) (kind kind' : PermissionKind) :
    (grants.with_ kind).get kind' = (decide (kind = kind') || grants.get kind') := by
  cases kind <;> cases kind' <;> simp [with_, get]

end InvocationGrants

/-- The modes of a session. -/
structure PermissionSettings where
  model : PermissionMode
  read : PermissionMode
  write : PermissionMode
  execute : PermissionMode
  deriving DecidableEq

namespace PermissionSettings

/-- `PermissionSettings::default`. -/
def default : PermissionSettings := ⟨.ask, .ask, .ask, .ask⟩

def get (settings : PermissionSettings) : PermissionKind → PermissionMode
  | .model => settings.model
  | .read => settings.read
  | .write => settings.write
  | .execute => settings.execute

def set (settings : PermissionSettings) (kind : PermissionKind) (mode : PermissionMode) :
    PermissionSettings :=
  match kind with
  | .model => { settings with model := mode }
  | .read => { settings with read := mode }
  | .write => { settings with write := mode }
  | .execute => { settings with execute := mode }

def grants (settings : PermissionSettings) : InvocationGrants where
  model := settings.model = .allow
  read := settings.read = .allow
  write := settings.write = .allow
  execute := settings.execute = .allow

theorem get_grants (settings : PermissionSettings) (kind : PermissionKind) :
    settings.grants.get kind = decide (settings.get kind = .allow) := by
  cases kind <;> rfl

end PermissionSettings

/-! ## The host -/

/-- The model as the session shows it. -/
structure ModelView where
  profile : String
  model : String
  authentication : String
  deriving DecidableEq

/-- A failure that the host reports. -/
structure ReplFailure where
  code : String
  deriving DecidableEq

/-- Why a run waits. -/
inductive PauseReason where
  | remoteModelEgressConsentRequired
  | readApprovalRequired
  | writeApprovalRequired
  | executeApprovalRequired
  | userCancelled
  | tickBudgetExhausted
  | quiescent
  deriving DecidableEq

def PauseReason.code : PauseReason → String
  | remoteModelEgressConsentRequired => "remote_model_egress_consent_required"
  | readApprovalRequired => "read_approval_required"
  | writeApprovalRequired => "write_approval_required"
  | executeApprovalRequired => "execute_approval_required"
  | userCancelled => "user_cancelled"
  | tickBudgetExhausted => "tick_budget_exhausted"
  | quiescent => "quiescent"

/-- A result of the host. Of a rejection's or a recovery's reason the session reads the code. -/
inductive LocalCommandResult where
  | completed (runId summary : String)
  | paused (runId : Option String) (reason : PauseReason)
  | rejected (runId reason : String)
  | recoveryRequired (runId reason : String)
  deriving DecidableEq

/-- `ReplHost::start` and `ReplHost::resume`. -/
inductive HostCall where
  | start (goal : String) (grants : InvocationGrants)
  | resume (runId : String) (grants : InvocationGrants)
  deriving DecidableEq

/-- The permissions that a call of the host carries. -/
def HostCall.grants : HostCall → InvocationGrants
  | start _ grants | resume _ grants => grants

/-- What the host does next in a call: it reports progress and waits for the control, or returns. -/
inductive HostStep where
  | progress (event : DriverProgress)
  | finished (result : Except ReplFailure LocalCommandResult)

/-! ## The session's variables -/

/-- How a run of the session has ended. -/
inductive SessionOutcome where
  | idle
  | completed
  | paused
  | rejected
  | recoveryRequired
  deriving DecidableEq

def SessionOutcome.label : SessionOutcome → String
  | idle => "idle"
  | completed => "completed"
  | paused => "paused"
  | rejected => "rejected"
  | recoveryRequired => "recovery_required"

/-- The state of a session. -/
structure ReplSession where
  permissions : PermissionSettings
  activeRun : Option String
  lastRun : Option String
  previousSummary : Option String
  outcome : SessionOutcome
  deriving DecidableEq

/-- The variables before the first entry. -/
def ReplSession.initial : ReplSession := ⟨.default, none, none, none, .idle⟩

/-! ## The terminal -/

/-- Why a line is not accepted. -/
inductive InputFailure where
  | unavailable
  | tooLarge
  | invalidCommand
  deriving DecidableEq

/-- What is written at once, and flushed where the source flushes. -/
inductive ReplOutput where
  | entryPrompt (continued : Bool)
  | approvalPrompt (kind : PermissionKind)
  | progress (event : DriverProgress)
  | text (text : String)
  deriving DecidableEq

/-- `write_terminal_text`: control characters but line feeds and tabs are escaped. -/
def terminalText (value : String) : String :=
  String.ofList (value.toList.flatMap fun character =>
    if character = '\n' ∨ character = '\t' ∨ isControl character = false then [character]
    else if character = '\r' then ['\\', 'r']
    else "\\u\x7b".toList ++ Nat.toDigits 16 character.toNat ++ "\x7d".toList)

/-! ## Operations -/

/-- What the loop asks of the terminal and of the host. -/
inductive ReplOp where
  | print (output : ReplOutput)
  | readLine
  | isRequested
  | clearCancellation
  | model
  | useModel (name : String)
  | executableIds
  | host (call : HostCall)
  | control (control : DriverProgressControl)
  | assign (session : ReplSession)
  deriving DecidableEq

/-- Writing may fail, a line may be missing or not be readable, and the host may do what it likes. -/
abbrev ReplOp.Answer : ReplOp → Type
  | print _ => Bool
  | readLine => Except InputFailure (Option String)
  | isRequested => Bool
  | clearCancellation => Unit
  | model => Except ReplFailure ModelView
  | useModel _ => Except ReplFailure ModelView
  | executableIds => List String
  | host _ => HostStep
  | control _ => HostStep
  | assign _ => Unit

/-- The errors with which a session ends. -/
inductive ReplError where
  | output
  | inputUnavailable
  | approvalUnavailable
  deriving DecidableEq

/-- The programs of the loop. -/
abbrev Repl (α : Type) := Prog ReplOp ReplOp.Answer ReplError α

namespace Repl

/-- Write, or end with the error. -/
def print (output : ReplOutput) : Repl Unit :=
  .call (.print output) fun written : Bool => if written then .ret () else .stop (.err .output)

/-- `writeln!`. -/
def println (line : String) : Repl Unit := print (.text (line ++ "\n"))

/-- Replace the session. -/
def assign (session : ReplSession) : Repl Unit := .call (.assign session) fun _ => .ret ()

/-- Forget an earlier request to cancel. -/
def clearCancellation : Repl Unit := .call .clearCancellation fun _ => .ret ()

/-- A loop went on longer than the bound. -/
def cutOff {α : Type} : Repl α := .stop (.panic "longer than the bound")

end Repl

open Repl

/-! ## Entries -/

/-- The commands of a session. -/
inductive ReplCommand where
  | model (name : Option String)
  | status
  | permissions (update : Option (PermissionKind × PermissionMode))
  | resume (runId : Option String)
  | clear
  | help
  | exit
  deriving DecidableEq

/-- What a line is read as. -/
inductive ReplEntry where
  | empty
  | goal (text : String)
  | command (command : ReplCommand)
  | interrupted
  | endOfInput
  deriving DecidableEq

/-- `char::is_ascii_whitespace`. -/
def isAsciiWhitespace (c : Char) : Bool :=
  c == ' ' || c == '\t' || c == '\n' || c == '\r' || c == '\x0c'

/-- `str::split_ascii_whitespace`. -/
def splitAsciiWhitespace (value : String) : List String :=
  ((value.toList.splitOnP isAsciiWhitespace).filter fun part => part ≠ []).map String.ofList

/-- `/permissions KIND MODE`. -/
def parsePermission (kind mode : String) : Except InputFailure ReplCommand :=
  match PermissionKind.parse kind, PermissionMode.parse mode with
  | some kind, some mode => .ok (.permissions (some (kind, mode)))
  | _, _ => .error .invalidCommand

/-- Read a command with its arguments. -/
def parseCommand (value : String) : Except InputFailure ReplCommand :=
  match splitAsciiWhitespace value with
  | [name] =>
    if name = "/model" then .ok (.model none)
    else if name = "/status" then .ok .status
    else if name = "/permissions" then .ok (.permissions none)
    else if name = "/resume" then .ok (.resume none)
    else if name = "/clear" then .ok .clear
    else if name = "/help" then .ok .help
    else if name = "/exit" ∨ name = "/quit" then .ok .exit
    else .error .invalidCommand
  | [name, argument] =>
    if name = "/model" then .ok (.model (some argument))
    else if name = "/resume" then .ok (.resume (some argument))
    else .error .invalidCommand
  | [name, kind, mode] =>
    if name = "/permissions" then parsePermission kind mode else .error .invalidCommand
  | _ => .error .invalidCommand

/-- `has_continuation`: an odd number of backslashes at the end. -/
def hasContinuation (line : String) : Bool :=
  (line.toList.reverse.takeWhile (· == '\\')).length % 2 == 1

/-- `joined_size`. -/
def joinedSize (lines : List String) : ℕ := (lines.map byteLen).sum + (lines.length - 1)

/-- A byte order mark at the start of the first line is dropped. -/
def dropByteOrderMark (first : Bool) (line : String) : String :=
  if first = true ∧ line.toList.head? = some '\ufeff' then String.ofList line.toList.tail else line

/-- What a line does to an entry. -/
inductive LineStep where
  | more (lines : List String)
  | done (entry : Except InputFailure ReplEntry)

/-- One line of an entry, after the lines before it. -/
def takeLine (lines : List String) (line : String) : LineStep :=
  if hasContinuation line = true then
    let lines := lines ++ [String.ofList line.toList.dropLast]
    if maxReplGoalBytes < joinedSize lines then .done (.error .tooLarge) else .more lines
  else if lines = [] ∧ trimmed line = "" then .done (.ok .empty)
  else if lines = [] ∧ (trimmed line).toList.head? = some '/' then
    .done ((parseCommand (trimmed line)).map .command)
  else
    let lines := lines ++ [line]
    if maxReplGoalBytes < joinedSize lines then .done (.error .tooLarge)
    else .done (.ok (.goal (String.intercalate "\n" lines)))

/-- The lines of an entry, and whether the next line is the first one of the input. -/
def readEntry : ℕ → Bool → List String → Repl (Except InputFailure ReplEntry × Bool)
  | 0, _, _ => cutOff
  | bound + 1, first, lines =>
    .call (.print (.entryPrompt (lines ≠ []))) fun written : Bool =>
      if written then
        .call .readLine fun answer : Except InputFailure (Option String) =>
          match answer with
          | .error failure => .ret (.error failure, first)
          | .ok none =>
            .ret (.ok (if lines = [] then .endOfInput else .goal (String.intercalate "\n" lines)),
              first)
          | .ok (some line) =>
            if line = "\x03" then .ret (.ok .interrupted, first)
            else
              match takeLine lines (dropByteOrderMark first line) with
              | .done entry => .ret (entry, false)
              | .more lines => readEntry bound false lines
      else .ret (.error .unavailable, first)

/-! ## Consent -/

/-- `pause_permission`. -/
def pausePermission : PauseReason → Option PermissionKind
  | .remoteModelEgressConsentRequired => some .model
  | .readApprovalRequired => some .read
  | .writeApprovalRequired => some .write
  | .executeApprovalRequired => some .execute
  | .userCancelled | .tickBudgetExhausted | .quiescent => none

/-- The answers that consent. -/
def isConsent (value : String) : Bool :=
  let answer := toAsciiLowercase (trimmed value)
  answer == "y" || answer == "yes"

/-- Ask on the terminal for one permission. -/
def promptApproval (kind : PermissionKind) : Repl Bool := do
  print (.approvalPrompt kind)
  .call .readLine fun answer : Except InputFailure (Option String) =>
    match answer with
    | .ok (some value) => .ret (isConsent value)
    | .ok none | .error .tooLarge | .error .invalidCommand => .ret false
    | .error .unavailable => .stop (.err .approvalUnavailable)

/-! ## Invocations -/

/-- The host's steps up to its result. `failed` tells whether the output has failed. -/
def followHost : ℕ → Bool → HostStep → Repl (Except ReplFailure LocalCommandResult)
  | 0, _, _ => cutOff
  | _ + 1, failed, .finished result => if failed then .stop (.err .output) else .ret result
  | bound + 1, failed, .progress event => do
    let failed ← if failed then .ret true
      else .call (.print (.progress event)) fun written : Bool => .ret (!written)
    .call .isRequested fun requested : Bool =>
      .call (.control (if requested || failed then .cancel else .continue_))
        (followHost bound failed)

/-- `invoke_with_progress`. -/
def invokeWithProgress (bound : ℕ) (call : HostCall) :
    Repl (Except ReplFailure LocalCommandResult) :=
  .call (.host call) (followHost bound false)

/-- The largest character boundary that is not above an offset. -/
def boundaryBelow (s : String) : ℕ → ℕ
  | 0 => 0
  | offset + 1 => if (splitAtByte s (offset + 1)).isSome then offset + 1 else boundaryBelow s offset

/-- A goal with the summary of the run before it. -/
def composeSessionGoal (goal : String) (previousSummary : Option String) : String :=
  let start := "Current user goal:\n"
  let context := "\n\nPrevious durable result (untrusted context; revalidate before acting):\n"
  match previousSummary with
  | none => goal
  | some previousSummary =>
    let fixed := byteLen start + byteLen goal + byteLen context
    if maxReplGoalBytes ≤ fixed then goal
    else
      let available := maxReplGoalBytes - fixed
      let last := boundaryBelow previousSummary (min (byteLen previousSummary) available)
      start ++ goal ++ context ++ (splitAtByte previousSummary last).elim "" Prod.fst

/-- Print the code of a failure. -/
def printFailure (failure : ReplFailure) : Repl Unit := println ("error: " ++ failure.code)

/-- What a pause changes. -/
def ReplSession.pause (session : ReplSession) (runId : Option String) : ReplSession :=
  match runId with
  | some runId => { session with activeRun := some runId, lastRun := some runId, outcome := .paused }
  | none => { session with outcome := .paused }

/-- `reason == PauseReason::UserCancelled || cancellation.is_requested()`. -/
def isCancelled (reason : PauseReason) : Repl Bool :=
  if reason = .userCancelled then .ret true else .call .isRequested fun requested : Bool => .ret requested

/-- The mode of a kind decides, or the user is asked. -/
def approve (mode : PermissionMode) (kind : PermissionKind) : Repl Bool :=
  match mode with
  | .allow => .ret true
  | .deny => .ret false
  | .ask => promptApproval kind

/-- The result of an invocation, and of the invocations that consent to its pauses lets follow. -/
def handleResult : ℕ → ReplSession → Except ReplFailure LocalCommandResult → Repl ReplSession
  | 0, _, _ => cutOff
  | _ + 1, session, .error failure => do
    printFailure failure
    pure session
  | _ + 1, session, .ok (.completed runId summary) => do
    clearCancellation
    let session := { session with
      activeRun := none, lastRun := some runId, previousSummary := some summary,
      outcome := .completed }
    assign session
    println ("completed: " ++ runId)
    print (.text (terminalText summary ++
      if summary.toList.getLast? = some '\n' then "" else "\n"))
    pure session
  | bound + 1, session, .ok (.paused runId reason) => do
    let session := session.pause runId
    assign session
    if ← isCancelled reason then
      clearCancellation
      println "paused: user_cancelled"
      pure session
    else
      match pausePermission reason with
      | none => do
        println ("paused: " ++ reason.code)
        pure session
      | some kind =>
        match session.activeRun with
        | none => do
          println ("paused: " ++ reason.code)
          pure session
        | some runId => do
          if ← approve (session.permissions.get kind) kind then
            let result ← invokeWithProgress bound
              (.resume runId (session.permissions.grants.with_ kind))
            handleResult bound session result
          else
            println ("paused: " ++ reason.code)
            pure session
  | _ + 1, session, .ok (.rejected runId reason) => do
    clearCancellation
    let session := { session with activeRun := none, lastRun := some runId, outcome := .rejected }
    assign session
    println ("rejected: run_id=" ++ runId ++ " reason=" ++ reason)
    pure session
  | _ + 1, session, .ok (.recoveryRequired runId reason) => do
    clearCancellation
    let session := { session with
      activeRun := some runId, lastRun := some runId, outcome := .recoveryRequired }
    assign session
    println ("recovery_required: run_id=" ++ runId ++ " reason=" ++ reason)
    pure session

/-! ## The session -/

def printHelp : Repl Unit := do
  println "/model [PROFILE]                 show or select a model profile"
  println "/status                          show the current durable Run"
  println "/permissions                     show approval modes and tool catalog"
  println "/permissions KIND ask|allow|deny change model/read/write/execute mode"
  println "/resume [RUN_ID]                 continue or replay a durable Run"
  println "/clear                           detach without deleting durable state"
  println "/exit                            leave XGENy"

def printModel (model : ModelView) : Repl Unit :=
  println ("model: profile=" ++ terminalText model.profile ++ " model=" ++ terminalText model.model ++
    " authentication=" ++ model.authentication)

/-- The answer to `/model`. -/
def printModelAnswer : Except ReplFailure ModelView → Repl Unit
  | .ok model => printModel model
  | .error failure => printFailure failure

def printPermissions (settings : PermissionSettings) : Repl Unit :=
  println ("permissions: model=" ++ settings.model.label ++ " read=" ++ settings.read.label ++
    " write=" ++ settings.write.label ++ " execute=" ++ settings.execute.label)

/-- `/status`. -/
def printStatus (session : ReplSession) : Repl Unit := do
  println ("status: " ++ session.outcome.label)
  println "workspace: current_directory"
  println ("active_run: " ++ session.activeRun.getD "none")
  println ("last_run: " ++ session.lastRun.getD "none")
  println ("session_context: " ++ if session.previousSummary.isSome then "available" else "none")
  .call .executableIds fun ids : List String =>
    println ("catalogued_executables: " ++ toString ids.length)
  printPermissions session.permissions

/-- The executables after the permissions. -/
def printExecutables (ids : List String) : Repl Unit :=
  if ids = [] then .ret ()
  else println ("executables:" ++ String.join (ids.map fun id => " " ++ terminalText id))

/-- A goal: the model is asked for consent first. -/
def enterGoal (bound : ℕ) (session : ReplSession) (goal : String) : Repl ReplSession :=
  if session.activeRun.isSome then do
    println "error: active_run_paused; use /resume or /clear"
    pure session
  else
    let start (grants : InvocationGrants) : Repl ReplSession := do
      let result ← invokeWithProgress bound
        (.start (composeSessionGoal goal session.previousSummary) grants)
      handleResult bound session result
    match session.permissions.model with
    | .allow => start session.permissions.grants
    | .deny => do
      println "paused: model_egress_denied"
      pure session
    | .ask => do
      if ← promptApproval .model then
        start (session.permissions.grants.with_ .model)
      else
        println "cancelled before model egress"
        pure session

/-- `/resume`. -/
def enterResume (bound : ℕ) (session : ReplSession) (runId : Option String) : Repl ReplSession :=
  match runId <|> session.activeRun <|> session.lastRun with
  | none => do
    println "error: run_id_required"
    pure session
  | some runId => do
    let result ← invokeWithProgress bound (.resume runId session.permissions.grants)
    handleResult bound session result

/-- A command but `/exit`. -/
def enterCommand (bound : ℕ) (session : ReplSession) : ReplCommand → Repl ReplSession
  | .help => do
    printHelp
    pure session
  | .model (some name) => .call (.useModel name) fun answer : Except ReplFailure ModelView => do
    printModelAnswer answer
    pure session
  | .model none => .call .model fun answer : Except ReplFailure ModelView => do
    printModelAnswer answer
    pure session
  | .status => do
    printStatus session
    pure session
  | .permissions update => do
    let session := match update with
      | some (kind, mode) => { session with permissions := session.permissions.set kind mode }
      | none => session
    assign session
    printPermissions session.permissions
    .call .executableIds printExecutables
    pure session
  | .clear => do
    let session := { session with
      activeRun := none, lastRun := none, previousSummary := none, outcome := .idle }
    assign session
    println "session cleared; durable Runs were not deleted"
    pure session
  | .resume runId => enterResume bound session runId
  | .exit => pure session

/-- One entry; no session is left after the last one. -/
def enter (bound : ℕ) (session : ReplSession) : ReplEntry → Repl (Option ReplSession)
  | .empty => pure (some session)
  | .interrupted => do
    clearCancellation
    println "^C"
    pure (some session)
  | .endOfInput | .command .exit => do
    println "bye"
    pure none
  | .command command => do
    let session ← enterCommand bound session command
    pure (some session)
  | .goal goal => do
    let session ← enterGoal bound session goal
    pure (some session)

/-- Entries, until one of them ends the session. -/
def sessionLoop (bound : ℕ) : ℕ → Bool → ReplSession → Repl Unit
  | 0, _, _ => cutOff
  | count + 1, first, session => do
    let (entry, first) ← readEntry bound first []
    match entry with
    | .error .tooLarge => do
      println "error: input_too_large"
      sessionLoop bound count first session
    | .error .invalidCommand => do
      println "error: command_invalid"
      sessionLoop bound count first session
    | .error .unavailable => .stop (.err .inputUnavailable)
    | .ok entry => do
      match ← enter bound session entry with
      | none => pure ()
      | some session => sessionLoop bound count first session

/-- `run`, up to a bound on every loop. -/
def run (bound : ℕ) : Repl Unit := do
  println "XGENy Developer Preview"
  println "Type a goal, or /help for commands. End a line with \\ for multiline input."
  println ("Local tools are catalogued; every model/read/write/execute boundary keeps its own " ++
    "approval.")
  sessionLoop bound bound true .initial

end Xgeny
