import Astrcode.Server.Access
import Astrcode.Server.Delivery
import Astrcode.Server.Settle

/-!
# Turns of child sessions

`submit_turn` of `astrcode-server/src/session_operations.rs` for a caller that waits, with
`child_session.rs` and `child_session/completion.rs`: a session submits a turn to a
descendant and waits for its result. A guard notes how the turn ends. Whoever drains the
guard settles the child, records the end on the caller's link to the child, starts the
child's next queued input, and only then lets the caller go on. Several tasks drain, but a
guard is claimed by one of them, under the delivery gate of the child.

Storage works. Aborts, shutdown, background turns (which recycle or notify) and the hooks
of extensions around the start of a turn are left out.
-/
namespace Astrcode

open Library

/-- White space becomes single blanks; what is longer than the limit is cut. -/
def inlinePreview (text : String) (maxChars : Nat) : String :=
  let words := (text.toList.splitOnP isWhitespace).filter (!·.isEmpty)
  let preview := [' '].intercalate words
  String.ofList (if maxChars < preview.length then preview.take maxChars ++ ['…'] else preview)

/-! ### The state -/

inductive ChildOutcome where
  | completed (output : String)
  | failed (error : String)
  | aborted
  | timedOut
  deriving DecidableEq

structure ChildCompletion where
  outcome : ChildOutcome
  finalization : Option TurnFinalization
  deriving DecidableEq

structure ChildSessionCompletionGuard where
  childSessionId : SessionId
  parentSessionId : SessionId
  turnId : TurnId
  completion : Option ChildCompletion
  childSettled : Bool
  deriving DecidableEq

/-- A registered turn; the finalization is there once its task has ended. -/
structure ActiveTurn where
  turnId : TurnId
  finalization : Option TurnFinalization
  deriving DecidableEq

/-- The guards of all parents, and what their waiting callers have been told. -/
structure ChildSessionCoordinator where
  repository : SessionRepository
  registry : SessionId → Option ActiveTurn
  guards : List ChildSessionCompletionGuard
  terminals : TurnId → Option (Except ChildTurnError Unit)

/-- What the start of a turn makes up. -/
structure Names where
  turnId : TurnId
  messageId : MessageId
  stamp : Nat → EventId × Timestamp

def Names.journal (names : Names) : SessionJournal := ⟨names.stamp, fun _ => none, fun _ => false⟩

def SessionRepository.extend (repository : SessionRepository) (sessionId : SessionId)
    (events : List StoredEvent) : SessionRepository :=
  match events, repository.active.lookup sessionId with
  | [], _ => repository
  | _ :: _, none => repository
  | _ :: _, some log =>
    { repository with active := repository.active.insert sessionId (log ++ events) }

abbrev ChildM := Program ChildTurnError ChildSessionCoordinator

def emitTurnStartEvents (journal : SessionJournal) (messageId : MessageId) (input : UserInput)
    (turnId : TurnId) (acceptedSeq : Option Nat) : SessionM Unit := do
  let _ ← emitDurable journal (some turnId) .turnStarted
  let _ ← emitDurable journal (some turnId)
    (.userMessage messageId input.text input.attachments acceptedSeq)

namespace ChildSessionCoordinator

def readSession (sessionId : SessionId) : ChildM SessionReadModel := fun server =>
  match server.repository.sessionReadModel sessionId with
  | .ok model => (.ok model, server)
  | .error e => (.error (.session e), server)

/-- Runs a program of one session on its log. -/
def onSession {α : Type} (sessionId : SessionId) (program : Program ChildTurnError Session α) :
    ChildM α := fun server =>
  match server.repository.sessionReadModel sessionId with
  | .ok model =>
    let (result, session) := program ⟨model, 0, []⟩
    (result, { server with repository := server.repository.extend sessionId session.appended })
  | .error e => (.error (.session e), server)

def setActive (sessionId : SessionId) (active : Option ActiveTurn) : ChildM Unit :=
  Program.modify fun server =>
    { server with registry := Function.update server.registry sessionId active }

/-! ### Starting turns -/

variable (names : Names)

def startReservedExecution (sessionId : SessionId) (input : UserInput)
    (acceptedSeq : Option Nat) : ChildM Unit := do
  onSession sessionId (Program.mapError .turn
    (emitTurnStartEvents names.journal names.messageId input names.turnId acceptedSeq))
  setActive sessionId (some ⟨names.turnId, none⟩)

/-- `start_with_completion_in_admitted_operation`. -/
def startWithCompletion (sessionId : SessionId) (input : UserInput) :
    ChildM Unit := do
  Program.mapError .schedule (validateUserInput input)
  let model ← readSession sessionId
  -- a queued input counts as a running turn
  if 0 < model.execution.pendingInputs.length then Program.fail (.schedule .turnAlreadyRunning)
  else do
    let server ← Program.read
    if (server.registry sessionId).isSome then Program.fail (.schedule .turnAlreadyRunning)
    else startReservedExecution names sessionId input none

/-- Starts the head of the queue. A start that fails is left to a retry. -/
def startHead (sessionId : SessionId) : ChildM (Option TurnId) := do
  let server ← Program.read
  match ← onSession sessionId (Program.mapError .schedule
      (reserveNextPending fun other => (server.registry other).isSome)) with
  | none => return none
  | some entry => do
    let started ← Program.orNone
      (startReservedExecution names sessionId entry.input (some entry.acceptedSeq))
    return started.map fun _ => names.turnId

def startNextAfterSettle (sessionId : SessionId) : ChildM (Option TurnId) := do
  let server ← Program.read
  if (server.registry sessionId).isSome then return none
  else startHead names sessionId

/-! ### Settling -/

/-- Returns whether the turn was still registered. -/
def settleFinishedExecution (sessionId : SessionId) (turnId : TurnId)
    (finalization : Option TurnFinalization) : ChildM Bool := do
  let server ← Program.read
  let active := server.registry sessionId
  let settled ← onSession sessionId (Program.mapError .schedule
    (settleFinishedExecutionLocked names.journal (active.map (·.turnId))
      (active.bind (·.finalization)) turnId finalization))
  if settled then do
    setActive sessionId none
    return true
  else return false

def releaseCompletedExecution (sessionId : SessionId) (turnId : TurnId)
    (finalization : Option TurnFinalization) : ChildM Bool := do
  onSession sessionId (Program.mapError .schedule (syncDurableEventsRequired names.journal))
  settleFinishedExecution names sessionId turnId finalization

def hasDurableTurnCompletion (server : ChildSessionCoordinator) (sessionId : SessionId)
    (turnId : TurnId) : Bool :=
  match server.repository.replayEvents sessionId with
  | .ok events => events.any fun event =>
      event.event.turnId = some turnId && event.event.payload.isTurnCompleted
  | .error _ => false

/-- A turn that is no longer registered has to have completed. -/
def settleChild (guard : ChildSessionCompletionGuard)
    (completion : ChildCompletion) : ChildM Unit :=
  if guard.childSettled then pure ()
  else do
    let settled ← releaseCompletedExecution names guard.childSessionId guard.turnId
      completion.finalization
    let server ← Program.read
    if settled || server.hasDurableTurnCompletion guard.childSessionId guard.turnId then pure ()
    else Program.fail (.completionOwnershipLost guard.childSessionId guard.turnId)

/-! ### Draining -/

/-- The end of the turn, as the link of the parent shows it. -/
def ChildOutcome.relationUpdate (childSessionId : SessionId) : ChildOutcome → ChildRelationUpdate
  | .completed output => .completed childSessionId (inlinePreview output 159)
  | .failed error => .failed childSessionId error
  | .aborted => .failed childSessionId "aborted"
  | .timedOut => .failed childSessionId "timed out"

def writeTerminalForGuard (guard : ChildSessionCompletionGuard)
    (completion : ChildCompletion) : ChildM Unit :=
  onSession guard.parentSessionId (recordChildRelation names.journal guard.parentSessionId
    (ChildOutcome.relationUpdate guard.childSessionId completion.outcome))

def completionWasSupersededByClose (server : ChildSessionCoordinator)
    (guard : ChildSessionCompletionGuard) : Bool :=
  match server.repository.sessionReadModel guard.parentSessionId with
  | .ok model => !model.agentSessions.any fun link =>
      link.childSessionId = guard.childSessionId && link.status = .running
  | .error (.notFound _) => true
  | .error _ => false

def claim (guard : ChildSessionCompletionGuard) (server : ChildSessionCoordinator) :
    ChildSessionCoordinator :=
  { server with guards := server.guards.filter (·.turnId ≠ guard.turnId) }

def restoreCompletionGuard (guard : ChildSessionCompletionGuard)
    (server : ChildSessionCoordinator) : ChildSessionCoordinator :=
  { server with guards := server.guards ++ [guard] }

/-- A waiting caller is told once. -/
def finishTerminal (turnId : TurnId) (result : Except ChildTurnError Unit)
    (server : ChildSessionCoordinator) : ChildSessionCoordinator :=
  { server with
    terminals := Function.update server.terminals turnId
      ((server.terminals turnId).or (some result)) }

/-- What follows once the guard of an ended turn is claimed. -/
def drainClaimed (guard : ChildSessionCompletionGuard)
    (completion : ChildCompletion) (server : ChildSessionCoordinator) : ChildSessionCoordinator :=
  match settleChild names guard completion server with
  | (.error e, server) =>
    let kept := if server.completionWasSupersededByClose guard then server
      else server.restoreCompletionGuard guard
    kept.finishTerminal guard.turnId (.error e)
  | (.ok (), server) =>
    let guard := { guard with childSettled := true }
    match writeTerminalForGuard names guard completion server with
    -- the guard is given up, and the queue of the child is not looked at
    | (.error (.childRelationConflict parent child expected actual), server) =>
      server.finishTerminal guard.turnId (.error (.childRelationConflict parent child expected actual))
    | (.error e, server) =>
      (server.restoreCompletionGuard guard).finishTerminal guard.turnId (.error e)
    | (.ok (), server) =>
      match startNextAfterSettle names guard.childSessionId server with
      | (.error e, server) =>
        (server.restoreCompletionGuard guard).finishTerminal guard.turnId (.error e)
      | (.ok _, server) => server.finishTerminal guard.turnId (.ok ())

/-- Drains the guard of one turn, if the turn has ended. -/
def drainGuard (turnId : TurnId) (server : ChildSessionCoordinator) :
    ChildSessionCoordinator :=
  match server.guards.find? (·.turnId = turnId) with
  | none => server
  | some guard =>
    match guard.completion with
    | none => server
    | some completion => drainClaimed names guard completion (server.claim guard)

/-- One pass over the guards of a parent, as they are when it begins. -/
def drainCompleted (names : TurnId → Names) (parentSessionId : SessionId)
    (server : ChildSessionCoordinator) : ChildSessionCoordinator :=
  (server.guards.filter fun guard =>
    guard.parentSessionId = parentSessionId && guard.completion.isSome).foldl
      (fun server guard => server.drainGuard (names guard.turnId) guard.turnId) server

/-! ### What else goes on -/

def acceptPendingInput (sessionId : SessionId) (input : UserInput) :
    ChildM Unit := do
  let model ← readSession sessionId
  if Delivery.maxPendingInputsPerSession ≤ model.execution.pendingInputs.length then
    Program.fail (.schedule (.queueFull Delivery.maxPendingInputsPerSession))
  else onSession sessionId (Program.mapError (fun e => .schedule (.eventEmit e)) do
    let _ ← emitDurable names.journal none (.userInputAccepted input))

def enqueueAndStartHead (sessionId : SessionId) (input : UserInput) :
    ChildM Unit := do
  acceptPendingInput names sessionId input
  let _ ← startHead names sessionId

/-- Settles the turn if its task has ended, before the guard of the turn is drained. -/
def queueBehind (sessionId : SessionId) (input : UserInput) (active : ActiveTurn) : ChildM Unit :=
  if active.finalization.isSome then do
    match ← Program.orNone (settleFinishedExecution names sessionId active.turnId none) with
    | some true => enqueueAndStartHead names sessionId input
    | _ => acceptPendingInput names sessionId input
  else acceptPendingInput names sessionId input

def queueIfRunningElseStart (sessionId : SessionId) (input : UserInput) :
    ChildM Unit := do
  Program.mapError .schedule (validateUserInput input)
  let server ← Program.read
  match server.registry sessionId with
  | some active => queueBehind names sessionId input active
  | none => do
    let model ← readSession sessionId
    if 0 < model.execution.pendingInputs.length then enqueueAndStartHead names sessionId input
    else startReservedExecution names sessionId input none

variable {names}

/-- What can happen between two steps of a submission. -/
inductive Interim where
  /-- some session appends an event -/
  | record (event : DurableEvent)
  | deliver (names : Names) (sessionId : SessionId) (input : UserInput)
  /-- the guard of another turn is drained -/
  | drain (names : Names) (turnId : TurnId)

def interim (own : TurnId) (server : ChildSessionCoordinator) : Interim → ChildSessionCoordinator
  | .record event =>
    match server.repository.append event with
    | .ok repository => { server with repository }
    | .error _ => server
  | .deliver names sessionId input => (queueIfRunningElseStart names sessionId input server).2
  | .drain names turnId => if turnId = own then server else server.drainGuard names turnId

/-- The task of a turn ends: the registry and the guard learn how. -/
def turnEnds (sessionId : SessionId) (turnId : TurnId) (completion : ChildCompletion)
    (server : ChildSessionCoordinator) : ChildSessionCoordinator :=
  { server with
    registry := Function.update server.registry sessionId
      ((server.registry sessionId).map fun active =>
        if active.turnId = turnId then { active with finalization := completion.finalization }
        else active)
    guards := server.guards.map fun guard =>
      if guard.turnId = turnId then { guard with completion := guard.completion.or (some completion) }
      else guard }

/-! ### Submissions -/

/-- A turn submitted to another session, with all that happens until the caller is told. -/
structure Submission where
  caller : SessionId
  target : SessionId
  other : caller ≠ target
  userPrompt : String
  names : Names
  /-- while the turn runs -/
  meanwhile : List Interim
  completion : ChildCompletion
  /-- from the end of the turn to the draining of its guard -/
  afterwards : List Interim
  /-- for the next turn of the target -/
  nextNames : Names

namespace Submission

variable (submission : Submission)

abbrev turnId : TurnId := submission.names.turnId

@[simps] def guard : ChildSessionCompletionGuard :=
  ⟨submission.target, submission.caller, submission.turnId, none, false⟩

end Submission

inductive SubmitTurnError where
  | access (e : SessionApiError)
  | notFound (e : StorageError)
  | start (e : ChildTurnError)
  | terminal (e : ChildTurnError)
  | failed (error : String)
  | aborted
  | timedOut
  deriving DecidableEq

variable (submission : Submission)

def admitTurn : Program SubmitTurnError ChildSessionCoordinator Unit :=
  fun server =>
    match server.repository.verifyAccessInScope submission.caller submission.target .active with
    | .error e => (.error (.access e), server)
    | .ok () =>
      match server.repository.sessionReadModel submission.target with
      | .error e => (.error (.notFound e), server)
      | .ok _ => (.ok (), server)

/-- Up to the point where `submit_turn_sync` waits. -/
def beginTurn (drainNames : TurnId → Names) :
    Program SubmitTurnError ChildSessionCoordinator Unit := do
  admitTurn submission
  Program.mapError .start
    (startWithCompletion submission.names submission.target ⟨submission.userPrompt, []⟩)
  Program.modify fun server =>
    { server with guards := server.guards ++ [submission.guard] }.drainCompleted drainNames
      submission.caller

/-- The turn has run and ended, its guard is still to be drained. -/
def ended (server : ChildSessionCoordinator) : ChildSessionCoordinator :=
  submission.afterwards.foldl (interim submission.turnId)
    (turnEnds submission.target submission.turnId submission.completion
      (submission.meanwhile.foldl (interim submission.turnId) server))

def turnResult (completion : ChildCompletion) :
    Except ChildTurnError Unit → Except SubmitTurnError String
  | .error e => .error (.terminal e)
  | .ok () =>
    match completion.outcome with
    | .completed output => .ok output
    | .failed error => .error (.failed error)
    | .aborted => .error .aborted
    | .timedOut => .error .timedOut

/-- What the caller gets, `none` as long as it waits. -/
def submitTurn (drainNames : TurnId → Names) (server : ChildSessionCoordinator) :
    Option (Except SubmitTurnError String) × ChildSessionCoordinator :=
  match beginTurn submission drainNames server with
  | (.error e, server) => (some (.error e), server)
  | (.ok (), begun) =>
    let drained := (begun.ended submission).drainGuard submission.nextNames submission.turnId
    ((drained.terminals submission.turnId).map (turnResult submission.completion), drained)

end ChildSessionCoordinator

end Astrcode
