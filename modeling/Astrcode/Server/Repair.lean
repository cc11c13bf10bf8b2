import Astrcode.Session.Turn

/-!
# Repair of stale sessions

`turn_scheduler/lifecycle.rs`: what the scheduler does with a session whose turn nobody
runs any more. `active` lists the sessions with a registered turn. Starting a resumed
turn or a queued input is left to the scheduler: the outcome only says which one it is.
-/
namespace Astrcode

open Library

/-- `TurnScheduleError`, as far as repairing a session and delivering an input can raise it. -/
inductive TurnScheduleError where
  | turnAlreadyRunning
  | noActiveTurn
  | queueFull (max : Nat)
  | emptyInput
  | inputTooLarge (actual max : Nat)
  | sessionManager (e : SessionError)
  | eventEmit (e : SessionError)
  deriving DecidableEq

abbrev SchedulerM := Program TurnScheduleError Session

/-! ### Queued inputs -/

def maxPromptTextBytes : Nat := 1024 * 1024

def UserInput.canSubmit (input : UserInput) : Bool :=
  !isBlank input.text || !input.attachments.isEmpty

def validateUserInput {σ : Type} (input : UserInput) : Program TurnScheduleError σ Unit :=
  if !input.canSubmit then Program.fail .emptyInput
  else if maxPromptTextBytes < input.text.utf8ByteSize then
    Program.fail (.inputTooLarge input.text.utf8ByteSize maxPromptTextBytes)
  else pure ()

section Scheduler

variable (journal : SessionJournal) (active : SessionId → Bool)

/-- The head of the queue, if it can be started. -/
def reserveNextPending : SchedulerM (Option PendingInput) := do
  let state ← readModel
  match state.execution.pendingInputs.head? with
  | none => return none
  | some entry => do
    validateUserInput entry.input
    -- the reservation itself: a registered turn keeps others out
    if active state.identity.sessionId then Program.fail .turnAlreadyRunning
    else return some entry

/-! ### The turn protocol -/

/-- `matches!(phase, Phase::Idle | Phase::Error)`. -/
def Phase.isAtRest (phase : Phase) : Bool := phase = .idle || phase = .error

/-- Ends a turn that is still under way, under no turn id. -/
def repairStalePhaseForState (state : SessionReadModel) : SchedulerM Unit :=
  if state.execution.phase.isAtRest then Program.fail .noActiveTurn
  else Program.mapError .eventEmit do
    let _ ← emitInterruptedToolResults journal state none .failed
    -- always, also where there was no call to answer
    emitTurnAbortedContext journal none
    let _ ← emitDurable journal none (turnCompletedPayload turnFinishInterrupted)

def repairIncompleteToolProtocolForState (state : SessionReadModel) : SchedulerM Unit :=
  Program.mapError .eventEmit do
    let interrupted ← emitInterruptedToolResults journal state none .failed
    -- no completion follows, whatever phase the answers lead to
    Program.when (0 < interrupted) (emitTurnAbortedContext journal none)

/-- Returns the state it read, from before the repair. -/
def repairTurnProtocolState : SchedulerM SessionReadModel := do
  let state ← readModel
  if state.execution.phase.isAtRest then do
    repairIncompleteToolProtocolForState journal state
    return state
  else do
    repairStalePhaseForState journal state
    return state

/-! ### Agent links -/

/-- The final session of a failed agent is the child itself. -/
def agentSessionFailedPayload (childSessionId : SessionId) (error : String) :
    DurableEventPayload :=
  .agentSessionFailed childSessionId childSessionId error

/-- A child with a registered turn is stopped, which is not an event of this session. -/
def repairStaleRun (link : AgentSessionLinkView) : SchedulerM Unit :=
  if active link.childSessionId then pure ()
  else Program.mapError .eventEmit do
    let _ ← emitDurable journal none (agentSessionFailedPayload link.childSessionId "interrupted")

def repairStaleRunsForState (state : SessionReadModel) : SchedulerM Unit :=
  Program.forEach (repairStaleRun journal active)
    (state.agentSessions.filter (·.status = .running))

/-! ### The whole repair -/

def syncDurableEventsRequired : SchedulerM Unit :=
  Program.mapError .sessionManager (Session.syncDurableEvents journal)

/-- The turn to resume, if its step can go on. A turn that only lacks its completion gets it. -/
def resumeStaleExecution : SchedulerM (Option TurnId) := do
  let state ← readModel
  if active state.identity.sessionId || state.execution.phase.isAtRest then return none
  else match state.execution.unsettledTurnId, state.execution.activeStep with
    | some turnId, some step =>
      match step.finishReason with
      -- the step was over: only the completion of the turn is missing
      | some finishReason => do
        Program.mapError .eventEmit
          (finalizeTurn journal turnId ⟨finishReason, none, false, false⟩)
        syncDurableEventsRequired journal
        return none
      | none => do
        -- calls that were under way count as failed; the resumed turn shows them to the model
        let _ ← Program.mapError .eventEmit
          (emitInterruptedToolResults journal state (some turnId) .failed)
        syncDurableEventsRequired journal
        return some turnId
    | _, _ => return none

def repairStaleLocked : SchedulerM Unit := do
  let before ← readModel
  if active before.identity.sessionId then return
  else do
    let state ← repairTurnProtocolState journal
    -- the links as they were before the turn was repaired
    repairStaleRunsForState journal active state
    syncDurableEventsRequired journal

inductive RepairOutcome where
  | resumed (turnId : TurnId)
  | started (entry : PendingInput)
  | repaired
  deriving DecidableEq

def repairStale : SchedulerM RepairOutcome := do
  match ← resumeStaleExecution journal active with
  | some turnId => return .resumed turnId
  | none => do
    repairStaleLocked journal active
    match ← reserveNextPending active with
    | some entry => return .started entry
    | none => return .repaired

end Scheduler

def needsStaleRepair (state : SessionReadModel) : Bool :=
  !state.execution.phase.isAtRest || state.execution.activeStep.isSome ||
    !state.toolCallsNeedingInterruption.isEmpty ||
    state.agentSessions.any (·.status = .running) ||
    !state.execution.pendingInputs.isEmpty

end Astrcode
