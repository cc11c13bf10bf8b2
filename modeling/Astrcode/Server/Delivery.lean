import Astrcode.Server.Repair

/-!
# Deliveries and the completion watcher

One session of the turn scheduler: the registry entry, the durable queue, the deliveries of
`turn_scheduler/delivery.rs` and `turn_scheduler/queue.rs`, and the completion watcher of a
turn whose task has ended (`turn_scheduler.rs`).

What runs under the session's delivery gate is one step; starting a reserved turn runs
outside the gate and is a step of its own. How a fallible part of a step ends is given from
outside (`Outcomes`). Closing a session and shutting down are left out, and with them the
deliveries that interrupt a turn.
-/
namespace Astrcode.Delivery

open Library

/-! ### The state of a session -/

/-- Who holds a reservation: the watcher of the turn in question or somebody else. -/
inductive Owner where
  | watcher
  | other
  deriving DecidableEq

/-- A reservation remembers the queued input it is for. -/
inductive TurnEntryState where
  | reserved (owner : Owner) (entry : Option PendingInput)
  | running (finished : Bool)
  deriving DecidableEq

structure TurnEntry where
  turnId : TurnId
  state : TurnEntryState
  deriving DecidableEq

/-- Where the watcher stands in `run_detached_completion_watcher`. -/
inductive WatcherState where
  /-- about to sync, at first or after a failure -/
  | retrying
  /-- synced, waiting for the delivery gate -/
  | atGate
  /-- settled, starting the queued input it has reserved -/
  | starting
  /-- settled, about to publish -/
  | publishing
  /-- has published -/
  | ended
  /-- found the turn settled by somebody else, and returned -/
  | returned
  deriving DecidableEq

structure SchedulerState where
  registry : Option TurnEntry
  pendingInputs : List PendingInput
  retryScheduled : Bool
  watcher : WatcherState
  completions : List TurnId
  deriving DecidableEq

namespace SchedulerState

variable (state : SchedulerState)

@[simp] def activeTurnId : Option TurnId := state.registry.map (·.turnId)

@[simp] def hasActive : Bool := state.registry.isSome

@[simp] def activeIsFinished : Bool :=
  state.registry.any fun entry => entry.state = .running true

/-- The registered turn, unless it is only reserved. -/
@[simp] def activeExecution : Option TurnId :=
  state.registry.bind fun entry =>
    match entry.state with
    | .reserved _ _ => none
    | .running _ => some entry.turnId

end SchedulerState

/-- How the fallible parts of one step end, and the names it makes up. -/
structure Outcomes where
  begin : Option TurnScheduleError
  sync : Option TurnScheduleError
  settle : Option TurnScheduleError
  count : Option TurnScheduleError
  acceptCount : Option TurnScheduleError
  append : Option TurnScheduleError
  reserve : Option TurnScheduleError
  acceptedSeq : Nat
  newTurnId : TurnId

abbrev DeliveryM := Program TurnScheduleError SchedulerState

def setRegistry (registry : Option TurnEntry) : DeliveryM Unit :=
  Program.modify fun state => { state with registry }

section Steps

variable (outcomes : Outcomes)

/-! ### The queue -/

def maxPendingInputsPerSession : Nat := 32

def acceptInput (input : UserInput) (turnId : Option TurnId) : DeliveryM Unit := do
  Program.attempt outcomes.append
  Program.modify fun state =>
    { state with pendingInputs := state.pendingInputs ++ [⟨outcomes.acceptedSeq, input, turnId⟩] }

/-- Returns the length of the queue. -/
def acceptPendingInput (input : UserInput) : DeliveryM Nat := do
  Program.attempt outcomes.acceptCount
  let state ← Program.read
  if maxPendingInputsPerSession ≤ state.pendingInputs.length then
    Program.fail (.queueFull maxPendingInputsPerSession)
  else do
    acceptInput outcomes input none
    return state.pendingInputs.length + 1

variable (owner : Owner)

def reserveExecution (entry : Option PendingInput) : DeliveryM Unit := do
  let state ← Program.read
  if state.hasActive then Program.fail .turnAlreadyRunning
  else setRegistry (some ⟨outcomes.newTurnId, .reserved owner entry⟩)

def reserveNextPending : DeliveryM (Option PendingInput) := do
  Program.attempt outcomes.reserve
  let state ← Program.read
  match state.pendingInputs.head? with
  | none => return none
  | some entry => do
    validateUserInput entry.input
    reserveExecution outcomes owner (some entry)
    return some entry

def enqueueBehindPendingAndStartHead (input : UserInput) : DeliveryM Nat := do
  let queueLen ← acceptPendingInput outcomes input
  let _ ← reserveNextPending outcomes .other
  return queueLen

/-! ### Settling -/

/-- Returns whether the turn was still registered. -/
def settleFinishedExecutionLocked (turnId : TurnId) : DeliveryM Bool := do
  let state ← Program.read
  if state.activeTurnId ≠ some turnId then return false
  else do
    -- a settle that fails leaves the turn registered, for the next attempt
    Program.attempt outcomes.settle
    setRegistry none
    return true

inductive FinishOutcome where
  | settled (next : Option PendingInput)
  | stale
  deriving DecidableEq

/-- The part of `finish_and_maybe_start_next` under the gate. -/
def finishInOperation (turnId : TurnId) : DeliveryM FinishOutcome := do
  let settled ← settleFinishedExecutionLocked outcomes turnId
  if !settled then return .stale
  else do
    let state ← Program.read
    if state.hasActive then return .settled none
    -- an error here is the error of the whole attempt, although the turn is settled
    else return .settled (← reserveNextPending outcomes owner)

/-! ### Deliveries -/

inductive InputDelivery where
  | startNew
  | injectOnly
  | injectIfRunningElseStart
  | queueIfRunningElseStart
  deriving DecidableEq

/-- A started turn is only reserved when the gate is released. -/
inductive DeliveryOutcome where
  | starting (turnId : TurnId)
  | injected (turnId : TurnId)
  | queued (queueLen : Nat)
  deriving DecidableEq

def startDetachedInOperation : DeliveryM DeliveryOutcome := do
  reserveExecution outcomes .other none
  return .starting outcomes.newTurnId

/-- The last resort of both deliveries that start a turn if none is registered. -/
def startBehindPending (input : UserInput) : DeliveryM DeliveryOutcome := do
  Program.attempt outcomes.count
  let state ← Program.read
  if 0 < state.pendingInputs.length then
    -- inputs that wait already go first
    return .queued (← enqueueBehindPendingAndStartHead outcomes input)
  else startDetachedInOperation outcomes

def injectIfRunningElseStart (input : UserInput) : DeliveryM DeliveryOutcome := do
  let state ← Program.read
  -- the turn would never look at the input again
  if state.activeIsFinished then return .queued (← acceptPendingInput outcomes input)
  else match state.activeExecution with
    | some turnId => do
      acceptInput outcomes input (some turnId)
      return .injected turnId
    | none =>
      -- reserved, not yet running
      if state.hasActive then return .queued (← acceptPendingInput outcomes input)
      else startBehindPending outcomes input

/-- A finished turn that is still registered is settled here, before its watcher gets to it. -/
def queueIfRunningElseStart (input : UserInput) : DeliveryM DeliveryOutcome := do
  let state ← Program.read
  match state.activeTurnId with
  | none => startBehindPending outcomes input
  | some turnId =>
    if state.activeIsFinished then
      match ← Program.orNone (settleFinishedExecutionLocked outcomes turnId) with
      | some true => return .queued (← enqueueBehindPendingAndStartHead outcomes input)
      -- a failed settle is only logged here; the watcher will retry it
      | _ => return .queued (← acceptPendingInput outcomes input)
    else return .queued (← acceptPendingInput outcomes input)

def deliverInput (delivery : InputDelivery) (input : UserInput) : DeliveryM DeliveryOutcome := do
  Program.attempt outcomes.begin
  validateUserInput input
  match delivery with
  | .startNew => do
    Program.attempt outcomes.count
    let state ← Program.read
    -- a queued input counts as a running turn
    if 0 < state.pendingInputs.length then Program.fail .turnAlreadyRunning
    else startDetachedInOperation outcomes
  | .injectOnly => do
    let state ← Program.read
    if state.activeIsFinished then Program.fail .noActiveTurn
    else match state.activeExecution with
      | none => Program.fail .noActiveTurn
      | some turnId => do
        acceptInput outcomes input (some turnId)
        return .injected turnId
  | .injectIfRunningElseStart => injectIfRunningElseStart outcomes input
  | .queueIfRunningElseStart => queueIfRunningElseStart outcomes input

/-! ### Starting what is reserved -/

/-- A start that fails may already have turned the queued input into a message. -/
inductive StartOutcome where
  | started
  | failed (consumed : Bool)
  deriving DecidableEq

def removePending (entry : PendingInput) (state : SchedulerState) : SchedulerState :=
  { state with
    pendingInputs := state.pendingInputs.filter (·.acceptedSeq ≠ entry.acceptedSeq) }

/-- Ends the start of the turn the owner has reserved. Where a queued input does not start,
`schedule_queue_retry` leaves exactly one retry scheduled. -/
def finishStart (outcome : StartOutcome) (state : SchedulerState) :
    SchedulerState :=
  match state.registry with
  | some ⟨turnId, .reserved holder entry⟩ =>
    if holder = owner then
      match outcome, entry with
      | .started, none => { state with registry := some ⟨turnId, .running false⟩ }
      | .started, some entry => { removePending entry state with
          registry := some ⟨turnId, .running false⟩, retryScheduled := false }
      | .failed _, none => { state with registry := none }
      | .failed consumed, some entry =>
        { if consumed then removePending entry state else state with
          registry := none, retryScheduled := true }
    else state
  | _ => state

/-- `run_queue_retry`, once its delay is over. -/
def runQueueRetry (state : SchedulerState) : SchedulerState :=
  if !state.retryScheduled then state
  else
    let state := { state with retryScheduled := false }
    -- whoever is registered will look at the queue when it ends
    if outcomes.begin.isSome || state.hasActive then state
    else match reserveNextPending outcomes .other state with
      | (.ok _, state) => state
      -- only a failed read of the queue is worth another retry
      | (.error (.sessionManager _), state) => { state with retryScheduled := true }
      | (.error _, state) => state

/-! ### The watcher -/

/-- One step of the watcher of the given turn. -/
def stepWatcher (turnId : TurnId) (start : StartOutcome) (state : SchedulerState) :
    SchedulerState :=
  match state.watcher with
  | .retrying =>
    match outcomes.sync with
    | some _ => state
    | none => { state with watcher := .atGate }
  | .atGate =>
    match finishInOperation outcomes .watcher turnId state with
    -- back to the sync, with whatever the failed attempt has changed
    | (.error _, state) => { state with watcher := .retrying }
    -- nothing is published on this path
    | (.ok .stale, state) => { state with watcher := .returned }
    | (.ok (.settled none), state) => { state with watcher := .publishing }
    | (.ok (.settled (some _)), state) => { state with watcher := .starting }
  | .starting => { finishStart .watcher start state with watcher := .publishing }
  | .publishing => { state with watcher := .ended, completions := state.completions ++ [turnId] }
  | .ended | .returned => state

end Steps

/-! ### Interleavings -/

inductive Step where
  | watcher (outcomes : Outcomes) (start : StartOutcome)
  | deliver (delivery : InputDelivery) (input : UserInput) (outcomes : Outcomes)
  /-- somebody else's reserved turn is started -/
  | start (outcome : StartOutcome)
  | queueRetry (outcomes : Outcomes)
  /-- a running turn takes an injected input in -/
  | absorb (entry : PendingInput)
  /-- the task of the registered turn ends -/
  | taskEnds
  /-- the watcher of another turn gets the gate -/
  | otherWatcher (outcomes : Outcomes)

/-- The registered turn finishes, if it is not reserved only. -/
def endTask (state : SchedulerState) : SchedulerState :=
  { state with registry := state.registry.map fun entry =>
      match entry.state with
      | .running _ => { entry with state := .running true }
      | .reserved _ _ => entry }

def stepOtherWatcher (outcomes : Outcomes) (turnId : TurnId) (state : SchedulerState) :
    SchedulerState :=
  match state.activeTurnId with
  | none => state
  | some active =>
    if active ≠ turnId && state.activeIsFinished then
      (finishInOperation outcomes .other active state).2
    else state

/-- The steps of one session, `turnId` being the turn whose watcher is followed. -/
def step (turnId : TurnId) : Step → SchedulerState → SchedulerState
  | .watcher outcomes start, state => stepWatcher outcomes turnId start state
  | .deliver delivery input outcomes, state => (deliverInput outcomes delivery input state).2
  | .start outcome, state => finishStart .other outcome state
  | .queueRetry outcomes, state => runQueueRetry outcomes state
  | .absorb entry, state =>
    if state.activeExecution.isSome && !state.activeIsFinished then removePending entry state
    else state
  | .taskEnds, state => endTask state
  | .otherWatcher outcomes, state => stepOtherWatcher outcomes turnId state

def run (turnId : TurnId) (initial : SchedulerState) (steps : Nat → Step) : Nat → SchedulerState
  | 0 => initial
  | n + 1 => step turnId (steps n) (run turnId initial steps n)

/-! ### What drains the queue besides -/

/-- What runs is ended: the turns of the children, the registered turn, and what nobody runs any
more is repaired. -/
def abort (outcomes : Outcomes) (children repair : Option TurnScheduleError) : DeliveryM Unit := do
  Program.attempt outcomes.begin
  Program.attempt children
  let state ← Program.read
  Program.when state.hasActive do
    Program.attempt outcomes.settle
    setRegistry none
  Program.attempt repair
  let _ ← reserveNextPending outcomes .other

/-- `repair_stale` of a session at rest, which has no turn to resume. -/
def repairStale (outcomes : Outcomes) (resume repair : Option TurnScheduleError) :
    DeliveryM Unit := do
  Program.attempt outcomes.begin
  let state ← Program.read
  Program.when (!state.hasActive) do
    Program.attempt resume
    Program.attempt repair
  -- next to a registered turn the reservation fails
  let _ ← reserveNextPending outcomes .other

inductive QueueStep where
  | scheduler (step : Step)
  | abort (outcomes : Outcomes) (children repair : Option TurnScheduleError)
  | repairStale (outcomes : Outcomes) (resume repair : Option TurnScheduleError)

/-- An abort waits for a start that is under way. -/
def queueStep (turnId : TurnId) : QueueStep → SchedulerState → SchedulerState
  | .scheduler s, state => step turnId s state
  | .abort outcomes children repair, state =>
    if state.hasActive && state.activeExecution.isNone then state
    else (abort outcomes children repair state).2
  | .repairStale outcomes resume repair, state => (repairStale outcomes resume repair state).2

def queueRun (turnId : TurnId) (initial : SchedulerState) (steps : Nat → QueueStep) :
    Nat → SchedulerState
  | 0 => initial
  | n + 1 => queueStep turnId (steps n) (queueRun turnId initial steps n)

end Astrcode.Delivery
