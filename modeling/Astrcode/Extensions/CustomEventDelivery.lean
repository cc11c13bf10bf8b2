import Astrcode.Storage.ConsumerState

/-!
# Durable delivery of custom events

`astrcode-extensions/src/runner/custom_event_delivery.rs` and `custom_event_control.rs`: the
lane of one consumer in one session. It takes commands from a queue. A durable command reads
where the consumer stands, takes the events of the log after that, and hands the matching ones
to the handler one after the other; a live command hands one event that is not stored. Control
commands pause and resume the consumer, or reset its checkpoint.

Each await of the lane and of a control command is one step of the system, so that any other
step may come in between. Storage may fail at each of its operations, also after a write has
taken place. A handler call needs one of the permits all lanes share: a durable command waits
for one, a live command has taken its own before it entered the queue.

`base`, `consumed`, `handed` and `storageFailures` are not part of the program. They record
where the last reset has put the checkpoint, which events were acknowledged or put aside under
which revision, which events the handler was called with, and how often storage failed the lane.
-/
namespace Astrcode

/-! ### Subscriptions -/

inductive CustomEventSourceFilter where
  | any
  | extension (extensionId : String)
  deriving DecidableEq

structure CustomEventSubscription where
  id : String
  consumerVersion : Nat
  eventType : String
  source : CustomEventSourceFilter
  deriving DecidableEq

def customEventConcurrency : Nat := 64

def maxCustomEventCascadeDepth : Nat := 8

def customEventQuarantineAfter : Nat := 20

variable (subscription : CustomEventSubscription)

def customEventSubscriptionMatches (extensionId eventType : String) : Bool :=
  subscription.eventType = eventType && match subscription.source with
    | .any => true
    | .extension expected => expected = extensionId

def customEventMatchesSubscription (event : CustomEventData) : Bool :=
  event.cascadeDepth ≤ maxCustomEventCascadeDepth &&
    customEventSubscriptionMatches subscription event.extensionId event.eventType

/-- The events a lane hands to its handler. -/
def isDelivered (event : DurableEvent) : Bool :=
  match event.payload with
  | .customEvent data => customEventMatchesSubscription subscription data
  | _ => false

/-! ### The lane -/

inductive CustomEventDisposition where
  | ack
  | retry (reason : String)
  | deadLetter (reason : String)
  deriving DecidableEq

inductive CustomEventLaneCommand where
  | live (event : CustomEventData)
  | reconcileDurable (throughSeq : Option Nat)
  deriving DecidableEq

@[simp] def CustomEventLaneCommand.isLive : CustomEventLaneCommand → Bool
  | .live _ => true
  | .reconcileDurable _ => false

/-- One pass over the events of the log: the revision it has read, the last event it has seen,
and the matching events that are still to be handed over. -/
structure DeliveryPass where
  throughSeq : Option Nat
  revision : Nat
  replayHead : Option Nat
  remaining : List StoredEvent
  deriving DecidableEq

inductive LanePhase where
  /-- Waits for a command. -/
  | idle
  /-- `reconcile_durable_custom_events_once`: about to read the consumer state. -/
  | readingState (throughSeq : Option Nat)
  | replaying (throughSeq : Option Nat) (state : EventConsumerState)
  /-- About to build the invocation of the next event. -/
  | preparing (pass : DeliveryPass)
  /-- Waits for a permit. -/
  | acquiring (pass : DeliveryPass)
  /-- `run_custom_event_invocation`: about to read the consumer state. -/
  | starting (pass : DeliveryPass)
  | handling (pass : DeliveryPass) (revision : Nat)
  | recording (pass : DeliveryPass) (revision : Nat) (disposition : CustomEventDisposition)
  /-- Sleeps before the next attempt. -/
  | sleeping (pass : DeliveryPass)
  | checkpointing (pass : DeliveryPass) (replayHead : Nat)
  /-- Sleeps before the next pass. -/
  | backingOff (throughSeq : Option Nat)
  | preparingLive (event : CustomEventData)
  | startingLive (event : CustomEventData)
  | handlingLive (event : CustomEventData)
  | stopped
  deriving DecidableEq

/-- A delivery is in flight. -/
def LanePhase.isActive : LanePhase → Bool
  | .starting _ | .handling .. | .recording .. | .startingLive _ | .handlingLive _ => true
  | _ => false

def LanePhase.isAcquiring : LanePhase → Bool
  | .acquiring _ => true
  | _ => false

/-- The permits the lane itself holds. -/
@[simp] def LanePhase.permits : LanePhase → Nat
  | .starting _ | .handling .. | .recording .. | .preparingLive _ | .startingLive _
  | .handlingLive _ => 1
  | _ => 0

/-- What comes after an event of the pass: the next event, or the end of the pass. -/
def DeliveryPass.nextPhase (pass : DeliveryPass) : LanePhase :=
  match pass.remaining, pass.replayHead with
  | _ :: _, _ => .preparing pass
  | [], some replayHead => .checkpointing pass replayHead
  | [], none => .idle

def DeliveryPass.consumeFirst (pass : DeliveryPass) : DeliveryPass :=
  { pass with remaining := pass.remaining.tail }

/-! ### Control commands -/

inductive CustomEventConsumerAction where
  | pause
  | resume
  | replayFromBeginning
  | skipToStreamHead
  deriving DecidableEq

/-- Where a control command stands. -/
inductive ControlTask where
  | pausing
  | resuming
  | waking
  /-- `reset_custom_event_consumer`: about to read whether the consumer is paused. -/
  | readingPrevious (reset : EventConsumerCheckpointReset)
  | pausingForReset (reset : EventConsumerCheckpointReset) (previousPaused : Bool)
  | waitingUntilIdle (reset : EventConsumerCheckpointReset) (previousPaused : Bool)
  | resetting (reset : EventConsumerCheckpointReset) (previousPaused : Bool)
  | restoring (previousPaused : Bool)
  | recovering (previousPaused : Bool)
  deriving DecidableEq

def CustomEventConsumerAction.task : CustomEventConsumerAction → ControlTask
  | .pause => .pausing
  | .resume => .resuming
  | .replayFromBeginning => .readingPrevious .beginning
  | .skipToStreamHead => .readingPrevious .streamHead

/-! ### The system -/

/-- How a write ended. One that failed may still have taken place. -/
inductive WriteResult where
  | ok
  | failed (applied : Bool)
  deriving DecidableEq

structure DeliverySystem where
  log : List DurableEvent
  store : EventConsumerState
  /-- Permits nobody holds, and permits other lanes hold. -/
  freePermits : Nat
  otherPermits : Nat
  queue : List CustomEventLaneCommand
  fullReconciliationQueued : Bool
  lane : LanePhase
  tasks : List ControlTask
  base : Option Nat
  consumed : List (Nat × Nat)
  handed : List Nat
  storageFailures : Nat

def DeliverySystem.initial (log : List DurableEvent) : DeliverySystem where
  log := log
  store := .default
  freePermits := customEventConcurrency
  otherPermits := 0
  queue := []
  fullReconciliationQueued := false
  lane := .idle
  tasks := []
  base := none
  consumed := []
  handed := []
  storageFailures := 0

inductive LaneInput where
  | next
  | read (ok : Bool)
  | acquire
  | handled (result : Except String CustomEventDisposition)
  | write (result : WriteResult)
  | wake
  | cancel

inductive ControlInput where
  | read (ok : Bool)
  | write (result : WriteResult)
  | idle
  | timeout
  | signal

inductive DeliveryAction where
  | lane (input : LaneInput)
  | append (event : DurableEvent)
  | signal (throughSeq : Option Nat)
  | live (event : CustomEventData)
  | otherAcquire
  | otherRelease
  | control (action : CustomEventConsumerAction)
  | controlStep (index : Nat) (input : ControlInput)

namespace DeliverySystem

variable (s : DeliverySystem)

def release : DeliverySystem := { s with freePermits := s.freePermits + 1 }

def fail : DeliverySystem :=
  { s with storageFailures := s.storageFailures + 1 }

/-- The stored events after the checkpoint, up to the signalled one. -/
def eventsToDeliver (log : List DurableEvent) (checkpoint throughSeq : Option Nat) :
    List StoredEvent :=
  ((numberFrom 0 log).filter fun stored => checkpoint.all (· < stored.seq)).takeWhile
    fun stored => throughSeq.all (stored.seq ≤ ·)

/-- `custom_event_lane`: a lane that has stopped is replaced by a new one. -/
def openLane : DeliverySystem :=
  if s.lane = .stopped then
    { s with lane := .idle, queue := [], fullReconciliationQueued := false }
  else s

/-- `signal_durable_custom_events`. -/
def signalDurable (throughSeq : Option Nat) : DeliverySystem :=
  let s := s.openLane
  if throughSeq.isNone && s.fullReconciliationQueued then s
  else { s with
    queue := s.queue ++ [.reconcileDurable throughSeq]
    fullReconciliationQueued := s.fullReconciliationQueued || throughSeq.isNone }

/-- What became of an event after the handler has returned. -/
inductive RecordOutcome where
  /-- Acknowledged or put aside by this edit. -/
  | settled
  | alreadyConsumed
  /-- To be handed over again. -/
  | again
  deriving DecidableEq

def failureOutcome : EventConsumerFailureOutcome → RecordOutcome
  | .quarantined _ => .settled
  | .alreadyConsumed => .alreadyConsumed
  | .recorded _ | .staleRevision => .again

/-- The edit of the stored state after the handler has returned. -/
def recordEdit (revision seq : Nat) :
    CustomEventDisposition → Except StorageError (RecordOutcome × EventConsumerState)
  | .ack => do
    let (outcome, store) ← checkpointEventConsumer s.log.length revision seq s.store
    pure (if outcome = .accepted then .settled else .again, store)
  | .retry reason => do
    let (outcome, store) ← recordEventConsumerFailure s.log.length revision seq reason
      customEventQuarantineAfter s.store
    pure (failureOutcome outcome, store)
  | .deadLetter reason => do
    let (outcome, store) ← recordEventConsumerFailure s.log.length revision seq reason 1 s.store
    pure (failureOutcome outcome, store)

/-- The stored state after the edit; an event that is settled is recorded as such. -/
def applyEdit (revision seq : Nat) (outcome : RecordOutcome)
    (store : EventConsumerState) : DeliverySystem :=
  { s with
    store
    consumed := if outcome = .settled then s.consumed ++ [(revision, seq)] else s.consumed }

variable (pass : DeliveryPass)

/-- The write at the end of a delivery; the permit is given back. -/
def recordStep (revision : Nat)
    (disposition : CustomEventDisposition) (result : WriteResult) : DeliverySystem :=
  match pass.remaining with
  | [] => s
  | stored :: _ =>
    match s.recordEdit revision stored.seq disposition, result with
    | .ok (outcome, store), .ok =>
      let s := (s.applyEdit revision stored.seq outcome store).release
      { s with lane := if outcome = .again then .sleeping pass else pass.consumeFirst.nextPhase }
    | .ok (outcome, store), .failed true =>
      { (s.applyEdit revision stored.seq outcome store).release.fail with lane := .sleeping pass }
    | _, _ => { s.release.fail with lane := .sleeping pass }

/-- The write at the end of a pass. -/
def checkpointStep (replayHead : Nat) (result : WriteResult) : DeliverySystem :=
  match checkpointEventConsumer s.log.length pass.revision replayHead s.store, result with
  | .ok (.accepted, store), .ok => { s with store, lane := .idle }
  | .ok (.staleRevision, _), .ok => { s with lane := .backingOff pass.throughSeq }
  | .ok (_, store), .failed true => { s.fail with store, lane := .backingOff pass.throughSeq }
  | _, _ => { s.fail with lane := .backingOff pass.throughSeq }

/-- The state that is read at the start of a delivery. -/
def startStep : DeliverySystem :=
  match pass.remaining with
  | [] => s
  | stored :: _ =>
    if s.store.paused then { s.release with lane := .idle }
    else if s.store.reached stored.seq then
      { s.release with lane := pass.consumeFirst.nextPhase }
    else { s with
      lane := .handling pass s.store.revision
      handed := s.handed ++ [stored.seq] }

/-- `CustomEventDisposition::retry(error.to_string())` for a handler that failed. -/
def dispositionOf : Except String CustomEventDisposition → CustomEventDisposition
  | .ok disposition => disposition
  | .error error => .retry error

def takeCommand : Option DeliverySystem :=
  match s.queue with
  | [] => none
  | .live event :: queue => some { s with queue, lane := .preparingLive event }
  | .reconcileDurable throughSeq :: queue => some { s with
      queue
      lane := .readingState throughSeq
      fullReconciliationQueued := s.fullReconciliationQueued && throughSeq.isSome }

/-- Commands that are dropped give their permits back. -/
def stop : DeliverySystem :=
  { s with
    lane := .stopped
    queue := []
    freePermits := s.freePermits + s.queue.countP (·.isLive) }

/-- The pass that starts from a state that was read. -/
def passFrom (subscription : CustomEventSubscription) (s : DeliverySystem)
    (throughSeq : Option Nat) (state : EventConsumerState) : DeliveryPass :=
  let events := eventsToDeliver s.log state.checkpoint throughSeq
  { throughSeq
    revision := state.revision
    replayHead := events.getLast?.map (·.seq)
    remaining := events.filter (isDelivered subscription ·.event) }

def laneStep (subscription : CustomEventSubscription) (s : DeliverySystem) (input : LaneInput) :
    Option DeliverySystem :=
  match s.lane, input with
  | .idle, .next => s.takeCommand
  | .readingState throughSeq, .read true =>
    some { s with lane := if s.store.paused then .idle else .replaying throughSeq s.store }
  | .readingState throughSeq, .read false => some { s.fail with lane := .backingOff throughSeq }
  | .replaying throughSeq state, .read true =>
    some { s with lane := (passFrom subscription s throughSeq state).nextPhase }
  | .replaying throughSeq _, .read false => some { s.fail with lane := .backingOff throughSeq }
  | .preparing pass, .read true => some { s with lane := .acquiring pass }
  | .preparing pass, .read false => some { s.fail with lane := .backingOff pass.throughSeq }
  | .acquiring pass, .acquire =>
    if 0 < s.freePermits then
      some { s with freePermits := s.freePermits - 1, lane := .starting pass }
    else none
  | .starting pass, .read true => some (s.startStep pass)
  | .starting pass, .read false => some { s.release.fail with lane := .sleeping pass }
  | .handling pass revision, .handled result =>
    some { s with lane := .recording pass revision (dispositionOf result) }
  | .recording pass revision disposition, .write result =>
    some (s.recordStep pass revision disposition result)
  | .sleeping pass, .wake => some { s with lane := .acquiring pass }
  | .checkpointing pass replayHead, .write result =>
    some (s.checkpointStep pass replayHead result)
  | .backingOff throughSeq, .wake => some { s with lane := .readingState throughSeq }
  | .preparingLive event, .read true => some { s with lane := .startingLive event }
  | .preparingLive _, .read false => some { s.release with lane := .idle }
  | .startingLive event, .read true =>
    some (if s.store.paused then { s.release with lane := .idle }
      else { s with lane := .handlingLive event })
  | .startingLive _, .read false => some { s.release with lane := .idle }
  -- an event that is not stored is handed over once
  | .handlingLive _, .handled _ => some { s.release with lane := .idle }
  | .idle, .cancel | .acquiring _, .cancel | .sleeping _, .cancel | .backingOff _, .cancel =>
    some s.stop
  | _, _ => none

/-- A write of a control command. -/
def writePaused (paused : Bool) : WriteResult → DeliverySystem
  | .ok | .failed true => { s with store := setEventConsumerPaused paused s.store }
  | .failed false => s

variable (reset : EventConsumerCheckpointReset)

def writeReset (result : WriteResult) : DeliverySystem :=
  match resetEventConsumerCheckpoint s.log.length reset s.store, result with
  | .ok store, .ok | .ok store, .failed true => { s with store, base := store.checkpoint }
  | _, _ => s

/-- The reset itself was successful. -/
def resetSucceeds : Bool :=
  (resetEventConsumerCheckpoint s.log.length reset s.store).isOk

/-- One await of a control command, and where it stands then. -/
def advanceTask :
    ControlTask → ControlInput → Option (DeliverySystem × Option ControlTask)
  | .pausing, .write result => some (s.writePaused true result, none)
  | .resuming, .write result =>
    some (s.writePaused false result, if result = .ok then some .waking else none)
  | .waking, .signal => some (s.signalDurable none, none)
  | .readingPrevious reset, .read true => some (s, some (.pausingForReset reset s.store.paused))
  | .readingPrevious _, .read false => some (s, none)
  | .pausingForReset reset previousPaused, .write result =>
    some (s.writePaused true result,
      if result = .ok then some (.waitingUntilIdle reset previousPaused) else none)
  | .waitingUntilIdle reset previousPaused, .idle =>
    if s.lane.isActive then none else some (s, some (.resetting reset previousPaused))
  | .waitingUntilIdle _ previousPaused, .timeout => some (s, some (.recovering previousPaused))
  | .resetting reset previousPaused, .write result =>
    some (s.writeReset reset result,
      if result = .ok && s.resetSucceeds reset then some (.restoring previousPaused)
      else some (.recovering previousPaused))
  | .restoring previousPaused, .write result | .recovering previousPaused, .write result =>
    some (s.writePaused previousPaused result,
      if result = .ok && !previousPaused then some .waking else none)
  | _, _ => none

def controlStep (index : Nat) (input : ControlInput) :
    Option DeliverySystem := do
  let task ← s.tasks[index]?
  let (s', task') ← s.advanceTask task input
  pure { s' with tasks := match task' with
    | some task' => s.tasks.set index task'
    | none => s.tasks.eraseIdx index }

/-- A live event takes its permit at once or is dropped. A waiting lane comes first. -/
def observeLive (event : CustomEventData) : Option DeliverySystem :=
  if s.lane.isAcquiring && 0 < s.freePermits then none
  else
    let s := s.openLane
    if s.freePermits = 0 then some s
    else some { s with freePermits := s.freePermits - 1, queue := s.queue ++ [.live event] }

def step (subscription : CustomEventSubscription) (s : DeliverySystem) :
    DeliveryAction → Option DeliverySystem
  | .lane input => s.laneStep subscription input
  | .append event => some { s with log := s.log ++ [event] }
  | .signal throughSeq => some (s.signalDurable throughSeq)
  | .live event =>
    if customEventMatchesSubscription subscription event then s.observeLive event else some s
  | .otherAcquire =>
    if 0 < s.freePermits && !s.lane.isAcquiring then
      some { s with freePermits := s.freePermits - 1, otherPermits := s.otherPermits + 1 }
    else none
  | .otherRelease =>
    if 0 < s.otherPermits then
      some { s with freePermits := s.freePermits + 1, otherPermits := s.otherPermits - 1 }
    else none
  | .control action => some { s with tasks := s.tasks ++ [action.task] }
  | .controlStep index input => s.controlStep index input

/-- A run of the system, with any scheduling of the lane, the commands and the rest. -/
def run (subscription : CustomEventSubscription) (s : DeliverySystem) :
    List DeliveryAction → Option DeliverySystem
  | [] => some s
  | action :: actions => (s.step subscription action).bind (run subscription · actions)

/-! ### What a step of a control command does -/

variable {s}

theorem openLane_eq (present : s.lane ≠ .stopped) : s.openLane = s := if_neg present

theorem openLane_cases (s : DeliverySystem) : s.openLane = s ∨
    s.openLane = { s with lane := .idle, queue := [], fullReconciliationQueued := false } :=
  (ite_eq_or_eq _ _ _).symm

theorem openLane_present : s.openLane.lane ≠ .stopped := by
  rw [openLane]
  split
  · simp
  · assumption

/-- A control command does one write at a time, or wakes the lane. -/
theorem advanceTask_effect {s' : DeliverySystem} {task : ControlTask} {input : ControlInput}
    {task' : Option ControlTask} (advanced : s.advanceTask task input = some (s', task')) :
    s' = s ∨ s' = s.signalDurable none ∨ (∃ paused result, s' = s.writePaused paused result) ∨
      ∃ reset result, s' = s.writeReset reset result := by
  rw [advanceTask.eq_def] at advanced
  split at advanced
  case h_7 =>
    split at advanced
    · cases advanced
    · cases advanced
      exact Or.inl rfl
  case h_3 =>
    cases advanced
    exact Or.inr (Or.inl rfl)
  case h_9 =>
    cases advanced
    exact Or.inr (Or.inr (Or.inr ⟨_, _, rfl⟩))
  all_goals cases advanced
  all_goals first
    | exact Or.inl rfl
    | exact Or.inr (Or.inr (Or.inl ⟨_, _, rfl⟩))

/-! ### What the write after a delivery changes -/

/-- A delivery under an earlier revision changes nothing and is made again; one of an event the
checkpoint has reached changes nothing; a failure is counted; otherwise the checkpoint moves. -/
inductive Edits (s : DeliverySystem) (revision seq : Nat) :
    RecordOutcome → EventConsumerState → Prop
  | stale (revision_ne : s.store.revision ≠ revision) : Edits s revision seq .again s.store
  | reached {outcome : RecordOutcome} (notAgain : outcome ≠ .again)
      (revision_eq : s.store.revision = revision) (reached : s.store.reached seq = true) :
      Edits s revision seq outcome s.store
  | counted (revision_eq : s.store.revision = revision) (behind : s.store.reached seq = false)
      (few : s.store.consecutiveFailures + 1 < customEventQuarantineAfter) :
      Edits s revision seq .again
        { s.store with consecutiveFailures := s.store.consecutiveFailures + 1 }
  | moved {store : EventConsumerState} (revision_eq : s.store.revision = revision)
      (behind : s.store.reached seq = false) (checkpoint : store.checkpoint = some seq)
      (sameRevision : store.revision = s.store.revision)
      (samePaused : store.paused = s.store.paused) (failures : store.consecutiveFailures = 0) :
      Edits s revision seq .settled store

variable {s : DeliverySystem} {revision seq : Nat} {store : EventConsumerState}

theorem edits_of_failure {reason : String} {quarantineAfter : Nat}
    {outcome : EventConsumerFailureOutcome} (atMost : quarantineAfter ≤ customEventQuarantineAfter)
    (recorded : recordEventConsumerFailure s.log.length revision seq reason quarantineAfter s.store =
      .ok (outcome, store)) :
    seq < s.log.length ∧ s.Edits revision seq (failureOutcome outcome) store := by
  obtain ⟨bound, edit⟩ := recordEventConsumerFailure_cases recorded
  refine ⟨bound, ?_⟩
  rcases edit with ⟨rfl, stale, rfl⟩ | ⟨rfl, current, reached, rfl⟩ |
    ⟨rfl, current, behind, -, few, rfl⟩ | ⟨rfl, current, behind, -, aside, written, rfl⟩
  · exact .stale stale
  · exact .reached (by decide) current reached
  · exact .counted current behind (few.trans_le atMost)
  · obtain ⟨-, sameRevision, paused, -⟩ := EventConsumerState.recordQuarantine_ok written
    exact .moved current behind rfl sameRevision paused rfl

theorem edits_of_recordEdit {disposition : CustomEventDisposition} {outcome : RecordOutcome}
    (edited : s.recordEdit revision seq disposition = .ok (outcome, store)) :
    seq < s.log.length ∧ s.Edits revision seq outcome store := by
  cases disposition with
  | ack =>
    obtain ⟨⟨result, store'⟩, checkpointed, ended⟩ := Library.bind_ok_iff.mp edited
    cases ended
    obtain ⟨bound, edit⟩ := checkpointEventConsumer_cases checkpointed
    refine ⟨bound, ?_⟩
    rcases edit with ⟨rfl, stale, rfl⟩ | ⟨rfl, current, reached, rfl⟩ | ⟨rfl, current, behind, rfl⟩
    · exact .stale stale
    · exact .reached (by decide) current reached
    · exact .moved current behind rfl rfl rfl rfl
  | retry reason =>
    obtain ⟨⟨result, store'⟩, recorded, ended⟩ := Library.bind_ok_iff.mp edited
    cases ended
    exact edits_of_failure le_rfl recorded
  | deadLetter reason =>
    obtain ⟨⟨result, store'⟩, recorded, ended⟩ := Library.bind_ok_iff.mp edited
    cases ended
    exact edits_of_failure (by decide) recorded

end DeliverySystem

end Astrcode
