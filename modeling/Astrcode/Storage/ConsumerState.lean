import Astrcode.Library.Runs
import Astrcode.Storage.EventLog

/-!
# Where a consumer of events stands

`astrcode-storage/src/traits.rs` and `session_repo/store.rs`: the stored state of a durable
consumer and the edits of it. An edit that names a revision changes nothing once a reset has
opened a later one.

Each edit reads the stored state, changes it and writes it back under one lock; here it is a
function of the state that was read. The number of events in the log bounds what may be
recorded.
-/
namespace Astrcode

structure EventConsumerQuarantine where
  seq : Nat
  revision : Nat
  attempts : Nat
  lastError : String
  deriving DecidableEq

structure EventConsumerSkip where
  fromSeq : Option Nat
  toSeq : Option Nat
  revision : Nat
  deriving DecidableEq

structure EventConsumerState where
  checkpoint : Option Nat
  paused : Bool
  revision : Nat
  consecutiveFailures : Nat
  quarantinedCount : Nat
  skippedCount : Nat
  quarantined : List EventConsumerQuarantine
  skips : List EventConsumerSkip
  deriving DecidableEq

inductive EventConsumerCheckpointReset where
  | beginning
  | streamHead
  deriving DecidableEq

inductive EventConsumerCheckpointOutcome where
  | accepted
  | staleRevision
  deriving DecidableEq

inductive EventConsumerFailureOutcome where
  | recorded (attempts : Nat)
  | quarantined (attempts : Nat)
  | alreadyConsumed
  | staleRevision
  deriving DecidableEq

def eventConsumerAuditRecordLimit : Nat := 128

def eventConsumerErrorMaxBytes : Nat := 4 * 1024

/-- `u32::checked_add(1)`. -/
def checkedSuccU32 (n : Nat) : Option Nat := if n + 1 < 2 ^ 32 then some (n + 1) else none

def pushRecent {α : Type} (records : List α) (record : α) : List α :=
  (if records.length = eventConsumerAuditRecordLimit then records.tail else records) ++ [record]

namespace EventConsumerState

/-- `EventConsumerState::default()`. -/
def default : EventConsumerState := ⟨none, false, 0, 0, 0, 0, [], []⟩

variable (state : EventConsumerState)

/-- The checkpoint is at the event or after it. -/
def reached (seq : Nat) : Bool :=
  state.checkpoint.any (seq ≤ ·)

def recordQuarantine (seq attempts : Nat) (error : String) :
    Except StorageError EventConsumerState :=
  if state.quarantined.any fun record => record.seq = seq ∧ record.revision = state.revision then
    .ok state
  else match checkedAdd state.quarantinedCount 1 with
    | none => .error (.corruptLog "consumer quarantine count overflow")
    | some quarantinedCount => .ok { state with
        quarantinedCount
        quarantined := pushRecent state.quarantined
          ⟨seq, state.revision, attempts, truncateUtf8 error eventConsumerErrorMaxBytes⟩ }

def recordSkip (fromSeq toSeq : Option Nat) :
    Except StorageError EventConsumerState :=
  match checkedAdd state.skippedCount 1 with
  | none => .error (.corruptLog "consumer skip count overflow")
  | some skippedCount => .ok { state with
      skippedCount
      skips := pushRecent state.skips ⟨fromSeq, toSeq, state.revision⟩ }

end EventConsumerState

/-- What is beyond the end of the log cannot be recorded. -/
def checkSeqBound (noun : String) (seq eventCount : Nat) : Except StorageError Unit :=
  if eventCount ≤ seq then
    .error (.invalidId ("event consumer " ++ noun ++ " " ++ toString seq ++
      " is beyond the session event log"))
  else .ok ()

/-- What an edit returns, with the state that it left when that has to be written. -/
inductive ConsumerStateEdit (α : Type) where
  | changed (value : α) (state : EventConsumerState)
  | unchanged (value : α)

namespace ConsumerStateEdit

variable {α : Type}

def value : ConsumerStateEdit α → α
  | .changed value _ | .unchanged value => value

def map {β : Type} (f : α → β) : ConsumerStateEdit α → ConsumerStateEdit β
  | .changed value state => .changed (f value) state
  | .unchanged value => .unchanged (f value)

/-- The state after the edit. -/
def state (before : EventConsumerState) : ConsumerStateEdit α → EventConsumerState
  | .changed _ state => state
  | .unchanged _ => before

end ConsumerStateEdit

def editCheckpoint (expectedRevision seq : Nat) (state : EventConsumerState) :
    Except StorageError (ConsumerStateEdit EventConsumerCheckpointOutcome) :=
  if state.revision ≠ expectedRevision then .ok (.unchanged .staleRevision)
  else if state.reached seq then .ok (.unchanged .accepted)
  else .ok (.changed .accepted { state with checkpoint := some seq, consecutiveFailures := 0 })

def editFailure (expectedRevision seq : Nat) (error : String) (quarantineAfter : Nat)
    (state : EventConsumerState) :
    Except StorageError (ConsumerStateEdit EventConsumerFailureOutcome) :=
  if state.revision ≠ expectedRevision then .ok (.unchanged .staleRevision)
  else if state.reached seq then .ok (.unchanged .alreadyConsumed)
  else match checkedSuccU32 state.consecutiveFailures with
    | none => .error (.corruptLog "consumer failure count overflow")
    | some attempts =>
      let state := { state with consecutiveFailures := attempts }
      if quarantineAfter ≤ attempts then do
        let state ← state.recordQuarantine seq attempts error
        return .changed (.quarantined attempts)
          { state with checkpoint := some seq, consecutiveFailures := 0 }
      else .ok (.changed (.recorded attempts) state)

def checkpointEventConsumer (eventCount expectedRevision seq : Nat) (state : EventConsumerState) :
    Except StorageError (EventConsumerCheckpointOutcome × EventConsumerState) := do
  checkSeqBound "checkpoint" seq eventCount
  let edit ← editCheckpoint expectedRevision seq state
  return (edit.value, edit.state state)

def recordEventConsumerFailure (eventCount expectedRevision seq : Nat) (error : String)
    (quarantineAfter : Nat) (state : EventConsumerState) :
    Except StorageError (EventConsumerFailureOutcome × EventConsumerState) := do
  Library.ensure (quarantineAfter ≠ 0)
    (.invalidId "event consumer quarantine limit must be greater than zero")
  checkSeqBound "failure seq" seq eventCount
  let edit ← editFailure expectedRevision seq error quarantineAfter state
  return (edit.value, edit.state state)

def setEventConsumerPaused (paused : Bool) (state : EventConsumerState) : EventConsumerState :=
  { state with paused }

/-- Where a reset puts the checkpoint. -/
def EventConsumerCheckpointReset.position (eventCount : Nat) :
    EventConsumerCheckpointReset → Option Nat
  | .beginning => none
  | .streamHead => if 0 < eventCount then some (eventCount - 1) else none

def resetEventConsumerCheckpoint (eventCount : Nat) (reset : EventConsumerCheckpointReset)
    (state : EventConsumerState) : Except StorageError EventConsumerState :=
  let checkpoint := reset.position eventCount
  match checkedAdd state.revision 1 with
  | none => .error (.corruptLog "event consumer revision overflow")
  | some revision =>
    let next := { state with checkpoint, revision, consecutiveFailures := 0 }
    if reset = .streamHead ∧ checkpoint ≠ state.checkpoint then
      next.recordSkip state.checkpoint checkpoint
    else .ok next

/-! ### What the edits change -/

variable {eventCount seq : Nat} {state state' : EventConsumerState} {error : String}

namespace EventConsumerState

theorem reached_iff :
    state.reached seq = true ↔ ∃ checkpoint ∈ state.checkpoint, seq ≤ checkpoint := by
  simp [reached, Option.any_eq_true, Option.mem_def]

/-- What the checkpoint has reached, it has reached once it moves on. -/
theorem reached_of_moved {earlier : Nat} (behind : state.reached seq = false)
    (moved : state'.checkpoint = some seq) (reached : state.reached earlier = true) :
    state'.reached earlier = true := by
  obtain ⟨checkpoint, isCheckpoint, within⟩ := reached_iff.mp reached
  refine reached_iff.mpr ⟨seq, moved, ?_⟩
  by_contra later
  have already : state.reached seq = true :=
    reached_iff.mpr ⟨checkpoint, isCheckpoint, by omega⟩
  rw [behind] at already
  cases already

theorem recordQuarantine_ok {attempts : Nat}
    (recorded : state.recordQuarantine seq attempts error = .ok state') :
    state'.checkpoint = state.checkpoint ∧ state'.revision = state.revision ∧
      state'.paused = state.paused ∧ state'.consecutiveFailures = state.consecutiveFailures := by
  rw [recordQuarantine] at recorded
  split at recorded
  · cases recorded
    exact ⟨rfl, rfl, rfl, rfl⟩
  · split at recorded
    · cases recorded
    · cases recorded
      exact ⟨rfl, rfl, rfl, rfl⟩

theorem recordSkip_ok {fromSeq toSeq : Option Nat}
    (recorded : state.recordSkip fromSeq toSeq = .ok state') :
    state'.checkpoint = state.checkpoint ∧ state'.revision = state.revision ∧
      state'.paused = state.paused ∧ state'.consecutiveFailures = state.consecutiveFailures := by
  rw [recordSkip] at recorded
  split at recorded
  · cases recorded
  · cases recorded
    exact ⟨rfl, rfl, rfl, rfl⟩

end EventConsumerState

theorem checkSeqBound_ok {noun : String} {u : Unit} :
    checkSeqBound noun seq eventCount = .ok u ↔ seq < eventCount := by
  rw [checkSeqBound]
  split
  · simp only [reduceCtorEq, false_iff]
    omega
  · simp only [true_iff]
    omega

/-- A checkpoint of the revision moves the state up to the event. -/
theorem checkpointEventConsumer_cases {expectedRevision : Nat}
    {outcome : EventConsumerCheckpointOutcome}
    (edited : checkpointEventConsumer eventCount expectedRevision seq state =
      .ok (outcome, state')) :
    seq < eventCount ∧
    ((outcome = .staleRevision ∧ state.revision ≠ expectedRevision ∧ state' = state) ∨
      (outcome = .accepted ∧ state.revision = expectedRevision ∧ state.reached seq = true ∧
        state' = state) ∨
      (outcome = .accepted ∧ state.revision = expectedRevision ∧ state.reached seq = false ∧
        state' = { state with checkpoint := some seq, consecutiveFailures := 0 })) := by
  obtain ⟨_, bound, edited⟩ := Library.bind_ok_iff.mp edited
  obtain ⟨edit, made, same⟩ := Library.bind_ok_iff.mp edited
  cases same
  refine ⟨checkSeqBound_ok.mp bound, ?_⟩
  rw [editCheckpoint] at made
  split at made
  · next stale =>
    cases made
    exact Or.inl ⟨rfl, stale, rfl⟩
  · next current =>
    have current := not_not.mp current
    split at made
    · next reached =>
      cases made
      exact Or.inr (Or.inl ⟨rfl, current, reached, rfl⟩)
    · next behind =>
      cases made
      exact Or.inr (Or.inr ⟨rfl, current, Bool.eq_false_iff.mpr behind, rfl⟩)

/-- A failure of the revision is counted, and the event put aside when there were too many. -/
theorem recordEventConsumerFailure_cases {expectedRevision quarantineAfter : Nat}
    {outcome : EventConsumerFailureOutcome}
    (edited : recordEventConsumerFailure eventCount expectedRevision seq error quarantineAfter
      state = .ok (outcome, state')) :
    seq < eventCount ∧
    ((outcome = .staleRevision ∧ state.revision ≠ expectedRevision ∧ state' = state) ∨
      (outcome = .alreadyConsumed ∧ state.revision = expectedRevision ∧
        state.reached seq = true ∧ state' = state) ∨
      (outcome = .recorded (state.consecutiveFailures + 1) ∧ state.revision = expectedRevision ∧
        state.reached seq = false ∧ state.consecutiveFailures + 1 < 2 ^ 32 ∧
        state.consecutiveFailures + 1 < quarantineAfter ∧
        state' = { state with consecutiveFailures := state.consecutiveFailures + 1 }) ∨
      (outcome = .quarantined (state.consecutiveFailures + 1) ∧
        state.revision = expectedRevision ∧ state.reached seq = false ∧
        state.consecutiveFailures + 1 < 2 ^ 32 ∧ ∃ aside,
          { state with consecutiveFailures := state.consecutiveFailures + 1 }.recordQuarantine seq
            (state.consecutiveFailures + 1) error = .ok aside ∧
          state' = { aside with checkpoint := some seq, consecutiveFailures := 0 })) := by
  obtain ⟨_, -, edited⟩ := Library.bind_ok_iff.mp edited
  obtain ⟨_, bound, edited⟩ := Library.bind_ok_iff.mp edited
  obtain ⟨edit, made, same⟩ := Library.bind_ok_iff.mp edited
  cases same
  refine ⟨checkSeqBound_ok.mp bound, ?_⟩
  rw [editFailure] at made
  split at made
  · next stale =>
    cases made
    exact Or.inl ⟨rfl, stale, rfl⟩
  · next current =>
    have current := not_not.mp current
    split at made
    · next reached =>
      cases made
      exact Or.inr (Or.inl ⟨rfl, current, reached, rfl⟩)
    · next behind =>
      have behind := Bool.eq_false_iff.mpr behind
      split at made
      · cases made
      · next attempts counted =>
        simp only [checkedSuccU32, Option.ite_none_right_eq_some, Option.some.injEq] at counted
        obtain ⟨fits, rfl⟩ := counted
        split at made
        · obtain ⟨aside, recorded, made⟩ := Library.bind_ok_iff.mp made
          cases made
          exact Or.inr (Or.inr (Or.inr ⟨rfl, current, behind, fits, aside, recorded, rfl⟩))
        · next few =>
          cases made
          exact Or.inr (Or.inr (Or.inl ⟨rfl, current, behind, fits, Nat.lt_of_not_le few, rfl⟩))

theorem resetEventConsumerCheckpoint_ok {reset : EventConsumerCheckpointReset}
    (edited : resetEventConsumerCheckpoint eventCount reset state = .ok state') :
    state'.revision = state.revision + 1 ∧ state'.paused = state.paused ∧
      state'.checkpoint = reset.position eventCount ∧ state'.consecutiveFailures = 0 := by
  simp only [resetEventConsumerCheckpoint] at edited
  split at edited
  · cases edited
  · next revision next =>
    have counted := (checkedAdd_eq_some.mp next).2
    split at edited
    · obtain ⟨checkpoint, revision, paused, failures⟩ := EventConsumerState.recordSkip_ok edited
      rw [checkpoint, revision, paused, failures]
      exact ⟨counted, rfl, rfl, rfl⟩
    · cases edited
      exact ⟨counted, rfl, rfl, rfl⟩

end Astrcode
