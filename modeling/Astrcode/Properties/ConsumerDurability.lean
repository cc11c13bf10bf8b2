import Astrcode.Storage.ConsumerStore
import Mathlib.Logic.Equiv.List
import Mathlib.Tactic.DeriveEncodable

/-!
# The state of a consumer over all its operations

Both stores carry out one state machine (`applyOperation`), in which an operation that fails
changes nothing. What holds of its states is one invariant: the checkpoint stays below the number
of events, the audit within the bounds that are checked when it is read back, and no event is
put aside twice in one revision.

The file follows the state machine whatever happens to its writes. The table follows it until a
counter overflows: then it has changed the entry before it notices.
-/
namespace Astrcode

variable {α : Type} {error : String} {revision seq : Nat} {records : List α}

open EventConsumerState Nat List

/-- An operation, as one step that succeeds or has no effect. -/
def applyOperation (eventCount : Nat) (operation : ConsumerOperation) (state : EventConsumerState) :
    Except StorageError (ConsumerReply × EventConsumerState) :=
  match operation with
  | .checkpoint expectedRevision seq => do
    let (outcome, state) ← checkpointEventConsumer eventCount expectedRevision seq state
    return (.checkpoint outcome, state)
  | .failure expectedRevision seq error quarantineAfter => do
    let (outcome, state) ← recordEventConsumerFailure eventCount expectedRevision seq error
      quarantineAfter state
    return (.failure outcome, state)
  | .pause paused =>
    .ok (.state (setEventConsumerPaused paused state), setEventConsumerPaused paused state)
  | .reset reset => do
    let state ← resetEventConsumerCheckpoint eventCount reset state
    return (.state state, state)

/-- The state after an operation. -/
def stateAfter (eventCount : Nat) (operation : ConsumerOperation) (state : EventConsumerState) :
    EventConsumerState :=
  match applyOperation eventCount operation state with
  | .ok (_, next) => next
  | .error _ => state

/-- The next revision, from a given position on. -/
def EventConsumerState.restartedAt (position : Option Nat) (state : EventConsumerState) :
    EventConsumerState :=
  { state with checkpoint := position, revision := state.revision + 1, consecutiveFailures := 0 }

/-- The next revision, with a record of the events that it leaves out. -/
def EventConsumerState.skippedTo (position : Option Nat) (state : EventConsumerState) :
    EventConsumerState :=
  { state.restartedAt position with
    skippedCount := state.skippedCount + 1
    skips := pushRecent state.skips ⟨state.checkpoint, position, state.revision + 1⟩ }

/-- What an operation that succeeds does. -/
inductive Operated (eventCount : Nat) (state : EventConsumerState) :
    ConsumerOperation → ConsumerReply → EventConsumerState → Prop where
  | checkpointStale {revision seq : Nat} (stale : state.revision ≠ revision) :
      Operated eventCount state (.checkpoint revision seq) (.checkpoint .staleRevision) state
  | checkpointReached {seq : Nat} (inside : seq < eventCount)
      (reached : state.reached seq = true) :
      Operated eventCount state (.checkpoint state.revision seq) (.checkpoint .accepted) state
  | checkpointMoved {seq : Nat} (inside : seq < eventCount) (behind : state.reached seq = false) :
      Operated eventCount state (.checkpoint state.revision seq) (.checkpoint .accepted)
        { state with checkpoint := some seq, consecutiveFailures := 0 }
  | failureStale {revision seq : Nat} {error : String} {quarantineAfter : Nat}
      (stale : state.revision ≠ revision) :
      Operated eventCount state (.failure revision seq error quarantineAfter)
        (.failure .staleRevision) state
  | failureReached {seq : Nat} {error : String} {quarantineAfter : Nat}
      (reached : state.reached seq = true) :
      Operated eventCount state (.failure state.revision seq error quarantineAfter)
        (.failure .alreadyConsumed) state
  | failureRecorded {seq : Nat} {error : String} {quarantineAfter : Nat}
      (fits : state.consecutiveFailures + 1 < 2 ^ 32) :
      Operated eventCount state (.failure state.revision seq error quarantineAfter)
        (.failure (.recorded (state.consecutiveFailures + 1)))
        { state with consecutiveFailures := state.consecutiveFailures + 1 }
  | failureQuarantined {seq : Nat} {error : String} {quarantineAfter : Nat}
      (inside : seq < eventCount) (behind : state.reached seq = false)
      (fits : state.consecutiveFailures + 1 < 2 ^ 32)
      (counted : state.quarantinedCount + 1 < u64Limit) :
      Operated eventCount state (.failure state.revision seq error quarantineAfter)
        (.failure (.quarantined (state.consecutiveFailures + 1)))
        { state with
          checkpoint := some seq
          consecutiveFailures := 0
          quarantinedCount := state.quarantinedCount + 1
          quarantined := pushRecent state.quarantined
            ⟨seq, state.revision, state.consecutiveFailures + 1,
              truncateUtf8 error eventConsumerErrorMaxBytes⟩ }
  /-- The event is among those put aside already. -/
  | failureRepeated {seq : Nat} {error : String} {quarantineAfter : Nat}
      {record : EventConsumerQuarantine} (behind : state.reached seq = false)
      (member : record ∈ state.quarantined) (same : record.seq = seq)
      (current : record.revision = state.revision) :
      Operated eventCount state (.failure state.revision seq error quarantineAfter)
        (.failure (.quarantined (state.consecutiveFailures + 1)))
        { state with checkpoint := some seq, consecutiveFailures := 0 }
  | paused {paused : Bool} : Operated eventCount state (.pause paused)
      (.state { state with paused }) { state with paused }
  | reset {reset : EventConsumerCheckpointReset} (counted : state.revision + 1 < u64Limit) :
      Operated eventCount state (.reset reset)
        (.state (state.restartedAt (reset.position eventCount)))
        (state.restartedAt (reset.position eventCount))
  | resetSkipped {reset : EventConsumerCheckpointReset} (counted : state.revision + 1 < u64Limit)
      (skipped : state.skippedCount + 1 < u64Limit) :
      Operated eventCount state (.reset reset)
        (.state (state.skippedTo (reset.position eventCount)))
        (state.skippedTo (reset.position eventCount))

section Operated

variable {eventCount : Nat} {operation : ConsumerOperation} {state state' : EventConsumerState}
  {reply : ConsumerReply}

private theorem operated_failure {expectedRevision quarantineAfter : Nat}
    {outcome : EventConsumerFailureOutcome}
    (edited : recordEventConsumerFailure eventCount expectedRevision seq error quarantineAfter
      state = .ok (outcome, state')) :
    Operated eventCount state (.failure expectedRevision seq error quarantineAfter)
      (.failure outcome) state' := by
  obtain ⟨inside, ⟨rfl, stale, rfl⟩ | ⟨rfl, rfl, reached, rfl⟩ | ⟨rfl, rfl, -, fits, -, rfl⟩ |
    ⟨rfl, rfl, behind, fits, aside, recorded, rfl⟩⟩ := recordEventConsumerFailure_cases edited
  · exact .failureStale stale
  · exact .failureReached reached
  · exact .failureRecorded fits
  · -- put aside before, or now
    rw [recordQuarantine] at recorded
    split at recorded
    · next before =>
      cases recorded
      obtain ⟨record, member, same⟩ := any_eq_true.mp before
      obtain ⟨sameSeq, sameRevision⟩ := decide_eq_true_iff.mp same
      exact .failureRepeated behind member sameSeq sameRevision
    · split at recorded
      · cases recorded
      · next quarantinedCount counted =>
        obtain ⟨room, rfl⟩ := checkedAdd_eq_some.mp counted
        cases recorded
        exact .failureQuarantined inside behind fits room

theorem applyOperation_operated
    (applied : applyOperation eventCount operation state = .ok (reply, state')) :
    Operated eventCount state operation reply state' := by
  cases operation with
  | checkpoint expectedRevision seq =>
    obtain ⟨⟨outcome, next⟩, edited, same⟩ := Library.bind_ok_iff.mp applied
    cases same
    obtain ⟨inside, ⟨rfl, stale, rfl⟩ | ⟨rfl, rfl, reached, rfl⟩ | ⟨rfl, rfl, behind, rfl⟩⟩ :=
      checkpointEventConsumer_cases edited
    · exact .checkpointStale stale
    · exact .checkpointReached inside reached
    · exact .checkpointMoved inside behind
  | failure expectedRevision seq error quarantineAfter =>
    obtain ⟨⟨outcome, next⟩, edited, same⟩ := Library.bind_ok_iff.mp applied
    cases same
    exact operated_failure edited
  | pause paused =>
    cases applied
    exact .paused
  | reset reset =>
    obtain ⟨next, edited, same⟩ := Library.bind_ok_iff.mp applied
    cases same
    simp only [resetEventConsumerCheckpoint] at edited
    split at edited
    · cases edited
    · next revision counted =>
      obtain ⟨room, rfl⟩ := checkedAdd_eq_some.mp counted
      split at edited
      · rw [recordSkip] at edited
        split at edited
        · cases edited
        · next skippedCount counted =>
          obtain ⟨skipped, rfl⟩ := checkedAdd_eq_some.mp counted
          cases edited
          exact .resetSkipped room skipped
      · cases edited
        exact .reset room

end Operated

/-! ### The invariant -/

/-- What holds of every state of a consumer. -/
structure ConsumerInvariant (eventCount : Nat) (state : EventConsumerState) : Prop where
  checkpoint : ∀ seq ∈ state.checkpoint, seq < eventCount
  revision : state.revision < u64Limit
  failures : state.consecutiveFailures < 2 ^ 32
  quarantinedCount : state.quarantinedCount < u64Limit
  /-- Only a reset can skip events. -/
  skippedCount : state.skippedCount ≤ state.revision
  quarantinedRecords : state.quarantined.length ≤ eventConsumerAuditRecordLimit
  quarantinedCounted : state.quarantined.length ≤ state.quarantinedCount
  skipRecords : state.skips.length ≤ eventConsumerAuditRecordLimit
  skipsCounted : state.skips.length ≤ state.skippedCount
  quarantined : ∀ record ∈ state.quarantined, record.seq < eventCount ∧
    record.revision ≤ state.revision ∧ record.attempts < 2 ^ 32 ∧
    record.lastError.utf8ByteSize ≤ eventConsumerErrorMaxBytes
  /-- What was put aside in this revision is behind the checkpoint. -/
  aside : ∀ record ∈ state.quarantined, record.revision = state.revision →
    state.reached record.seq = true
  skips : ∀ skip ∈ state.skips, (∀ seq ∈ skip.fromSeq, seq < eventCount) ∧
    (∀ seq ∈ skip.toSeq, seq < eventCount) ∧ skip.revision ≤ state.revision

namespace ConsumerInvariant

variable {eventCount : Nat} {state state' : EventConsumerState}

theorem initial (eventCount : Nat) : ConsumerInvariant eventCount .default := by
  constructor <;> simp [EventConsumerState.default, u64Limit]

theorem grow {later : Nat} (inv : ConsumerInvariant eventCount state) (more : eventCount ≤ later) :
    ConsumerInvariant later state :=
  { inv with
    checkpoint := fun seq member => lt_of_lt_of_le (inv.checkpoint seq member) more
    quarantined := fun record member =>
      ⟨lt_of_lt_of_le (inv.quarantined record member).1 more,
        (inv.quarantined record member).2⟩
    skips := fun skip member =>
      ⟨fun seq isSeq => lt_of_lt_of_le ((inv.skips skip member).1 seq isSeq) more,
        fun seq isSeq => lt_of_lt_of_le ((inv.skips skip member).2.1 seq isSeq) more,
        (inv.skips skip member).2.2⟩ }

end ConsumerInvariant

theorem length_pushRecent_le (record : α)
    (within : records.length ≤ eventConsumerAuditRecordLimit) :
    (pushRecent records record).length ≤ eventConsumerAuditRecordLimit ∧
      (pushRecent records record).length ≤ records.length + 1 := by
  rw [pushRecent, length_append, length_singleton]
  split
  · next full =>
    have positive : 0 < eventConsumerAuditRecordLimit := by decide
    rw [length_tail]
    omega
  · omega

theorem mem_pushRecent {record other : α}
    (member : other ∈ pushRecent records record) : other ∈ records ∨ other = record := by
  rw [pushRecent, mem_append, mem_singleton] at member
  rcases member with old | new
  · split at old
    · exact .inl (mem_of_mem_tail old)
    · exact .inl old
  · exact .inr new

theorem getLast?_pushRecent (records : List α) (record : α) :
    (pushRecent records record).getLast? = some record := by
  rw [pushRecent, getLast?_concat]

/-- A text that is cut off fits. -/
theorem utf8ByteSize_truncateUtf8 (value : String) (maxBytes : Nat) :
    (truncateUtf8 value maxBytes).utf8ByteSize ≤ maxBytes := by
  have fits : ∀ chars room, (String.ofList (truncateUtf8.fitting room chars)).utf8ByteSize ≤ room := by
    intro chars
    induction chars with
    | nil => exact fun room => zero_le room
    | cons c rest ih =>
      intro room
      rw [truncateUtf8.fitting]
      split
      · next within =>
        have later := ih (room - c.utf8Size)
        rw [String.ofList_cons, String.utf8ByteSize_append, String.utf8ByteSize_singleton]
        omega
      · exact zero_le room
  exact fits value.toList maxBytes

theorem EventConsumerCheckpointReset.position_lt {reset : EventConsumerCheckpointReset}
    {eventCount : Nat} (isPosition : seq ∈ reset.position eventCount) : seq < eventCount := by
  cases reset with
  | beginning => cases isPosition
  | streamHead =>
    simp only [position, Option.mem_def, Option.ite_none_right_eq_some, Option.some.injEq]
      at isPosition
    omega

namespace ConsumerInvariant

variable {eventCount : Nat} {state state' : EventConsumerState} {operation : ConsumerOperation}
  {reply : ConsumerReply} {position : Option Nat} (inv : ConsumerInvariant eventCount state)

include inv

theorem move (inside : seq < eventCount) (behind : state.reached seq = false) :
    ConsumerInvariant eventCount
      { state with checkpoint := some seq, consecutiveFailures := 0 } :=
  { inv with
    checkpoint := by
      rintro _ ⟨⟩
      exact inside
    failures := (by decide : 0 < 2 ^ 32)
    aside := fun record member current =>
      reached_of_moved behind rfl (inv.aside record member current) }

/-- No record of the audit is from the revision that a reset opens. -/
theorem restart (inside : ∀ seq ∈ position, seq < eventCount)
    (counted : state.revision + 1 < u64Limit) :
    ConsumerInvariant eventCount (state.restartedAt position) :=
  { inv with
    checkpoint := inside
    revision := counted
    failures := (by decide : 0 < 2 ^ 32)
    skippedCount := le_succ_of_le inv.skippedCount
    quarantined := by
      intro record member
      obtain ⟨seq, revision, rest⟩ := inv.quarantined record member
      exact ⟨seq, le_succ_of_le revision, rest⟩
    aside := by
      intro record member (current : record.revision = state.revision + 1)
      have older := (inv.quarantined record member).2.1
      omega
    skips := by
      intro skip member
      obtain ⟨first, last, revision⟩ := inv.skips skip member
      exact ⟨first, last, le_succ_of_le revision⟩ }

theorem skip (inside : ∀ seq ∈ position, seq < eventCount)
    (counted : state.revision + 1 < u64Limit) :
    ConsumerInvariant eventCount (state.skippedTo position) := by
  have restarted := inv.restart inside counted
  have pushed := length_pushRecent_le
    (EventConsumerSkip.mk state.checkpoint position (state.revision + 1)) inv.skipRecords
  exact { restarted with
    skippedCount := succ_le_succ inv.skippedCount
    skipRecords := pushed.1
    skipsCounted := le_trans pushed.2 (succ_le_succ inv.skipsCounted)
    skips := by
      intro skip member
      rcases mem_pushRecent member with old | rfl
      · exact restarted.skips skip old
      · exact ⟨inv.checkpoint, inside, le_refl _⟩ }

theorem quarantine (inside : seq < eventCount)
    (behind : state.reached seq = false) (fits : state.consecutiveFailures + 1 < 2 ^ 32)
    (counted : state.quarantinedCount + 1 < u64Limit) :
    ConsumerInvariant eventCount { state with
      checkpoint := some seq
      consecutiveFailures := 0
      quarantinedCount := state.quarantinedCount + 1
      quarantined := pushRecent state.quarantined
        ⟨seq, state.revision, state.consecutiveFailures + 1,
          truncateUtf8 error eventConsumerErrorMaxBytes⟩ } := by
  have moved := inv.move inside behind
  have pushed := length_pushRecent_le (EventConsumerQuarantine.mk seq state.revision
    (state.consecutiveFailures + 1) (truncateUtf8 error eventConsumerErrorMaxBytes))
    inv.quarantinedRecords
  exact { moved with
    quarantinedCount := counted
    quarantinedRecords := pushed.1
    quarantinedCounted := le_trans pushed.2 (succ_le_succ inv.quarantinedCounted)
    quarantined := by
      intro record member
      rcases mem_pushRecent member with old | rfl
      · exact inv.quarantined record old
      · exact ⟨inside, le_refl _, fits, utf8ByteSize_truncateUtf8 _ _⟩
    aside := by
      intro record member current
      rcases mem_pushRecent member with old | rfl
      · exact moved.aside record old current
      · exact reached_iff.mpr ⟨seq, rfl, le_refl _⟩ }

/-- Every operation keeps the invariant. -/
theorem operate (operated : Operated eventCount state operation reply state') :
    ConsumerInvariant eventCount state' := by
  cases operated with
  | checkpointStale | checkpointReached | failureStale | failureReached => exact inv
  | checkpointMoved inside behind => exact inv.move inside behind
  | failureRecorded fits => exact { inv with failures := fits }
  | failureQuarantined inside behind fits counted => exact inv.quarantine inside behind fits counted
  | failureRepeated behind member same current =>
    -- the checkpoint has passed what was put aside
    have passed := inv.aside _ member current
    rw [same, behind] at passed
    cases passed
  | paused => exact { inv with }
  | reset counted =>
    exact inv.restart (fun _ => EventConsumerCheckpointReset.position_lt) counted
  | resetSkipped counted skipped =>
    exact inv.skip (fun _ => EventConsumerCheckpointReset.position_lt) counted

theorem after (operation : ConsumerOperation) :
    ConsumerInvariant eventCount (stateAfter eventCount operation state) := by
  rw [stateAfter]
  split
  · next applied => exact inv.operate (applyOperation_operated applied)
  · exact inv

theorem audit : state.validateAuditBounds = .ok () := by
  have small : eventConsumerAuditRecordLimit < u64Limit := by decide
  have records := inv.quarantinedRecords
  have skips := inv.skipRecords
  simp only [validateAuditBounds, Library.ensure, if_pos records, if_pos skips,
    if_pos inv.quarantinedCounted, if_pos inv.skipsCounted,
    if_pos fun record member => (inv.quarantined record member).2.2.2,
    if_pos (lt_of_le_of_lt records small), if_pos (lt_of_le_of_lt skips small)]
  rfl

theorem inRange (room : eventCount ≤ u64Limit) :
    state.toPersisted.InRange where
  version := (by decide : eventConsumerStateVersion < 2 ^ 8)
  cursor seq isSeq := lt_of_lt_of_le (inv.checkpoint seq isSeq) room
  revision := inv.revision
  failures := inv.failures
  quarantinedCount := inv.quarantinedCount
  skippedCount := lt_of_le_of_lt inv.skippedCount inv.revision
  quarantined record member := by
    obtain ⟨seq, revision, attempts, -⟩ := inv.quarantined record member
    exact ⟨lt_of_lt_of_le seq room, lt_of_le_of_lt revision inv.revision, attempts⟩
  skips skip member := by
    obtain ⟨first, last, revision⟩ := inv.skips skip member
    exact ⟨fun seq isSeq => lt_of_lt_of_le (first seq isSeq) room,
      fun seq isSeq => lt_of_lt_of_le (last seq isSeq) room,
      lt_of_le_of_lt revision inv.revision⟩

/-- A state that is written is read back. -/
theorem readBack (room : eventCount ≤ u64Limit) (codec : ConsumerStateCodec) (path : String) :
    readEventConsumerState codec path (some (codec.toVec state.toPersisted)) = .ok state := by
  simp only [readEventConsumerState, codec.fromSlice_toVec _ (inv.inRange room), Except.mapError]
  have persisted : ofPersisted state.toPersisted = .ok state := by
    show (do state.validateAuditBounds; return state : Except StorageError _) = _
    rw [inv.audit]
    rfl
  exact persisted

end ConsumerInvariant

/-! ### The file follows the state machine -/

/-- The number that must be below the number of events, and what it is called. -/
def ConsumerOperation.seqBound : ConsumerOperation → Option (String × Nat)
  | .checkpoint _ seq => some ("checkpoint", seq)
  | .failure _ seq _ _ => some ("failure seq", seq)
  | .pause _ | .reset _ => none

def checkBound (bound : Option (String × Nat)) (eventCount : Nat) : Except StorageError Unit :=
  match bound with
  | some (noun, seq) => checkSeqBound noun seq eventCount
  | none => .ok ()

/-- A failure needs a limit for failures. -/
def ConsumerOperation.checkLimit : ConsumerOperation → Except StorageError Unit
  | .failure _ _ _ quarantineAfter => Library.ensure (quarantineAfter ≠ 0)
      (.invalidId "event consumer quarantine limit must be greater than zero")
  | .checkpoint _ _ | .pause _ | .reset _ => .ok ()

/-- The edit of an operation, once the checks before it have passed. -/
def operationEdit (eventCount : Nat) (operation : ConsumerOperation) (state : EventConsumerState) :
    Except StorageError (ConsumerStateEdit ConsumerReply) :=
  match operation with
  | .checkpoint expectedRevision seq =>
    (editCheckpoint expectedRevision seq state).map (·.map .checkpoint)
  | .failure expectedRevision seq error quarantineAfter =>
    (editFailure expectedRevision seq error quarantineAfter state).map (·.map .failure)
  | .pause paused => (editPaused paused state).map (·.map .state)
  | .reset reset => (editReset reset eventCount state).map (·.map .state)

section FileBacked

variable {codec : ConsumerStateCodec} {path : String → String} {eventCount : Nat}
  {consumerId : String} {outcome : ReplaceOutcome} {file : Option (List UInt8)}
  {state state' : EventConsumerState} {operation : ConsumerOperation} {reply : ConsumerReply}
  {edit : ConsumerStateEdit ConsumerReply}

theorem applyOperation_eq :
    applyOperation eventCount operation state = (do
      operation.checkLimit
      checkBound operation.seqBound eventCount
      let edit ← operationEdit eventCount operation state
      return (edit.value, edit.state state)) := by
  cases operation with
  | checkpoint expectedRevision seq =>
    simp only [applyOperation, checkpointEventConsumer, ConsumerOperation.checkLimit,
      ConsumerOperation.seqBound, checkBound, operationEdit]
    cases checkSeqBound "checkpoint" seq eventCount with
    | error e => rfl
    | ok => rcases editCheckpoint expectedRevision seq state with _ | _ | _ <;> rfl
  | failure expectedRevision seq error quarantineAfter =>
    simp only [applyOperation, recordEventConsumerFailure, ConsumerOperation.checkLimit,
      ConsumerOperation.seqBound, checkBound, operationEdit]
    cases Library.ensure (quarantineAfter ≠ 0) _ with
    | error e => rfl
    | ok =>
      cases checkSeqBound "failure seq" seq eventCount with
      | error e => rfl
      | ok =>
        rcases editFailure expectedRevision seq error quarantineAfter state with _ | _ | _ <;> rfl
  | pause paused =>
    simp only [applyOperation, setEventConsumerPaused, ConsumerOperation.checkLimit,
      ConsumerOperation.seqBound, checkBound, operationEdit, editPaused]
    by_cases same : state.paused = paused
    · rw [if_pos same, ← same]
      rfl
    · rw [if_neg same]
      rfl
  | reset reset =>
    simp only [applyOperation, ConsumerOperation.checkLimit, ConsumerOperation.seqBound, checkBound,
      operationEdit, editReset]
    cases resetEventConsumerCheckpoint eventCount reset state <;> rfl

variable (codec)

/-- What becomes of the file once the edit is known. -/
def commitEdit {α : Type} (outcome : ReplaceOutcome) (file : Option (List UInt8)) :
    Except StorageError (ConsumerStateEdit α) → Except StorageError α × Option (List UInt8)
  | .error e => (.error e, file)
  | .ok (.unchanged value) => (.ok value, file)
  | .ok (.changed value state) =>
    match writeEventConsumerState codec state outcome file with
    | (.ok (), file) => (.ok value, file)
    | (.error e, file) => (.error e, file)

/-- The state of the consumer as the file has it. -/
def readState (path : String → String) (consumerId : String)
    (file : Option (List UInt8)) : Except StorageError EventConsumerState := do
  let path ← eventConsumerStatePath path consumerId
  readEventConsumerState codec path file

/-- The edit of an operation on the state in the file, if all checks pass. -/
def storedEdit (path : String → String) (eventCount : Nat)
    (consumerId : String) (operation : ConsumerOperation) (file : Option (List UInt8)) :
    Except StorageError (ConsumerStateEdit ConsumerReply) := do
  operation.checkLimit
  checkBound operation.seqBound eventCount
  let state ← readState codec path consumerId file
  operationEdit eventCount operation state

variable {codec}

theorem editConsumerState_map (eventCount : Nat) (f : α → ConsumerReply)
    (bound : Option (String × Nat))
    (edit : EventConsumerState → Except StorageError (ConsumerStateEdit α)) :
    (let (reply, file) := editConsumerState codec path eventCount consumerId bound edit outcome file
     (reply.map f, file)) =
      commitEdit codec outcome file (do
        checkBound bound eventCount
        let state ← readState codec path consumerId file
        (edit state).map (·.map f)) := by
  have opened : editConsumerState codec path eventCount consumerId bound edit outcome file =
      commitEdit codec outcome file (do
        checkBound bound eventCount
        let state ← readState codec path consumerId file
        edit state) := by
    cases bound with
    | none => rfl
    | some bound =>
      simp only [editConsumerState, checkBound]
      cases checkSeqBound bound.1 bound.2 eventCount <;> rfl
  rw [opened]
  cases checkBound bound eventCount with
  | error e => rfl
  | ok =>
    cases readState codec path consumerId file with
    | error e => rfl
    | ok state =>
      simp only [bind, Except.bind]
      rcases edit state with e | ⟨value, next⟩ | value
      · rfl
      · simp only [commitEdit, Except.map, ConsumerStateEdit.map]
        rcases writeEventConsumerState codec next outcome file with ⟨_ | _, _⟩ <;> rfl
      · rfl

theorem fileStore_eq :
    fileStore codec path eventCount consumerId operation outcome file =
      commitEdit codec outcome file
        (storedEdit codec path eventCount consumerId operation file) := by
  cases operation with
  | checkpoint expectedRevision seq =>
    exact editConsumerState_map _ .checkpoint (some (_, seq)) (editCheckpoint expectedRevision seq)
  | failure expectedRevision seq error quarantineAfter =>
    simp only [fileStore, storedEdit, ConsumerOperation.checkLimit, Library.ensure]
    by_cases unlimited : quarantineAfter = 0
    · simp only [unlimited, if_true, ne_eq, not_true_eq_false, if_false]
      rfl
    · simp only [unlimited, ne_eq, not_false_eq_true, if_true, if_false]
      exact editConsumerState_map _ .failure (some (_, seq))
        (editFailure expectedRevision seq error quarantineAfter)
  | pause paused => exact editConsumerState_map eventCount .state none (editPaused paused)
  | reset reset => exact editConsumerState_map eventCount .state none (editReset reset eventCount)

variable (read : readEventConsumerState codec (path consumerId) file = .ok state)

include read

omit read in
/-- On the state in the file the checks and the edit are the state machine's operation. -/
theorem applyOperation_eq_map (found : readState codec path consumerId file = .ok state) :
    applyOperation eventCount operation state =
      (storedEdit codec path eventCount consumerId operation file).map
        fun edit => (edit.value, edit.state state) := by
  rw [applyOperation_eq, storedEdit, found]
  cases operation.checkLimit with
  | error e => rfl
  | ok =>
    cases checkBound operation.seqBound eventCount with
    | error e => rfl
    | ok =>
      show (operationEdit eventCount operation state >>= _) =
        (operationEdit eventCount operation state).map _
      cases operationEdit eventCount operation state <;> rfl

/-- An edit is made on the state that was read. -/
theorem edit_made (edited : storedEdit codec path eventCount consumerId operation file = .ok edit) :
    readState codec path consumerId file = .ok state ∧
      operationEdit eventCount operation state = .ok edit := by
  obtain ⟨_, -, edited⟩ := Library.bind_ok_iff.mp edited
  obtain ⟨_, -, edited⟩ := Library.bind_ok_iff.mp edited
  obtain ⟨stored, found, edited⟩ := Library.bind_ok_iff.mp edited
  obtain ⟨name, named, opened⟩ := Library.bind_ok_iff.mp found
  obtain ⟨_, -, same⟩ := Library.bind_ok_iff.mp named
  cases same
  cases read.symm.trans opened
  exact ⟨found, edited⟩

theorem edit_applied
    (edited : storedEdit codec path eventCount consumerId operation file = .ok edit) :
    applyOperation eventCount operation state = .ok (edit.value, edit.state state) := by
  rw [applyOperation_eq_map (edit_made read edited).1, edited]
  rfl

/-- After an operation the file holds the state before it or the one after it, and a reply is
the reply of the state machine. -/
theorem fileStore_spec (inv : ConsumerInvariant eventCount state) (room : eventCount ≤ u64Limit)
    {result : Except StorageError ConsumerReply} {file' : Option (List UInt8)}
    (stored : fileStore codec path eventCount consumerId operation outcome file =
      (result, file')) :
    ∃ state', readEventConsumerState codec (path consumerId) file' = .ok state' ∧
      ConsumerInvariant eventCount state' ∧
      ((∃ reply, Operated eventCount state operation reply state' ∧
        ∀ other, result = .ok other → other = reply) ∨
      (state' = state ∧ ∃ e, result = .error e)) := by
  rw [fileStore_eq] at stored
  generalize edited : storedEdit codec path eventCount consumerId operation file = edit at stored
  match edit with
  | .error e =>
    cases stored
    exact ⟨state, read, inv, .inr ⟨rfl, e, rfl⟩⟩
  | .ok (.unchanged reply) =>
    cases stored
    have operated := applyOperation_operated (edit_applied read edited)
    exact ⟨state, read, inv, .inl ⟨reply, operated, fun _ same => (Except.ok.inj same).symm⟩⟩
  | .ok (.changed reply next) =>
    have operated := applyOperation_operated (edit_applied read edited)
    have invNext : ConsumerInvariant eventCount next := inv.operate operated
    have written := invNext.readBack room codec (path consumerId)
    rw [commitEdit, writeEventConsumerState, invNext.audit] at stored
    cases outcome with
    | replaced =>
      cases stored
      exact ⟨next, written, invNext,
        .inl ⟨reply, operated, fun _ same => (Except.ok.inj same).symm⟩⟩
    | kept reason =>
      cases stored
      exact ⟨state, read, inv, .inr ⟨rfl, _, rfl⟩⟩
    | replacedUnsynced reason =>
      cases stored
      exact ⟨next, written, invNext, .inl ⟨reply, operated, fun _ same => nomatch same⟩⟩

/-- The revision an operation is meant for. -/
def ConsumerOperation.expectedRevision : ConsumerOperation → Option Nat
  | .checkpoint revision _ | .failure revision _ _ _ => some revision
  | .pause _ | .reset _ => none

/-- An operation of another revision leaves the file alone. -/
theorem fileStore_stale (eventCount : Nat) (outcome : ReplaceOutcome)
    (meant : operation.expectedRevision = some revision) (stale : state.revision ≠ revision) :
    (fileStore codec path eventCount consumerId operation outcome file).2 = file := by
  rw [fileStore_eq]
  generalize edited : storedEdit codec path eventCount consumerId operation file = edit
  match edit with
  | .error e => rfl
  | .ok (.unchanged reply) => rfl
  | .ok (.changed reply next) =>
    obtain ⟨-, made⟩ := edit_made read edited
    cases operation with
    | checkpoint expected seq =>
      cases meant
      rw [operationEdit, editCheckpoint, if_pos stale] at made
      cases made
    | failure expected seq error quarantineAfter =>
      cases meant
      rw [operationEdit, editFailure, if_pos stale] at made
      cases made
    | pause | reset => cases meant

/-- When the file can be replaced, the store does what the state machine does. -/
theorem fileStore_replaced (inv : ConsumerInvariant eventCount state) (room : eventCount ≤ u64Limit)
    (named : consumerId ≠ "") (operation : ConsumerOperation) :
    (fileStore codec path eventCount consumerId operation .replaced file).1 =
        (applyOperation eventCount operation state).map Prod.fst ∧
      readEventConsumerState codec (path consumerId)
          (fileStore codec path eventCount consumerId operation .replaced file).2 =
        .ok (stateAfter eventCount operation state) := by
  have found : readState codec path consumerId file = .ok state := by
    simp only [readState, eventConsumerStatePath, validateEventConsumerId, Library.ensure,
      if_pos named]
    exact read
  have applied := @applyOperation_eq_map codec path eventCount consumerId file state operation found
  rw [fileStore_eq, stateAfter]
  rcases made : storedEdit codec path eventCount consumerId operation file with
    e | ⟨reply, next⟩ | reply
  all_goals rw [made] at applied
  · rw [applied]
    exact ⟨rfl, read⟩
  · have invNext : ConsumerInvariant eventCount next :=
      inv.operate (applyOperation_operated applied)
    rw [commitEdit, writeEventConsumerState, invNext.audit, applied]
    exact ⟨rfl, invNext.readBack room codec (path consumerId)⟩
  · rw [applied]
    exact ⟨rfl, read⟩

end FileBacked

/-! ### The table follows it until a counter overflows -/

/-- The operation has changed the entry of the table when it fails. -/
def Overflows (eventCount : Nat) (state : EventConsumerState) : ConsumerOperation → Prop
  | .checkpoint _ _ | .pause _ => False
  | .failure expectedRevision seq _ quarantineAfter =>
    quarantineAfter ≠ 0 ∧ seq < eventCount ∧ state.revision = expectedRevision ∧
      state.reached seq = false ∧ quarantineAfter ≤ state.consecutiveFailures + 1 ∧
      state.quarantinedCount = u64Max
  | .reset reset => state.revision = u64Max ∧ reset.position eventCount ≠ state.checkpoint

section InMemory

variable {eventCount : Nat} {consumerId : String} {state : EventConsumerState}

/-- The next value of a counter below the limit. -/
theorem checkedAdd_one_cases (count : Nat) (within : count < u64Limit) :
    checkedAdd count 1 = some (count + 1) ∨ count = u64Max ∧ checkedAdd count 1 = none := by
  rw [checkedAdd]
  split
  · exact .inl rfl
  · refine .inr ⟨?_, rfl⟩
    rw [u64Max]
    omega

theorem memoryStore_checkpoint {expectedRevision : Nat} (named : consumerId ≠ "") :
    memoryStore eventCount consumerId (.checkpoint expectedRevision seq) state =
      ((applyOperation eventCount (.checkpoint expectedRevision seq) state).map Prod.fst,
        stateAfter eventCount (.checkpoint expectedRevision seq) state) := by
  simp only [stateAfter, memoryStore, InMemoryConsumer.checkpointEventConsumer, validateEventConsumerId,
    Library.ensure, if_pos named, applyOperation, checkpointEventConsumer, editCheckpoint]
  cases checkSeqBound "checkpoint" seq eventCount with
  | error e => rfl
  | ok =>
    by_cases stale : state.revision ≠ expectedRevision
    · simp only [if_pos stale]
      rfl
    · simp only [if_neg stale]
      cases state.reached seq <;> rfl

theorem recordQuarantine_error {attempts : Nat} {e : StorageError}
    (refused : state.recordQuarantine seq attempts error = .error e)
    (within : state.quarantinedCount < u64Limit) :
    state.quarantinedCount = u64Max := by
  rw [recordQuarantine] at refused
  split at refused
  · cases refused
  · rcases checkedAdd_one_cases state.quarantinedCount within with counted | ⟨full, -⟩
    · rw [counted] at refused
      cases refused
    · exact full

/-- A table entry follows the state machine through an operation that does not overflow; the
reply is right in any case. -/
theorem memoryStore_eq (inv : ConsumerInvariant eventCount state) (named : consumerId ≠ "")
    (operation : ConsumerOperation) :
    (memoryStore eventCount consumerId operation state).1 =
        (applyOperation eventCount operation state).map Prod.fst ∧
      (¬ Overflows eventCount state operation →
        (memoryStore eventCount consumerId operation state).2 =
          stateAfter eventCount operation state) := by
  rw [stateAfter]
  cases operation with
  | checkpoint expectedRevision seq =>
    rw [memoryStore_checkpoint named, stateAfter]
    exact ⟨rfl, fun _ => rfl⟩
  | failure expectedRevision seq error quarantineAfter =>
    simp only [memoryStore, InMemoryConsumer.recordEventConsumerFailure, validateEventConsumerId,
      Library.ensure, if_pos named, applyOperation, recordEventConsumerFailure, editFailure]
    by_cases unlimited : quarantineAfter = 0
    · simp only [unlimited, ne_eq, not_true_eq_false, if_false]
      exact ⟨rfl, fun _ => rfl⟩
    simp only [unlimited, ne_eq, not_false_eq_true, if_true]
    cases bounded : checkSeqBound "failure seq" seq eventCount with
    | error e => exact ⟨rfl, fun _ => rfl⟩
    | ok =>
      by_cases current : state.revision = expectedRevision
      · subst current
        simp only [not_true_eq_false, if_false]
        cases behind : state.reached seq with
        | true => exact ⟨rfl, fun _ => rfl⟩
        | false =>
          cases counted : checkedSuccU32 state.consecutiveFailures with
          | none => exact ⟨rfl, fun _ => rfl⟩
          | some attempts =>
            by_cases many : quarantineAfter ≤ attempts
            · simp only [if_pos many]
              cases recorded : recordQuarantine
                { state with consecutiveFailures := attempts } seq attempts error with
              | ok next => exact ⟨rfl, fun _ => rfl⟩
              | error e =>
                refine ⟨rfl, fun calm => absurd ?_ calm⟩
                simp only [checkedSuccU32, Option.ite_none_right_eq_some, Option.some.injEq]
                  at counted
                rw [← counted.2] at many
                have full := recordQuarantine_error recorded inv.quarantinedCount
                exact ⟨unlimited, checkSeqBound_ok.mp bounded, rfl, behind, many, full⟩
            · simp only [if_neg many]
              exact ⟨rfl, fun _ => rfl⟩
      · simp only [current, not_false_eq_true, if_true]
        exact ⟨rfl, fun _ => rfl⟩
  | pause paused =>
    simp only [memoryStore, InMemoryConsumer.setEventConsumerPaused, validateEventConsumerId,
      Library.ensure, if_pos named, applyOperation]
    exact ⟨rfl, fun _ => rfl⟩
  | reset reset =>
    simp only [memoryStore, InMemoryConsumer.resetEventConsumerCheckpoint, validateEventConsumerId,
      Library.ensure, if_pos named, applyOperation, resetEventConsumerCheckpoint]
    rcases checkedAdd_one_cases state.revision inv.revision with counted | ⟨full, counted⟩
    · simp only [counted]
      split
      · -- a skip is counted no faster than the revisions
        have room : state.skippedCount + 1 < u64Limit := by
          have := (checkedAdd_eq_some.mp counted).1
          have := inv.skippedCount
          omega
        simp only [recordSkip, checkedAdd_of_lt room]
        exact ⟨rfl, fun _ => rfl⟩
      · exact ⟨rfl, fun _ => rfl⟩
    · simp only [counted]
      refine ⟨rfl, fun calm => ?_⟩
      have stays : reset.position eventCount = state.checkpoint := by
        by_contra moved
        exact calm ⟨full, moved⟩
      rw [stays]
      rfl

end InMemory

/-! ### Runs -/

/-- The file of a consumer and the number of events in the log of its session. -/
structure ConsumerFile where
  eventCount : Nat
  room : eventCount < u64Limit
  content : Option (List UInt8)

/-- The log grows, and the consumer's operations come in any order, whatever happens to their
writes. -/
inductive FileRun (codec : ConsumerStateCodec) (path : String → String) (consumerId : String) :
    ConsumerFile → ConsumerFile → Prop where
  | refl (f : ConsumerFile) : FileRun codec path consumerId f f
  | appended {f g : ConsumerFile} (run : FileRun codec path consumerId f g) {eventCount : Nat}
      (grows : g.eventCount ≤ eventCount) (room : eventCount < u64Limit) :
      FileRun codec path consumerId f ⟨eventCount, room, g.content⟩
  | operated {f g : ConsumerFile} (run : FileRun codec path consumerId f g)
      {operation : ConsumerOperation} {outcome : ReplaceOutcome}
      {result : Except StorageError ConsumerReply} {content : Option (List UInt8)}
      (stored : fileStore codec path g.eventCount consumerId operation outcome g.content =
        (result, content)) : FileRun codec path consumerId f { g with content }

/-- The same operations on both stores. No write fails, and no operation overflows. -/
inductive StoresRun (codec : ConsumerStateCodec) (path : String → String) (consumerId : String) :
    ConsumerFile → EventConsumerState → Prop where
  | start {f : ConsumerFile} (fresh : f.content = none) :
      StoresRun codec path consumerId f .default
  | appended {f : ConsumerFile} {memory : EventConsumerState}
      (run : StoresRun codec path consumerId f memory) {eventCount : Nat}
      (grows : f.eventCount ≤ eventCount) (room : eventCount < u64Limit) :
      StoresRun codec path consumerId ⟨eventCount, room, f.content⟩ memory
  | operated {f : ConsumerFile} {memory : EventConsumerState}
      (run : StoresRun codec path consumerId f memory) (operation : ConsumerOperation)
      (calm : ¬ Overflows f.eventCount memory operation) :
      StoresRun codec path consumerId
        { f with content :=
          (fileStore codec path f.eventCount consumerId operation .replaced f.content).2 }
        (memoryStore f.eventCount consumerId operation memory).2

/-- Later in the same revision, or in a later one. -/
def Follows (state later : EventConsumerState) : Prop :=
  state.revision ≤ later.revision ∧
    (later.revision = state.revision → ∀ seq, state.reached seq = true → later.reached seq = true)

theorem Follows.refl (state : EventConsumerState) : Follows state state :=
  ⟨le_refl _, fun _ _ => id⟩

theorem Follows.trans {first second third : EventConsumerState} (before : Follows first second)
    (after : Follows second third) : Follows first third := by
  refine ⟨le_trans before.1 after.1, fun same seq reached => ?_⟩
  -- the revision has not changed in between either
  have between : second.revision = first.revision := by
    have := before.1
    have := after.1
    omega
  exact after.2 (same.trans between.symm) seq (before.2 between seq reached)

section Runs

variable {codec : ConsumerStateCodec} {path : String → String} {consumerId : String}
  {f g : ConsumerFile} {state state' : EventConsumerState} {eventCount : Nat}
  {operation : ConsumerOperation} {reply : ConsumerReply}

theorem Operated.follows (operated : Operated eventCount state operation reply state') :
    Follows state state' := by
  have moved : ∀ {seq : Nat} {next : EventConsumerState}, state.reached seq = false →
      next.checkpoint = some seq → next.revision = state.revision → Follows state next := by
    intro seq next behind isNext same
    exact ⟨le_of_eq same.symm,
      fun _ earlier => reached_of_moved behind isNext⟩
  cases operated with
  | checkpointStale | checkpointReached | failureStale | failureReached => exact .refl state
  | checkpointMoved inside behind | failureQuarantined inside behind | failureRepeated behind =>
    exact moved behind rfl rfl
  | failureRecorded => exact ⟨le_refl _, fun _ _ => id⟩
  | paused => exact ⟨le_refl _, fun _ _ => id⟩
  | reset | resetSkipped =>
    exact ⟨le_succ _, fun same => absurd same (succ_ne_self _)⟩

/-- Along a run the file can always be read, and the state in it moves on. -/
theorem FileRun.readable (run : FileRun codec path consumerId f g)
    (read : readEventConsumerState codec (path consumerId) f.content = .ok state)
    (inv : ConsumerInvariant f.eventCount state) :
    ∃ later, readEventConsumerState codec (path consumerId) g.content = .ok later ∧
      ConsumerInvariant g.eventCount later ∧ Follows state later := by
  induction run with
  | refl => exact ⟨state, read, inv, .refl state⟩
  | appended run grows room ih =>
    obtain ⟨later, found, inv, follows⟩ := ih
    exact ⟨later, found, inv.grow grows, follows⟩
  | @operated g run operation outcome result content stored ih =>
    obtain ⟨later, found, inv, follows⟩ := ih
    obtain ⟨next, readNext, invNext, ⟨reply, operated, -⟩ | ⟨rfl, -⟩⟩ :=
      fileStore_spec found inv (le_of_lt g.room) stored
    · exact ⟨next, readNext, invNext, follows.trans operated.follows⟩
    · exact ⟨next, readNext, invNext, follows⟩

theorem StoresRun.agree (run : StoresRun codec path consumerId f state) (named : consumerId ≠ "") :
    readEventConsumerState codec (path consumerId) f.content = .ok state ∧
      ConsumerInvariant f.eventCount state := by
  induction run with
  | @start f fresh =>
    rw [fresh]
    exact ⟨rfl, .initial f.eventCount⟩
  | appended run grows room ih => exact ⟨ih.1, ih.2.grow grows⟩
  | @operated f memory run operation calm ih =>
    obtain ⟨read, inv⟩ := ih
    obtain ⟨-, readNext⟩ := fileStore_replaced read inv (le_of_lt f.room) named operation
    rw [(memoryStore_eq inv named operation).2 calm]
    exact ⟨readNext, inv.after operation⟩

/-- What an operation with a reply has done to the state. -/
theorem Operated.facts (inv : ConsumerInvariant eventCount state)
    (operated : Operated eventCount state operation reply state') :
    (∀ revision seq, operation = .checkpoint revision seq → reply = .checkpoint .accepted →
      seq < eventCount ∧ ∃ checkpoint ∈ state'.checkpoint, seq ≤ checkpoint) ∧
    (∀ reset, operation = .reset reset → state'.revision = state.revision + 1) ∧
    (∀ revision seq error limit attempts, operation = .failure revision seq error limit →
      reply = .failure (.quarantined attempts) →
        state'.checkpoint = some seq ∧ state'.consecutiveFailures = 0 ∧
        state'.quarantinedCount = state.quarantinedCount + 1 ∧
        state'.quarantined.getLast? =
          some ⟨seq, revision, attempts, truncateUtf8 error eventConsumerErrorMaxBytes⟩) := by
  refine ⟨?_, ?_, ?_⟩
  · rintro revision seq rfl rfl
    cases operated with
    | checkpointReached inside reached =>
      exact ⟨inside, reached_iff.mp reached⟩
    | checkpointMoved inside behind => exact ⟨inside, seq, rfl, le_refl _⟩
  · rintro reset rfl
    cases operated with
    | reset | resetSkipped => rfl
  · rintro revision seq error limit attempts rfl isReply
    cases operated with
    | failureStale | failureReached | failureRecorded => cases isReply
    | failureQuarantined =>
      cases isReply
      exact ⟨rfl, rfl, rfl, getLast?_pushRecent _ _⟩
    | failureRepeated behind member same current =>
      have passed := inv.aside _ member current
      rw [same, behind] at passed
      cases passed

/-- Without a name both stores refuse everything. -/
theorem stores_refuse_unnamed (operation : ConsumerOperation) (outcome : ReplaceOutcome)
    (file : Option (List UInt8)) (state : EventConsumerState) :
    (∃ e, (fileStore codec path eventCount "" operation outcome file).1 = .error e) ∧
      ∃ e, (memoryStore eventCount "" operation state).1 = .error e := by
  constructor
  · rw [fileStore_eq, storedEdit]
    cases operation.checkLimit with
    | error e => exact ⟨e, rfl⟩
    | ok =>
      cases checkBound operation.seqBound eventCount with
      | error e => exact ⟨e, rfl⟩
      | ok => exact ⟨_, rfl⟩
  · cases operation <;> exact ⟨_, rfl⟩

/-- The state of a consumer over all its operations. The stores agree for as long as no
operation overflows a counter. -/
theorem durable_consumer_state (fresh : f.content = none)
    (run : FileRun codec path consumerId f g) :
    (∃ state, readEventConsumerState codec (path consumerId) g.content = .ok state ∧
      state.validateAuditBounds = .ok () ∧
      (∀ seq ∈ state.checkpoint, seq < g.eventCount) ∧
      -- later states
      (∀ h, FileRun codec path consumerId g h →
        ∃ later, readEventConsumerState codec (path consumerId) h.content = .ok later ∧
          (later.revision = state.revision →
            ∀ seq ∈ state.checkpoint, ∃ checkpoint ∈ later.checkpoint, seq ≤ checkpoint)) ∧
      -- the next operation
      ∀ operation outcome result content,
        fileStore codec path g.eventCount consumerId operation outcome g.content =
          (result, content) →
        ∃ next, readEventConsumerState codec (path consumerId) content = .ok next ∧
          (∀ revision ∈ operation.expectedRevision, state.revision ≠ revision →
            content = g.content) ∧
          (∀ revision seq, operation = .checkpoint revision seq →
            result = .ok (.checkpoint .accepted) →
            seq < g.eventCount ∧ ∃ checkpoint ∈ next.checkpoint, seq ≤ checkpoint) ∧
          (∀ reset reply, operation = .reset reset → result = .ok reply →
            next.revision = state.revision + 1) ∧
          (∀ revision seq error limit attempts, operation = .failure revision seq error limit →
            result = .ok (.failure (.quarantined attempts)) →
            next.checkpoint = some seq ∧ next.consecutiveFailures = 0 ∧
            next.quarantinedCount = state.quarantinedCount + 1 ∧
            next.quarantined.getLast? =
              some ⟨seq, revision, attempts, truncateUtf8 error eventConsumerErrorMaxBytes⟩)) ∧
    -- the two stores
    ∀ h memory, StoresRun codec path consumerId h memory → ∀ operation,
      (consumerId ≠ "" →
        (fileStore codec path h.eventCount consumerId operation .replaced h.content).1 =
          (memoryStore h.eventCount consumerId operation memory).1) ∧
      (consumerId = "" →
        (∃ e, (fileStore codec path h.eventCount consumerId operation .replaced h.content).1 =
          .error e) ∧
        ∃ e, (memoryStore h.eventCount consumerId operation memory).1 = .error e) := by
  have readFresh : readEventConsumerState codec (path consumerId) f.content = .ok .default := by
    rw [fresh]
    rfl
  obtain ⟨state, read, inv, -⟩ := run.readable readFresh (.initial _)
  refine ⟨⟨state, read, inv.audit, inv.checkpoint, ?_, ?_⟩, ?_⟩
  · intro h further
    obtain ⟨later, readLater, -, follows⟩ := further.readable read inv
    refine ⟨later, readLater, fun same seq isCheckpoint => ?_⟩
    have reached : state.reached seq = true :=
      reached_iff.mpr ⟨seq, isCheckpoint, le_refl _⟩
    exact reached_iff.mp (follows.2 same seq reached)
  · intro operation outcome result content stored
    obtain ⟨next, readNext, -, what⟩ := fileStore_spec read inv (le_of_lt g.room) stored
    refine ⟨next, readNext, ?_, ?_⟩
    · intro revision meant stale
      have kept := fileStore_stale read g.eventCount outcome meant stale
      rwa [stored] at kept
    · rcases what with ⟨reply, operated, isReply⟩ | ⟨-, e, rfl⟩
      · obtain ⟨accepted, reset, quarantined⟩ := operated.facts inv
        exact ⟨fun revision seq isCheckpoint ok =>
            accepted revision seq isCheckpoint (isReply _ ok).symm,
          fun mode _ isReset _ => reset mode isReset,
          fun revision seq error limit attempts isFailure ok =>
            quarantined revision seq error limit attempts isFailure (isReply _ ok).symm⟩
      · exact ⟨fun _ _ _ ok => (nomatch ok), fun _ _ _ ok => (nomatch ok),
          fun _ _ _ _ _ _ ok => nomatch ok⟩
  · intro h memory stores operation
    constructor
    · intro named
      obtain ⟨readMemory, invMemory⟩ := stores.agree named
      rw [(fileStore_replaced readMemory invMemory (le_of_lt h.room) named operation).1,
        (memoryStore_eq invMemory named operation).1]
    · rintro rfl
      exact stores_refuse_unnamed operation _ _ _

end Runs

/-! ### Two stores that part -/

instance encodableChar : Encodable Char :=
  Encodable.ofLeftInverse Char.toNat Char.ofNat Char.ofNat_toNat

instance encodableString : Encodable String :=
  Encodable.ofLeftInverse String.toList String.ofList fun _ => String.ofList_toList

deriving instance Encodable for EventConsumerQuarantine

deriving instance Encodable for EventConsumerSkip

deriving instance Encodable for PersistedEventConsumerState

/-- A state as a number, and the number as that many bytes. -/
def unaryCodec : ConsumerStateCodec where
  toVec state := replicate (Encodable.encode state) 0
  fromSlice bytes :=
    match Encodable.decode bytes.length with
    | some state => .ok state
    | none => .error "not a state"
  fromSlice_toVec state _ := by rw [length_replicate, Encodable.encodek]

/-- A log of one event. -/
def singleEvent (content : Option (List UInt8)) : ConsumerFile := ⟨1, by decide, content⟩

/-- The file of a new consumer after the given operations, each with the outcome of its write. -/
def operatedFile (operations : List (ConsumerOperation × ReplaceOutcome)) : ConsumerFile :=
  singleEvent (operations.foldl
    (fun file step => (fileStore unaryCodec id 1 "consumer" step.1 step.2 file).2) none)

theorem operatedFile_run (operations : List (ConsumerOperation × ReplaceOutcome)) :
    FileRun unaryCodec id "consumer" (singleEvent none) (operatedFile operations) := by
  induction operations using reverseRecOn with
  | nil => exact .refl _
  | append_singleton operations step ih =>
    rw [operatedFile, foldl_append]
    exact ih.operated Prod.mk.eta.symm

/-- The event is put aside, the consumer is reset, once in vain, and the checkpoint at the event
is there although its write could not be synced to the directory. -/
theorem unsynced_checkpoint_read :
    ∃ state, readEventConsumerState unaryCodec "consumer" (operatedFile
      [(.failure 0 0 "refused" 1, .replaced), (.reset .beginning, .kept "disk full"),
        (.reset .beginning, .replaced), (.checkpoint 1 0, .replacedUnsynced "no sync")]).content =
        .ok state ∧
      state.validateAuditBounds = .ok () ∧ ∀ seq ∈ state.checkpoint, seq < 1 := by
  obtain ⟨⟨state, read, audit, bounded, -⟩, -⟩ :=
    durable_consumer_state rfl (operatedFile_run [(.failure 0 0 "refused" 1, .replaced),
      (.reset .beginning, .kept "disk full"), (.reset .beginning, .replaced),
      (.checkpoint 1 0, .replacedUnsynced "no sync")])
  exact ⟨state, read, audit, bounded⟩

section Parting

/-- A consumer that was reset so many times. -/
def resetState (revision : Nat) : EventConsumerState := { EventConsumerState.default with revision }

theorem memoryStore_resetState (below : revision < u64Max) :
    (memoryStore 1 "consumer" (.reset .beginning) (resetState revision)).2 =
      resetState (revision + 1) := by
  have room : revision + 1 < u64Limit := by
    rw [u64Max] at below
    omega
  simp only [memoryStore, InMemoryConsumer.resetEventConsumerCheckpoint, validateEventConsumerId,
    Library.ensure, resetState, checkedAdd_of_lt room]
  rfl

/-- Any number of resets that fits its counter. -/
theorem resets_run (within : revision ≤ u64Max) :
    ∃ content, StoresRun unaryCodec id "consumer" (singleEvent content) (resetState revision) := by
  induction revision with
  | zero => exact ⟨none, .start rfl⟩
  | succ revision ih =>
    obtain ⟨content, run⟩ := ih (le_of_succ_le within)
    have calm : ¬ Overflows 1 (resetState revision) (.reset .beginning) := by
      rintro ⟨full, -⟩
      have full : revision = u64Max := full
      omega
    refine ⟨(fileStore unaryCodec id 1 "consumer" (.reset .beginning) .replaced content).2, ?_⟩
    rw [← memoryStore_resetState within]
    exact run.operated (.reset .beginning) calm

/-- Once the revisions are used up a reset fails in both stores. But the table has moved its
checkpoint by then, and says so to the next operation. -/
theorem failed_reset_moves_table :
    ∃ content memory, StoresRun unaryCodec id "consumer" (singleEvent content) memory ∧
      let file := fileStore unaryCodec id 1 "consumer" (.reset .beginning) .replaced content
      let table := memoryStore 1 "consumer" (.reset .beginning) memory
      file.1 = table.1 ∧
      (fileStore unaryCodec id 1 "consumer" (.pause false) .replaced file.2).1 ≠
        (memoryStore 1 "consumer" (.pause false) table.2).1 := by
  obtain ⟨_, resets⟩ := resets_run (le_refl u64Max)
  have run := resets.operated (.checkpoint u64Max 0) id
  have room : 1 ≤ u64Limit := by decide
  have named : "consumer" ≠ "" := by decide
  obtain ⟨read, inv⟩ := run.agree named
  refine ⟨_, _, run, ?_⟩
  obtain ⟨replied, readReset⟩ := fileStore_replaced read inv room named (.reset .beginning)
  constructor
  · exact replied.trans (memoryStore_eq inv named (.reset .beginning)).1.symm
  · -- the file still has its checkpoint
    have paused := (fileStore_replaced readReset (inv.after _) room named (.pause false)).1
    intro same
    have states : (Except.ok (ConsumerReply.state { resetState u64Max with checkpoint := some 0 }) :
        Except StorageError _) = .ok (.state (resetState u64Max)) := paused.symm.trans same
    cases states

end Parting

end Astrcode
