import Astrcode.Storage.ConsumerState

/-!
# The two stores of consumer states

`session_repo/consumer_state.rs` keeps the state of a consumer in a file of its own, and
`in_memory.rs` keeps it in a table. The file is read before and replaced after every edit; an
edit that fails has no effect on it. The table is edited in place, also when the edit fails
halfway.

JSON is a parameter (`ConsumerStateCodec`). Reading a file succeeds; replacing it may fail, before
or after the new content is in place. The digest in the name of the file is left out, and so are
the session registry and the durability marker of the journal.
-/
namespace Astrcode

/-! ### The file -/

structure PersistedEventConsumerState where
  version : Nat
  cursor : Option Nat
  paused : Bool
  revision : Nat
  consecutiveFailures : Nat
  quarantinedCount : Nat
  skippedCount : Nat
  quarantined : List EventConsumerQuarantine
  skips : List EventConsumerSkip
  deriving DecidableEq

/-- The numbers fit the types they are stored in. -/
structure PersistedEventConsumerState.InRange (state : PersistedEventConsumerState) : Prop where
  version : state.version < 2 ^ 8
  cursor : ∀ seq ∈ state.cursor, seq < u64Limit
  revision : state.revision < u64Limit
  failures : state.consecutiveFailures < 2 ^ 32
  quarantinedCount : state.quarantinedCount < u64Limit
  skippedCount : state.skippedCount < u64Limit
  quarantined : ∀ record ∈ state.quarantined,
    record.seq < u64Limit ∧ record.revision < u64Limit ∧ record.attempts < 2 ^ 32
  skips : ∀ skip ∈ state.skips, (∀ seq ∈ skip.fromSeq, seq < u64Limit) ∧
    (∀ seq ∈ skip.toSeq, seq < u64Limit) ∧ skip.revision < u64Limit

/-- `serde_json` for the persisted state: `to_vec` and `from_slice`. -/
structure ConsumerStateCodec where
  toVec : PersistedEventConsumerState → List UInt8
  fromSlice : List UInt8 → Except String PersistedEventConsumerState
  fromSlice_toVec : ∀ state : PersistedEventConsumerState, state.InRange →
    fromSlice (toVec state) = .ok state

def eventConsumerStateVersion : Nat := 3

namespace EventConsumerState

def validateAuditBounds (state : EventConsumerState) : Except StorageError Unit := do
  Library.ensure (state.quarantined.length ≤ eventConsumerAuditRecordLimit)
    (.corruptLog "consumer quarantine audit exceeds its persisted record limit")
  Library.ensure (state.skips.length ≤ eventConsumerAuditRecordLimit)
    (.corruptLog "consumer skip audit exceeds its persisted record limit")
  Library.ensure (state.quarantined.length < u64Limit)
    (.corruptLog "consumer quarantine audit is too large")
  Library.ensure (state.skips.length < u64Limit)
    (.corruptLog "consumer skip audit is too large")
  Library.ensure (state.quarantined.length ≤ state.quarantinedCount)
    (.corruptLog "consumer quarantine count is smaller than its persisted audit")
  Library.ensure (state.skips.length ≤ state.skippedCount)
    (.corruptLog "consumer skip count is smaller than its persisted audit")
  Library.ensure (∀ record ∈ state.quarantined,
      record.lastError.utf8ByteSize ≤ eventConsumerErrorMaxBytes)
    (.corruptLog "consumer quarantine error exceeds its persisted byte limit")

def toPersisted (state : EventConsumerState) : PersistedEventConsumerState where
  version := eventConsumerStateVersion
  cursor := state.checkpoint
  paused := state.paused
  revision := state.revision
  consecutiveFailures := state.consecutiveFailures
  quarantinedCount := state.quarantinedCount
  skippedCount := state.skippedCount
  quarantined := state.quarantined
  skips := state.skips

/-- `TryFrom<PersistedEventConsumerState>`. -/
def ofPersisted (persisted : PersistedEventConsumerState) :
    Except StorageError EventConsumerState := do
  let state : EventConsumerState :=
    { checkpoint := persisted.cursor
      paused := persisted.paused
      revision := persisted.revision
      consecutiveFailures := persisted.consecutiveFailures
      quarantinedCount := persisted.quarantinedCount
      skippedCount := persisted.skippedCount
      quarantined := persisted.quarantined
      skips := persisted.skips }
  state.validateAuditBounds
  return state

end EventConsumerState

def validateEventConsumerId (consumerId : String) : Except StorageError Unit :=
  Library.ensure (consumerId ≠ "") (.invalidId "event consumer id cannot be empty")

/-- The name of the file of a consumer, in the directory of its session. -/
def eventConsumerStatePath (path : String → String) (consumerId : String) :
    Except StorageError String := do
  validateEventConsumerId consumerId
  return path consumerId

/-- A file that does not exist stands for a consumer that has consumed nothing. -/
def readEventConsumerState (codec : ConsumerStateCodec) (path : String) (file : Option (List UInt8)) :
    Except StorageError EventConsumerState :=
  match file with
  | none => .ok .default
  | some bytes => do
    let state ← (codec.fromSlice bytes).mapError fun error =>
      .corruptLog ("invalid event consumer state " ++ path ++ ": " ++ error)
    Library.ensure (state.version = eventConsumerStateVersion)
      (.corruptLog ("unsupported event consumer state version " ++ toString state.version ++ " in " ++
        path))
    EventConsumerState.ofPersisted state

/-- How `replace_durable_file` ends. -/
inductive ReplaceOutcome where
  | replaced
  | kept (reason : String)
  /-- The new content is in place, but the directory could not be synced. -/
  | replacedUnsynced (reason : String)

def ReplaceOutcome.apply (bytes : List UInt8) (file : Option (List UInt8)) :
    ReplaceOutcome → Except StorageError Unit × Option (List UInt8)
  | .replaced => (.ok (), some bytes)
  | .kept reason => (.error (.io reason), file)
  | .replacedUnsynced reason => (.error (.io reason), some bytes)

def writeEventConsumerState (codec : ConsumerStateCodec) (state : EventConsumerState)
    (outcome : ReplaceOutcome) (file : Option (List UInt8)) :
    Except StorageError Unit × Option (List UInt8) :=
  match state.validateAuditBounds with
  | .error e => (.error e, file)
  | .ok () => outcome.apply (codec.toVec state.toPersisted) file

/-! ### Edits -/

def editPaused (paused : Bool) (state : EventConsumerState) :
    Except StorageError (ConsumerStateEdit EventConsumerState) :=
  if state.paused = paused then .ok (.unchanged state)
  else .ok (.changed { state with paused } { state with paused })

def editReset (reset : EventConsumerCheckpointReset) (eventCount : Nat)
    (state : EventConsumerState) : Except StorageError (ConsumerStateEdit EventConsumerState) := do
  let state ← resetEventConsumerCheckpoint eventCount reset state
  return .changed state state

/-! ### The file-backed store -/

section FileBacked

variable (codec : ConsumerStateCodec) (path : String → String) {α : Type}

/-- Read, edit and write back. -/
def editConsumerState (eventCount : Nat) (consumerId : String) (seqBound : Option (String × Nat))
    (edit : EventConsumerState → Except StorageError (ConsumerStateEdit α))
    (outcome : ReplaceOutcome) (file : Option (List UInt8)) :
    Except StorageError α × Option (List UInt8) :=
  let read : Except StorageError EventConsumerState := do
    match seqBound with
    | some (noun, seq) => checkSeqBound noun seq eventCount
    | none => pure ()
    let path ← eventConsumerStatePath path consumerId
    readEventConsumerState codec path file
  match read.bind edit with
  | .error e => (.error e, file)
  | .ok (.unchanged value) => (.ok value, file)
  | .ok (.changed value state) =>
    match writeEventConsumerState codec state outcome file with
    | (.ok (), file) => (.ok value, file)
    | (.error e, file) => (.error e, file)

end FileBacked

/-! ### Operations of the two stores -/

inductive ConsumerOperation where
  | checkpoint (expectedRevision seq : Nat)
  | failure (expectedRevision seq : Nat) (error : String) (quarantineAfter : Nat)
  | pause (paused : Bool)
  | reset (reset : EventConsumerCheckpointReset)
  deriving DecidableEq

inductive ConsumerReply where
  | checkpoint (outcome : EventConsumerCheckpointOutcome)
  | failure (outcome : EventConsumerFailureOutcome)
  | state (state : EventConsumerState)
  deriving DecidableEq

/-- An operation of `FileSystemSessionRepository` on the file of one consumer. -/
def fileStore (codec : ConsumerStateCodec) (path : String → String) (eventCount : Nat)
    (consumerId : String) (operation : ConsumerOperation) (outcome : ReplaceOutcome)
    (file : Option (List UInt8)) : Except StorageError ConsumerReply × Option (List UInt8) :=
  match operation with
  | .checkpoint expectedRevision seq =>
    let (reply, file) := editConsumerState codec path eventCount consumerId
      (some ("checkpoint", seq)) (editCheckpoint expectedRevision seq) outcome file
    (reply.map .checkpoint, file)
  | .failure expectedRevision seq error quarantineAfter =>
    if quarantineAfter = 0 then
      (.error (.invalidId "event consumer quarantine limit must be greater than zero"), file)
    else
      let (reply, file) := editConsumerState codec path eventCount consumerId
        (some ("failure seq", seq)) (editFailure expectedRevision seq error quarantineAfter) outcome
        file
      (reply.map .failure, file)
  | .pause paused =>
    let (reply, file) := editConsumerState codec path eventCount consumerId none
      (editPaused paused) outcome file
    (reply.map .state, file)
  | .reset reset =>
    let (reply, file) := editConsumerState codec path eventCount consumerId none
      (editReset reset eventCount) outcome file
    (reply.map .state, file)

namespace InMemoryConsumer

/-- In the table, an entry that is missing is the default. -/
def checkpointEventConsumer (eventCount : Nat) (consumerId : String) (expectedRevision seq : Nat)
    (state : EventConsumerState) :
    Except StorageError EventConsumerCheckpointOutcome × EventConsumerState :=
  match (do
    validateEventConsumerId consumerId
    checkSeqBound "checkpoint" seq eventCount : Except StorageError Unit) with
  | .error e => (.error e, state)
  | .ok () =>
    if state.revision ≠ expectedRevision then (.ok .staleRevision, state)
    else if state.reached seq then (.ok .accepted, state)
    else (.ok .accepted, { state with checkpoint := some seq, consecutiveFailures := 0 })

def recordEventConsumerFailure (eventCount : Nat) (consumerId : String)
    (expectedRevision seq : Nat) (error : String) (quarantineAfter : Nat)
    (state : EventConsumerState) :
    Except StorageError EventConsumerFailureOutcome × EventConsumerState :=
  match (do
    validateEventConsumerId consumerId
    Library.ensure (quarantineAfter ≠ 0)
      (.invalidId "event consumer quarantine limit must be greater than zero")
    checkSeqBound "failure seq" seq eventCount : Except StorageError Unit) with
  | .error e => (.error e, state)
  | .ok () =>
    if state.revision ≠ expectedRevision then (.ok .staleRevision, state)
    else if state.reached seq then (.ok .alreadyConsumed, state)
    else match checkedSuccU32 state.consecutiveFailures with
      | none => (.error (.corruptLog "consumer failure count overflow"), state)
      | some attempts =>
        let state := { state with consecutiveFailures := attempts }
        if quarantineAfter ≤ attempts then
          match state.recordQuarantine seq attempts error with
          -- the failure stays counted
          | .error e => (.error e, state)
          | .ok state => (.ok (.quarantined attempts),
              { state with checkpoint := some seq, consecutiveFailures := 0 })
        else (.ok (.recorded attempts), state)

def setEventConsumerPaused (consumerId : String) (paused : Bool) (state : EventConsumerState) :
    Except StorageError EventConsumerState × EventConsumerState :=
  match validateEventConsumerId consumerId with
  | .error e => (.error e, state)
  | .ok () => (.ok { state with paused }, { state with paused })

def resetEventConsumerCheckpoint (eventCount : Nat) (consumerId : String)
    (reset : EventConsumerCheckpointReset) (state : EventConsumerState) :
    Except StorageError EventConsumerState × EventConsumerState :=
  match validateEventConsumerId consumerId with
  | .error e => (.error e, state)
  | .ok () =>
    let previousCheckpoint := state.checkpoint
    let state := { state with checkpoint := reset.position eventCount }
    match checkedAdd state.revision 1 with
    -- the checkpoint has moved already
    | none => (.error (.corruptLog "event consumer revision overflow"), state)
    | some revision =>
      let state := { state with revision, consecutiveFailures := 0 }
      if reset = .streamHead ∧ state.checkpoint ≠ previousCheckpoint then
        match state.recordSkip previousCheckpoint state.checkpoint with
        | .error e => (.error e, state)
        | .ok state => (.ok state, state)
      else (.ok state, state)

end InMemoryConsumer

/-- An operation of `InMemoryEventStore` on the entry of one consumer. -/
def memoryStore (eventCount : Nat) (consumerId : String) (operation : ConsumerOperation)
    (state : EventConsumerState) : Except StorageError ConsumerReply × EventConsumerState :=
  match operation with
  | .checkpoint expectedRevision seq =>
    let (reply, state) := InMemoryConsumer.checkpointEventConsumer eventCount consumerId
      expectedRevision seq state
    (reply.map .checkpoint, state)
  | .failure expectedRevision seq error quarantineAfter =>
    let (reply, state) := InMemoryConsumer.recordEventConsumerFailure eventCount consumerId
      expectedRevision seq error quarantineAfter state
    (reply.map .failure, state)
  | .pause paused =>
    let (reply, state) := InMemoryConsumer.setEventConsumerPaused consumerId paused state
    (reply.map .state, state)
  | .reset reset =>
    let (reply, state) := InMemoryConsumer.resetEventConsumerCheckpoint eventCount consumerId reset
      state
    (reply.map .state, state)

end Astrcode
