import Astrcode.Projection.Reducer
import Astrcode.Storage.EventLog

/-!
# The session journal

`session_repo/{mod,journal,durability}.rs`: one open session, its event log, the read
model kept in step with it, and the sticky marker that remembers an fsync whose result
is unknown. Each operation holds the commit lane from start to end, so it is one
function on the whole state; how its write and its fsync end are arguments.

The registry of open sessions, directories and owner leases are left out: an operation
here is what happens once the session is found.
-/
namespace Astrcode

/-- The text a projection error is shown as. -/
def ProjectionError.display : ProjectionError → String
  | .emptyBatch => "projection batch cannot be empty"
  | .sequenceOverflow => "session event sequence overflow"
  | .missingSessionStarted sessionId => "session " ++ sessionId ++ " has no SessionStarted event"
  | .sessionMismatch expected actual =>
    "event belongs to session " ++ actual ++ ", expected " ++ expected
  | .invalidFirstSequence seq => "first event must have seq 0, got " ++ toString seq
  | .invalidFirstEvent => "first event must be SessionStarted"
  | .sessionStartedHasTurn => "SessionStarted must be a session-level event"
  | .duplicateSessionStarted seq => "duplicate SessionStarted at seq " ++ toString seq
  | .invalidDurableCustomEventAudience seq =>
    "durable custom event at seq " ++ toString seq ++ " must have session audience"
  | .nonContiguousSequence expected actual =>
    "expected event seq " ++ toString expected ++ ", got " ++ toString actual
  | .invalidTranscriptRewriteSource sourceSeq currentSeq =>
    "transcript rewrite source seq " ++ toString sourceSeq ++ " exceeds current seq " ++
      toString currentSeq
  | .transcriptRewriteSourceFingerprintMismatch sourceSeq expected actual =>
    "transcript rewrite source fingerprint mismatch at seq " ++ toString sourceSeq ++
      ": event expects " ++ expected ++ ", current prefix hashes to " ++ actual

def IdError.display : IdError → String
  | .invalidCharacters message => "Invalid characters in ID: " ++ message
  | .pathTraversal id => "Path traversal attempt in ID: " ++ id

def validateStorageSessionId (id : SessionId) : Except StorageError Unit :=
  (validateSessionId id).mapError fun e => .invalidId e.display

def invalidEvent (e : ProjectionError) : StorageError := .invalidEvent e.display

def corruptProjection (e : ProjectionError) : StorageError := .corruptLog e.display

/-! ### The sticky marker -/

inductive UncertainDurability where
  | pendingProjection (batch : PreparedProjectionBatch) (throughSeq : Nat) (reason : String)
  | published (throughSeq : Nat) (reason : String)

namespace UncertainDurability

def throughSeq : UncertainDurability → Nat
  | .pendingProjection _ throughSeq _ | .published throughSeq _ => throughSeq

def reason : UncertainDurability → String
  | .pendingProjection _ _ reason | .published _ reason => reason

def setReason (reason : String) : UncertainDurability → UncertainDurability
  | .pendingProjection batch throughSeq _ => .pendingProjection batch throughSeq reason
  | .published throughSeq _ => .published throughSeq reason

def error (sessionId : SessionId) (uncertain : UncertainDurability) : StorageError :=
  .durabilityUncertain sessionId uncertain.throughSeq uncertain.reason

end UncertainDurability

/-- The state of one open session. `count` is the counter the writer publishes. -/
structure SessionMeta where
  log : WriterState
  count : Nat
  projection : SessionReadModel
  uncertain : Option UncertainDurability

def fsyncConfirmationPending : String := "fsync confirmation is pending"

def uncertainSeqMismatch (expected actual : Nat) : StorageError :=
  .invalidEvent ("durability confirmation expected pending seq " ++ toString expected ++ ", found " ++
    toString actual)

def sequenceOverflow : StorageError := .corruptLog "session event sequence overflow"

def shortBatchResult : StorageError :=
  .invalidEvent "batch append returned fewer events than submitted"

namespace SessionMeta

def setUncertain (uncertain : UncertainDurability) (state : SessionMeta) : SessionMeta :=
  { state with uncertain := some uncertain }

def ensureNoUncertainDurability (sessionId : SessionId) (state : SessionMeta) :
    Except StorageError Unit :=
  match state.uncertain with
  | some uncertain => .error (uncertain.error sessionId)
  | none => .ok ()

/-- After a failed fsync: the reason is updated in place, and the sticky error returned. -/
def failUncertain (sessionId : SessionId) (expectedThroughSeq : Nat) (reason : String)
    (state : SessionMeta) : StorageError × SessionMeta :=
  match state.uncertain with
  | none => (.corruptLog "durability marker disappeared before fsync completed", state)
  | some uncertain =>
    if uncertain.throughSeq ≠ expectedThroughSeq then
      (uncertainSeqMismatch expectedThroughSeq uncertain.throughSeq, state)
    else
      let uncertain := uncertain.setReason reason
      (uncertain.error sessionId, state.setUncertain uncertain)

/-- Takes the marker out if it has the expected boundary. -/
@[simp] def takeUncertain (expectedThroughSeq : Nat) (state : SessionMeta) :
    Except StorageError UncertainDurability × SessionMeta :=
  match state.uncertain with
  | none => (.error (.corruptLog "durability marker disappeared before confirmation completed"), state)
  | some uncertain =>
    if uncertain.throughSeq = expectedThroughSeq then (.ok uncertain, { state with uncertain := none })
    else (.error (uncertainSeqMismatch expectedThroughSeq uncertain.throughSeq), state)

def ensureLogPositionedFor (prepared : PreparedProjectionBatch) (state : SessionMeta) :
    Except StorageError Unit :=
  if state.count ≠ prepared.firstSeq then
    .error (.corruptLog ("event log next seq " ++ toString state.count ++
      " does not match projection next seq " ++ toString prepared.firstSeq))
  else .ok ()

/-- Publishes the pending batch to the read model and clears the marker. -/
def applyConfirmedProjection (expectedThroughSeq : Nat) (state : SessionMeta) :
    Except StorageError (List StoredEvent) × SessionMeta :=
  match state.takeUncertain expectedThroughSeq with
  | (.error e, state) => (.error e, state)
  -- the events of a plain sync are in the read model already
  | (.ok (.published _ _), state) => (.ok [], state)
  | (.ok (.pendingProjection batch throughSeq reason), state) =>
    let restored := state.setUncertain (.pendingProjection batch throughSeq reason)
    match checkedAdd throughSeq 1 with
    | none => (.error sequenceOverflow, state)
    | some expectedNextSeq =>
      if state.count ≠ expectedNextSeq then
        (.error (.corruptLog ("event log next seq " ++ toString state.count ++
          " does not match pending durability boundary " ++ toString expectedNextSeq)), restored)
      else match checkedAdd state.projection.stats.lastSeq 1 with
        | none => (.error sequenceOverflow, state)
        | some projectionNextSeq =>
          if projectionNextSeq ≠ batch.firstSeq then
            (.error (.corruptLog ("projection next seq " ++ toString projectionNextSeq ++
              " does not match pending batch start " ++ toString batch.firstSeq)), restored)
          else
            (.ok batch.events, { state with projection := batch.applyToModel state.projection })

/-! ### The log and the projection -/

def appendPreparedBatch (codec : RecordCodec) (batch : PreparedProjectionBatch)
    (write : WriteOutcome) (state : SessionMeta) : Except StorageError Unit × SessionMeta :=
  match state.log.appendStoredBatch codec batch.events write with
  | (.ok (), log) => (.ok (), { state with log, count := log.nextSeq })
  | (.error e, log) => (.error e, { state with log })

def forceSync (sync : SyncOutcome) (state : SessionMeta) : Except StorageError Unit × SessionMeta :=
  match state.log.flushAndSync sync with
  | (result, log) => (result, { state with log })

def prepareBatch (events : List DurableEvent) (projection : SessionReadModel) :
    Except StorageError PreparedProjectionBatch :=
  (PreparedProjectionBatch.prepare projection events).mapError fun
    | .sequenceOverflow => .corruptLog ProjectionError.sequenceOverflow.display
    | e => invalidEvent e

end SessionMeta

def appendSessionId (events : List DurableEvent) : Except StorageError SessionId :=
  match events.head? with
  | some event => .ok event.sessionId
  | none => .error (.invalidEvent "event batch cannot be empty")

/-! ### The operations -/

namespace SessionMeta

variable (codec : RecordCodec)

/-- The checks both appends make before they write. -/
def admitBatch (events : List DurableEvent) (state : SessionMeta) :
    Except StorageError (SessionId × PreparedProjectionBatch) := do
  let sessionId ← appendSessionId events
  validateStorageSessionId sessionId
  -- an uncertain session refuses every append, before it looks at the batch
  state.ensureNoUncertainDurability sessionId
  let prepared ← prepareBatch events state.projection
  state.ensureLogPositionedFor prepared
  return (sessionId, prepared)

/-- The part both appends share: the checks and the write. -/
def commitBatch (events : List DurableEvent) (write : WriteOutcome) (state : SessionMeta) :
    Except StorageError (SessionId × PreparedProjectionBatch) × SessionMeta :=
  match state.admitBatch events with
  | .error e => (.error e, state)
  | .ok (sessionId, prepared) =>
    match state.appendPreparedBatch codec prepared write with
    | (.error e, state) => (.error e, state)
    | (.ok (), state) => (.ok (sessionId, prepared), state)

def appendEvents (events : List DurableEvent) (write : WriteOutcome) (state : SessionMeta) :
    Except StorageError (List StoredEvent) × SessionMeta :=
  match state.commitBatch codec events write with
  | (.error e, state) => (.error e, state)
  | (.ok (_, committed), state) =>
    -- visible before it is synced: this append promises no durability
    (.ok committed.events, { state with projection := committed.applyToModel state.projection })

def appendEventsAndSync (events : List DurableEvent) (write : WriteOutcome) (sync : SyncOutcome)
    (state : SessionMeta) : Except StorageError (List StoredEvent) × SessionMeta :=
  match state.commitBatch codec events write with
  | (.error e, state) => (.error e, state)
  | (.ok (sessionId, committed), state) =>
    match committed.events.getLast? with
    | none => (.error shortBatchResult, state)
    | some last =>
      -- the marker is set before the fsync starts
      let state := state.setUncertain (.pendingProjection committed last.seq fsyncConfirmationPending)
      match state.forceSync sync with
      | (.error e, state) =>
        let (sticky, state) := state.failUncertain sessionId last.seq e.display
        (.error sticky, state)
      | (.ok (), state) => state.applyConfirmedProjection last.seq

def syncDurableEvents (sessionId : SessionId) (sync : SyncOutcome) (state : SessionMeta) :
    Except StorageError Unit × SessionMeta :=
  let admitted : Except StorageError Nat := do
    validateStorageSessionId sessionId
    state.ensureNoUncertainDurability sessionId
    if state.count = 0 then throw (.corruptLog "created session has an empty event log")
    return state.count - 1
  match admitted with
  | .error e => (.error e, state)
  | .ok throughSeq =>
    -- nothing is pending for the read model, only the confirmation is
    let state := state.setUncertain (.published throughSeq fsyncConfirmationPending)
    match state.forceSync sync with
    | (.error e, state) =>
      let (sticky, state) := state.failUncertain sessionId throughSeq e.display
      (.error sticky, state)
    | (.ok (), state) =>
      match state.takeUncertain throughSeq with
      | (.error e, state) => (.error e, state)
      | (.ok _, state) => (.ok (), state)

/-- What a retry finds: a marker with the expected boundary, or none. -/
def admitRetry (sessionId : SessionId) (expectedThroughSeq : Nat) (state : SessionMeta) :
    Except StorageError Bool := do
  validateStorageSessionId sessionId
  match state.uncertain with
  | some uncertain =>
    if uncertain.throughSeq ≠ expectedThroughSeq then
      throw (uncertainSeqMismatch expectedThroughSeq uncertain.throughSeq)
    return true
  | none =>
    match checkedAdd expectedThroughSeq 1 with
    | none => throw sequenceOverflow
    | some expectedNextSeq =>
      -- confirmed before: a retry that comes twice does no harm
      if state.count = expectedNextSeq ∧ state.projection.stats.lastSeq = expectedThroughSeq then
        return false
      throw (.invalidEvent ("session " ++ sessionId ++
        " has no pending durability confirmation for seq " ++ toString expectedThroughSeq))

def retryUncertainSync (sessionId : SessionId) (expectedThroughSeq : Nat) (sync : SyncOutcome)
    (state : SessionMeta) : Except StorageError (List StoredEvent) × SessionMeta :=
  match state.admitRetry sessionId expectedThroughSeq with
  | .error e => (.error e, state)
  | .ok false => (.ok [], state)
  | .ok true =>
    match state.forceSync sync with
    | (.error e, state) =>
      let (sticky, state) := state.failUncertain sessionId expectedThroughSeq e.display
      (.error sticky, state)
    | (.ok (), state) => state.applyConfirmedProjection expectedThroughSeq

/-! ### Opening a session -/

def new (log : WriterState) (projection : SessionReadModel) : SessionMeta :=
  ⟨log, log.nextSeq, projection, none⟩

end SessionMeta

def createSession (codec : RecordCodec) (path : String) (event : DurableEvent) :
    Except StorageError (SessionMeta × StoredEvent) := do
  validateStorageSessionId event.sessionId
  if event.turnId.isSome then .error (.invalidId "SessionStarted must be a session-level event")
  else if !event.payload.isSessionStarted then
    .error (.invalidId "create_session requires SessionStarted")
  else do
    let (log, stored) ← createAtPath codec path event
    let projection ← (replay event.sessionId [stored]).mapError invalidEvent
    return (.new log projection, stored)

/-- The cold path of `get_or_open_meta`. -/
def openMeta (codec : RecordCodec) (chunk : ChunkSize) (path : String) (sessionId : SessionId)
    (file : List UInt8) : Except StorageError SessionMeta := do
  validateStorageSessionId sessionId
  let (log, events) ← openAtPath codec chunk path file
  let projection ← (replay sessionId events).mapError corruptProjection
  return .new log projection

end Astrcode
