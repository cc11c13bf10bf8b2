import Astrcode.Properties.BatchProjection
import Astrcode.Storage.Journal
import Astrcode.Storage.LogShape

/-!
# Sticky durability

Whatever writes and fsyncs fail, the read model lags the log by at most one batch, and
the marker says which. `Consistent` is the invariant of all runs: the log holds the
history, the read model is the history without the pending batch. While a marker is
set nothing but a matching retry moves either of them, and a successful retry applies
the pending batch once.
-/
namespace Astrcode

variable {stored : List StoredEvent} {sync : SyncOutcome} {path : String} {event : DurableEvent}
  {throughSeq : Nat} {projection model : SessionReadModel}

open SessionMeta

open Library (bind_ok_iff mapError_ok runAll_append)

/-! ### Runs of the journal -/

inductive JournalCall where
  | appendEvents (events : List DurableEvent) (write : WriteOutcome)
  | appendEventsAndSync (events : List DurableEvent) (write : WriteOutcome) (sync : SyncOutcome)
  | syncDurableEvents (sessionId : SessionId) (sync : SyncOutcome)
  | retryUncertainSync (sessionId : SessionId) (throughSeq : Nat) (sync : SyncOutcome)

namespace JournalCall

variable (codec : RecordCodec)

def perform : JournalCall → SessionMeta → Except StorageError (List StoredEvent) × SessionMeta
  | .appendEvents events write, state => state.appendEvents codec events write
  | .appendEventsAndSync events write sync, state => state.appendEventsAndSync codec events write sync
  | .syncDurableEvents sessionId sync, state =>
    match state.syncDurableEvents sessionId sync with
    | (result, state) => (result.map fun _ => [], state)
  | .retryUncertainSync sessionId throughSeq sync, state =>
    state.retryUncertainSync sessionId throughSeq sync

/-- The records a call adds to the log. -/
def committed (call : JournalCall) (state : SessionMeta) : List StoredEvent :=
  match call with
  | .appendEvents events write | .appendEventsAndSync events write _ =>
    match (state.commitBatch codec events write).1 with
    | .ok (_, batch) => batch.events
    | .error _ => []
  | .syncDurableEvents _ _ | .retryUncertainSync _ _ _ => []

def isRetry : JournalCall → Bool
  | .retryUncertainSync _ _ _ => true
  | _ => false

end JournalCall

/-- One session from its creation or opening on: the read model it started with, the records
added to the log since, and the state after the last call. -/
inductive JournalRun (codec : RecordCodec) :
    SessionReadModel → List StoredEvent → SessionMeta → Prop where
  | created {path : String} {event : DurableEvent} {state : SessionMeta} {stored : StoredEvent}
      (made : createSession codec path event = .ok (state, stored)) :
      JournalRun codec state.projection [] state
  | opened {chunk : ChunkSize} {path : String} {sessionId : SessionId} {file : List UInt8}
      {state : SessionMeta} (made : openMeta codec chunk path sessionId file = .ok state) :
      JournalRun codec state.projection [] state
  | called {start : SessionReadModel} {history : List StoredEvent} {state : SessionMeta}
      (run : JournalRun codec start history state) (call : JournalCall) :
      JournalRun codec start (history ++ call.committed codec state) (call.perform codec state).2

/-! ### What each part of an operation does -/

@[simp] def pendingEvents : Option UncertainDurability → List StoredEvent
  | some (.pendingProjection batch _ _) => batch.events
  | some (.published _ _) | none => []

section Parts

variable {sessionId : SessionId} {codec : RecordCodec} {state state' : SessionMeta}
  {result : Except StorageError Unit} {batch : PreparedProjectionBatch} {events : List DurableEvent}
  {write : WriteOutcome}

private theorem appendPreparedBatch_cases
    (done : state.appendPreparedBatch codec batch write = (result, state')) :
    (∃ e log, result = .error e ∧ log.nextSeq = state.log.nextSeq ∧ state' = { state with log }) ∨
    (∃ log, result = .ok () ∧ log.nextSeq = state.log.nextSeq + batch.events.length ∧
      log.nextSeq < u64Limit ∧ state' = { state with log, count := log.nextSeq }) := by
  have numbers := appendStoredBatch_nextSeq codec batch.events write state.log
  rw [appendPreparedBatch] at done
  split at done
  · next log wrote =>
    cases done
    rw [wrote] at numbers
    exact .inr ⟨log, rfl, numbers.1, numbers.2, rfl⟩
  · next e log failed =>
    cases done
    rw [failed] at numbers
    exact .inl ⟨e, log, rfl, numbers, rfl⟩

private theorem unmarked_of_ensured (ensured : state.ensureNoUncertainDurability sessionId = .ok ()) :
    state.uncertain = none := by
  rw [ensureNoUncertainDurability] at ensured
  split at ensured
  · cases ensured
  · assumption

/-- A retry goes on to fsync only if the marker has the boundary it names. -/
private theorem admitRetry_true (admitted : state.admitRetry sessionId throughSeq = .ok true) :
    ∃ marker, state.uncertain = some marker ∧ marker.throughSeq = throughSeq := by
  obtain ⟨_, -, admitted⟩ := bind_ok_iff.mp admitted
  split at admitted
  · next marker marked =>
    refine ⟨marker, marked, ?_⟩
    by_contra other
    simp only [ne_eq, other, not_false_eq_true, if_true] at admitted
    cases admitted
  · split at admitted
    · cases admitted
    · split at admitted <;> cases admitted

theorem admitBatch_ok_iff :
    state.admitBatch events = .ok (sessionId, batch) ↔
      appendSessionId events = .ok sessionId ∧ validateStorageSessionId sessionId = .ok () ∧
        state.uncertain = none ∧
        PreparedProjectionBatch.prepare state.projection events = .ok batch ∧
        state.count = batch.firstSeq := by
  constructor
  · intro admitted
    obtain ⟨_, session, admitted⟩ := bind_ok_iff.mp admitted
    obtain ⟨_, valid, admitted⟩ := bind_ok_iff.mp admitted
    obtain ⟨_, unmarked, admitted⟩ := bind_ok_iff.mp admitted
    obtain ⟨_, prepares, admitted⟩ := bind_ok_iff.mp admitted
    obtain ⟨_, positioned, equal⟩ := bind_ok_iff.mp admitted
    cases equal
    refine ⟨session, valid, unmarked_of_ensured unmarked, mapError_ok prepares, ?_⟩
    rw [ensureLogPositionedFor] at positioned
    split at positioned
    · cases positioned
    · next same => exact not_not.mp same
  · rintro ⟨session, valid, unmarked, prepared, positioned⟩
    simp only [admitBatch, session, valid, ensureNoUncertainDurability, unmarked, prepareBatch,
      prepared, Except.mapError, ensureLogPositionedFor, positioned, bind, Except.bind, ne_eq,
      not_true_eq_false, if_false]
    rfl

/-- A refused commit changes nothing the readers see; an accepted one moves the counter past
the batch. -/
private theorem commitBatch_cases
    {result : Except StorageError (SessionId × PreparedProjectionBatch)}
    (done : state.commitBatch codec events write = (result, state')) :
    (∃ e log, result = .error e ∧ log.nextSeq = state.log.nextSeq ∧ state' = { state with log }) ∨
    (∃ sessionId batch log, result = .ok (sessionId, batch) ∧ state.uncertain = none ∧
      PreparedProjectionBatch.prepare state.projection events = .ok batch ∧
      log.nextSeq = state.log.nextSeq + batch.events.length ∧ log.nextSeq < u64Limit ∧
      state' = { state with log, count := log.nextSeq }) := by
  rw [commitBatch] at done
  split at done
  · next e refused =>
    cases done
    exact .inl ⟨e, state.log, rfl, rfl, rfl⟩
  · next sessionId batch admitted =>
    obtain ⟨-, -, unmarked, prepared, -⟩ := admitBatch_ok_iff.mp admitted
    split at done
    · next e after wrote =>
      cases done
      rcases appendPreparedBatch_cases wrote with ⟨_, log, -, same, rfl⟩ | ⟨_, impossible, -⟩
      · exact .inl ⟨e, log, rfl, same, rfl⟩
      · cases impossible
    · next after wrote =>
      cases done
      rcases appendPreparedBatch_cases wrote with ⟨_, _, impossible, -⟩ | ⟨log, -, grown, room, rfl⟩
      · cases impossible
      · exact .inr ⟨sessionId, batch, log, rfl, unmarked, prepared, grown, room, rfl⟩

private theorem forceSync_cases (done : state.forceSync sync = (result, state')) :
    ∃ log, log.nextSeq = state.log.nextSeq ∧ log.file = state.log.file ∧
      state' = { state with log } := by
  cases done
  rcases flushAndSync_keeps sync state.log with same | same
  all_goals exact ⟨(state.log.flushAndSync sync).2, by rw [same], by rw [same], rfl⟩

end Parts

/-! ### The invariant -/

/-- How far the read model is behind the log. -/
def Boundary (state : SessionMeta) : Prop :=
  match state.uncertain with
  | some (.pendingProjection batch throughSeq _) =>
    state.count = throughSeq + 1 ∧ batch.firstSeq = state.projection.stats.lastSeq + 1 ∧
      ∃ after, reduceAll batch.events state.projection = .ok after ∧ after.stats.lastSeq = throughSeq
  | some (.published _ _) | none => state.count = state.projection.stats.lastSeq + 1

structure Consistent (start : SessionReadModel) (history : List StoredEvent) (state : SessionMeta) :
    Prop where
  counted : state.log.nextSeq = state.count
  room : state.count < u64Limit
  visible : ∃ visible, history = visible ++ pendingEvents state.uncertain ∧
    reduceAll visible start = .ok state.projection
  boundary : Boundary state

/-- The state once the marker is confirmed. -/
@[simp] def SessionMeta.confirmed (state : SessionMeta) : SessionMeta :=
  { state with
    uncertain := none
    projection := (pendingEvents state.uncertain).foldl
      (fun model event => applyValidatedEvent event model) state.projection }

namespace Consistent

variable {events : List DurableEvent} {batch : PreparedProjectionBatch}
  {marker : UncertainDurability} {write : WriteOutcome} {state' state : SessionMeta}
  {start : SessionReadModel} {history : List StoredEvent} {log : WriterState}

private theorem relog (good : Consistent start history state)
    (same : log.nextSeq = state.log.nextSeq) : Consistent start history { state with log } :=
  ⟨same.trans good.counted, good.room, good.visible, good.boundary⟩

private theorem publish (good : Consistent start history state) (unmarked : state.uncertain = none)
    (throughSeq : Nat) (reason : String) :
    Consistent start history (state.setUncertain (.published throughSeq reason)) := by
  obtain ⟨counted, room, visible, boundary⟩ := good
  rw [unmarked] at visible
  rw [Boundary, unmarked] at boundary
  exact ⟨counted, room, visible, boundary⟩

private theorem prepared_getLast
    (prepared : PreparedProjectionBatch.prepare model events = .ok batch) :
    ∃ last, batch.events.getLast? = some last := by
  obtain ⟨nonempty, -, numbered, -⟩ := prepare_ok prepared
  cases events with
  | nil => contradiction
  | cons event events =>
    rw [numbered, numberFrom]
    exact ⟨_, List.getLast?_eq_some_getLast (List.cons_ne_nil _ _)⟩

section

variable (good : Consistent start history state)

include good

/-- A committed batch, hidden behind a marker. -/
private theorem hide (reason : String) (unmarked : state.uncertain = none)
    (prepared : PreparedProjectionBatch.prepare state.projection events = .ok batch)
    (grown : log.nextSeq = state.log.nextSeq + batch.events.length) (room : log.nextSeq < u64Limit) :
    ∃ last, batch.events.getLast? = some last ∧ Consistent start (history ++ batch.events)
      { state with
        log, count := log.nextSeq, uncertain := some (.pendingProjection batch last.seq reason) } := by
  obtain ⟨last, ends⟩ := prepared_getLast prepared
  obtain ⟨-, first, -, reduced⟩ := prepare_ok prepared
  obtain ⟨visible, rfl, shown⟩ := good.visible
  have boundary := good.boundary
  rw [Boundary, unmarked] at boundary
  have through := reduceAll_getLast reduced ends
  have length := reduceAll_lastSeq reduced
  refine ⟨last, ends, rfl, room, ⟨visible, ?_, shown⟩, ?_, first, _, reduced, through.symm⟩
  · rw [unmarked]
    simp
  -- counter and last event move by the length of the batch
  · show log.nextSeq = last.seq + 1
    have counted := good.counted
    omega

variable (marked : state.uncertain = some marker)

include marked

/-- The batch was prepared on this very read model, so that it applies as it was checked. -/
private theorem shows_confirmed :
    reduceAll (pendingEvents state.uncertain) state.projection = .ok state.confirmed.projection := by
  have boundary := good.boundary
  rw [Boundary, marked] at boundary
  simp only [SessionMeta.confirmed, marked]
  cases marker with
  | pendingProjection batch throughSeq reason =>
    obtain ⟨-, -, after, reduced, -⟩ := boundary
    simp only [pendingEvents]
    rw [reduced, reduceAll_eq_foldl reduced]
  | published throughSeq reason => exact Library.runAll_nil.mpr rfl

/-- Confirming the marker applies the pending batch. -/
private theorem confirm : Consistent start history state.confirmed := by
  obtain ⟨visible, rfl, shown⟩ := good.visible
  have applied := good.shows_confirmed marked
  refine ⟨good.counted, good.room, ⟨_, (List.append_nil _).symm,
    runAll_append.mpr ⟨_, shown, applied⟩⟩, ?_⟩
  show state.count = state.confirmed.projection.stats.lastSeq + 1
  have boundary := good.boundary
  rw [Boundary, marked] at boundary
  rw [marked] at applied
  cases marker with
  | pendingProjection batch throughSeq reason =>
    obtain ⟨count, -, after, reduced, through⟩ := boundary
    rw [← Except.ok.inj (reduced.symm.trans applied), through, count]
  | published throughSeq reason =>
    rw [Library.runAll_nil.mp applied]
    exact boundary

/-- A marker with the expected boundary is confirmed. -/
private theorem applyConfirmed :
    state.applyConfirmedProjection marker.throughSeq =
      (.ok (pendingEvents state.uncertain), state.confirmed) := by
  have boundary := good.boundary
  rw [Boundary, marked] at boundary
  cases marker with
  | published throughSeq reason =>
    simp [applyConfirmedProjection, marked, UncertainDurability.throughSeq]
  | pendingProjection batch throughSeq reason =>
    obtain ⟨count, first, after, reduced, through⟩ := boundary
    have room := good.room
    have length := reduceAll_lastSeq reduced
    -- none of the checks of the confirmation can fail
    have countRoom : throughSeq + 1 < u64Limit := by omega
    have nextRoom : state.projection.stats.lastSeq + 1 < u64Limit := by omega
    simp [applyConfirmedProjection, marked, UncertainDurability.throughSeq, count, first, countRoom,
      nextRoom, PreparedProjectionBatch.applyToModel]

/-- A failed fsync keeps the marker and what it stands for. -/
private theorem refail (sessionId : SessionId) (reason : String) :
    Consistent start history (state.failUncertain sessionId marker.throughSeq reason).2 := by
  have boundary := good.boundary
  obtain ⟨visible, rfl, shown⟩ := good.visible
  rw [Boundary, marked] at boundary
  have kept : (state.failUncertain sessionId marker.throughSeq reason).2 =
      state.setUncertain (marker.setReason reason) := by
    simp [failUncertain, marked]
  rw [kept, marked]
  cases marker with
  | pendingProjection batch throughSeq old =>
    exact ⟨good.counted, good.room, ⟨visible, rfl, shown⟩, boundary⟩
  | published throughSeq old => exact ⟨good.counted, good.room, ⟨visible, rfl, shown⟩, boundary⟩

end

/-- A call shows in the read model what it returns, and nothing when it fails. -/
def Shows (model : SessionReadModel) (outcome : Except StorageError (List StoredEvent) × SessionMeta) :
    Prop :=
  match outcome with
  | (.ok stored, state) => reduceAll stored model = .ok state.projection
  | (.error _, state) => state.projection = model

/-- A call leaves a consistent state, shows what it returns and returns nothing else. -/
private structure Kept (start : SessionReadModel) (history : List StoredEvent)
    (model : SessionReadModel) (returned : List StoredEvent)
    (outcome : Except StorageError (List StoredEvent) × SessionMeta) : Prop where
  consistent : Consistent start history outcome.2
  shows : Shows model outcome
  returned : ∀ stored, outcome.1 = .ok stored → stored = returned

/-- An fsync on a marked state confirms the marker or keeps it. -/
private theorem sync_marked (good : Consistent start history state)
    (marked : state.uncertain = some marker) (sessionId : SessionId) (sync : SyncOutcome) :
    Kept start history state.projection (pendingEvents state.uncertain)
      (match state.forceSync sync with
      | (.error e, state) =>
        let (sticky, state) := state.failUncertain sessionId marker.throughSeq e.display
        (.error sticky, state)
      | (.ok (), state) => state.applyConfirmedProjection marker.throughSeq) := by
  cases synced : state.forceSync sync with
  | mk result after =>
    obtain ⟨log, same, -, rfl⟩ := forceSync_cases synced
    have logged := good.relog same
    cases result with
    | error e =>
      refine ⟨logged.refail marked sessionId e.display, ?_, nofun⟩
      simp [Shows, failUncertain, marked, setUncertain]
    | ok done =>
      simp only []
      rw [logged.applyConfirmed marked]
      exact ⟨logged.confirm marked, logged.shows_confirmed marked,
        fun _ same => (Except.ok.inj same).symm⟩

/-! ### Every call keeps it -/

variable {codec : RecordCodec} (good : Consistent start history state)

include good

private theorem kept_appendEvents (events : List DurableEvent) (write : WriteOutcome) :
    Kept start (history ++ (JournalCall.appendEvents events write).committed codec state)
      state.projection (numberFrom (state.projection.stats.lastSeq + 1) events)
      (state.appendEvents codec events write) := by
  rw [JournalCall.committed, appendEvents]
  cases wrote : state.commitBatch codec events write with
  | mk result after =>
    rcases commitBatch_cases wrote with ⟨e, log, rfl, same, rfl⟩ |
      ⟨sessionId, batch, log, rfl, unmarked, prepared, grown, room, rfl⟩
    · exact ⟨by simpa using good.relog same, rfl, nofun⟩
    · -- publishing at once is pending and confirming in one go
      obtain ⟨last, -, hidden⟩ := good.hide "" unmarked prepared grown room
      obtain ⟨-, -, numbered, reduced⟩ := prepare_ok prepared
      simp only [unmarked]
      exact ⟨hidden.confirm rfl, reduced, fun _ same => numbered ▸ (Except.ok.inj same).symm⟩

private theorem kept_appendEventsAndSync (events : List DurableEvent) (write : WriteOutcome)
    (sync : SyncOutcome) :
    Kept start
      (history ++ (JournalCall.appendEventsAndSync events write sync).committed codec state)
      state.projection (numberFrom (state.projection.stats.lastSeq + 1) events)
      (state.appendEventsAndSync codec events write sync) := by
  rw [JournalCall.committed, appendEventsAndSync]
  cases wrote : state.commitBatch codec events write with
  | mk result after =>
    rcases commitBatch_cases wrote with ⟨e, log, rfl, same, rfl⟩ |
      ⟨sessionId, batch, log, rfl, unmarked, prepared, grown, room, rfl⟩
    · exact ⟨by simpa using good.relog same, rfl, nofun⟩
    · obtain ⟨last, ends, hidden⟩ := good.hide fsyncConfirmationPending unmarked prepared grown room
      obtain ⟨-, -, numbered, -⟩ := prepare_ok prepared
      simp only [ends]
      rw [← numbered]
      exact hidden.sync_marked rfl sessionId sync

private theorem kept_syncDurableEvents (sessionId : SessionId) (sync : SyncOutcome) :
    Consistent start history ((JournalCall.syncDurableEvents sessionId sync).perform codec state).2 ∧
      Shows state.projection ((JournalCall.syncDurableEvents sessionId sync).perform codec state) := by
  rw [JournalCall.perform, syncDurableEvents]
  simp only []
  split
  · exact ⟨good, rfl⟩
  · next throughSeq admitted =>
    obtain ⟨_, -, admitted⟩ := bind_ok_iff.mp admitted
    obtain ⟨_, unmarked, admitted⟩ := bind_ok_iff.mp admitted
    have marked := good.publish (unmarked_of_ensured unmarked) throughSeq fsyncConfirmationPending
    cases synced : (state.setUncertain
        (.published throughSeq fsyncConfirmationPending)).forceSync sync with
    | mk result after =>
      obtain ⟨log, same, -, rfl⟩ := forceSync_cases synced
      have logged := marked.relog same
      cases result with
      | error e =>
        refine ⟨logged.refail rfl sessionId e.display, ?_⟩
        simp [Shows, Except.map, failUncertain, setUncertain, UncertainDurability.throughSeq]
      | ok done =>
        have taken : ({ state.setUncertain (.published throughSeq fsyncConfirmationPending) with
            log } : SessionMeta).takeUncertain throughSeq =
            (.ok (.published throughSeq fsyncConfirmationPending),
              { state with log, uncertain := none }) := by
          simp [setUncertain, UncertainDurability.throughSeq]
        simp only [taken]
        exact ⟨logged.confirm rfl, Library.runAll_nil.mpr rfl⟩

private theorem kept_retryUncertainSync (sessionId : SessionId) (throughSeq : Nat)
    (sync : SyncOutcome) :
    Consistent start history (state.retryUncertainSync sessionId throughSeq sync).2 ∧
      Shows state.projection (state.retryUncertainSync sessionId throughSeq sync) := by
  rw [retryUncertainSync]
  split
  · exact ⟨good, rfl⟩
  · exact ⟨good, Library.runAll_nil.mpr rfl⟩
  · next admitted =>
    obtain ⟨marker, marked, rfl⟩ := admitRetry_true admitted
    have kept := good.sync_marked marked sessionId sync
    exact ⟨kept.consistent, kept.shows⟩

/-- One call. -/
theorem performed (call : JournalCall) :
    Consistent start (history ++ call.committed codec state) (call.perform codec state).2 ∧
      Shows state.projection (call.perform codec state) := by
  cases call with
  | appendEvents events write =>
    have kept := @kept_appendEvents _ _ _ codec good events write
    exact ⟨kept.consistent, kept.shows⟩
  | appendEventsAndSync events write sync =>
    have kept := @kept_appendEventsAndSync _ _ _ codec good events write sync
    exact ⟨kept.consistent, kept.shows⟩
  | syncDurableEvents sessionId sync =>
    rw [JournalCall.committed, List.append_nil]
    exact good.kept_syncDurableEvents sessionId sync
  | retryUncertainSync sessionId throughSeq sync =>
    rw [JournalCall.committed, List.append_nil]
    exact good.kept_retryUncertainSync sessionId throughSeq sync

/-- A synced append on a disk that works is an append with nothing left to confirm. -/
theorem appendEventsAndSync_synced {sessionId : SessionId}
    (wrote : state.commitBatch codec events write = (.ok (sessionId, batch), state')) :
    state.appendEventsAndSync codec events write .synced = (.ok batch.events, { state' with
      log := (state'.log.flushAndSync .synced).2
      uncertain := none
      projection := batch.applyToModel state'.projection }) := by
  rcases commitBatch_cases wrote with ⟨e, log, impossible, -⟩ |
    ⟨_, _, log, same, unmarked, prepared, grown, room, rfl⟩
  · cases impossible
  · cases same
    obtain ⟨last, ends, hidden⟩ := good.hide fsyncConfirmationPending unmarked prepared grown room
    have synced : (log.flushAndSync .synced).1 = .ok () := by
      rw [WriterState.flushAndSync]
      split
      all_goals rfl
    have numbered : (log.flushAndSync .synced).2.nextSeq = log.nextSeq := by
      rcases flushAndSync_keeps .synced log with same | same <;> rw [same]
    have confirmed := (hidden.relog numbered).applyConfirmed rfl
    rw [appendEventsAndSync, wrote]
    simp only [ends, forceSync, setUncertain]
    cases flushed : log.flushAndSync .synced with
    | mk result log' =>
      rw [flushed] at synced confirmed
      cases synced
      exact confirmed

/-- What an append returns: the submitted events under the next numbers. -/
theorem appendEvents_stored (done : state.appendEvents codec events write = (.ok stored, state')) :
    stored = numberFrom (state.projection.stats.lastSeq + 1) events :=
  (good.kept_appendEvents events write).returned stored (by rw [done])

theorem appendEventsAndSync_stored
    (done : state.appendEventsAndSync codec events write sync = (.ok stored, state')) :
    stored = numberFrom (state.projection.stats.lastSeq + 1) events :=
  (good.kept_appendEventsAndSync events write sync).returned stored (by rw [done])

end Consistent

section Runs

variable {sessionId : SessionId} {log : WriterState} {marker : UncertainDurability}
  {codec : RecordCodec} {start : SessionReadModel} {history events : List StoredEvent}
  {state : SessionMeta} {chunk : ChunkSize} {file : List UInt8}

private theorem replay_lastSeq {last : StoredEvent} (replayed : replay sessionId events = .ok model)
    (ends : events.getLast? = some last) : last.seq = model.stats.lastSeq := by
  obtain ⟨first, rest, started, rfl, -, valid, reduced⟩ := replay_ok_iff.mp replayed
  cases rest with
  | nil =>
    cases ends
    rw [Library.runAll_nil.mp reduced]
    exact (validateFirstEvent_ok valid).1
  | cons second rest => exact reduceAll_getLast reduced (by simpa using ends)

private theorem consistent_new
    (counted : log.nextSeq = projection.stats.lastSeq + 1) (room : log.nextSeq < u64Limit) :
    Consistent projection [] (.new log projection) :=
  ⟨rfl, room, ⟨[], rfl, Library.runAll_nil.mpr rfl⟩, counted⟩

private theorem createAtPath_ok {stored : StoredEvent}
    (made : createAtPath codec path event = .ok (log, stored)) :
    log.nextSeq = stored.seq + 1 ∧ log.nextSeq < u64Limit := by
  rw [createAtPath] at made
  split at made
  · cases made
  · cases made
    have small : 1 < u64Limit := by decide
    exact ⟨rfl, small⟩

private theorem openAtPath_ok (opened : openAtPath codec chunk path file = .ok (log, events)) :
    ∃ last, events.getLast? = some last ∧ log.nextSeq = last.seq + 1 ∧ log.nextSeq < u64Limit := by
  obtain ⟨_, -, opened⟩ := bind_ok_iff.mp opened
  obtain ⟨found, -, opened⟩ := bind_ok_iff.mp opened
  split at opened
  · next first last _ ends =>
    split at opened
    · next nextSeq next =>
      obtain ⟨room, rfl⟩ := checkedAdd_eq_some.mp next
      cases opened
      exact ⟨last, ends, rfl, room⟩
    · cases opened
  · cases opened

theorem createSession_replayed {stored : StoredEvent}
    (made : createSession codec path event = .ok (state, stored)) :
    replay event.sessionId [stored] = .ok state.projection ∧
      Consistent state.projection [] state := by
  obtain ⟨_, -, made⟩ := bind_ok_iff.mp made
  split at made
  · cases made
  · split at made
    · cases made
    · obtain ⟨⟨log, stored⟩, written, made⟩ := bind_ok_iff.mp made
      obtain ⟨projection, replayed, made⟩ := bind_ok_iff.mp made
      cases made
      obtain ⟨counted, room⟩ := createAtPath_ok written
      have replayed := mapError_ok replayed
      have seq := replay_lastSeq replayed rfl
      exact ⟨replayed, consistent_new (counted.trans (congrArg (· + 1) seq)) room⟩

theorem openMeta_replayed (opened : openMeta codec chunk path sessionId file = .ok state) :
    (∃ events, replay sessionId events = .ok state.projection) ∧
      Consistent state.projection [] state := by
  obtain ⟨_, -, opened⟩ := bind_ok_iff.mp opened
  obtain ⟨⟨log, events⟩, read, opened⟩ := bind_ok_iff.mp opened
  obtain ⟨projection, replayed, opened⟩ := bind_ok_iff.mp opened
  cases opened
  obtain ⟨last, ends, counted, room⟩ := openAtPath_ok read
  have replayed := mapError_ok replayed
  have seq := replay_lastSeq replayed ends
  exact ⟨⟨events, replayed⟩, consistent_new (counted.trans (congrArg (· + 1) seq)) room⟩

theorem JournalRun.consistent (run : JournalRun codec start history state) :
    Consistent start history state := by
  induction run with
  | created made => exact (createSession_replayed made).2
  | opened made => exact (openMeta_replayed made).2
  | called run call good => exact (good.performed call).1

/-! ### While a marker is set -/

section

variable (marked : state.uncertain = some marker)

include marked

private theorem admitBatch_marked (events : List DurableEvent) :
    ∃ e, state.admitBatch events = .error e := by
  cases outcome : state.admitBatch events with
  | error e => exact ⟨e, rfl⟩
  | ok admitted =>
    obtain ⟨-, -, unmarked, -⟩ := admitBatch_ok_iff.mp outcome
    rw [marked] at unmarked
    cases unmarked

/-- Appends and syncs are refused. -/
private theorem perform_marked {call : JournalCall} (other : call.isRetry = false) :
    ∃ e, call.perform codec state = (.error e, state) := by
  cases call with
  | appendEvents events write =>
    obtain ⟨e, refused⟩ := admitBatch_marked marked events
    exact ⟨e, by simp [JournalCall.perform, appendEvents, commitBatch, refused]⟩
  | appendEventsAndSync events write sync =>
    obtain ⟨e, refused⟩ := admitBatch_marked marked events
    exact ⟨e, by
      simp [JournalCall.perform, appendEventsAndSync, commitBatch, refused]⟩
  | syncDurableEvents sessionId sync =>
    simp only [JournalCall.perform, syncDurableEvents,
      ensureNoUncertainDurability, marked]
    cases validateStorageSessionId sessionId with
    | error e => exact ⟨e, rfl⟩
    | ok valid => exact ⟨_, rfl⟩
  | retryUncertainSync sessionId throughSeq sync => cases other

private theorem admitRetry_marked {goes : Bool}
    (admitted : state.admitRetry sessionId throughSeq = .ok goes) :
    goes = true ∧ throughSeq = marker.throughSeq := by
  obtain ⟨_, -, admitted⟩ := bind_ok_iff.mp admitted
  rw [marked] at admitted
  simp only [] at admitted
  split at admitted
  · cases admitted
  · next same =>
    cases admitted
    exact ⟨rfl, (not_not.mp same).symm⟩

private theorem retry_mismatch (other : throughSeq ≠ marker.throughSeq)
    (sessionId : SessionId) (sync : SyncOutcome) :
    ∃ e, state.retryUncertainSync sessionId throughSeq sync = (.error e, state) := by
  cases admitted : state.admitRetry sessionId throughSeq with
  | error e => exact ⟨e, by simp [retryUncertainSync, admitted]⟩
  | ok goes => exact absurd (admitRetry_marked marked admitted).2 other

end

/-- A retry that succeeds has confirmed the marker. -/
private theorem retry_ok (good : Consistent start history state)
    (marked : state.uncertain = some marker) {state' : SessionMeta}
    (done : state.retryUncertainSync sessionId marker.throughSeq sync = (.ok stored, state')) :
    stored = pendingEvents state.uncertain ∧
      ∃ log, log.file = state.log.file ∧ state' = { state.confirmed with log } := by
  cases admitted : state.admitRetry sessionId marker.throughSeq with
  | error e => simp [retryUncertainSync, admitted] at done
  | ok goes =>
    obtain ⟨rfl, -⟩ := admitRetry_marked marked admitted
    cases synced : state.forceSync sync with
    | mk result after =>
      obtain ⟨log, same, file, rfl⟩ := forceSync_cases synced
      have logged := good.relog same
      cases result with
      | error e => simp [retryUncertainSync, admitted, synced] at done
      | ok _ =>
        simp only [retryUncertainSync, admitted, synced,
          logged.applyConfirmed marked] at done
        cases done
        exact ⟨rfl, log, file, rfl⟩

private theorem retry_synced (good : Consistent start history state)
    (marked : state.uncertain = some marker) (valid : validateStorageSessionId sessionId = .ok ()) :
    ∃ stored state',
      state.retryUncertainSync sessionId marker.throughSeq .synced = (.ok stored, state') := by
  have admitted : state.admitRetry sessionId marker.throughSeq = .ok true := by
    simp [admitRetry, valid, marked]
  have succeeds : (state.forceSync .synced).1 = .ok () := by
    simp only [forceSync, WriterState.flushAndSync]
    split <;> rfl
  cases synced : state.forceSync .synced with
  | mk result after =>
    obtain ⟨log, same, -, rfl⟩ := forceSync_cases synced
    rw [synced] at succeeds
    cases succeeds
    refine ⟨pendingEvents state.uncertain, ({ state with log } : SessionMeta).confirmed, ?_⟩
    simp [retryUncertainSync, admitted, synced, (good.relog same).applyConfirmed marked]

/-! ### The state machine -/

variable (state)

def Settled : Prop :=
  state.uncertain = none ∧ state.count = state.projection.stats.lastSeq + 1

@[simp] def PublishedUnconfirmed : Prop :=
  (∃ throughSeq reason, state.uncertain = some (.published throughSeq reason)) ∧
    state.count = state.projection.stats.lastSeq + 1

@[simp] def PendingUnconfirmed : Prop :=
  ∃ batch throughSeq reason, state.uncertain = some (.pendingProjection batch throughSeq reason) ∧
    state.count = throughSeq + 1 ∧ batch.firstSeq = state.projection.stats.lastSeq + 1

variable {state}

def ExactlyOne (p q r : Prop) : Prop := (p ∧ ¬q ∧ ¬r) ∨ (¬p ∧ q ∧ ¬r) ∨ (¬p ∧ ¬q ∧ r)

private theorem exactlyOne_of_boundary (boundary : Boundary state) :
    ExactlyOne (Settled state) (PublishedUnconfirmed state) (PendingUnconfirmed state) := by
  rw [Boundary] at boundary
  split at boundary
  · next batch throughSeq reason marked =>
    obtain ⟨count, first, -⟩ := boundary
    refine .inr (.inr ⟨?_, ?_, batch, throughSeq, reason, marked, count, first⟩)
    · simp [Settled, marked]
    · simp [marked]
  · next throughSeq reason marked =>
    refine .inr (.inl ⟨?_, ⟨⟨throughSeq, reason, marked⟩, boundary⟩, ?_⟩)
    · simp [Settled, marked]
    · simp [marked]
  · next unmarked =>
    refine .inl ⟨⟨unmarked, boundary⟩, ?_, ?_⟩
    · simp [unmarked]
    · simp [unmarked]

/-- In every state a run reaches the marker tells how far the read model is behind the log,
and the read model is the history of the log without the pending batch, each event applied
once. While a marker is set, every append and sync and every retry of another boundary
changes nothing, and a successful retry applies the pending batch. -/
theorem durability_marker (run : JournalRun codec start history state) :
    ExactlyOne (Settled state) (PublishedUnconfirmed state) (PendingUnconfirmed state) ∧
    (∃ visible, history = visible ++ pendingEvents state.uncertain ∧
      reduceAll visible start = .ok state.projection) ∧
    ∀ marker, state.uncertain = some marker →
      (∀ call : JournalCall, call.isRetry = false →
        ∃ e, call.perform codec state = (.error e, state)) ∧
      (∀ sessionId throughSeq sync, throughSeq ≠ marker.throughSeq →
        ∃ e, state.retryUncertainSync sessionId throughSeq sync = (.error e, state)) ∧
      (∀ sessionId sync stored state',
        state.retryUncertainSync sessionId marker.throughSeq sync = (.ok stored, state') →
          stored = pendingEvents (some marker) ∧
          reduceAll stored state.projection = .ok state'.projection ∧
          state'.uncertain = none ∧ state'.count = state.count ∧
          state'.log.file = state.log.file) ∧
      (∀ sessionId, validateStorageSessionId sessionId = .ok () →
        ∃ stored state',
          state.retryUncertainSync sessionId marker.throughSeq .synced = (.ok stored, state')) := by
  have good := run.consistent
  refine ⟨exactlyOne_of_boundary good.boundary, good.visible, ?_⟩
  intro marker marked
  refine ⟨fun call other => perform_marked marked other,
    fun sessionId throughSeq sync other => retry_mismatch marked other sessionId sync, ?_,
    fun sessionId valid => retry_synced good marked valid⟩
  -- what a successful retry does, read off `SessionMeta.confirmed`
  intro sessionId sync stored state' done
  obtain ⟨rfl, log, file, rfl⟩ := retry_ok good marked done
  exact ⟨by rw [marked], good.shows_confirmed marked, rfl, rfl, file⟩

end Runs

private theorem createSession_ok {codec : RecordCodec}
    (valid : validateStorageSessionId event.sessionId = .ok ())
    (noTurn : event.turnId = none) (started : event.payload.isSessionStarted = true)
    (replayed : replay event.sessionId [⟨0, event⟩] = .ok projection) :
    createSession codec path event =
      .ok (.new { file := encodeRecords codec [⟨0, event⟩], sessionId := event.sessionId, nextSeq := 1
                  committedLen := (encodeRecords codec [⟨0, event⟩]).length, path
                  dirty := false, poisoned := none } projection, ⟨0, event⟩) := by
  simp [createSession, createAtPath, valid, noTurn, started, replayed, Except.mapError]

def sampleMeta : SessionMeta := .new sampleWriter sampleModel

theorem sampleMeta_run : JournalRun sampleCodec sampleModel [] sampleMeta := by
  have valid : validateStorageSessionId "session" = .ok () := by decide +kernel
  have replayed : replay "session" [sampleFirst] = .ok sampleModel := by decide +kernel
  have made : createSession sampleCodec "log" sampleFirst.event = .ok (sampleMeta, sampleFirst) :=
    createSession_ok valid rfl rfl replayed
  exact .created made

/-- The session after a synced append whose fsync failed. -/
def sampleUncertain : SessionMeta :=
  ((JournalCall.appendEventsAndSync [sampleRecap.event] .complete (.syncFailed "disk full")).perform
    sampleCodec sampleMeta).2

theorem durability_marker_retry :
    JournalRun sampleCodec sampleModel [sampleRecap] sampleUncertain ∧
      ∃ state', sampleUncertain.retryUncertainSync "session" 1 .synced = (.ok [sampleRecap], state') ∧
        reduceAll [sampleRecap] sampleModel = .ok state'.projection := by
  have valid : validateStorageSessionId "session" = .ok () := by decide +kernel
  have run : JournalRun sampleCodec sampleModel
      ([] ++ (JournalCall.appendEventsAndSync [sampleRecap.event] .complete
        (.syncFailed "disk full")).committed sampleCodec sampleMeta) sampleUncertain :=
    sampleMeta_run.called _
  have boundary : sampleUncertain.uncertain.map UncertainDurability.throughSeq = some 1 := by
    decide +kernel
  have pending : pendingEvents sampleUncertain.uncertain = [sampleRecap] := by decide +kernel
  have unchanged : sampleUncertain.projection = sampleModel := by decide +kernel
  obtain ⟨marker, marked, through⟩ := Option.map_eq_some_iff.mp boundary
  obtain ⟨-, -, sticky⟩ := durability_marker run
  obtain ⟨-, -, confirms, succeeds⟩ := sticky marker marked
  obtain ⟨stored, state', done⟩ := succeeds "session" valid
  obtain ⟨rfl, reduced, -⟩ := confirms "session" .synced stored state' done
  rw [← marked, pending, unchanged] at reduced
  rw [← marked, pending, through] at done
  exact ⟨run, state', done, reduced⟩

end Astrcode
