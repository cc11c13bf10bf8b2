import Astrcode.Properties.LaneReplies
import Astrcode.Library.Prefixes

/-!
# Batches of a lane

A lane hands neighbouring appends of one kind to the journal as one batch, and the journal accepts
or refuses a batch as a whole. With files that work this is the same as one append after the other
if the batch is accepted, since its events are then accepted in turn. If it is refused all its
commands get the one error, so that the batch shows unless each of them alone gets just that error.
-/
namespace Astrcode

variable {batch : List (Nat × DurableEvent)} {error : StorageError} {codec : RecordCodec}
  {sessionId : SessionId} {path : String} {outcome : JournalOutcome} {kind : DurableCommit}
  {state : SessionMeta} {base : SessionReadModel} {history : List StoredEvent}
  {start : Option SessionMeta}

open List LaneState

open Library (bind_ok_iff mapError_ok runAll_cons runAll_nil AtEach)

/-! ### What the journal says of a batch -/

namespace SessionMeta

variable {events : List DurableEvent} {prepared : PreparedProjectionBatch}

def writerUnavailable (reason : String) : StorageError :=
  .io ("event log writer is unavailable after failed recovery: " ++ reason)

/-- All the checks that an append makes before it writes. -/
def admission (codec : RecordCodec) (events : List DurableEvent) (state : SessionMeta) :
    Except StorageError PreparedProjectionBatch := do
  let (_, prepared) ← state.admitBatch events
  let _ ← encodeBatch codec state.log.sessionId state.log.nextSeq prepared.events
  match state.log.poisoned with
  | some reason => .error (writerUnavailable reason)
  | none => .ok prepared

/-- The session once an admitted batch is written, and synced if it was to be. -/
def landed (codec : RecordCodec) (kind : DurableCommit) (prepared : PreparedProjectionBatch)
    (state : SessionMeta) : SessionMeta :=
  { log := { state.log with
      file := state.log.file ++ encodeRecords codec prepared.events
      committedLen := state.log.committedLen + (encodeRecords codec prepared.events).length
      nextSeq := state.log.nextSeq + prepared.events.length
      dirty := kind ≠ .appendAndSync }
    count := state.log.nextSeq + prepared.events.length
    projection := prepared.applyToModel state.projection
    uncertain := none }

theorem admission_ok_iff :
    state.admission codec events = .ok prepared ↔
      (∃ sessionId, state.admitBatch events = .ok (sessionId, prepared)) ∧
        state.log.poisoned = none ∧
        Appendable state.log.sessionId state.log.nextSeq prepared.events ∧
        (prepared.events = [] ∨ state.log.nextSeq + prepared.events.length < u64Limit) := by
  constructor
  · intro admitted
    obtain ⟨⟨sessionId, batch⟩, checked, admitted⟩ := bind_ok_iff.mp admitted
    obtain ⟨⟨encoded, last⟩, encoding, admitted⟩ := bind_ok_iff.mp admitted
    obtain ⟨fits, room, -, -⟩ := encodeBatch_ok_iff.mp encoding
    split at admitted
    · cases admitted
    · next healthy =>
      cases admitted
      exact ⟨⟨sessionId, checked⟩, healthy, fits, room⟩
  · rintro ⟨⟨sessionId, checked⟩, healthy, fits, room⟩
    have encoding : encodeBatch codec state.log.sessionId state.log.nextSeq prepared.events = _ :=
      encodeBatch_ok_iff.mpr ⟨fits, room, rfl, rfl⟩
    simp [admission, checked, encoding, healthy]

/-- The writer after a batch that was written and not yet made visible. -/
def written (codec : RecordCodec) (prepared : PreparedProjectionBatch) (state : SessionMeta) :
    SessionMeta :=
  { state.landed codec .append prepared with
    projection := state.projection
    uncertain := state.uncertain }

/-- With a disk that writes, the checks decide. -/
theorem commitBatch_complete (codec : RecordCodec) (events : List DurableEvent)
    (state : SessionMeta) :
    match state.admission codec events with
    | .error e => state.commitBatch codec events .complete = (.error e, state)
    | .ok prepared => ∃ sessionId, state.commitBatch codec events .complete =
        (.ok (sessionId, prepared), state.written codec prepared) := by
  rw [commitBatch]
  cases checked : state.admitBatch events with
  | error e => simp [admission, checked]
  | ok pair =>
    obtain ⟨sessionId, prepared⟩ := pair
    obtain ⟨-, -, -, prepares, -⟩ := admitBatch_ok_iff.mp checked
    obtain ⟨nonempty, -, numbered, -⟩ := prepare_ok prepares
    have some : prepared.events.isEmpty = false := by
      cases events with
      | nil => exact absurd rfl nonempty
      | cons event rest => rw [numbered]; rfl
    simp only [appendPreparedBatch, WriterState.appendStoredBatch, some, Bool.false_eq_true,
      if_false, admission, checked, bind, Except.bind]
    cases encoding : encodeBatch codec state.log.sessionId state.log.nextSeq prepared.events with
    | error e => rfl
    | ok result =>
      obtain ⟨encoded, last⟩ := result
      obtain ⟨-, -, rfl, rfl⟩ := encodeBatch_ok_iff.mp encoding
      cases healthy : state.log.poisoned with
      | some reason =>
        simp only [WriterState.writeCommittedRecord, healthy]
        rfl
      | none =>
        refine ⟨sessionId, ?_⟩
        simp only [WriterState.writeCommittedRecord, healthy, written, landed]
        rfl

variable (good : Consistent base history state)

include good

/-- An append of either kind when the files work. -/
theorem appendBatch_working (writes : outcome.write = .complete) (syncs : outcome.sync = .synced)
    (events : List DurableEvent) :
    appendBatch codec outcome kind events state =
      match state.admission codec events with
      | .error e => (.error e, state)
      | .ok prepared => (.ok prepared.events, state.landed codec kind prepared) := by
  have committed := commitBatch_complete codec events state
  cases admitted : state.admission codec events with
  | error e =>
    rw [admitted] at committed
    cases kind with
    | create | append =>
      rw [appendBatch, appendEvents, writes, committed]
      · rintro ⟨⟩
    | appendAndSync => rw [appendBatch, appendEventsAndSync, writes, committed]
  | ok prepared =>
    rw [admitted] at committed
    obtain ⟨sessionId, committed⟩ := committed
    have unmarked : state.uncertain = none := by
      obtain ⟨⟨_, checked⟩, -⟩ := admission_ok_iff.mp admitted
      exact (admitBatch_ok_iff.mp checked).2.2.1
    cases kind with
    | create | append =>
      rw [appendBatch, appendEvents, writes, committed]
      · simp only [written, unmarked]
        rfl
      · rintro ⟨⟩
    | appendAndSync =>
      rw [appendBatch, writes, syncs, good.appendEventsAndSync_synced committed]
      rfl

theorem landed_consistent (kind : DurableCommit)
    (admitted : state.admission codec events = .ok prepared) :
    ∃ history, Consistent base history (state.landed codec kind prepared) := by
  have works := @appendBatch_working codec ⟨.error (.notFound ""), none, .complete, .synced⟩ kind
    state base history good rfl rfl events
  rw [admitted, appendBatch_eq] at works
  have kept : Consistent base _ ((appendCall
      ⟨.error (.notFound ""), none, .complete, .synced⟩ kind events).perform codec state).2 :=
    (good.performed _).1
  rw [works] at kept
  exact ⟨_, kept⟩

/-- An admitted batch is the admitted first event, and the rest admitted after it. -/
theorem admission_cons (kind : DurableCommit) {event : DurableEvent} {rest : List DurableEvent}
    (more : rest ≠ []) (admitted : state.admission codec (event :: rest) = .ok prepared) :
    ∃ first later, state.admission codec [event] = .ok first ∧
      (state.landed codec kind first).admission codec rest = .ok later ∧
      prepared.events = first.events ++ later.events ∧ first.events.length = 1 ∧
      state.landed codec kind prepared =
        (state.landed codec kind first).landed codec kind later := by
  obtain ⟨⟨sessionId, checked⟩, healthy, fits, room⟩ := admission_ok_iff.mp admitted
  obtain ⟨session, valid, unmarked, prepares, positioned⟩ := admitBatch_ok_iff.mp checked
  obtain ⟨-, start, numbered, reduced⟩ := prepare_ok prepares
  have counted := good.counted
  set seq := state.projection.stats.lastSeq
  rw [start] at positioned
  have room : seq + 1 + (rest.length + 1) < u64Limit := by
    rcases room with empty | room
    · rw [numbered] at empty
      cases empty
    · rw [numbered, numberFrom_length, length_cons] at room
      omega
  have whole := reduced
  rw [numbered, numberFrom] at whole
  obtain ⟨mid, head, tail⟩ := runAll_cons.mp whole
  obtain ⟨next, -, applied⟩ := reduce_ok_iff.mp head
  have midSeq : mid.stats.lastSeq = seq + 1 := by
    rw [applied, applyValidatedEvent_lastSeq]
  have midSession : mid.identity.sessionId = state.projection.identity.sessionId :=
    reduce_sessionId head
  rw [numbered, numberFrom] at fits
  obtain ⟨firstSeq, firstOwn, firstPlain, restFits⟩ := appendable_cons.mp fits
  have none : Appendable state.log.sessionId (state.log.nextSeq + 1) [] := ⟨rfl, by simp, by simp⟩
  -- the first event on its own
  have firstPrepared : PreparedProjectionBatch.prepare state.projection [event] =
      .ok ⟨seq + 1, [⟨seq + 1, event⟩]⟩ := by
    rw [prepare_eq _ _ (by simp) (by simp only [length_singleton]; omega), numberFrom,
      numberFrom]
    have alone : reduceAll [⟨seq + 1, event⟩] state.projection = .ok mid :=
      runAll_cons.mpr ⟨mid, head, runAll_nil.mpr rfl⟩
    rw [alone]
    rfl
  obtain ⟨-, -, -, firstReduced⟩ := prepare_ok firstPrepared
  obtain ⟨mid', head', nil⟩ := runAll_cons.mp firstReduced
  have firstModel : PreparedProjectionBatch.applyToModel ⟨seq + 1, [⟨seq + 1, event⟩]⟩
      state.projection = mid := by
    rw [runAll_nil.mp nil]
    exact Except.ok.inj (head'.symm.trans head)
  -- the rest on the read model that the first event leaves
  have laterPrepared : PreparedProjectionBatch.prepare mid rest =
      .ok ⟨seq + 1 + 1, numberFrom (seq + 1 + 1) rest⟩ := by
    rw [prepare_eq _ _ more (by omega), midSeq]
    rw [show reduceAll (numberFrom (seq + 1 + 1) rest) mid = _ from tail]
    rfl
  obtain ⟨-, -, -, laterReduced⟩ := prepare_ok laterPrepared
  have laterModel := Except.ok.inj (laterReduced.symm.trans tail)
  have laterSession : appendSessionId rest = .ok sessionId := by
    cases rest with
    | nil => exact absurd rfl more
    | cons second others =>
      obtain ⟨_, secondHead, -⟩ := runAll_cons.mp tail
      obtain ⟨secondNext, -, -⟩ := reduce_ok_iff.mp secondHead
      have same : second.sessionId = event.sessionId :=
        (secondNext.session.trans midSession).trans next.session.symm
      rw [← session]
      exact congrArg Except.ok same
  refine ⟨⟨seq + 1, [⟨seq + 1, event⟩]⟩, ⟨seq + 1 + 1, numberFrom (seq + 1 + 1) rest⟩,
    ?_, ?_, ?_, rfl, ?_⟩
  · refine admission_ok_iff.mpr ⟨⟨_, admitBatch_ok_iff.mpr
      ⟨session, valid, unmarked, firstPrepared, positioned⟩⟩, healthy,
      appendable_cons.mpr ⟨firstSeq, firstOwn, firstPlain, none⟩, .inr ?_⟩
    simp only [length_singleton]
    omega
  · refine admission_ok_iff.mpr
      ⟨⟨_, admitBatch_ok_iff.mpr ⟨laterSession, valid, rfl, ?_, ?_⟩⟩, healthy, restFits, .inr ?_⟩
    · simp only [landed, firstModel]
      exact laterPrepared
    · simp only [landed, length_singleton]
      omega
    · simp only [landed, numberFrom_length, length_singleton]
      omega
  · rw [numbered, numberFrom]
    rfl
  · have encoded : encodeRecords codec prepared.events =
        encodeRecords codec [⟨seq + 1, event⟩] ++
          encodeRecords codec (numberFrom (seq + 1 + 1) rest) := by
      rw [numbered, numberFrom, ← encodeRecords_append]
      rfl
    have length : prepared.events.length = 1 + (numberFrom (seq + 1 + 1) rest).length := by
      rw [numbered, numberFrom, length_cons, Nat.add_comm]
    simp [landed, firstModel, laterModel, encoded, length, Nat.add_assoc]

end SessionMeta

/-! ### One command after the other -/

namespace LaneState

variable {lane : LaneState}

/-- What the task does with a command when no other command comes with it. -/
def alone (codec : RecordCodec) (sessionId : SessionId) (path : String) (outcome : JournalOutcome)
    (lane : LaneState) (request : LaneRequest) : LaneState :=
  match request.command with
  | .durable .create event => lane.create codec outcome path request.ticket event
  | .durable kind event => lane.commitBatch codec sessionId outcome kind [(request.ticket, event)]
  | .live event => lane.publish (.live event)
  | .sync => lane.syncLane codec sessionId outcome request.ticket
  | .retryUncertainSync expectedThroughSeq =>
    lane.retryUncertainSync codec sessionId outcome request.ticket expectedThroughSeq
  -- its reply comes when the channel is empty
  | .shutdown => lane

/-- The commands of a batch, one after the other. -/
def oneByOne (codec : RecordCodec) (sessionId : SessionId) (outcome : JournalOutcome)
    (kind : DurableCommit) (batch : List (Nat × DurableEvent)) (lane : LaneState) : LaneState :=
  batch.foldl (fun lane entry => lane.commitBatch codec sessionId outcome kind [entry]) lane

theorem oneByOne_eq (durable : kind ≠ .create) (batch : List (Nat × DurableEvent))
    (lane : LaneState) :
    (batch.map fun entry => (⟨entry.1, .durable kind entry.2⟩ : LaneRequest)).foldl
        (alone codec sessionId path outcome) lane =
      lane.oneByOne codec sessionId outcome kind batch := by
  induction batch generalizing lane with
  | nil => rfl
  | cons entry rest ih =>
    rw [map_cons, foldl_cons, ih]
    cases kind with
    | create => exact absurd rfl durable
    | append | appendAndSync => rfl

variable (good : Consistent base history state) (writes : outcome.write = .complete)
  (syncs : outcome.sync = .synced)

include good writes syncs

section

variable (present : sessionFor codec sessionId outcome lane.journal = .ok state)

include present

/-- A batch when the files work and the session is there. -/
theorem commitBatch_working (batch : List (Nat × DurableEvent)) :
    lane.commitBatch codec sessionId outcome kind batch =
      match state.admission codec (batch.map (·.2)) with
      | .error e => fail (.storage e) (batch.map (·.1)) { lane with journal := some state }
      | .ok prepared => settle ((batch.map (·.1)).zip prepared.events)
          { lane with journal := some (state.landed codec kind prepared) } := by
  rw [commitBatch, withSession_eq, present]
  simp only []
  rw [SessionMeta.appendBatch_working good writes syncs]
  cases admitted : state.admission codec (batch.map (·.2)) with
  | error e => rfl
  | ok prepared =>
    obtain ⟨⟨_, checked⟩, -⟩ := SessionMeta.admission_ok_iff.mp admitted
    obtain ⟨-, -, -, prepares, -⟩ := admitBatch_ok_iff.mp checked
    obtain ⟨-, -, numbered, -⟩ := prepare_ok prepares
    simp only []
    rw [if_pos (by rw [numbered, numberFrom_length, length_map, length_map])]

omit good writes syncs present in
theorem settle_journal (batch : List (Nat × StoredEvent)) (lane : LaneState)
    (journal : Option SessionMeta) :
    { settle batch lane with journal } = settle batch { lane with journal } := by
  rw [settle_eq, settle_eq]

/-- An accepted batch is its events accepted in turn. -/
theorem oneByOne_accepted (admitted : state.admission codec (batch.map (·.2)) = .ok prepared) :
    lane.oneByOne codec sessionId outcome kind batch =
      lane.commitBatch codec sessionId outcome kind batch := by
  induction batch generalizing lane state history prepared with
  | nil =>
    obtain ⟨⟨_, checked⟩, -⟩ := SessionMeta.admission_ok_iff.mp admitted
    cases (admitBatch_ok_iff.mp checked).1
  | cons entry rest ih =>
    obtain ⟨ticket, event⟩ := entry
    by_cases more : rest = []
    · subst more
      rfl
    · have others : rest.map (·.2) ≠ [] := fun empty => more (map_eq_nil_iff.mp empty)
      obtain ⟨first, later, firstAdmitted, laterAdmitted, events, single, landing⟩ :=
        SessionMeta.admission_cons good kind others admitted
      obtain ⟨history', good'⟩ := SessionMeta.landed_consistent good kind firstAdmitted
      obtain ⟨stored, firstEvents⟩ := length_eq_one_iff.mp single
      have head : lane.commitBatch codec sessionId outcome kind [(ticket, event)] =
          settle [(ticket, stored)]
            { lane with journal := some (state.landed codec kind first) } := by
        rw [commitBatch_working good writes syncs present, map_singleton, firstAdmitted]
        simp only [firstEvents]
        rfl
      have present' : sessionFor codec sessionId outcome
          (lane.commitBatch codec sessionId outcome kind [(ticket, event)]).journal =
          .ok (state.landed codec kind first) := by
        rw [head, settle_eq]
        rfl
      refine (ih good' present' laterAdmitted).trans ?_
      rw [commitBatch_working good' writes syncs present', laterAdmitted, head,
        commitBatch_working good writes syncs present, admitted]
      simp only [settle_journal, events, firstEvents, landing]
      rfl

end

/-- Commands that are refused alike, one after the other. -/
theorem oneByOne_refused (present : lane.journal = some state)
    (refused : ∀ entry ∈ batch, state.admission codec [entry.2] = .error error) :
    lane.oneByOne codec sessionId outcome kind batch =
      fail (.storage error) (batch.map (·.1)) lane := by
  induction batch generalizing lane with
  | nil => rfl
  | cons entry rest ih =>
    have opened : sessionFor codec sessionId outcome lane.journal = .ok state := by
      rw [present]
      rfl
    have same : { lane with journal := some state } = lane := by rw [← present]
    have head : lane.commitBatch codec sessionId outcome kind [entry] =
        fail (.storage error) [entry.1] lane := by
      rw [commitBatch_working good writes syncs opened, map_singleton, refused entry (by simp)]
      simp only [same]
      rfl
    rw [oneByOne, foldl_cons, head, map_cons, fail]
    have kept : (fail (.storage error) [entry.1] lane).journal = some state :=
      (congrArg LaneState.journal (fail_eq _ _ _)).trans present
    exact ih kept (forall_mem_cons.mp refused).2

end LaneState

/-! ### When a batch does not show -/

/-- The journal admits a batch, or refuses it with the very error with which it refuses each of
its events alone. -/
def Uniform (codec : RecordCodec) (state : SessionMeta) (events : List DurableEvent) : Prop :=
  (∃ prepared, state.admission codec events = .ok prepared) ∨
    ∃ error, state.admission codec events = .error error ∧
      ∀ event ∈ events, state.admission codec [event] = .error error

/-- The same for the session that a call finds; without a session every call fails alike. -/
def UniformFor (codec : RecordCodec) (sessionId : SessionId) (outcome : JournalOutcome)
    (journal : Option SessionMeta) (events : List DurableEvent) : Prop :=
  ∀ state, sessionFor codec sessionId outcome journal = .ok state → Uniform codec state events

namespace LaneState

variable {lane : LaneState}

/-- Opening the session first makes no difference to a call. -/
theorem commitBatch_opened (present : sessionFor codec sessionId outcome lane.journal = .ok state)
    (batch : List (Nat × DurableEvent)) :
    { lane with journal := some state }.commitBatch codec sessionId outcome kind batch =
      lane.commitBatch codec sessionId outcome kind batch := by
  have again : sessionFor codec sessionId outcome (some state) = .ok state := rfl
  rw [commitBatch, commitBatch, withSession_eq, withSession_eq, present, again]

theorem oneByOne_opened (present : sessionFor codec sessionId outcome lane.journal = .ok state)
    (nonempty : batch ≠ []) :
    { lane with journal := some state }.oneByOne codec sessionId outcome kind batch =
      lane.oneByOne codec sessionId outcome kind batch := by
  cases batch with
  | nil => exact absurd rfl nonempty
  | cons entry rest => rw [oneByOne, foldl_cons, commitBatch_opened present, oneByOne,
      foldl_cons]

/-- Without a session every command fails, in a batch or alone. -/
theorem oneByOne_absent (absent : sessionFor codec sessionId outcome lane.journal = .error error)
    (batch : List (Nat × DurableEvent)) :
    lane.oneByOne codec sessionId outcome kind batch =
      lane.commitBatch codec sessionId outcome kind batch := by
  have whole : ∀ lane : LaneState,
      sessionFor codec sessionId outcome lane.journal = .error error →
      ∀ batch : List (Nat × DurableEvent), lane.commitBatch codec sessionId outcome kind batch =
        fail (.storage error) (batch.map (·.1)) lane := by
    intro lane absent batch
    rw [commitBatch, withSession_eq, absent]
  rw [whole lane absent]
  induction batch generalizing lane with
  | nil => rfl
  | cons entry rest ih =>
    rw [oneByOne, foldl_cons, whole lane absent, map_cons, fail]
    exact ih (by rw [fail_eq]; exact absent)

variable (kind) in
theorem oneByOne_uniform (published : Published codec sessionId start lane)
    (writes : outcome.write = .complete) (syncs : outcome.sync = .synced) (nonempty : batch ≠ [])
    (uniform : UniformFor codec sessionId outcome lane.journal (batch.map (·.2))) :
    lane.oneByOne codec sessionId outcome kind batch =
      lane.commitBatch codec sessionId outcome kind batch := by
  cases present : sessionFor codec sessionId outcome lane.journal with
  | error error => exact oneByOne_absent present batch
  | ok state =>
    obtain ⟨⟨base, history, good⟩, -⟩ := published.session present
    rcases uniform state present with ⟨prepared, admitted⟩ | ⟨error, refused, each⟩
    · exact oneByOne_accepted good writes syncs present admitted
    · rw [← oneByOne_opened present nonempty, commitBatch_working good writes syncs present, refused]
      apply oneByOne_refused good writes syncs rfl
      intro entry member
      exact each entry.2 (mem_map_of_mem member)

end LaneState

/-! ### Along a run -/

namespace EventLane

/-- The commands of the batch that is being collected. -/
def batchRequests (lane : EventLane) : List LaneRequest :=
  match lane.collecting with
  | none => []
  | some (kind, batch) => batch.map fun entry => ⟨entry.1, .durable kind entry.2⟩

variable {lane : EventLane}

/-- What a command does at once, or what waits in the batch it opens. -/
theorem handle_alone (codec : RecordCodec) (outcome : JournalOutcome) (request : LaneRequest)
    {lane : EventLane} (idle : lane.collecting = none) :
    let lane' := lane.handle codec outcome request
    lane'.collecting = none ∧
        lane'.state = lane.state.alone codec lane.sessionId lane.path outcome request ∨
      ∃ kind event, kind ≠ .create ∧ request.command = .durable kind event ∧
        lane'.collecting = some (kind, [(request.ticket, event)]) ∧ lane'.state = lane.state := by
  obtain ⟨ticket, command⟩ := request
  cases command with
  | durable kind event =>
    cases kind with
    | create => exact .inl ⟨idle, rfl⟩
    | append => exact .inr ⟨.append, event, nofun, rfl, rfl, rfl⟩
    | appendAndSync => exact .inr ⟨.appendAndSync, event, nofun, rfl, rfl, rfl⟩
  | live | sync | retryUncertainSync | shutdown => exact .inl ⟨idle, rfl⟩

/-- The lane of the commands, had each been processed alone. -/
def allAlone (codec : RecordCodec) (outcome : JournalOutcome) (sessionId : SessionId)
    (path : String) (start : Option SessionMeta) (requests : List LaneRequest) : LaneState :=
  requests.foldl (LaneState.alone codec sessionId path outcome) ⟨start, [], []⟩

/-- All but the batch that is being collected is as if every command had come alone. -/
structure Aligned (codec : RecordCodec) (outcome : JournalOutcome) (sessionId : SessionId)
    (path : String) (start : Option SessionMeta) (lane : EventLane) : Prop where
  sound : Sound codec start lane
  session : lane.sessionId = sessionId
  logPath : lane.path = path
  appends : ∀ kind batch, lane.collecting = some (kind, batch) → kind ≠ .create ∧ batch ≠ []
  alone : lane.stopped = false → ∃ settled, lane.processed = settled ++ lane.batchRequests ∧
    lane.state = allAlone codec outcome sessionId path start settled

/-- What the journal decides about the batch that is handed over does not depend on the batch. -/
def HandsOverUniformly (codec : RecordCodec) (outcome : JournalOutcome) (lane : EventLane) : Prop :=
  ∀ events, lane.handsOver = some events →
    UniformFor codec lane.sessionId outcome lane.state.journal events

theorem finish_eq (codec : RecordCodec) (outcome : JournalOutcome) (lane : EventLane) :
    ∃ shutdownReply state,
      lane.finish codec outcome = { lane with stopped := true, shutdownReply, state } := by
  rw [finish]
  split <;> exact ⟨_, _, rfl⟩

/-- Sending touches neither the task nor what it has done. -/
theorem send_eq (command : PublishCommand) (lane : EventLane) :
    ∃ listed commands accepted,
      lane.send command = { lane with listed, commands, accepted } := by
  rw [send]
  split
  · exact ⟨_, _, _, rfl⟩
  · split
    · split <;> exact ⟨_, _, _, rfl⟩
    · exact ⟨_, _, _, rfl⟩

section

variable (aligned : Aligned codec outcome sessionId path start lane)

include aligned

theorem Aligned.send (command : PublishCommand) :
    Aligned codec outcome sessionId path start (lane.send command) := by
  have sound := aligned.sound.send command
  obtain ⟨listed, commands, accepted, sends⟩ := send_eq command lane
  rw [sends] at sound ⊢
  exact ⟨sound, aligned.session, aligned.logPath, aligned.appends, aligned.alone⟩

theorem Aligned.work (writes : outcome.write = .complete) (syncs : outcome.sync = .synced)
    (uniform : lane.HandsOverUniformly codec outcome) :
    Aligned codec outcome sessionId path start (lane.work codec outcome) := by
  by_cases stopped : lane.stopped = true
  · rw [EventLane.work, if_pos stopped]
    exact aligned
  have running : lane.stopped = false := Bool.not_eq_true _ ▸ stopped
  obtain ⟨settled, split, same⟩ := aligned.alone running
  have sound := aligned.sound.work outcome
  have went := work_wentOn codec outcome lane
  obtain ⟨own, rfl, rfl, appends, -⟩ := aligned
  generalize lane.work codec outcome = lane' at went sound
  cases went with
  | handled request rest idle =>
    have done := @handle_alone codec outcome request { lane with commands := rest, pending := none }
      idle
    obtain ⟨state, collecting, shutdownReply, handled⟩ :=
      handle_eq codec outcome request { lane with commands := rest, pending := none }
    rw [handled] at sound done ⊢
    rw [batchRequests, idle, append_nil] at split
    refine ⟨sound, rfl, rfl, ?_, fun _ => ?_⟩
    · intro kind batch collecting
      rcases done with ⟨none, -⟩ | ⟨opened, event, durable, -, some, -⟩
      · cases none.symm.trans collecting
      · cases some.symm.trans collecting
        exact ⟨durable, by simp⟩
    · rcases done with ⟨none, state⟩ | ⟨opened, event, -, command, some, state⟩
      · refine ⟨lane.processed ++ [request], ?_, ?_⟩
        · rw [processed, batchRequests, none, append_nil]
        · rw [state, allAlone, foldl_append, split]
          exact congrArg (LaneState.alone codec lane.sessionId lane.path outcome · request) same
      · -- the command waits in the batch it has opened
        refine ⟨settled, ?_, state.trans same⟩
        rw [processed, batchRequests, some]
        obtain ⟨ticket, _⟩ := request
        cases command
        exact congrArg (· ++ _) split
  | added kind batch ticket event rest collecting keeps =>
    obtain ⟨durable, -⟩ := appends kind batch collecting
    refine ⟨sound, rfl, rfl, ?_, fun _ => ⟨settled, ?_, same⟩⟩
    · intro kind' batch' collecting'
      cases collecting'
      exact ⟨durable, by simp⟩
    · rw [batchRequests, collecting] at split
      simp [batchRequests, split]
  | committed kind batch rest pending collecting hands =>
    obtain ⟨durable, nonempty⟩ := appends kind batch collecting
    refine ⟨sound, rfl, rfl, by rintro _ _ ⟨⟩, fun _ => ⟨lane.processed, (append_nil _).symm, ?_⟩⟩
    have batched := oneByOne_uniform kind own.published writes syncs nonempty
      (uniform _ hands)
    rw [split, batchRequests, collecting, allAlone, foldl_append]
    refine batched.symm.trans ?_
    rw [same]
    exact (oneByOne_eq durable batch _).symm
  | finished idle =>
    obtain ⟨shutdownReply, state, ends⟩ := finish_eq codec outcome lane
    rw [ends] at sound ⊢
    exact ⟨sound, rfl, rfl, appends, by rintro ⟨⟩⟩
  | nothing => exact ⟨own, rfl, rfl, appends, fun _ => ⟨settled, split, same⟩⟩

/-! ### The comparison -/

/-- What happens to a lane whose files always behave alike: a command is sent, or the task
goes on. -/
def during (outcome : JournalOutcome) : Option PublishCommand → Action
  | some command => .send command
  | none => .work outcome

def runs (codec : RecordCodec) (outcome : JournalOutcome) (lane : EventLane)
    (schedule : List (Option PublishCommand)) : EventLane :=
  lane.run codec (schedule.map (during outcome))

/-- Each time the task goes on, it does so uniformly. -/
def AlwaysUniform (codec : RecordCodec) (outcome : JournalOutcome) (lane : EventLane)
    (schedule : List (Option PublishCommand)) : Prop :=
  Library.AtEach (fun before next => next = none →
    (lane.runs codec outcome before).HandsOverUniformly codec outcome) schedule

theorem Aligned.runs (writes : outcome.write = .complete) (syncs : outcome.sync = .synced)
    {schedule : List (Option PublishCommand)} (uniform : AlwaysUniform codec outcome lane schedule) :
    Aligned codec outcome sessionId path start (lane.runs codec outcome schedule) := by
  induction schedule generalizing lane with
  | nil => exact aligned
  | cons next rest ih =>
    obtain ⟨first, later⟩ := Library.atEach_cons.mp uniform
    cases next with
    | some command => exact ih (aligned.send command) later
    | none => exact ih (aligned.work writes syncs (first rfl)) later

end

/-- The task has come to all commands that the channel had taken, and has nothing half done. -/
structure DrainsTo (lane drained : EventLane) : Prop where
  accepted : drained.accepted = lane.accepted
  waiting : drained.waiting = []
  idle : drained.collecting = none
  stopped : drained.stopped = lane.stopped

/-- Left to itself, the task drains the channel. -/
theorem Sound.drains (sound : Sound codec start lane) (outcome : JournalOutcome) :
    ∃ steps, lane.DrainsTo (lane.runs codec outcome (replicate steps none)) := by
  -- a command takes two steps at most, and the batch it may have opened one
  induction size : 2 * lane.waiting.length + lane.collecting.toList.length
    using Nat.strong_induction_on generalizing lane with
  | h n ih =>
  by_cases stopped : lane.stopped = true
  · obtain ⟨-, -, idle, clear, empty⟩ := sound.stopped stopped
    have drained : lane.waiting = [] := by rw [waiting, clear, empty]; rfl
    exact ⟨0, rfl, drained, idle, rfl⟩
  have worked := sound.worked (Bool.not_eq_true _ ▸ stopped) outcome
  have goesOn : (lane.work codec outcome).accepted = lane.accepted →
      (lane.work codec outcome).stopped = lane.stopped →
      2 * (lane.work codec outcome).waiting.length +
        (lane.work codec outcome).collecting.toList.length < n →
      ∃ steps, lane.DrainsTo (lane.runs codec outcome (replicate steps none)) := by
    intro accepted running fewer
    obtain ⟨steps, drained⟩ := ih _ fewer (sound.work outcome) rfl
    exact ⟨steps + 1, drained.accepted.trans accepted, drained.waiting, drained.idle,
      drained.stopped.trans running⟩
  generalize lane.work codec outcome = lane' at worked goesOn
  cases worked with
  | committed collecting idle waiting accepted closed stopped =>
    obtain ⟨batch, busy⟩ := Option.isSome_iff_exists.mp collecting
    refine goesOn accepted stopped ?_
    rw [waiting, idle, ← size, busy]
    exact Nat.lt_succ_self _
  | cameTo waiting accepted closed stopped =>
    refine goesOn accepted stopped ?_
    have one : lane'.collecting.toList.length ≤ 1 := Option.length_toList_le
    rw [← size, waiting, length_cons]
    omega
  | finished _ _ _ _ _ _ drained => exact ⟨0, rfl, drained.1, drained.2, rfl⟩
  | nothing _ waiting idle => exact ⟨0, rfl, waiting, idle, rfl⟩

/-- A session is not started twice. -/
def startedAgain : DurableEvent := sampleEvent (.sessionStarted sampleStarted)

end EventLane

end Astrcode
