import Astrcode.Session.EventLane
import Astrcode.Properties.Durability

/-!
# What a lane publishes and replies

The lane publishes exactly what its calls make visible in the read model. A log replays only if
its events are numbered in order, so the published events are numbered without a gap. Every
command the task has come to waits in the batch, is the shutdown, or has its one reply.
-/
namespace Astrcode

open List

variable {events : List StoredEvent} {model base : SessionReadModel} {sessionId : SessionId}
  {state : SessionMeta} {event : DurableEvent} {journal : Option SessionMeta}

open Library (bind_ok_iff mapError_ok runAll_append runAll_nil runAll_cons)

/-! ### Replayed events are numbered in order -/

theorem replay_numbers (replayed : replay sessionId events = .ok model) :
    events.map (·.seq) = range' 0 events.length := by
  obtain ⟨first, rest, started, rfl, -, valid, reduced⟩ := replay_ok_iff.mp replayed
  rw [map_cons, reduceAll_numbers reduced, (validateFirstEvent_ok valid).1, length_cons, range'_succ]
  rfl

theorem replay_append {more : List StoredEvent} {model' : SessionReadModel}
    (replayed : replay sessionId events = .ok model) (run : reduceAll more model = .ok model') :
    replay sessionId (events ++ more) = .ok model' := by
  obtain ⟨first, rest, started, rfl, same, valid, reduced⟩ := replay_ok_iff.mp replayed
  apply replay_ok_iff.mpr
  exact ⟨first, rest ++ more, started, rfl, same, valid,
    runAll_append.mpr ⟨model, reduced, run⟩⟩

/-! ### What has been published is what has become visible -/

/-- The durable events among what the lane has published. -/
def LaneState.delivered (lane : LaneState) : List StoredEvent :=
  lane.observer.filterMap fun
    | .durable stored => some stored
    | .live _ => none

/-- The events that are visible before the lane makes any visible: those of the open session it
starts with, those of the file it has to open, or none if it creates the session. -/
inductive VisibleBefore (codec : RecordCodec) (sessionId : SessionId) :
    Option SessionMeta → List StoredEvent → Prop where
  | running {state : SessionMeta} {events : List StoredEvent}
      (replayed : replay sessionId events = .ok state.projection) :
      VisibleBefore codec sessionId (some state) events
  | opened {found : StoredSession} {state : SessionMeta} {events : List StoredEvent}
      (opened : openMeta codec found.chunk found.path sessionId found.file = .ok state)
      (replayed : replay sessionId events = .ok state.projection) :
      VisibleBefore codec sessionId none events
  | created : VisibleBefore codec sessionId none []

variable (codec : RecordCodec)

/-- The read model is that of the events before the lane and those it has published. -/
def Published (sessionId : SessionId) (start : Option SessionMeta) (lane : LaneState) : Prop :=
  match lane.journal with
  | none => start = none ∧ lane.delivered = []
  | some state =>
    (∃ base history, Consistent base history state) ∧
      ∃ earlier, VisibleBefore codec sessionId start earlier ∧
        replay sessionId (earlier ++ lane.delivered) = .ok state.projection

/-- The session that a call of the journal works on. -/
def sessionFor (sessionId : SessionId) (outcome : JournalOutcome) :
    Option SessionMeta → Except StorageError SessionMeta
  | some state => .ok state
  | none => do
    validateStorageSessionId sessionId
    let found ← outcome.found
    openMeta codec found.chunk found.path sessionId found.file

theorem withSession_eq {α : Type} (sessionId : SessionId)
    (outcome : JournalOutcome) (operation : SessionMeta → Except StorageError α × SessionMeta)
    (journal : Option SessionMeta) :
    withSession codec sessionId outcome operation journal =
      match sessionFor codec sessionId outcome journal with
      | .error e => (.error e, journal)
      | .ok state => ((operation state).1, some (operation state).2) := by
  cases journal with
  | some | none => rfl

namespace Published

variable {codec : RecordCodec} {sessionId : SessionId} {start : Option SessionMeta}
  {lane lane' : LaneState} {outcome : JournalOutcome}
  (published : Published codec sessionId start lane)

include published

/-- The journal and the durable events are all that counts. -/
theorem congr (journal : lane'.journal = lane.journal)
    (delivered : lane'.delivered = lane.delivered) : Published codec sessionId start lane' := by
  rw [Published, journal, delivered]
  exact published

omit published in
/-- A call on the open session. -/
theorem call {history earlier : List StoredEvent}
    (good : Consistent base history state) (before : VisibleBefore codec sessionId start earlier)
    (replayed : replay sessionId (earlier ++ lane.delivered) = .ok state.projection)
    (call : JournalCall) (journal : lane'.journal = some (call.perform codec state).2)
    (delivered : lane'.delivered =
      lane.delivered ++ ((call.perform codec state).1.toOption.getD [])) :
    Published codec sessionId start lane' := by
  obtain ⟨consistent, shows⟩ := good.performed call
  rw [Published, journal, delivered]
  refine ⟨⟨base, _, consistent⟩, earlier, before, ?_⟩
  cases done : call.perform codec state with
  | mk result state' =>
    rw [done] at shows
    cases result with
    | error e =>
      rw [show state'.projection = state.projection from shows]
      show replay sessionId (earlier ++ (lane.delivered ++ [])) = .ok state.projection
      rw [append_nil]
      exact replayed
    | ok stored =>
      rw [← append_assoc]
      exact replay_append replayed shows

/-- The session that a call finds. -/
theorem session (present : sessionFor codec sessionId outcome lane.journal = .ok state) :
    (∃ base history, Consistent base history state) ∧
      ∃ earlier, VisibleBefore codec sessionId start earlier ∧
        replay sessionId (earlier ++ lane.delivered) = .ok state.projection := by
  cases journal : lane.journal with
  | some current =>
    rw [Published, journal] at published
    rw [journal] at present
    cases present
    exact published
  | none =>
    rw [Published, journal] at published
    obtain ⟨rfl, nothing⟩ := published
    rw [journal] at present
    obtain ⟨_, -, present⟩ := bind_ok_iff.mp present
    obtain ⟨found, -, opened⟩ := bind_ok_iff.mp present
    obtain ⟨⟨events, replayed⟩, good⟩ := openMeta_replayed opened
    refine ⟨⟨_, _, good⟩, events, .opened opened replayed, ?_⟩
    rw [nothing, append_nil]
    exact replayed

/-- A call on the session, opened if it has to be. -/
theorem performed (call : JournalCall) {result : Except StorageError (List StoredEvent)}
    (done : withSession codec sessionId outcome (call.perform codec) lane.journal =
      (result, journal)) (journal' : lane'.journal = journal)
    (delivered : lane'.delivered = lane.delivered ++ result.toOption.getD []) :
    Published codec sessionId start lane' := by
  rw [withSession_eq] at done
  split at done
  · cases done
    exact published.congr journal' (delivered.trans (append_nil _))
  · next state present =>
    obtain ⟨⟨base, history, good⟩, earlier, before, replayed⟩ := published.session present
    cases done
    exact Published.call good before replayed call journal' delivered

theorem created (absent : lane.journal = none) {path : String} {stored : StoredEvent}
    (made : createSession codec path event = .ok (state, stored))
    (own : event.sessionId = sessionId) (journal : lane'.journal = some state)
    (delivered : lane'.delivered = lane.delivered ++ [stored]) :
    Published codec sessionId start lane' := by
  rw [Published, absent] at published
  obtain ⟨rfl, nothing⟩ := published
  rw [Published, journal, delivered, nothing]
  obtain ⟨replayed, good⟩ := createSession_replayed made
  refine ⟨⟨_, _, good⟩, [], .created, ?_⟩
  rw [← own]
  exact replayed

end Published

/-! ### The operations of the task -/

namespace LaneState

variable {codec : RecordCodec} {sessionId : SessionId} {outcome : JournalOutcome}
  {start : Option SessionMeta} {lane : LaneState} {events : List DurableEvent}
  {kind : DurableCommit}

def repliedTo (lane : LaneState) : List Nat := lane.replies.map (·.1)

@[simp] theorem repliedTo_reply (ticket : Nat) (result : LaneReply) :
    (lane.reply ticket result).repliedTo = lane.repliedTo ++ [ticket] := by
  simp [repliedTo, reply]

@[simp] theorem delivered_reply (ticket : Nat) (result : LaneReply) :
    (lane.reply ticket result).delivered = lane.delivered := rfl

@[simp] theorem delivered_publishDurable (stored : StoredEvent) :
    (lane.publishDurable stored).delivered = lane.delivered ++ [stored] := by
  simp [delivered, publishDurable, publish]

@[simp] theorem delivered_publish_live (event : LiveEvent) :
    (lane.publish (.live event)).delivered = lane.delivered := by
  simp [delivered, publish]

theorem publishAll_eq (events : List StoredEvent) (lane : LaneState) :
    publishAll events lane = { lane with observer := lane.observer ++ events.map .durable } := by
  induction events generalizing lane with
  | nil => simp [publishAll]
  | cons stored rest ih => simp [publishAll, ih, publishDurable, publish]

theorem settle_eq (batch : List (Nat × StoredEvent)) (lane : LaneState) :
    settle batch lane =
      { lane with
        observer := lane.observer ++ batch.map (.durable ·.2)
        replies := lane.replies ++ batch.map fun entry => (entry.1, .stored (.ok entry.2)) } := by
  induction batch generalizing lane with
  | nil => simp [settle]
  | cons entry rest ih => simp [settle, ih, publishDurable, publish, reply]

theorem fail_eq (error : SessionEventPublishError) (tickets : List Nat) (lane : LaneState) :
    fail error tickets lane =
      { lane with replies := lane.replies ++ tickets.map (·, .stored (.error error)) } := by
  induction tickets generalizing lane with
  | nil => simp [fail]
  | cons ticket rest ih => simp [fail, ih, reply]

/-- The call that a batch of one kind makes. -/
def appendCall (outcome : JournalOutcome) (kind : DurableCommit) (events : List DurableEvent) :
    JournalCall :=
  match kind with
  | .appendAndSync => .appendEventsAndSync events outcome.write outcome.sync
  | _ => .appendEvents events outcome.write

theorem appendBatch_eq (kind : DurableCommit) (events : List DurableEvent) :
    appendBatch codec outcome kind events = (appendCall outcome kind events).perform codec := by
  funext state
  cases kind with
  | create | append | appendAndSync => rfl

theorem appendCall_stored {history stored : List StoredEvent}
    {state state' : SessionMeta} (good : Consistent base history state)
    (done : (appendCall outcome kind events).perform codec state = (.ok stored, state')) :
    stored = numberFrom (state.projection.stats.lastSeq + 1) events := by
  cases kind with
  | create | append => exact good.appendEvents_stored done
  | appendAndSync => exact good.appendEventsAndSync_stored done

/-- The journal never returns more or fewer events than it was given. -/
theorem appended_length (published : Published codec sessionId start lane)
    {stored : List StoredEvent}
    (done : withSession codec sessionId outcome ((appendCall outcome kind events).perform codec)
      lane.journal = (.ok stored, journal)) : stored.length = events.length := by
  rw [withSession_eq] at done
  split at done
  · cases done
  · next state present =>
    obtain ⟨⟨base, history, good⟩, -⟩ := published.session present
    have result := congrArg Prod.fst done
    rw [appendCall_stored good (Prod.ext result rfl), numberFrom_length]

variable (outcome) in
theorem commitBatch_eq (published : Published codec sessionId start lane) (kind : DurableCommit)
    (batch : List (Nat × DurableEvent)) :
    Published codec sessionId start (lane.commitBatch codec sessionId outcome kind batch) ∧
      (lane.commitBatch codec sessionId outcome kind batch).repliedTo =
        lane.repliedTo ++ batch.map (·.1) := by
  rw [commitBatch, appendBatch_eq]
  split
  · next e journal done =>
    rw [fail_eq]
    refine ⟨published.performed _ done rfl (append_nil _).symm, ?_⟩
    simp [repliedTo]
  · next stored journal done =>
    have length := appended_length published done
    rw [length_map] at length
    rw [if_pos (by rw [length, length_map]), settle_eq]
    refine ⟨published.performed _ done rfl ?_, ?_⟩
    · simp [delivered, Except.toOption, map_snd_zip, length]
    · simp [repliedTo, Function.comp_def, map_fst_zip, length]

theorem create_eq (published : Published codec sessionId start lane) (path : String) (ticket : Nat)
    (own : event.sessionId = sessionId) :
    Published codec sessionId start (lane.create codec outcome path ticket event) ∧
      (lane.create codec outcome path ticket event).repliedTo = lane.repliedTo ++ [ticket] := by
  rw [create, createInJournal]
  cases made : createSession codec path event with
  | error e => exact ⟨published.congr rfl rfl, repliedTo_reply _ _⟩
  | ok pair =>
    obtain ⟨state, stored⟩ := pair
    cases present : lane.journal with
    | some current => exact ⟨published.congr present.symm rfl, repliedTo_reply _ _⟩
    | none =>
      cases failed : outcome.createError with
      | some e => exact ⟨published.congr present.symm rfl, repliedTo_reply _ _⟩
      | none =>
        refine ⟨published.created present made own rfl ?_, repliedTo_reply _ _⟩
        rw [delivered_reply, delivered_publishDurable]
        rfl

variable (outcome) in
theorem syncLane_eq (published : Published codec sessionId start lane) (ticket : Nat) :
    Published codec sessionId start (lane.syncLane codec sessionId outcome ticket) ∧
      (lane.syncLane codec sessionId outcome ticket).repliedTo = lane.repliedTo ++ [ticket] := by
  rw [syncLane]
  refine ⟨?_, repliedTo_reply _ _⟩
  generalize synced : withSession codec sessionId outcome
    (fun state => state.syncDurableEvents sessionId outcome.sync) lane.journal = done
  -- the call of the journal returns no events
  have call : withSession codec sessionId outcome
      ((JournalCall.syncDurableEvents sessionId outcome.sync).perform codec) lane.journal =
      (done.1.map fun _ => [], done.2) := by
    rw [← synced, withSession_eq, withSession_eq]
    cases sessionFor codec sessionId outcome lane.journal with
    | error | ok => rfl
  refine published.performed _ call rfl ?_
  cases done.1 with
  | error | ok => exact (append_nil _).symm

theorem retryUncertainSync_eq (published : Published codec sessionId start lane)
    (ticket expectedThroughSeq : Nat) :
    Published codec sessionId start
        (lane.retryUncertainSync codec sessionId outcome ticket expectedThroughSeq) ∧
      (lane.retryUncertainSync codec sessionId outcome ticket expectedThroughSeq).repliedTo =
        lane.repliedTo ++ [ticket] := by
  rw [retryUncertainSync]
  have call : (fun state : SessionMeta =>
      state.retryUncertainSync sessionId expectedThroughSeq outcome.sync) =
      (JournalCall.retryUncertainSync sessionId expectedThroughSeq outcome.sync).perform codec := rfl
  rw [call]
  split
  · next e journal done =>
    refine ⟨published.performed _ done rfl ?_, repliedTo_reply _ _⟩
    exact (append_nil _).symm
  · next confirmed journal done =>
    rw [publishAll_eq]
    refine ⟨published.performed _ done rfl ?_, repliedTo_reply _ _⟩
    simp [delivered, reply, Except.toOption]

end LaneState

end Astrcode
