import Astrcode.Properties.StreamCursor
import Astrcode.Server.Publication

/-!
# Delivery of durable events

What a stream sends of the durable events of its session: every event as one batch of envelopes,
the batches in the order of the log. An event can reach a stream in three ways, by the replay,
by what the channel held when the live part began, and by the channel after that. Whatever the
replay has sent is kept out of the other two by its highest number.

A replay that found nothing leaves no such number. An event at or below the client's cursor
that is published only after the stream has subscribed is then delivered again.
-/
namespace Astrcode

open List

namespace SessionStream

variable {s s' : SessionStream} {b : StoredEvent × Bool}

/-! ### Batches -/

/-- The envelopes of an event, as a batch. -/
def batch (s : SessionStream) (b : StoredEvent × Bool) : List SseItem :=
  (s.deltasOf b.1 b.2).map (s.conversationSseItem (some b.1.seq) b.1.seq)

def ofEvents (items : List SseItem) : List SseItem := items.filter (·.origin.isSome)

theorem origin_of_mem_batch {item : SseItem} (member : item ∈ s.batch b) :
    item.origin = some b.1.seq := by
  obtain ⟨delta, -, rfl⟩ := mem_map.mp member
  rfl

variable (s)

theorem ofEvents_flatMap_batch (batches : List (StoredEvent × Bool)) :
    ofEvents (batches.flatMap s.batch) = batches.flatMap s.batch := by
  apply filter_eq_self.mpr
  intro item member
  obtain ⟨b, -, inBatch⟩ := mem_flatMap.mp member
  simp [origin_of_mem_batch inBatch]

@[simp] theorem ofEvents_append (items more : List SseItem) :
    ofEvents (items ++ more) = ofEvents items ++ ofEvents more :=
  filter_append _ _

/-- What the stream sent of durable events are batches of events after the cursor, each event
once and in ascending order; the last batch may still be on its way. -/
def DeliveredOnce (cursor : Nat) : Prop :=
  ∃ batches : List (StoredEvent × Bool),
    (batches.map (·.1.seq)).Pairwise (· < ·) ∧
    (∀ b ∈ batches, b.1 ∈ s.events ∧ cursor < b.1.seq) ∧
    ofEvents s.emitted <+: batches.flatMap s.batch

/-! ### The order of what waits -/

/-- The numbers of the session's events that were published and not taken up yet. -/
def waitingSeqs : List Nat :=
  (s.buffered ++ s.eventRx.queue.map LiveInput.event).filterMap s.ownSeq

variable {s}

theorem ownSeq_congr (session : s'.sessionId = s.sessionId) :
    s'.ownSeq = s.ownSeq := by
  funext input
  cases input with
  | event event => simp [ownSeq, session]
  | notification => rfl

theorem filterMap_cons_eq {α β : Type} (f : α → Option β) (a : α) (l : List α) :
    (a :: l).filterMap f = (f a).toList ++ l.filterMap f := by
  cases found : f a <;> simp [found]

/-- The batches put out so far and the events that wait are in order; `published` is the number
of the next event to be published. -/
structure Ordered (cursor published : Nat) (s : SessionStream)
    (batches : List (StoredEvent × Bool)) : Prop where
  items : ofEvents s.outgoing = batches.flatMap s.batch
  committed : ∀ b ∈ batches, b.1 ∈ s.events
  ascending : (batches.map (·.1.seq)).Pairwise (· < ·)
  waiting : s.waitingSeqs.Pairwise (· < ·)
  unpublished : ∀ n ∈ s.waitingSeqs, n < published
  /-- A batch is of the replay, or of an event that came before all that wait. -/
  passed : ∀ b ∈ batches, alreadyReplayed s.replayMaxSeq (some b.1.seq) = true ∨
    b.1.seq < published ∧ ∀ n ∈ s.waitingSeqs, b.1.seq < n
  replayed : ∀ max, s.replayMaxSeq = some max → cursor < max

theorem lt_of_alreadyReplayed {replayMaxSeq : Option Nat} {a b : Nat}
    (old : alreadyReplayed replayMaxSeq (some a) = true)
    (new : alreadyReplayed replayMaxSeq (some b) = false) : a < b := by
  cases replayMaxSeq with
  | none => cases old
  | some max =>
    simp only [alreadyReplayed, decide_eq_true_eq, decide_eq_false_iff_not] at old new
    omega

section Steps

variable {input : LiveInput} {cursor published : Nat} {s rest : SessionStream}
  {batches : List (StoredEvent × Bool)}

section

variable (ordered : Ordered cursor published s batches)

include ordered

/-- A step that puts out nothing, and takes nothing up or loses what it takes up. -/
theorem Ordered.forget {published' : Nat} (out : s'.outgoing = s.outgoing)
    (session : s'.sessionId = s.sessionId) (replay : s'.replayMaxSeq = s.replayMaxSeq)
    (events : s.events ⊆ s'.events) (fewer : s'.waitingSeqs.Sublist s.waitingSeqs)
    (later : published ≤ published') :
    Ordered cursor published' s' batches where
  items := by
    have same : s'.batch = s.batch := by
      have item : s'.conversationSseItem = s.conversationSseItem := by
        funext origin cursor delta
        simp [conversationSseItem, session]
      funext b
      simp [batch, deltasOf, item, replay]
    rw [out, same, ordered.items]
  committed b member := events (ordered.committed b member)
  ascending := ordered.ascending
  waiting := ordered.waiting.sublist fewer
  unpublished n member := Nat.lt_of_lt_of_le (ordered.unpublished n (fewer.subset member)) later
  passed b member := by
    rw [replay]
    apply (ordered.passed b member).imp_right
    rintro ⟨below, before⟩
    exact ⟨Nat.lt_of_lt_of_le below later, fun n waits => before n (fewer.subset waits)⟩
  replayed := by
    rw [replay]
    exact ordered.replayed

omit ordered in
theorem waitingSeqs_send (event : Event) :
    { s with eventRx := s.eventRx.send event }.waitingSeqs =
      s.waitingSeqs ++ (s.ownSeq (.event event)).toList := by
  have own : { s with eventRx := s.eventRx.send event }.ownSeq = s.ownSeq := ownSeq_congr rfl
  rw [waitingSeqs, own, waitingSeqs, Receiver.send, map_append, ← append_assoc,
    filterMap_append, map_singleton, filterMap_cons_eq, filterMap_nil,
    append_nil]

/-- The lane publishes the events in order. -/
theorem Ordered.publish {event : DurableEvent} (own : event.sessionId = s.sessionId) :
    Ordered cursor (published + 1)
      { s with eventRx := s.eventRx.send (.durable ⟨published, event⟩) } batches := by
  have waits : { s with eventRx := s.eventRx.send (.durable ⟨published, event⟩) }.waitingSeqs =
      s.waitingSeqs ++ [published] := by
    rw [waitingSeqs_send]
    simp [ownSeq, Event.sessionId, Event.seq, own]
  refine { ordered with waiting := ?_, unpublished := ?_, passed := ?_ }
  · rw [waits, pairwise_append]
    refine ⟨ordered.waiting, pairwise_singleton _ _, fun n member next same => ?_⟩
    rw [mem_singleton.mp same]
    exact ordered.unpublished n member
  · intro n member
    rw [waits, mem_append, mem_singleton] at member
    rcases member with before | rfl
    · exact Nat.lt_succ_of_lt (ordered.unpublished n before)
    · exact Nat.lt_succ_self n
  · intro b member
    apply (ordered.passed b member).imp_right
    rintro ⟨below, before⟩
    refine ⟨Nat.lt_succ_of_lt below, fun n waiting => ?_⟩
    rw [waits, mem_append, mem_singleton] at waiting
    rcases waiting with waiting | rfl
    · exact before n waiting
    · exact below

/-! ### Connecting -/

theorem Ordered.rehydrate (coherent : Coherent cursor s)
    (unopened : ∀ live, s.connection ≠ .streaming live) :
    Ordered cursor published s.rehydrate [] := by
  exact
    { ordered with
      items := by
        rw [rehydrate_outgoing coherent unopened]
        rfl
      committed := fun _ member => by cases member
      ascending := List.Pairwise.nil
      passed := fun _ member => by cases member }

/-- The replay puts out the missed events, in the order of the log. -/
theorem Ordered.stream (coherent : Coherent cursor s)
    (unopened : ∀ live, s.connection ≠ .streaming live) {missed : List StoredEvent}
    (all : missed = s.events.filter (cursor < ·.seq)) :
    Ordered cursor published (s.stream missed) (missed.map (·, s.hasMessages)) := by
  have out : (s.stream missed).outgoing =
      (missed.map (·, s.hasMessages)).flatMap (s.stream missed).batch := by
    rw [stream_outgoing coherent unopened, replayItems, flatMap_map]
    apply flatMap_congr
    intro e member
    rw [batch, stream_deltasOf member]
    rfl
  refine { ordered with items := ?_, committed := ?_, ascending := ?_, passed := ?_, replayed := ?_ }
  · rw [out, ofEvents_flatMap_batch]
  · intro b member
    obtain ⟨e, found, rfl⟩ := mem_map.mp member
    exact (mem_missed.mp (all ▸ found)).1
  · rw [map_map, pairwise_map, all]
    exact (numberFrom_sorted 0 s.log).filter _
  · intro b member
    obtain ⟨e, found, rfl⟩ := mem_map.mp member
    exact Or.inl (le_maxSeq found)
  · intro max largest
    -- the highest number of the replay is the number of an event after the cursor
    obtain ⟨e, found, rfl⟩ := mem_map.mp (max?_eq_some_iff.mp largest).1
    exact (mem_missed.mp (all ▸ found)).2

end

/-! ### Taking up an input -/

/-- The stream takes up what was published first. -/
theorem nextInput_waitingSeqs {inlet : Inlet} {input : Except Unit LiveInput}
    (next : s.nextInput inlet = some (input, rest)) :
    s.waitingSeqs = (input.toOption.bind s.ownSeq).toList ++ rest.waitingSeqs := by
  obtain ⟨eventRx, notificationRx, buffered, taken, rfl, split, which, -⟩ := nextInput_eq next
  have own : { s with eventRx, notificationRx, buffered }.ownSeq = s.ownSeq := ownSeq_congr rfl
  rw [waitingSeqs, split, filterMap_append, waitingSeqs, own]
  congr 1
  rcases which with rfl | ⟨rfl, message, rfl⟩
  · cases input with
    | error => rfl
    | ok => exact (filterMap_cons_eq _ _ _).trans (append_nil _)
  · -- notifications have no number
    cases message with
    | error | ok => rfl

theorem ofEvents_answerItems_of_none {storage : Bool} {uuid : String} (own : s.ownSeq input = none) :
    ofEvents (s.answerItems storage uuid input) = [] := by
  apply filter_eq_nil_iff.mpr
  intro item member
  obtain ⟨delta, -, rfl⟩ := mem_map.mp member
  simp [conversationSseItem, own]

/-- An event is answered with its batch, unless the replay has sent it. -/
theorem answerItems_own (storage : Bool) (uuid : String) {e : StoredEvent}
    (own : e.event.sessionId = s.sessionId) :
    (alreadyReplayed s.replayMaxSeq (some e.seq) = true ∧
      s.answerItems storage uuid (.event (.durable e)) = []) ∨
    (alreadyReplayed s.replayMaxSeq (some e.seq) = false ∧
      s.answerItems storage uuid (.event (.durable e)) =
        s.batch (e, s.hasMessages || eventAddsMessage (.durable e))) := by
  have numbered : s.ownSeq (.event (.durable e)) = some e.seq := by
    simp [ownSeq, Event.sessionId, Event.seq, own]
  cases replayed : alreadyReplayed s.replayMaxSeq (some e.seq) with
  | true =>
    left
    simp [answerItems, answerDeltas, Event.sessionId, Event.seq, own, replayed]
  | false =>
    right
    simp [answerItems, answerDeltas, answerCursor, batch, deltasOf, eventToDeltas,
      Event.sessionId, Event.seq, own, replayed, numbered]

theorem Ordered.answer (ordered : Ordered cursor published s batches) (storage : Bool)
    (uuid : String) (taken : s.waitingSeqs = (s.ownSeq input).toList ++ rest.waitingSeqs)
    (read : ∃ eventRx notificationRx buffered,
      rest = { s with eventRx, notificationRx, buffered })
    (committed : ∀ event, input = .event event → s.Committed event) :
    ∃ batches, Ordered cursor published (rest.answer storage uuid input) batches := by
  obtain ⟨eventRx, notificationRx, buffered, rfl⟩ := read
  have fewer := taken ▸ sublist_append_right (s.ownSeq input).toList _
  have unread : Ordered cursor published { s with eventRx, notificationRx, buffered } batches :=
    ordered.forget rfl rfl rfl (fun _ => id) fewer (Nat.le_refl published)
  have out := answer_outgoing storage uuid input { s with eventRx, notificationRx, buffered }
  obtain ⟨hasMessages, childSessions, cachedCursor, answers, -⟩ :=
    answer_eq storage uuid input { s with eventRx, notificationRx, buffered }
  rw [answers] at out ⊢
  have items := congrArg ofEvents out
  rw [ofEvents_append] at items
  cases own : s.ownSeq input with
  | none =>
    refine ⟨batches, { unread with items := ?_ }⟩
    rw [items, ofEvents_answerItems_of_none (by cases input <;> exact own), append_nil]
    exact unread.items
  | some seq =>
    obtain ⟨e, known, rfl, rfl, same⟩ := exists_of_ownSeq own committed
    rcases answerItems_own (s := { s with eventRx, notificationRx, buffered }) storage uuid same
      with ⟨-, nothing⟩ | ⟨fresh, whole⟩
    · refine ⟨batches, { unread with items := ?_ }⟩
      rw [items, nothing]
      exact (append_nil _).trans unread.items
    · -- the event comes after all batches and before all that still wait
      rw [own, Option.toList_some, singleton_append] at taken
      have waits : e.seq ∈ s.waitingSeqs := taken ▸ mem_cons_self
      have last : ∀ b ∈ batches, b.1.seq < e.seq := fun b member => by
        rcases ordered.passed b member with old | ⟨-, before⟩
        · exact lt_of_alreadyReplayed old fresh
        · exact before _ waits
      have first : ∀ n ∈ { s with eventRx, notificationRx, buffered }.waitingSeqs, e.seq < n :=
        (pairwise_cons.mp (taken ▸ ordered.waiting)).1
      refine ⟨batches ++ [(e, s.hasMessages || eventAddsMessage (.durable e))],
        { unread with items := ?_, committed := ?_, ascending := ?_, passed := ?_ }⟩
      · rw [items, whole, flatMap_append, ← ofEvents_flatMap_batch _ [_], flatMap_singleton]
        exact congrArg (· ++ _) unread.items
      · intro b member
        rcases mem_append.mp member with old | new
        · exact ordered.committed b old
        · rw [mem_singleton.mp new]
          exact known
      · rw [map_append, pairwise_append]
        refine ⟨ordered.ascending, pairwise_singleton _ _, fun a old b new => ?_⟩
        obtain ⟨earlier, member, rfl⟩ := mem_map.mp old
        rw [map_cons, map_nil, mem_singleton] at new
        rw [new]
        exact last earlier member
      · intro b member
        rcases mem_append.mp member with old | new
        · exact unread.passed b old
        · rw [mem_singleton.mp new]
          exact Or.inr ⟨ordered.unpublished _ waits, first⟩

/-! ### Steps of the stream -/

/-- Among what a drain keeps, only events have numbers. -/
theorem waitingSeqs_sublist_of_kept {events : List Event}
    {notifications : List ClientNotification} (session : s'.sessionId = s.sessionId)
    (queue : s'.eventRx.queue = [])
    (buffered : s'.buffered = events.map LiveInput.event ++ notifications.map .notification)
    (kept : events.Sublist s.eventRx.queue) (idle : s.buffered = []) :
    s'.waitingSeqs.Sublist s.waitingSeqs := by
  have none : (notifications.map LiveInput.notification).filterMap s.ownSeq = [] := by
    rw [filterMap_map]
    exact filterMap_eq_nil_iff.mpr fun _ _ => rfl
  rw [waitingSeqs, queue, buffered, ownSeq_congr session, map_nil, append_nil,
    filterMap_append, none, append_nil, waitingSeqs, idle, nil_append]
  exact (kept.map _).filterMap _

/-- The drain keeps the order of the events it found. -/
theorem drain_waitingSeqs (idle : s.buffered = []) :
    { s with drained := true }.drainStaleLiveEvents.waitingSeqs.Sublist s.waitingSeqs := by
  simp only [drainStaleLiveEvents]
  split
  · exact .refl _
  · split
    · next events notifications found _ =>
      obtain rfl := drain_ok found
      exact waitingSeqs_sublist_of_kept rfl rfl rfl filter_sublist idle
    · exact .refl _

/-! ### Events at or below the cursor -/

/-- Nothing put out is of an event at or below the cursor. -/
def AfterCursor (cursor : Nat) (items : List SseItem) : Prop :=
  ∀ item ∈ items, ∀ seq, item.origin = some seq → cursor < seq

/-- The condition on a step: where nothing was replayed, the stream takes up no event at or
below the cursor that it has a delta for. -/
def Fresh (cursor : Nat) (s : SessionStream) : Action → Prop
  | .take _ _ inlet =>
    s.isLive = true → s.drained = true → s.replayMaxSeq = none → ∀ stored rest,
      s.nextInput inlet = some (.ok (.event (.durable stored)), rest) →
      stored.event.sessionId = s.sessionId → durableEventToDeltas stored s.hasMessages ≠ [] →
        cursor < stored.seq
  | _ => True

instance (cursor : Nat) (s : SessionStream) (inlet : Inlet) :
    Decidable (∀ stored rest, s.nextInput inlet = some (.ok (.event (.durable stored)), rest) →
      stored.event.sessionId = s.sessionId → durableEventToDeltas stored s.hasMessages ≠ [] →
        cursor < stored.seq) :=
  match next : s.nextInput inlet with
  | some (.ok (.event (.durable stored)), rest) =>
    decidable_of_iff (stored.event.sessionId = s.sessionId →
        durableEventToDeltas stored s.hasMessages ≠ [] → cursor < stored.seq)
      ⟨fun fresh other rest same => by cases same; exact fresh, fun fresh => fresh stored rest rfl⟩
  | some (.ok (.event (.live _)), _) => isTrue fun _ _ same => by cases same
  | some (.ok (.notification _), _) => isTrue fun _ _ same => by cases same
  | some (.error _, _) => isTrue fun _ _ same => by cases same
  | none => isTrue fun _ _ same => by cases same

instance (cursor : Nat) (s : SessionStream) : ∀ action, Decidable (Fresh cursor s action)
  | .take _ _ inlet =>
    inferInstanceAs (Decidable (s.isLive = true → s.drained = true → s.replayMaxSeq = none →
      ∀ stored rest, s.nextInput inlet = some (.ok (.event (.durable stored)), rest) →
        stored.event.sessionId = s.sessionId → durableEventToDeltas stored s.hasMessages ≠ [] →
          cursor < stored.seq))
  | .commit _ | .publish _ | .notify _ | .lagEvents | .lagNotifications | .closeEvents
  | .connect _ | .readMissed _ | .emit | .drain => isTrue trivial

theorem afterCursor_append {items more : List SseItem} :
    AfterCursor cursor (items ++ more) ↔ AfterCursor cursor items ∧ AfterCursor cursor more :=
  forall_mem_append

theorem afterCursor_of_none {items : List SseItem} (none : ∀ item ∈ items, item.origin = none) :
    AfterCursor cursor items := by
  intro item member seq origin
  rw [none item member] at origin
  cases origin

theorem afterCursor_batch_iff :
    AfterCursor cursor (s.batch b) ↔ (s.deltasOf b.1 b.2 ≠ [] → cursor < b.1.seq) := by
  constructor
  · intro after answered
    obtain ⟨delta, isDelta⟩ := exists_mem_of_ne_nil _ answered
    exact after _ (mem_map_of_mem isDelta) _ rfl
  · intro above item member seq origin
    obtain rfl : b.1.seq = seq := Option.some.inj ((origin_of_mem_batch member).symm.trans origin)
    obtain ⟨delta, isDelta, -⟩ := mem_map.mp member
    exact above (ne_nil_of_mem isDelta)

/-- The answer to an event is after the cursor if the event is, or if there is none. -/
theorem afterCursor_answerItems_iff (ordered : Ordered cursor published s batches)
    (storage : Bool) (uuid : String) (input : LiveInput) :
    AfterCursor cursor (s.answerItems storage uuid input) ↔
      (s.replayMaxSeq = none → ∀ stored, input = .event (.durable stored) →
        stored.event.sessionId = s.sessionId → durableEventToDeltas stored s.hasMessages ≠ [] →
          cursor < stored.seq) := by
  cases numbered : s.ownSeq input with
  | none =>
    refine iff_of_true ?_ ?_
    · apply afterCursor_of_none
      intro item member
      obtain ⟨delta, -, rfl⟩ := mem_map.mp member
      exact numbered
    · rintro - stored rfl own
      simp [ownSeq, Event.sessionId, Event.seq, own] at numbered
  | some seq =>
    obtain ⟨e, -, rfl, own⟩ := ownSeq_eq_some numbered
    rcases answerItems_own storage uuid own with ⟨old, nothing⟩ | ⟨new, whole⟩
    · -- a number to compare with is only there after a replay
      refine iff_of_true ?_ ?_
      · rw [nothing]
        exact afterCursor_of_none (by simp)
      · intro none
        rw [none] at old
        cases old
    · rw [whole, afterCursor_batch_iff]
      cases replay : s.replayMaxSeq with
      | none =>
        -- whether there are messages does not matter for there being deltas
        have same : s.deltasOf e (s.hasMessages || eventAddsMessage (.durable e)) ≠ [] ↔
            durableEventToDeltas e s.hasMessages ≠ [] := by
          rw [← length_pos_iff, s.deltasOf_length e _ s.hasMessages, length_pos_iff,
            deltasOf, replay]
          rfl
        rw [same]
        constructor
        · rintro above - stored same -
          cases same
          exact above
        · intro fresh
          exact fresh rfl e rfl own
      | some max =>
        have above := ordered.replayed max replay
        rw [replay] at new
        simp only [alreadyReplayed, decide_eq_false_iff_not] at new
        exact iff_of_true (fun _ => Nat.lt_trans above (Nat.lt_of_not_le new)) (by simp)

/-- Whatever the stream does, what it puts out stays in order, publications being up to the lane,
and after the cursor just if the step is fresh. -/
theorem ordered_step (ordered : Ordered cursor published s batches) (coherent : Coherent cursor s)
    (action : Action) :
    (SessionFeed.upToLane s.sessionId action = false →
      ∃ batches, Ordered cursor published (s.step action) batches) ∧
    (AfterCursor cursor (s.step action).outgoing ↔
      AfterCursor cursor s.outgoing ∧ Fresh cursor s action) := by
  have same : ∀ {s' : SessionStream}, s'.outgoing = s.outgoing → (AfterCursor cursor s'.outgoing ↔
      AfterCursor cursor s.outgoing ∧ True) := by
    intro s' out
    rw [out, and_true]
  have unchanged : ∀ {s' : SessionStream} {p : Prop}, s'.outgoing = s.outgoing →
      s'.sessionId = s.sessionId → s'.replayMaxSeq = s.replayMaxSeq → s'.log = s.log →
      s'.waitingSeqs.Sublist s.waitingSeqs →
      (p → ∃ batches, Ordered cursor published s' batches) ∧
        (AfterCursor cursor s'.outgoing ↔ AfterCursor cursor s.outgoing ∧ True) :=
    fun out session replay log fewer => ⟨fun _ => ⟨batches, ordered.forget out session replay
      (by simp only [events, log]; exact fun _ => id) fewer (Nat.le_refl _)⟩, same out⟩
  -- nothing is sent before the stream is open, and the request to load anew stands for no event
  have reset : (∀ live, s.connection ≠ .streaming live) → AfterCursor cursor s.outgoing ∧
      AfterCursor cursor s.rehydrate.outgoing := by
    intro unopened
    rw [(coherent.unopened unopened).1, rehydrate_outgoing coherent unopened]
    exact ⟨afterCursor_of_none (by simp), afterCursor_of_none (by simp [conversationSseItem])⟩
  cases action with
  | commit event =>
    refine ⟨by rintro ⟨⟩, ?_⟩
    simp only [SessionStream.step, Fresh]
    split <;> exact same rfl
  | publish event =>
    simp only [SessionStream.step, Fresh]
    split
    · refine ⟨fun outside => ?_, same rfl⟩
      -- what is published besides has no number in the session
      have foreign : s.ownSeq (.event event) = none := by
        cases event with
        | live event => simp [ownSeq, Event.seq]
        | durable stored =>
          have other : stored.event.sessionId ≠ s.sessionId := by
            simpa [SessionFeed.upToLane] using outside
          simp [ownSeq, Event.sessionId, other]
      have kept : { s with eventRx := s.eventRx.send event }.waitingSeqs = s.waitingSeqs := by
        rw [waitingSeqs_send, foreign, Option.toList_none, append_nil]
      exact (@unchanged { s with eventRx := s.eventRx.send event } _ rfl rfl rfl rfl
        (kept ▸ .refl _)).1 outside
    · exact unchanged rfl rfl rfl rfl (.refl _)
  | notify | lagEvents | lagNotifications | closeEvents => exact unchanged rfl rfl rfl rfl (.refl _)
  | connect storage =>
    simp only [SessionStream.step, Fresh]
    split
    · next subscribed =>
      have unopened : ∀ live, s.connection ≠ .streaming live := by simp [subscribed]
      obtain ⟨text, query, parsed⟩ := coherent.query
      simp only [connect, query, parsed]
      split
      · exact ⟨fun _ => ⟨[], ordered.rehydrate coherent unopened⟩,
          iff_of_true (reset unopened).2 ⟨(reset unopened).1, trivial⟩⟩
      · exact unchanged rfl rfl rfl rfl (.refl _)
    · exact unchanged rfl rfl rfl rfl (.refl _)
  | readMissed storage =>
    simp only [SessionStream.step, Fresh]
    split
    · next requestedSeq accepted =>
      obtain rfl := coherent.requested requestedSeq accepted
      have unopened : ∀ live, s.connection ≠ .streaming live := by simp [accepted]
      simp only [readMissed]
      split
      · exact ⟨fun _ => ⟨[], ordered.rehydrate coherent unopened⟩,
          iff_of_true (reset unopened).2 ⟨(reset unopened).1, trivial⟩⟩
      · next missed read =>
        have all := (replayAfterCursor_ok.mp read).2.2
        refine ⟨fun _ => ⟨_, ordered.stream coherent unopened all⟩,
          iff_of_true ?_ ⟨(reset unopened).1, trivial⟩⟩
        intro item member seq origin
        rw [stream_outgoing coherent unopened] at member
        obtain ⟨e, found, itsOrigin, -⟩ := mem_replayItems member
        cases origin.symm.trans itsOrigin
        exact (mem_missed.mp (all ▸ found)).2
    · exact unchanged rfl rfl rfl rfl (.refl _)
  | emit =>
    obtain ⟨replay, pending, emitted, emits, out, -⟩ := s.emit_eq
    simp only [SessionStream.step, emits, Fresh]
    exact unchanged out rfl rfl rfl (.refl _)
  | drain =>
    simp only [SessionStream.step, Fresh]
    split
    · next polled =>
      rw [Bool.and_eq_true, Bool.not_eq_true'] at polled
      have idle : s.buffered = [] := by
        by_contra nonempty
        have drained := (coherent.begun (Or.inr nonempty)).2.2
        rw [polled.2] at drained
        cases drained
      have fewer := drain_waitingSeqs idle
      revert fewer
      simp only [drainStaleLiveEvents]
      split
      · exact unchanged rfl rfl rfl rfl
      · split
        all_goals exact unchanged rfl rfl rfl rfl
    · exact unchanged rfl rfl rfl rfl (.refl _)
  | take storage uuid inlet =>
    simp only [SessionStream.step, take, Fresh]
    split
    · next live =>
      rw [Bool.and_eq_true] at live
      simp only [live, forall_const]
      split
      · next nothing =>
        rw [nothing]
        exact ⟨fun _ => ⟨batches, ordered⟩, by simp⟩
      · next failure rest next =>
        have taken := nextInput_waitingSeqs next
        obtain ⟨eventRx, notificationRx, buffered, -, rfl, -⟩ := nextInput_eq next
        rw [next]
        simp only [Option.some.injEq, Prod.mk.injEq, reduceCtorEq, false_and, false_implies,
          implies_true]
        exact unchanged rfl rfl rfl rfl (taken ▸ sublist_append_right _ _)
      · next input rest next =>
        have taken := nextInput_waitingSeqs next
        have committed := (coherent.nextInput next).2
        obtain ⟨eventRx, notificationRx, buffered, -, rfl, -⟩ := nextInput_eq next
        refine ⟨fun _ => ordered.answer storage uuid taken ⟨_, _, _, rfl⟩
          fun event same => committed event (same ▸ rfl), ?_⟩
        have fewer := taken ▸ sublist_append_right _ _
        have unread : Ordered cursor published { s with eventRx, notificationRx, buffered } batches :=
          ordered.forget rfl rfl rfl (fun _ => id) fewer (Nat.le_refl published)
        rw [answer_outgoing, afterCursor_append, afterCursor_answerItems_iff unread]
        apply and_congr_right'
        rw [next]
        simp only [Option.some.injEq, Prod.mk.injEq, Except.ok.injEq]
        constructor
        · rintro fresh nothing stored rest ⟨same, -⟩ own answered
          exact fresh nothing stored same own answered
        · intro fresh nothing stored same own answered
          exact fresh nothing stored _ ⟨same, rfl⟩ own answered
    · next idle =>
      refine ⟨fun _ => ⟨batches, ordered⟩, ?_⟩
      rw [iff_self_and]
      intro _ live drained
      simp [live, drained] at idle

end Steps

theorem ordered_subscribe (cursor published : Nat) (sessionId : SessionId) (query : Option String)
    (log : List DurableEvent) (hasMessages : Bool) (childSessions : ChildSessionTracker) :
    Ordered cursor published (subscribe sessionId query log hasMessages childSessions) [] where
  items := rfl
  committed _ member := by cases member
  ascending := List.Pairwise.nil
  waiting := List.Pairwise.nil
  unpublished _ member := by cases member
  passed _ member := by cases member
  replayed _ replayed := by cases replayed

/-- Batches in order that are all after the cursor make up the delivery. -/
theorem Ordered.deliveredOnce {cursor published : Nat} {batches : List (StoredEvent × Bool)}
    (ordered : Ordered cursor published s batches) (after : AfterCursor cursor s.outgoing) :
    s.DeliveredOnce cursor := by
  -- what remains below the cursor has no envelopes
  have empty : ∀ b ∈ batches, ¬ cursor < b.1.seq → s.batch b = [] := by
    intro b member below
    by_contra nonempty
    obtain ⟨item, inBatch⟩ := exists_mem_of_ne_nil _ nonempty
    have out : item ∈ ofEvents s.outgoing :=
      ordered.items ▸ mem_flatMap.mpr ⟨b, member, inBatch⟩
    exact below (after item (mem_filter.mp out).1 _ (origin_of_mem_batch inBatch))
  have same : (batches.filter (cursor < ·.1.seq)).flatMap s.batch = batches.flatMap s.batch := by
    clear ordered
    induction batches with
    | nil => rfl
    | cons b rest ih =>
      have tail := ih (forall_mem_cons.mp empty).2
      by_cases above : cursor < b.1.seq
      · rw [filter_cons_of_pos (by simpa using above), flatMap_cons, flatMap_cons,
          tail]
      · rw [filter_cons_of_neg (by simpa using above), flatMap_cons, tail,
          empty b mem_cons_self above, nil_append]
  refine ⟨batches.filter (cursor < ·.1.seq), ?_, ?_, ?_⟩
  · exact ordered.ascending.sublist (filter_sublist.map _)
  · intro b member
    obtain ⟨found, above⟩ := mem_filter.mp member
    exact ⟨ordered.committed b found, by simpa using above⟩
  · rw [same, ← ordered.items, outgoing, append_assoc, ofEvents_append]
    exact prefix_append _ _

theorem DeliveredOnce.afterCursor {cursor : Nat} (delivered : s.DeliveredOnce cursor) :
    AfterCursor cursor s.emitted := by
  obtain ⟨batches, -, above, sent⟩ := delivered
  intro item member seq origin
  have found : item ∈ ofEvents s.emitted := mem_filter.mpr ⟨member, by simp [origin]⟩
  obtain ⟨b, inList, inBatch⟩ := mem_flatMap.mp (sent.subset found)
  cases origin.symm.trans (origin_of_mem_batch inBatch)
  exact (above b inList).2

end SessionStream

namespace SessionFeed

open SessionStream

variable {cursor : Nat} {feed : SessionFeed}

/-! ### The lane and its stream -/

theorem run_commits (events : List DurableEvent) (s : SessionStream) :
    ∃ more, s.run (events.map .commit) = { s with log := s.log ++ more } := by
  induction events generalizing s with
  | nil => exact ⟨[], by simp [SessionStream.run]⟩
  | cons event rest ih =>
    obtain ⟨more, runs⟩ := ih (s.step (.commit event))
    simp only [SessionStream.run, map_cons, foldl_cons] at runs ⊢
    rw [runs, SessionStream.step]
    split
    · exact ⟨event :: more, by simp⟩
    · exact ⟨more, rfl⟩

/-- What a feed does is something its stream can do. -/
theorem step_stream (feed : SessionFeed) (action : Action) :
    ∃ actions, (feed.step action).stream = feed.stream.run actions := by
  cases action with
  | commit events => exact ⟨_, rfl⟩
  | publishDurable =>
    simp only [step]
    split
    · exact ⟨[], rfl⟩
    · next event _ => exact ⟨[.publish (.durable ⟨feed.published, event⟩)], rfl⟩
  | discardDeferred => exact ⟨[], rfl⟩
  | elsewhere action =>
    simp only [step]
    split
    · exact ⟨[], rfl⟩
    · exact ⟨[action], rfl⟩

theorem coherent_step (coherent : Coherent cursor feed.stream) (action : Action) :
    Coherent cursor (feed.step action).stream := by
  obtain ⟨actions, runs⟩ := feed.step_stream action
  rw [runs]
  exact coherent.run actions

/-- The feed keeps its stream in order. -/
def InOrder (cursor : Nat) (feed : SessionFeed) : Prop :=
  ∃ batches, Ordered cursor feed.published feed.stream batches

section

variable (inOrder : InOrder cursor feed)

include inOrder

theorem InOrder.step (coherent : Coherent cursor feed.stream) (action : Action) :
    InOrder cursor (feed.step action) := by
  obtain ⟨batches, ordered⟩ := inOrder
  cases action with
  | commit events =>
    obtain ⟨more, runs⟩ := run_commits events feed.stream
    simp only [InOrder, SessionFeed.step, runs]
    exact ⟨batches,
      ordered.forget rfl rfl rfl (fun _ => mem_events_commit) (.refl _) (Nat.le_refl _)⟩
  | publishDurable =>
    simp only [SessionFeed.step]
    split
    · exact ⟨batches, ordered⟩
    · next event found =>
      have allowed : feed.stream.mayPublish (.durable ⟨feed.published, event⟩) = true := by
        simp [mayPublish, found]
      simp only [InOrder, SessionStream.step, allowed, if_true]
      by_cases own : event.sessionId = feed.stream.sessionId
      · exact ⟨batches, ordered.publish own⟩
      · have same := waitingSeqs_send (s := feed.stream) (.durable ⟨feed.published, event⟩)
        simp only [ownSeq, Event.sessionId, own, if_false, Option.toList_none,
          append_nil] at same
        exact ⟨batches, ordered.forget rfl rfl rfl (fun _ => id) (same ▸ .refl _) (Nat.le_succ _)⟩
  | discardDeferred =>
    exact ⟨batches, ordered.forget rfl rfl rfl (fun _ => id) (.refl _) (Nat.le_max_left _ _)⟩
  | elsewhere action =>
    simp only [SessionFeed.step]
    split
    · exact ⟨batches, ordered⟩
    · next outside => exact (ordered_step ordered coherent _).1 (by simpa using outside)

/-- The condition on a step of the feed is one on its stream. -/
def Fresh (cursor : Nat) (feed : SessionFeed) : Action → Prop
  | .elsewhere action => SessionStream.Fresh cursor feed.stream action
  | _ => True

def EveryFresh (cursor : Nat) : SessionFeed → List Action → Prop
  | _, [] => True
  | feed, action :: rest => Fresh cursor feed action ∧ EveryFresh cursor (feed.step action) rest

instance (cursor : Nat) (feed : SessionFeed) : ∀ action, Decidable (Fresh cursor feed action)
  | .elsewhere action => inferInstanceAs (Decidable (SessionStream.Fresh cursor feed.stream action))
  | .commit _ | .publishDurable | .discardDeferred => isTrue trivial

instance instDecidableEveryFresh (cursor : Nat) :
    ∀ (feed : SessionFeed) (actions : List Action), Decidable (EveryFresh cursor feed actions)
  | _, [] => isTrue trivial
  | feed, action :: rest =>
    have := instDecidableEveryFresh cursor (feed.step action) rest
    inferInstanceAs (Decidable (Fresh cursor feed action ∧
      EveryFresh cursor (feed.step action) rest))

theorem afterCursor_step_iff (coherent : Coherent cursor feed.stream) (action : Action) :
    AfterCursor cursor (feed.step action).stream.outgoing ↔
      AfterCursor cursor feed.stream.outgoing ∧ Fresh cursor feed action := by
  obtain ⟨batches, ordered⟩ := inOrder
  cases action with
  | commit events =>
    obtain ⟨more, runs⟩ := run_commits events feed.stream
    simp only [SessionFeed.step, runs]
    exact (and_iff_left trivial).symm
  | publishDurable =>
    simp only [SessionFeed.step]
    split
    · exact (and_iff_left trivial).symm
    · exact (ordered_step ordered coherent (.publish _)).2
  | discardDeferred => exact (and_iff_left trivial).symm
  | elsewhere action =>
    have steps := (ordered_step ordered coherent action).2
    simp only [SessionFeed.step]
    split
    · next lane =>
      -- what is up to the lane is no poll
      have fresh : SessionStream.Fresh cursor feed.stream action := by
        cases action <;> first | exact trivial | cases lane
      exact (and_iff_left fresh).symm
    · exact steps

/-! ### Runs -/

omit inOrder in
theorem run_coherent (coherent : Coherent cursor feed.stream) (actions : List Action) :
    Coherent cursor (feed.run actions).stream := by
  induction actions generalizing feed with
  | nil => exact coherent
  | cons action rest ih => exact ih (coherent_step coherent action)

theorem run_inOrder (coherent : Coherent cursor feed.stream) (actions : List Action) :
    InOrder cursor (feed.run actions) := by
  induction actions generalizing feed with
  | nil => exact inOrder
  | cons action rest ih => exact ih (inOrder.step coherent action) (coherent_step coherent action)

/-- A run puts out events after the cursor exactly if every step is fresh. -/
theorem run_afterCursor_iff (coherent : Coherent cursor feed.stream) (actions : List Action) :
    AfterCursor cursor (feed.run actions).stream.outgoing ↔
      AfterCursor cursor feed.stream.outgoing ∧ EveryFresh cursor feed actions := by
  induction actions generalizing feed with
  | nil => exact (and_iff_left trivial).symm
  | cons action rest ih =>
    rw [EveryFresh, ← and_assoc, ← afterCursor_step_iff inOrder coherent action]
    exact ih (inOrder.step coherent action) (coherent_step coherent action)

end

/-- Polls of the stream are steps of the feed. -/
theorem run_polls (feed : SessionFeed) {polls : List SessionStream.Action}
    (all : ∀ action ∈ polls, action.isPoll = true) :
    feed.run (polls.map .elsewhere) = { feed with stream := feed.stream.run polls } := by
  induction polls generalizing feed with
  | nil => rfl
  | cons action rest ih =>
    have poll : upToLane feed.stream.sessionId action = false := by
      have := all action mem_cons_self
      cases action <;> first | rfl | cases this
    have steps : feed.step (.elsewhere action) =
        { feed with stream := feed.stream.step action } := by
      simp [SessionFeed.step, poll]
    rw [map_cons, run, foldl_cons, steps]
    exact ih _ (forall_mem_cons.mp all).2

/-- Whatever the lane, the bus and the polls do in turn: if every step of a run is fresh, the
stream has sent only events after its cursor, each at most once and in ascending order. If one
step is not, then the stream will send an event at or below its cursor. -/
theorem delivered_once_iff_steps_fresh (sessionId : SessionId) (text : String) (cursor : Nat)
    (parsed : parseReplayCursor text = .ok cursor) (log : List DurableEvent) (hasMessages : Bool)
    (childSessions : ChildSessionTracker) (published : Nat) (actions : List Action) :
    let start : SessionFeed :=
      ⟨subscribe sessionId (some text) log hasMessages childSessions, published⟩
    (EveryFresh cursor start actions → (start.run actions).stream.DeliveredOnce cursor) ∧
      (¬ EveryFresh cursor start actions → ∃ polls,
        ¬ (start.run (actions ++ polls)).stream.DeliveredOnce cursor) := by
  intro start
  have coherent : Coherent cursor start.stream :=
    coherent_subscribe parsed sessionId log hasMessages childSessions
  have inOrder : InOrder cursor start :=
    ⟨[], ordered_subscribe cursor published sessionId (some text) log hasMessages childSessions⟩
  have nothing : AfterCursor cursor start.stream.outgoing := afterCursor_of_none (by
    intro item member
    cases member)
  have fresh_iff := run_afterCursor_iff inOrder coherent actions
  rw [and_iff_right nothing] at fresh_iff
  constructor
  · intro fresh
    obtain ⟨batches, ordered⟩ := run_inOrder inOrder coherent actions
    exact ordered.deliveredOnce (fresh_iff.mpr fresh)
  · intro stale
    have atEnd := run_coherent coherent actions
    obtain ⟨s', ⟨polls, all, runs⟩, sent⟩ := exists_all_sent atEnd
    refine ⟨polls.map .elsewhere, fun delivered => stale (fresh_iff.mp ?_)⟩
    have ends : (start.run (actions ++ polls.map .elsewhere)).stream = s' := by
      rw [run, foldl_append]
      exact (congrArg SessionFeed.stream (run_polls (start.run actions) all)).trans runs
    -- all is sent, so that what was put out before would be after the cursor
    have after := delivered.afterCursor
    rw [ends, sent, ← ends, run, foldl_append] at after
    exact ((run_afterCursor_iff (run_inOrder inOrder coherent actions) atEnd _).mp after).1

end SessionFeed

/-! ### A message that is published late -/

open SessionStream SessionFeed

/-- The message has been committed but not published when the client connects. -/
def unpublishedMessage (cursor : String) : SessionFeed :=
  ⟨subscribe "session" (some cursor) [openingEvent, messageEvent] true
    ⟨fun _ => none, fun _ => none⟩, 1⟩

/-- The client connects and gets all the replay has for it; then the message is published. -/
def publishedLate : List SessionFeed.Action :=
  [.elsewhere (.connect true), .elsewhere (.readMissed true), .elsewhere .emit, .elsewhere .drain,
    .publishDurable, .elsewhere (.take true "" .events), .elsewhere .emit]

/-- A client that has the message already, and connects with its number, is sent it again. -/
theorem message_delivered_again :
    ¬ ((unpublishedMessage "1").run publishedLate).stream.DeliveredOnce 1 := by
  intro delivered
  have sent : ∃ item ∈ ((unpublishedMessage "1").run publishedLate).stream.emitted,
      item.origin = some 1 := by decide +kernel
  obtain ⟨item, member, origin⟩ := sent
  exact absurd (delivered.afterCursor item member 1 origin) (Nat.lt_irrefl 1)

/-- A client without the message gets it by the replay, and not again when it is published. -/
theorem message_replayed_once :
    parseReplayCursor "0" = .ok 0 ∧ EveryFresh 0 (unpublishedMessage "0") publishedLate ∧
      ((unpublishedMessage "0").run publishedLate).stream.DeliveredOnce 0 ∧
      ((unpublishedMessage "0").run publishedLate).stream.emitted.map (·.origin) = [some 1] := by
  have parsed : parseReplayCursor "0" = .ok 0 := by decide +kernel
  have fresh : EveryFresh 0 (unpublishedMessage "0") publishedLate := by decide +kernel
  refine ⟨parsed, fresh, ?_, by decide +kernel⟩
  exact (delivered_once_iff_steps_fresh "session" "0" 0 parsed [openingEvent, messageEvent] true
    ⟨fun _ => none, fun _ => none⟩ 1 publishedLate).1 fresh

end Astrcode
