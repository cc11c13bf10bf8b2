import Astrcode.Library.Prefixes
import Astrcode.Server.Stream

/-!
# Cursors of the event stream

A client that loses its stream connects again with the last cursor it saw. It misses nothing if
every envelope comes after, or with, all the deltas of the events its cursor stands for.

The stream promises this of an envelope exactly if two things hold when it takes up what the
envelope answers: all earlier events up to the cursor have been put out already, and the event
itself, if it is one, has a single delta. Neither is guaranteed. An input without a
sequence number of its own is sent with the head of the log, which may be ahead of
what the bus has delivered, and a tool call that ends takes two envelopes with the same cursor.
-/
namespace Astrcode

open Library List

/-! ### The events of a log -/

theorem mem_numberFrom {first : Nat} {log : List DurableEvent} {e : StoredEvent} :
    e ∈ numberFrom first log ↔ first ≤ e.seq ∧ log[e.seq - first]? = some e.event := by
  simp only [numberFrom_eq_map, mem_map, mem_zipIdx_iff_le_and_getElem?_sub]
  constructor
  · rintro ⟨numbered, found, rfl⟩
    exact found
  · intro found
    exact ⟨(e.event, e.seq), found, rfl⟩

theorem numberFrom_sorted (first : Nat) (log : List DurableEvent) :
    (numberFrom first log).Pairwise fun a b => a.seq < b.seq := by
  have numbers : ((log.zipIdx first).map Prod.snd).Pairwise (· < ·) := by
    rw [zipIdx_map_snd]
    exact pairwise_lt_range'
  rw [numberFrom_eq_map]
  exact pairwise_map.mpr (pairwise_map.mp numbers)

namespace SessionStream

variable {e : StoredEvent} {sent more : List SseItem} {item : SseItem} {input : LiveInput}
  {missed part : List StoredEvent} {s' s : SessionStream} {cursor seq : Nat}
  {rest : List ConversationDelta} {first : ConversationDelta}

theorem mem_events : e ∈ s.events ↔ s.log[e.seq]? = some e.event := by
  simp [events, mem_numberFrom]

theorem eq_of_seq_eq {e' : StoredEvent} (member : e ∈ s.events) (member' : e' ∈ s.events)
    (same : e.seq = e'.seq) : e = e' := by
  rw [mem_events] at member member'
  obtain ⟨seq, event⟩ := e
  obtain ⟨seq', event'⟩ := e'
  simp_all

/-! ### Reported events -/

variable (s)

/-- The deltas by which the stream reports an event. -/
def deltasOf (e : StoredEvent) (hasMessages : Bool) :
    List ConversationDelta :=
  if alreadyReplayed s.replayMaxSeq (some e.seq) then eventToReplayDeltas e hasMessages
  else durableEventToDeltas e hasMessages

/-- All deltas of the event are among the items. -/
def Reported (sent : List SseItem) (e : StoredEvent) : Prop :=
  ∃ hasMessages, ∀ delta ∈ s.deltasOf e hasMessages,
    s.conversationSseItem (some e.seq) e.seq delta ∈ sent

/-- All deltas of the events after the client's cursor and up to the given one are among the
items. -/
def Covered (cursor : Nat) (sent : List SseItem) (upTo : Nat) : Prop :=
  ∀ e ∈ s.events, cursor < e.seq → e.seq ≤ upTo → s.Reported sent e

/-- Each item comes after, or with, all that its cursor stands for. -/
def Safe (cursor : Nat) (items : List SseItem) : Prop :=
  AtEach (fun before item => s.Covered cursor (before ++ [item]) item.envelope.cursor) items

/-- A client that connected with `cursor` can connect again with any cursor it was sent. -/
def CursorSafe (cursor : Nat) : Prop := s.Safe cursor s.emitted

/-- All the stream has put out, sent or not. -/
def outgoing : List SseItem := s.emitted ++ s.replay ++ s.pending

variable {s}

theorem Reported.mono (reported : s.Reported sent e) (subset : sent ⊆ more) :
    s.Reported more e := by
  obtain ⟨hasMessages, all⟩ := reported
  exact ⟨hasMessages, fun delta member => subset (all delta member)⟩

theorem Covered.mono {upTo : Nat} (covered : s.Covered cursor sent upTo)
    (subset : sent ⊆ more) : s.Covered cursor more upTo :=
  fun e member after before => (covered e member after before).mono subset

theorem reported_append_of_ne (other : item.origin ≠ some e.seq) :
    s.Reported (sent ++ [item]) e ↔ s.Reported sent e := by
  constructor
  · rintro ⟨hasMessages, all⟩
    refine ⟨hasMessages, fun delta member => ?_⟩
    rcases mem_append.mp (all delta member) with found | found
    · exact found
    · rw [mem_singleton] at found
      exact absurd (found ▸ rfl) other
  · intro reported
    exact reported.mono (subset_append_left _ _)

theorem deltasOf_nodup (s : SessionStream) (e : StoredEvent) (hasMessages : Bool) :
    (s.deltasOf e hasMessages).Nodup := by
  simp only [deltasOf]
  split
  · exact (eventDeltas_nodup e hasMessages).2
  · exact (eventDeltas_nodup e hasMessages).1

theorem deltasOf_length (s : SessionStream) (e : StoredEvent) (a b : Bool) :
    (s.deltasOf e a).length = (s.deltasOf e b).length := by
  simp only [deltasOf]
  split
  · exact (eventDeltas_length e a b).2
  · exact (eventDeltas_length e a b).1

/-- One envelope does not report an event with several deltas. -/
theorem exists_other_delta {a : Bool} (several : 1 < (s.deltasOf e a).length) (b : Bool)
    (delta : ConversationDelta) : ∃ other ∈ s.deltasOf e b, other ≠ delta := by
  -- if all deltas were the given one, a list without repetition would have one element
  by_contra none
  push Not at none
  have constant := eq_replicate_of_mem none
  have nodup := s.deltasOf_nodup e b
  rw [constant, nodup_replicate] at nodup
  rw [s.deltasOf_length e a b] at several
  omega

/-- What reports an event with deltas is among the items. -/
theorem Reported.exists_origin {a : Bool} (reported : s.Reported sent e)
    (some_delta : s.deltasOf e a ≠ []) :
    ∃ item ∈ sent, item.origin = some e.seq := by
  obtain ⟨hasMessages, all⟩ := reported
  -- how many deltas there are does not depend on whether there are messages
  have nonempty : s.deltasOf e hasMessages ≠ [] := by
    rw [← length_pos_iff, s.deltasOf_length e hasMessages a, length_pos_iff]
    exact some_delta
  obtain ⟨delta, member⟩ := exists_mem_of_ne_nil _ nonempty
  exact ⟨_, all delta member, rfl⟩

/-! ### One batch -/

/-- The items of one answer carry one cursor, so only the first of them matters. -/
theorem batch_safe_iff {origin : Option Nat} {place : Nat} :
    AtEach (fun before item => s.Covered cursor (sent ++ before ++ [item]) item.envelope.cursor)
        ((first :: rest).map (s.conversationSseItem origin place)) ↔
      s.Covered cursor (sent ++ [s.conversationSseItem origin place first]) place := by
  -- once the first item is covered, what is sent after it only adds to the cover
  rw [map_cons, atEach_cons_of_persists]
  · simp [conversationSseItem]
  · intro covered before item member
    obtain ⟨delta, -, rfl⟩ := mem_map.mp member
    exact covered.mono (by simp)

theorem covered_append_of_origin_none {upTo : Nat} (origin : item.origin = none) :
    s.Covered cursor (sent ++ [item]) upTo ↔ s.Covered cursor sent upTo := by
  apply forall₂_congr
  intro e member
  rw [reported_append_of_ne (by simp [origin])]

/-- The first envelope of an event is safe if the events before it have been reported and it is
the only one. -/
theorem covered_append_of_own {hasMessages : Bool} (member : e ∈ s.events)
    (deltas : s.deltasOf e hasMessages = first :: rest)
    (whole : (∃ item ∈ sent, item.origin = some e.seq) → s.Reported sent e) :
    s.Covered cursor (sent ++ [s.conversationSseItem (some e.seq) e.seq first]) e.seq ↔
      (∀ d ∈ s.events, cursor < d.seq → d.seq ≤ e.seq → some e.seq ≠ some d.seq →
        s.Reported sent d) ∧
      ∀ d ∈ s.events, cursor < d.seq → some e.seq = some d.seq →
        (first :: rest).length ≤ 1 ∨ s.Reported sent d := by
  constructor
  · intro covered
    constructor
    · intro d known after before different
      exact (reported_append_of_ne different).mp (covered d known after before)
    · intro d known after same
      obtain rfl := eq_of_seq_eq member known (Option.some.inj same)
      by_contra unreported
      push Not at unreported
      obtain ⟨several, unreported⟩ := unreported
      rw [← deltas] at several
      obtain ⟨b, all⟩ := covered e member after le_rfl
      obtain ⟨other, isDelta, different⟩ := exists_other_delta several b first
      -- the other delta is not the first, so the event was put out before, and as a whole
      rcases mem_append.mp (all other isDelta) with found | found
      · exact unreported (whole ⟨_, found, rfl⟩)
      · simp [conversationSseItem] at found
        exact different found
  · rintro ⟨earlier, own⟩ d known after before
    by_cases same : some e.seq = some d.seq
    · obtain rfl := eq_of_seq_eq member known (Option.some.inj same)
      rcases own e known after rfl with single | reported
      · have alone : rest = [] := by simpa using single
        refine ⟨hasMessages, fun delta isDelta => ?_⟩
        rw [deltas, alone, mem_singleton] at isDelta
        simp [isDelta]
      · exact reported.mono (subset_append_left _ _)
    · exact (earlier d known after before same).mono (subset_append_left _ _)

/-! ### The answer to an input -/

/-- The sequence number of an event of the stream's own session. -/
def ownSeq (s : SessionStream) : LiveInput → Option Nat
  | .event event => if event.sessionId = s.sessionId then event.seq else none
  | .notification _ => none

/-- What the stream has to say about an input. -/
def answerDeltas (uuid : String) (s : SessionStream) : LiveInput → List ConversationDelta
  | .event event =>
    if event.sessionId = s.sessionId then
      if alreadyReplayed s.replayMaxSeq event.seq then []
      else eventToDeltas event (s.hasMessages || eventAddsMessage event)
    else ((s.childSessions.projectEvent event).map (·.1)).toList
  | .notification notification => (notificationDelta uuid s.sessionId notification).toList

/-- The cursor it says so with: the event's own, else the cached one, else the log's head. -/
def answerCursor (storage : Bool) (s : SessionStream) (input : LiveInput) : Nat :=
  (s.ownSeq input).getD (s.cachedCursor.getD (s.stateCursor storage))

/-- The items an input is answered with. -/
def answerItems (storage : Bool) (uuid : String) (s : SessionStream) (input : LiveInput) :
    List SseItem :=
  (s.answerDeltas uuid input).map
    (s.conversationSseItem (s.ownSeq input) (s.answerCursor storage input))

/-- What a stream that answers an input may have changed besides. -/
def Noted (storage : Bool) (input : LiveInput) (s s' : SessionStream) : Prop :=
  ∃ hasMessages childSessions cachedCursor,
    s' = { s with hasMessages, childSessions, cachedCursor } ∧
    (cachedCursor = s.cachedCursor ∨ cachedCursor = some (s.answerCursor storage input))

variable (storage : Bool)

theorem sseItemAtCursor_eq (delta : ConversationDelta) (s : SessionStream) :
    s.sseItemAtCursor storage delta =
      ([s.conversationSseItem none (s.cachedCursor.getD (s.stateCursor storage)) delta],
        { s with cachedCursor := some (s.cachedCursor.getD (s.stateCursor storage)) }) := by
  obtain ⟨⟩ := s
  rename_i cachedCursor _
  cases cachedCursor <;> rfl

theorem sseCursor_observe (event : Event) (s : SessionStream) :
    (s.observe event).sseCursor storage event =
      let place := event.seq.getD (s.cachedCursor.getD (s.stateCursor storage))
      (place, { s.observe event with cachedCursor := some place }) := by
  obtain ⟨⟩ := s
  rename_i cachedCursor _
  cases event with
  | durable stored => rfl
  | live event => cases cachedCursor <;> rfl

variable (uuid : String)

theorem ownEventToSseItems_eq (event : Event) (own : event.sessionId = s.sessionId)
    (fresh : alreadyReplayed s.replayMaxSeq event.seq = false) :
    (s.eventToSseItems storage event).1 = s.answerItems storage uuid (.event event) ∧
      Noted storage (.event event) s (s.eventToSseItems storage event).2 := by
  have observed : (s.observe event).hasMessages = (s.hasMessages || eventAddsMessage event) := rfl
  have cursors : s.answerCursor storage (.event event) =
      event.seq.getD (s.cachedCursor.getD (s.stateCursor storage)) := by
    simp [answerCursor, ownSeq, own]
  simp only [eventToSseItems, answerItems, answerDeltas, ownSeq, own, fresh, if_true, Bool.false_eq_true,
    if_false, observed]
  cases deltas : eventToDeltas event (s.hasMessages || eventAddsMessage event) with
  | nil =>
    refine ⟨rfl, _, _, _, rfl, ?_⟩
    -- the cursor of an event is noted even if there is nothing to say about it
    cases numbered : event.seq with
    | none => exact Or.inl rfl
    | some seq => exact Or.inr (by simp [cursors, numbered])
  | cons first rest =>
    -- the event's own number, or else the cached cursor, or else the head of the log
    rw [sseCursor_observe, ← cursors]
    exact ⟨rfl, _, _, _, rfl, Or.inr rfl⟩

theorem eventToSseItems_eq (event : Event) (s : SessionStream) :
    (s.eventToSseItems storage event).1 = s.answerItems storage uuid (.event event) ∧
      Noted storage (.event event) s (s.eventToSseItems storage event).2 := by
  by_cases own : event.sessionId = s.sessionId
  · by_cases replayed : alreadyReplayed s.replayMaxSeq event.seq = true
    · simp only [eventToSseItems, answerItems, answerDeltas, own, replayed, if_true, map_nil, true_and]
      exact ⟨s.hasMessages, s.childSessions, s.cachedCursor, rfl, Or.inl rfl⟩
    · exact ownEventToSseItems_eq storage uuid event own (by simpa using replayed)
  · cases projected : s.childSessions.projectEvent event with
    | none =>
      simp only [eventToSseItems, answerItems, answerDeltas, own, projected, if_false, Option.map_none,
        Option.toList_none, map_nil, true_and]
      exact ⟨s.hasMessages, s.childSessions, s.cachedCursor, rfl, Or.inl rfl⟩
    | some reported =>
      obtain ⟨delta, childSessions⟩ := reported
      simp only [eventToSseItems, answerItems, answerDeltas, own, projected, if_false, Option.map_some,
        Option.toList_some, map_cons, map_nil, sseItemAtCursor_eq, ownSeq, answerCursor]
      exact ⟨rfl, s.hasMessages, childSessions, _, rfl, Or.inr (by simp [answerCursor, ownSeq, own]; rfl)⟩

theorem liveInputToSseItems_eq (input : LiveInput) (s : SessionStream) :
    (s.liveInputToSseItems storage uuid input).1 = s.answerItems storage uuid input ∧
      Noted storage input s (s.liveInputToSseItems storage uuid input).2 := by
  cases input with
  | event event => exact eventToSseItems_eq storage uuid event s
  | notification notification =>
    simp only [liveInputToSseItems, notificationToSseItems, answerItems, answerDeltas]
    cases notificationDelta uuid s.sessionId notification with
    | none => exact ⟨rfl, s.hasMessages, s.childSessions, s.cachedCursor, rfl, Or.inl rfl⟩
    | some delta =>
      simp only [sseItemAtCursor_eq]
      exact ⟨rfl, s.hasMessages, s.childSessions, _, rfl, Or.inr rfl⟩

theorem answer_eq (input : LiveInput) (s : SessionStream) :
    ∃ hasMessages childSessions cachedCursor,
      s.answer storage uuid input =
        { s with
          hasMessages, childSessions, cachedCursor
          pending := s.pending ++ s.answerItems storage uuid input } ∧
      (cachedCursor = s.cachedCursor ∨ cachedCursor = some (s.answerCursor storage input)) := by
  obtain ⟨items, hasMessages, childSessions, cachedCursor, rest, noted⟩ :=
    liveInputToSseItems_eq storage uuid input s
  refine ⟨hasMessages, childSessions, cachedCursor, ?_, noted⟩
  simp [answer, items, rest]

/-! ### When a step is sound -/

/-- The stream may answer the input: what the cursor of the answer stands for has been put out,
but for the input itself, and the input is put out with one envelope or has been before. -/
structure Ready (s : SessionStream) (cursor : Nat) (storage : Bool) (uuid : String)
    (input : LiveInput) : Prop where
  earlier : ∀ e ∈ s.events, cursor < e.seq → e.seq ≤ s.answerCursor storage input →
    s.ownSeq input ≠ some e.seq → s.Reported s.outgoing e
  own : ∀ e ∈ s.events, cursor < e.seq → s.ownSeq input = some e.seq →
    (s.answerDeltas uuid input).length ≤ 1 ∨ s.Reported s.outgoing e

/-- No event the stream has missed needs several envelopes. -/
def ReplaysSingly (s : SessionStream) (cursor : Nat) : Prop :=
  (s.events.filter (cursor < ·.seq)).length ≤ maxReplayEvents →
    ∀ e ∈ s.events, cursor < e.seq → (eventToReplayDeltas e s.hasMessages).length ≤ 1

/-- The condition on a step: reading the missed events and taking up an input can go wrong. -/
def Sound (cursor : Nat) (s : SessionStream) : Action → Prop
  | .readMissed storage =>
    s.connection = .accepted cursor → storage = true → s.ReplaysSingly cursor
  | .take storage uuid inlet =>
    s.isLive = true → s.drained = true → ∀ input rest,
      s.nextInput inlet = some (.ok input, rest) → s.answerDeltas uuid input ≠ [] →
        s.Ready cursor storage uuid input
  | _ => True

/-- Every step of a run is sound. -/
def EverySound (cursor : Nat) : SessionStream → List Action → Prop
  | _, [] => True
  | s, action :: rest => Sound cursor s action ∧ EverySound cursor (s.step action) rest

/-! The conditions can be checked on a given run. -/

instance (s : SessionStream) (sent : List SseItem) (e : StoredEvent) :
    Decidable (s.Reported sent e) :=
  inferInstanceAs (Decidable (∃ hasMessages, ∀ delta ∈ s.deltasOf e hasMessages, _ ∈ sent))

instance (s : SessionStream) (cursor : Nat) (storage : Bool) (uuid : String) (input : LiveInput) :
    Decidable (s.Ready cursor storage uuid input) :=
  decidable_of_iff
    ((∀ e ∈ s.events, cursor < e.seq → e.seq ≤ s.answerCursor storage input →
        s.ownSeq input ≠ some e.seq → s.Reported s.outgoing e) ∧
      ∀ e ∈ s.events, cursor < e.seq → s.ownSeq input = some e.seq →
        (s.answerDeltas uuid input).length ≤ 1 ∨ s.Reported s.outgoing e)
    ⟨fun both => ⟨both.1, both.2⟩, fun ready => ⟨ready.earlier, ready.own⟩⟩

instance (s : SessionStream) (cursor : Nat) : Decidable (s.ReplaysSingly cursor) :=
  inferInstanceAs (Decidable (_ → ∀ e ∈ s.events, _ → _ ≤ 1))

instance (s : SessionStream) (cursor : Nat) (storage : Bool) (uuid : String) (inlet : Inlet) :
    Decidable (∀ input rest, s.nextInput inlet = some (.ok input, rest) →
      s.answerDeltas uuid input ≠ [] → s.Ready cursor storage uuid input) :=
  match next : s.nextInput inlet with
  | some (.ok input, rest) =>
    decidable_of_iff (s.answerDeltas uuid input ≠ [] → s.Ready cursor storage uuid input)
      ⟨fun ready other rest same => by cases same; exact ready, fun ready => ready input rest rfl⟩
  | some (.error _, _) => isTrue fun _ _ same => by cases same
  | none => isTrue fun _ _ same => by cases same

instance (cursor : Nat) (s : SessionStream) : ∀ action, Decidable (Sound cursor s action)
  | .readMissed storage =>
    inferInstanceAs (Decidable (s.connection = .accepted cursor → storage = true → _))
  | .take storage uuid inlet =>
    inferInstanceAs (Decidable (s.isLive = true → s.drained = true → ∀ input rest,
      s.nextInput inlet = some (.ok input, rest) → s.answerDeltas uuid input ≠ [] →
        s.Ready cursor storage uuid input))
  | .commit _ | .publish _ | .notify _ | .lagEvents | .lagNotifications | .closeEvents
  | .connect _ | .emit | .drain => isTrue trivial

instance (cursor : Nat) :
    ∀ (s : SessionStream) (actions : List Action), Decidable (EverySound cursor s actions)
  | _, [] => isTrue trivial
  | s, action :: rest =>
    have := instDecidableEverySound cursor (s.step action) rest
    inferInstanceAs (Decidable (Sound cursor s action ∧ EverySound cursor (s.step action) rest))

/-! ### What holds of every stream -/

/-- What the bus delivers of the session has been committed. -/
def Committed (s : SessionStream) (event : Event) : Prop :=
  ∀ stored, event = .durable stored → stored.event.sessionId = s.sessionId → stored ∈ s.events

structure Coherent (cursor : Nat) (s : SessionStream) : Prop where
  query : ∃ text, s.query = some text ∧ parseReplayCursor text = .ok cursor
  requested : ∀ requestedSeq, s.connection = .accepted requestedSeq → requestedSeq = cursor
  unopened : (∀ live, s.connection ≠ .streaming live) → s.outgoing = [] ∧ s.replayMaxSeq = none
  received : ∀ event ∈ s.eventRx.queue, s.Committed event
  kept : ∀ event, .event event ∈ s.buffered → s.Committed event
  bounded : ∀ item ∈ s.outgoing, item.envelope.cursor ≤ s.log.length - 1
  cached : ∀ place, s.cachedCursor = some place → place ≤ s.log.length - 1
  /-- What is put out of an event is put out as a whole. -/
  whole : ∀ item ∈ s.outgoing, ∀ seq, item.origin = some seq →
    ∃ e ∈ s.events, e.seq = seq ∧ s.Reported s.outgoing e
  begun : s.pending ≠ [] ∨ s.buffered ≠ [] →
    s.connection = .streaming true ∧ s.closing = false ∧ s.drained = true

theorem coherent_subscribe {text : String} (parsed : parseReplayCursor text = .ok cursor)
    (sessionId : SessionId) (log : List DurableEvent) (hasMessages : Bool)
    (childSessions : ChildSessionTracker) :
    Coherent cursor (subscribe sessionId (some text) log hasMessages childSessions) where
  query := ⟨text, rfl, parsed⟩
  requested _ accepted := by cases accepted
  unopened _ := ⟨rfl, rfl⟩
  received _ member := by cases member
  kept _ member := by cases member
  bounded _ member := by cases member
  cached _ found := by cases found
  whole _ member := by cases member
  begun nonempty := by simp [subscribe] at nonempty

theorem stateCursor_le (s : SessionStream) : s.stateCursor storage ≤ s.log.length - 1 := by
  simp only [stateCursor, latestCursor]
  split
  · split <;> simp
  · exact Nat.zero_le _

theorem seq_lt_length (member : e ∈ s.events) : e.seq < s.log.length :=
  (List.getElem?_eq_some_iff.mp (mem_events.mp member)).1

theorem ownSeq_eq_some (own : s.ownSeq input = some seq) :
    ∃ e : StoredEvent, e.seq = seq ∧ input = .event (.durable e) ∧
      e.event.sessionId = s.sessionId := by
  cases input with
  | notification => cases own
  | event event =>
    simp only [ownSeq] at own
    split at own
    · next same =>
      cases event with
      | live => cases own
      | durable stored => exact ⟨stored, Option.some.inj own, rfl, same⟩
    · cases own

/-- An input of the session that is answered under its own number is a committed event. -/
theorem exists_of_ownSeq (own : s.ownSeq input = some seq)
    (committed : ∀ event, input = .event event → s.Committed event) :
    ∃ e ∈ s.events, e.seq = seq ∧ input = .event (.durable e) ∧
      e.event.sessionId = s.sessionId := by
  obtain ⟨e, numbered, rfl, same⟩ := ownSeq_eq_some own
  exact ⟨e, committed _ rfl e rfl same, numbered, rfl, same⟩

theorem answerCursor_le (coherent : Coherent cursor s) (storage : Bool)
    (committed : ∀ event, input = .event event → s.Committed event) :
    s.answerCursor storage input ≤ s.log.length - 1 := by
  simp only [answerCursor]
  cases own : s.ownSeq input with
  | some seq =>
    obtain ⟨e, member, rfl, -⟩ := exists_of_ownSeq own committed
    have := seq_lt_length member
    simp
    omega
  | none =>
    cases found : s.cachedCursor with
    | some place => exact coherent.cached place found
    | none => exact s.stateCursor_le storage

/-- A committed event that is answered is put out with the deltas it is reported by. -/
theorem answerDeltas_own {uuid : String} (own : e.event.sessionId = s.sessionId)
    (answered : s.answerDeltas uuid (.event (.durable e)) ≠ []) :
    ∃ hasMessages, s.answerDeltas uuid (.event (.durable e)) = s.deltasOf e hasMessages := by
  refine ⟨s.hasMessages || eventAddsMessage (.durable e), ?_⟩
  by_cases replayed : alreadyReplayed s.replayMaxSeq (some e.seq) = true
  · exact absurd (by simp [answerDeltas, Event.sessionId, Event.seq, own, replayed]) answered
  · simp [answerDeltas, deltasOf, Event.sessionId, Event.seq, own, replayed, eventToDeltas]

/-- Putting out an answer is safe exactly if the stream was ready for the input. -/
theorem answer_safe_iff (coherent : Coherent cursor s) (storage : Bool) (uuid : String)
    (committed : ∀ event, input = .event event → s.Committed event) :
    s.Safe cursor (s.outgoing ++ s.answerItems storage uuid input) ↔
      s.Safe cursor s.outgoing ∧
        (s.answerDeltas uuid input ≠ [] → s.Ready cursor storage uuid input) := by
  rw [Safe, atEach_append, ← Safe, and_congr_right_iff]
  intro _
  simp only [answerItems]
  cases deltas : s.answerDeltas uuid input with
  | nil => simp
  | cons first rest =>
    rw [batch_safe_iff]
    simp only [ne_eq, reduceCtorEq, not_false_eq_true, forall_const]
    cases own : s.ownSeq input with
    | none =>
      -- the answer reports no event itself, so that all must have been reported before
      rw [covered_append_of_origin_none rfl]
      constructor
      · intro covered
        exact ⟨fun e member after before _ => covered e member after before,
          fun e _ _ same => by rw [own] at same; cases same⟩
      · intro ready e member after before
        exact ready.earlier e member after before (by simp [own])
    | some seq =>
      -- the answer reports an event; only this one may still be missing
      obtain ⟨e, member, rfl, rfl, same⟩ := exists_of_ownSeq own committed
      have answered : s.answerDeltas uuid (.event (.durable e)) ≠ [] := by simp [deltas]
      obtain ⟨hasMessages, projected⟩ := answerDeltas_own same answered
      have placed : s.answerCursor storage (.event (.durable e)) = e.seq := by
        simp [answerCursor, own]
      rw [placed, covered_append_of_own member (projected.symm.trans deltas)]
      · rw [← own, ← placed, ← deltas]
        exact ⟨fun ⟨earlier, single⟩ => ⟨earlier, single⟩, fun ready => ⟨ready.earlier, ready.own⟩⟩
      · rintro ⟨item, out, origin⟩
        obtain ⟨d, known, same, reported⟩ := coherent.whole item out e.seq origin
        obtain rfl := eq_of_seq_eq known member same
        exact reported

/-! ### The replay -/

theorem mem_missed :
    e ∈ s.events.filter (cursor < ·.seq) ↔ e ∈ s.events ∧ cursor < e.seq := by
  simp

theorem replayAfterCursor_ok {storage : Bool} :
    s.replayAfterCursor storage cursor = .ok missed ↔
      storage = true ∧ (s.events.filter (cursor < ·.seq)).length ≤ maxReplayEvents ∧
        missed = s.events.filter (cursor < ·.seq) := by
  simp only [replayAfterCursor]
  split
  · next works =>
    rw [length_take]
    split
    · next many =>
      simp
      omega
    · next few =>
      have all : (s.events.filter (cursor < ·.seq)).length ≤ maxReplayEvents := by omega
      rw [take_of_length_le (by omega)]
      simp [works, all, eq_comm]
  · next fails => simp [fails]

/-- Among events in order, those up to the last one of a replay are in it. -/
theorem le_maxSeq (member : e ∈ missed) :
    alreadyReplayed (missed.map (·.seq)).max? (some e.seq) = true := by
  have found : e.seq ∈ missed.map (·.seq) := mem_map_of_mem member
  cases largest : (missed.map (·.seq)).max? with
  | none =>
    rw [max?_eq_none_iff] at largest
    rw [largest] at found
    cases found
  | some max =>
    have := (max?_eq_some_iff.mp largest).2 e.seq found
    simpa [alreadyReplayed] using this

/-- The items of a replay. -/
def replayItems (s : SessionStream) (missed : List StoredEvent) : List SseItem :=
  missed.flatMap fun event =>
    (eventToReplayDeltas event s.hasMessages).map (s.conversationSseItem (some event.seq) event.seq)

theorem stream_deltasOf (member : e ∈ missed) (hasMessages : Bool) :
    (s.stream missed).deltasOf e hasMessages = eventToReplayDeltas e hasMessages := by
  exact if_pos (le_maxSeq member)

theorem stream_reported (member : e ∈ part) (subset : part ⊆ missed) :
    (s.stream missed).Reported (s.replayItems part) e := by
  refine ⟨s.hasMessages, fun delta isDelta => ?_⟩
  rw [stream_deltasOf (subset member)] at isDelta
  exact mem_flatMap.mpr ⟨e, member, mem_map_of_mem isDelta⟩

theorem mem_replayItems (member : item ∈ s.replayItems part) :
    ∃ e ∈ part, item.origin = some e.seq ∧ item.envelope.cursor = e.seq := by
  obtain ⟨e, found, inBatch⟩ := mem_flatMap.mp member
  obtain ⟨delta, -, rfl⟩ := mem_map.mp inBatch
  exact ⟨e, found, rfl, rfl⟩

/-- One event of a replay, after those before it. -/
theorem replay_batch_safe_iff {before after : List StoredEvent}
    (all : missed = s.events.filter (cursor < ·.seq)) (split : missed = before ++ e :: after) :
    AtEach (fun sent item => (s.stream missed).Covered cursor
        (s.replayItems before ++ sent ++ [item]) item.envelope.cursor)
        ((eventToReplayDeltas e s.hasMessages).map
          (s.conversationSseItem (some e.seq) e.seq)) ↔
      (eventToReplayDeltas e s.hasMessages).length ≤ 1 := by
  -- the log is in order, so that the events below this one are those before it
  have sorted : (before ++ e :: after).Pairwise fun a b => a.seq < b.seq :=
    split ▸ all ▸ (numberFrom_sorted 0 s.log).filter _
  obtain ⟨-, fromHere, across⟩ := pairwise_append.mp sorted
  have member : e ∈ missed := by simp [split]
  have missing : e ∈ s.events ∧ cursor < e.seq := mem_missed.mp (all ▸ member)
  -- nothing of the event is put out yet
  have fresh : ¬ ∃ item ∈ s.replayItems before, item.origin = some e.seq := by
    rintro ⟨item, out, origin⟩
    obtain ⟨d, earlier, itsOrigin, -⟩ := mem_replayItems out
    have := across d earlier e (by simp)
    rw [itsOrigin, Option.some.injEq] at origin
    omega
  cases deltas : eventToReplayDeltas e s.hasMessages with
  | nil => simp
  | cons first rest =>
    have projected : (s.stream missed).deltasOf e s.hasMessages = first :: rest := by
      rw [stream_deltasOf member, deltas]
    apply Iff.trans batch_safe_iff
    apply Iff.trans (covered_append_of_own (s := s.stream missed) missing.1 projected
      fun found => absurd found fresh)
    constructor
    · rintro ⟨-, own⟩
      rcases own e missing.1 missing.2 rfl with single | reported
      · exact single
      · have deltas_ne : (s.stream missed).deltasOf e s.hasMessages ≠ [] := by simp [projected]
        exact absurd (reported.exists_origin deltas_ne) fresh
    · intro single
      refine ⟨fun d known above below other => ?_, fun _ _ _ _ => Or.inl single⟩
      have found : d ∈ before ++ e :: after := split ▸ all ▸ mem_missed.mpr ⟨known, above⟩
      apply stream_reported _ (by simp [split])
      rcases mem_append.mp found with earlier | later
      · exact earlier
      · rcases mem_cons.mp later with rfl | later
        · exact absurd rfl other
        · have := (pairwise_cons.mp fromHere).1 d later
          omega

/-- Replaying is safe exactly if no missed event needs several envelopes. -/
theorem replay_safe_iff (all : missed = s.events.filter (cursor < ·.seq)) :
    (s.stream missed).Safe cursor (s.replayItems missed) ↔
      ∀ e ∈ missed, (eventToReplayDeltas e s.hasMessages).length ≤ 1 := by
  rw [Safe, replayItems, atEach_flatMap]
  constructor
  · intro each e member
    obtain ⟨before, after, split⟩ := append_of_mem member
    exact (replay_batch_safe_iff all split).mp (each before e after split)
  · intro single before e after split
    exact (replay_batch_safe_iff all split).mpr (single e (by simp [split]))

/-! ### Steps -/

/-- What is shown of each action: it keeps the stream coherent, and it keeps what is put out
safe exactly if it is sound. -/
def StepsSafely (cursor : Nat) (s : SessionStream) (action : Action) : Prop :=
  Coherent cursor (s.step action) ∧
    ((s.step action).Safe cursor (s.step action).outgoing ↔
      s.Safe cursor s.outgoing ∧ Sound cursor s action)

section Steps

variable {cursor : Nat} {s rest : SessionStream} (coherent : Coherent cursor s)
  {input : Except Unit LiveInput} {inlet : Inlet}

include coherent

omit coherent in
theorem mem_events_commit {more : List DurableEvent} {e : StoredEvent} (member : e ∈ s.events) :
    e ∈ { s with log := s.log ++ more }.events := by
  rw [mem_events] at member ⊢
  exact getElem?_append_left (seq_lt_length (mem_events.mpr member)) ▸ member

/-- A cursor that was sent does not stand for what is committed later. -/
theorem safe_commit_iff (event : DurableEvent) :
    { s with log := s.log ++ [event] }.Safe cursor s.outgoing ↔ s.Safe cursor s.outgoing := by
  apply atEach_congr
  intro before item member
  have bound := coherent.bounded item member
  constructor
  · intro covered e known
    exact covered e (mem_events_commit known)
  · intro covered e known above below
    -- an event the cursor stands for is not the new one, whose number is above all cursors
    apply covered e _ above below
    rw [mem_events] at known ⊢
    rwa [getElem?_append_left (by omega)] at known

theorem commit_stepsSafely (event : DurableEvent) : StepsSafely cursor s (.commit event) := by
  simp only [StepsSafely, step]
  split
  · constructor
    · exact
      { coherent with
        received := fun event member stored same own =>
          mem_events_commit (coherent.received event member stored same own)
        kept := fun event member stored same own =>
          mem_events_commit (coherent.kept event member stored same own)
        bounded := fun item member => by
          have := coherent.bounded item member
          simp only [length_append]
          omega
        cached := fun place found => by
          have := coherent.cached place found
          simp only [length_append]
          omega
        whole := fun item member seq origin => by
          obtain ⟨e, known, same, reported⟩ := coherent.whole item member seq origin
          exact ⟨e, mem_events_commit known, same, reported⟩ }
    · exact (safe_commit_iff coherent event).trans (and_iff_left trivial).symm
  · exact ⟨coherent, (and_iff_left trivial).symm⟩

theorem publish_stepsSafely (event : Event) : StepsSafely cursor s (.publish event) := by
  simp only [StepsSafely, step]
  split
  · next allowed =>
    refine ⟨{ coherent with received := ?_ }, (and_iff_left trivial).symm⟩
    intro other member
    rcases mem_append.mp member with queued | sent
    · exact coherent.received other queued
    · rintro stored rfl own
      rw [mem_singleton] at sent
      subst sent
      rw [mem_events]
      simpa [mayPublish, own] using allowed
  · exact ⟨coherent, (and_iff_left trivial).symm⟩

omit coherent in
/-- Sending moves an item from what waits to what is sent. -/
theorem emit_eq (s : SessionStream) :
    ∃ replay pending emitted, s.emit = { s with replay, pending, emitted } ∧
      emitted ++ replay ++ pending = s.outgoing ∧ (pending ≠ [] → s.pending ≠ []) := by
  simp only [emit]
  split
  · next item rest waiting =>
    exact ⟨rest, s.pending, _, rfl, by simp [outgoing, waiting], id⟩
  · next waiting =>
    split
    · split
      · next item rest pending =>
        exact ⟨s.replay, rest, _, rfl, by simp [outgoing, waiting, pending], by simp [pending]⟩
      · exact ⟨s.replay, s.pending, s.emitted, rfl, rfl, id⟩
    · exact ⟨s.replay, s.pending, s.emitted, rfl, rfl, id⟩

theorem emit_stepsSafely : StepsSafely cursor s .emit := by
  obtain ⟨replay, pending, emitted, emits, same, waiting⟩ := s.emit_eq
  -- nothing but the place of one item changes, and no invariant looks at it
  have out : { s with replay, pending, emitted }.outgoing = s.outgoing := same
  simp only [StepsSafely, step, emits]
  constructor
  · exact
    { coherent with
      unopened := fun closed => ⟨out ▸ (coherent.unopened closed).1, (coherent.unopened closed).2⟩
      bounded := fun item member => coherent.bounded item (out ▸ member)
      whole := fun item member seq origin => by
        rw [out] at member ⊢
        exact coherent.whole item member seq origin
      begun := fun nonempty => coherent.begun (nonempty.imp_left waiting) }
  · rw [out]
    exact (and_iff_left trivial).symm

omit coherent in
theorem drain_ok {α : Type} {rx : Receiver α} {messages : List α}
    (drained : rx.drain = .ok messages) : messages = rx.queue := by
  simp only [Receiver.drain] at drained
  split at drained
  · cases drained
  · cases drained
    rfl

omit coherent in
theorem isLive_iff :
    s.isLive = true ↔ s.connection = .streaming true ∧ s.replay = [] ∧ s.closing = false := by
  simp [isLive, and_assoc]

theorem drain_stepsSafely : StepsSafely cursor s .drain := by
  simp only [StepsSafely, step]
  split
  · next polled =>
    rw [Bool.and_eq_true, Bool.not_eq_true', isLive_iff] at polled
    obtain ⟨⟨streaming, -, opened⟩, undrained⟩ := polled
    -- nothing waits before the drain
    have idle : ¬ (s.pending ≠ [] ∨ s.buffered ≠ []) := fun nonempty => by
      have := (coherent.begun nonempty).2.2
      rw [undrained] at this
      cases this
    simp only [drainStaleLiveEvents]
    split
    · exact ⟨{ coherent with begun := fun nonempty => absurd nonempty idle },
        (and_iff_left trivial).symm⟩
    · next replayMax _ =>
      split
      · next events notifications drained _ =>
        refine ⟨{ coherent with received := ?_, kept := ?_, begun := ?_ },
          (and_iff_left trivial).symm⟩
        · intro event member
          cases member
        · intro event member
          have queued : event ∈ events := by
            rcases mem_append.mp member with kept | kept
            · obtain ⟨received, found, same⟩ := mem_map.mp kept
              cases same
              exact (mem_filter.mp found).1
            · obtain ⟨notification, -, same⟩ := mem_map.mp kept
              cases same
          exact coherent.received event (drain_ok drained ▸ queued)
        · exact fun _ => ⟨streaming, opened, rfl⟩
      · exact ⟨{ coherent with begun := fun nonempty => absurd nonempty idle },
          (and_iff_left trivial).symm⟩
  · exact ⟨coherent, (and_iff_left trivial).symm⟩

/-! ### Connecting -/

variable (unopened : ∀ live, s.connection ≠ .streaming live)

include unopened

theorem unopened_idle :
    s.emitted = [] ∧ s.replay = [] ∧ s.pending = [] ∧ s.buffered = [] := by
  have out := (coherent.unopened unopened).1
  simp only [outgoing, append_eq_nil_iff] at out
  refine ⟨out.1.1, out.1.2, out.2, ?_⟩
  by_contra nonempty
  exact unopened true (coherent.begun (Or.inr nonempty)).1

theorem unopened_safe : s.Safe cursor s.outgoing := by
  rw [(coherent.unopened unopened).1]
  exact atEach_nil

theorem rehydrate_outgoing :
    s.rehydrate.outgoing = [s.conversationSseItem none 0 .rehydrateRequired] := by
  obtain ⟨sent, -, pending, -⟩ := unopened_idle coherent unopened
  simp [outgoing, rehydrate, sent, pending]

theorem stream_outgoing (missed : List StoredEvent) :
    (s.stream missed).outgoing = s.replayItems missed := by
  obtain ⟨sent, -, pending, -⟩ := unopened_idle coherent unopened
  simp [outgoing, stream, sent, pending, replayItems]

/-- The request to load the session anew stands for no event. -/
theorem rehydrate_safely :
    Coherent cursor s.rehydrate ∧ s.rehydrate.Safe cursor s.rehydrate.outgoing := by
  obtain ⟨-, -, pending, buffered⟩ := unopened_idle coherent unopened
  have out := rehydrate_outgoing coherent unopened
  constructor
  · exact
    { coherent with
      requested := fun _ accepted => by cases accepted
      unopened := fun closed => absurd rfl (closed false)
      bounded := fun item member => by
        rw [out, mem_singleton] at member
        simp [member, conversationSseItem]
      whole := fun item member seq origin => by
        rw [out, mem_singleton] at member
        rw [member] at origin
        cases origin
      begun := fun nonempty => by simp [rehydrate, pending, buffered] at nonempty }
  · rw [out, Safe, atEach_cons]
    refine ⟨?_, atEach_nil⟩
    intro e known above below
    simp only [conversationSseItem, Nat.le_zero] at below
    omega

/-- The response begins with all the events the client has missed. -/
theorem stream_safely {missed : List StoredEvent}
    (all : missed = s.events.filter (cursor < ·.seq)) :
    Coherent cursor (s.stream missed) ∧
      ((s.stream missed).Safe cursor (s.stream missed).outgoing ↔
        ∀ e ∈ missed, (eventToReplayDeltas e s.hasMessages).length ≤ 1) := by
  obtain ⟨-, -, pending, buffered⟩ := unopened_idle coherent unopened
  have out := stream_outgoing coherent unopened missed
  constructor
  · exact
    { coherent with
      requested := fun _ accepted => by cases accepted
      unopened := fun closed => absurd rfl (closed true)
      bounded := fun item member => by
        obtain ⟨e, found, -, place⟩ := mem_replayItems (out ▸ member)
        have := seq_lt_length (mem_missed.mp (all ▸ found)).1
        simp only [stream]
        omega
      whole := fun item member seq origin => by
        rw [out] at member ⊢
        obtain ⟨e, found, itsOrigin, -⟩ := mem_replayItems member
        refine ⟨e, (mem_missed.mp (all ▸ found)).1, ?_, stream_reported found (fun _ => id)⟩
        exact Option.some.inj (itsOrigin.symm.trans origin)
      begun := fun nonempty => by simp [stream, pending, buffered] at nonempty }
  · rw [out]
    exact replay_safe_iff all

omit unopened

theorem connect_stepsSafely (storage : Bool) : StepsSafely cursor s (.connect storage) := by
  simp only [StepsSafely, step]
  split
  · next subscribed =>
    have unopened : ∀ live, s.connection ≠ .streaming live := by simp [subscribed]
    have safe := unopened_safe coherent unopened
    obtain ⟨text, query, parsed⟩ := coherent.query
    simp only [connect, query, parsed]
    split
    · have rehydrated := rehydrate_safely coherent unopened
      exact ⟨rehydrated.1, iff_of_true rehydrated.2 ⟨safe, trivial⟩⟩
    · refine ⟨{ coherent with
        query := ⟨text, rfl, parsed⟩, requested := ?_, unopened := ?_, begun := ?_ }, ?_⟩
      · intro requestedSeq accepted
        exact (Connection.accepted.inj accepted).symm
      · exact fun _ => coherent.unopened unopened
      · intro nonempty
        exact absurd (coherent.begun nonempty).1 (unopened true)
      · exact iff_of_true safe ⟨safe, trivial⟩
  · exact ⟨coherent, (and_iff_left trivial).symm⟩

theorem readMissed_stepsSafely (storage : Bool) : StepsSafely cursor s (.readMissed storage) := by
  simp only [StepsSafely, step]
  split
  · next requestedSeq accepted =>
    obtain rfl := coherent.requested requestedSeq accepted
    have unopened : ∀ live, s.connection ≠ .streaming live := by simp [accepted]
    have safe := unopened_safe coherent unopened
    simp only [readMissed, Sound, accepted, forall_const, ReplaysSingly]
    split
    · next failed =>
      have rehydrated := rehydrate_safely coherent unopened
      refine ⟨rehydrated.1, iff_of_true rehydrated.2 ⟨safe, fun works few => ?_⟩⟩
      -- with few events and a storage that works the read does not fail
      rw [replayAfterCursor_ok.mpr ⟨works, few, rfl⟩] at failed
      cases failed
    · next missed read =>
      obtain ⟨works, few, all⟩ := replayAfterCursor_ok.mp read
      obtain ⟨streams, replays⟩ := stream_safely coherent unopened all
      refine ⟨streams, replays.trans ?_⟩
      simp only [works, few, safe, true_and, forall_const, all, mem_missed, and_imp]
  · next unaccepted =>
    refine ⟨coherent, (and_iff_left ?_).symm⟩
    intro accepted
    exact absurd accepted (unaccepted _)

/-! ### Taking up an input -/

omit coherent in
/-- A receiver gives the head of its queue, or an error and keeps the queue. -/
theorem recv_eq {α : Type} {rx rest : Receiver α} {message : Except Unit α}
    (received : rx.recv = some (message, rest)) :
    rx.queue = message.toOption.toList ++ rest.queue := by
  simp only [Receiver.recv] at received
  split at received
  · cases received
    rfl
  · split at received
    · next queue =>
      cases received
      exact queue
    · split at received
      · cases received
        rfl
      · cases received

omit coherent in
/-- What the next input leaves of the stream. Unless it is a notification, it stood first in the
buffer or else in the channel. -/
theorem nextInput_eq (next : s.nextInput inlet = some (input, rest)) :
    ∃ eventRx notificationRx buffered taken,
      rest = { s with eventRx, notificationRx, buffered } ∧
      s.buffered ++ s.eventRx.queue.map .event = taken ++ (buffered ++ eventRx.queue.map .event) ∧
      (taken = input.toOption.toList ∨
        taken = [] ∧ ∃ message : Except Unit ClientNotification, input = message.map .notification) ∧
      buffered ⊆ s.buffered ∧ (input = .error () → s.pending = [] ∧ s.buffered = []) := by
  cases inlet with
  | buffered =>
    simp only [nextInput] at next
    split at next
    · cases next
    · next first others kept =>
      cases next
      rw [kept]
      exact ⟨_, _, others, [first], rfl, rfl, .inl rfl, subset_cons_self _ _,
        fun failed => by cases failed⟩
  | events =>
    simp only [nextInput] at next
    split at next
    · next idle =>
      obtain ⟨⟨message, eventRx⟩, received, same⟩ := Option.map_eq_some_iff.mp next
      cases same
      refine ⟨eventRx, _, _, _, rfl, ?_, .inl rfl, fun _ => id,
        fun _ => by simpa [and_comm] using idle⟩
      rw [recv_eq received, List.isEmpty_iff.mp (Bool.and_eq_true_iff.mp idle).1]
      cases message with
      | error | ok => rfl
    · cases next
  | notifications =>
    simp only [nextInput] at next
    split at next
    · next idle =>
      obtain ⟨⟨message, notificationRx⟩, received, same⟩ := Option.map_eq_some_iff.mp next
      cases same
      exact ⟨_, notificationRx, _, [], rfl, rfl, .inr ⟨rfl, message, rfl⟩, fun _ => id,
        fun _ => by simpa [and_comm] using idle⟩
    · cases next

theorem Coherent.nextInput (next : s.nextInput inlet = some (input, rest)) :
    Coherent cursor rest ∧ ∀ event, input = .ok (.event event) → rest.Committed event := by
  obtain ⟨eventRx, notificationRx, buffered, taken, rfl, split, which, kept, -⟩ := nextInput_eq next
  have committed : ∀ event, .event event ∈ taken ++ (buffered ++ eventRx.queue.map .event) →
      s.Committed event := by
    rw [← split]
    intro event member
    rcases mem_append.mp member with waits | queued
    · exact coherent.kept event waits
    · exact coherent.received event (by simpa using queued)
  constructor
  · exact
    { coherent with
      received := fun event member => committed event (by simp [member])
      kept := fun event member => coherent.kept event (kept member)
      begun := fun nonempty => coherent.begun
        (nonempty.imp_right fun some_left none => some_left (subset_nil.mp (none ▸ kept))) }
  · rintro event rfl
    rcases which with rfl | ⟨-, message, same⟩
    · exact committed event mem_cons_self
    · cases message with
      | error | ok => cases same

omit coherent in
/-- An event that is answered is put out as a whole. -/
theorem answerItems_whole (storage : Bool) (uuid : String) {input : LiveInput}
    (committed : ∀ event, input = .event event → s.Committed event) {item : SseItem}
    (member : item ∈ s.answerItems storage uuid input) (origin : item.origin = some seq) :
    ∃ e ∈ s.events, e.seq = seq ∧ s.Reported (s.answerItems storage uuid input) e := by
  obtain ⟨delta, isDelta, rfl⟩ := mem_map.mp member
  have own : s.ownSeq input = some seq := origin
  obtain ⟨e, known, rfl, rfl, same⟩ := exists_of_ownSeq own committed
  obtain ⟨hasMessages, projected⟩ := answerDeltas_own same (ne_nil_of_mem isDelta)
  refine ⟨e, known, rfl, hasMessages, fun delta isDelta => ?_⟩
  rw [← projected] at isDelta
  refine mem_map.mpr ⟨delta, isDelta, ?_⟩
  simp [answerCursor, own]

omit coherent in
theorem answer_outgoing (storage : Bool) (uuid : String) (input : LiveInput) (s : SessionStream) :
    (s.answer storage uuid input).outgoing =
      s.outgoing ++ s.answerItems storage uuid input := by
  obtain ⟨hasMessages, childSessions, cachedCursor, answers, -⟩ := s.answer_eq storage uuid input
  simp [answers, outgoing]

omit coherent in
theorem safe_answer_iff (storage : Bool) (uuid : String) (input : LiveInput) (s : SessionStream)
    (items : List SseItem) :
    (s.answer storage uuid input).Safe cursor items ↔ s.Safe cursor items := by
  obtain ⟨hasMessages, childSessions, cachedCursor, answers, -⟩ := s.answer_eq storage uuid input
  rw [answers]
  rfl

/-- Answering an input keeps the stream coherent. -/
theorem Coherent.answer (storage : Bool) (uuid : String) {input : LiveInput}
    (committed : ∀ event, input = .event event → s.Committed event)
    (polled : s.connection = .streaming true ∧ s.closing = false ∧ s.drained = true) :
    Coherent cursor (s.answer storage uuid input) := by
  have out := s.answer_outgoing storage uuid input
  have bound := answerCursor_le coherent storage committed
  obtain ⟨hasMessages, childSessions, cachedCursor, answers, noted⟩ := s.answer_eq storage uuid input
  rw [answers] at out ⊢
  exact
    { coherent with
      unopened := fun closed => absurd polled.1 (closed true)
      bounded := fun item member => by
        rw [out] at member
        rcases mem_append.mp member with before | new
        · exact coherent.bounded item before
        · obtain ⟨delta, -, rfl⟩ := mem_map.mp new
          exact bound
      cached := fun place found => by
        rcases noted with same | fetched
        · exact coherent.cached place (same ▸ found)
        · obtain rfl : s.answerCursor storage input = place := Option.some.inj (fetched ▸ found)
          exact bound
      whole := fun item member seq origin => by
        rw [out] at member ⊢
        rcases mem_append.mp member with before | new
        · obtain ⟨e, known, same, reported⟩ := coherent.whole item before seq origin
          exact ⟨e, known, same, reported.mono (subset_append_left _ _)⟩
        · obtain ⟨e, known, same, reported⟩ := answerItems_whole storage uuid committed new origin
          exact ⟨e, known, same, reported.mono (subset_append_right _ _)⟩
      begun := fun _ => polled }

theorem take_stepsSafely (storage : Bool) (uuid : String) (inlet : Inlet) :
    StepsSafely cursor s (.take storage uuid inlet) := by
  simp only [StepsSafely, step, take]
  split
  · next live =>
    rw [Bool.and_eq_true] at live
    simp only [Sound, live, forall_const]
    split
    · next nothing => exact ⟨coherent, (and_iff_left (by simp [nothing])).symm⟩
    · next failure rest next =>
      have unread := (coherent.nextInput next).1
      obtain ⟨eventRx, notificationRx, buffered, -, rfl, -, -, kept, idle⟩ := nextInput_eq next
      -- the channels are only asked when nothing waits, so that closing loses nothing
      obtain ⟨pending, none⟩ := idle rfl
      rw [none, subset_nil] at kept
      refine ⟨{ unread with begun := fun nonempty => ?_ }, (and_iff_left ?_).symm⟩
      · simp [pending, kept] at nonempty
      · intro input rest other
        rw [next] at other
        cases other
    · next input rest next =>
      obtain ⟨unread, committed⟩ := coherent.nextInput next
      have known : ∀ event, input = .event event → rest.Committed event :=
        fun event same => committed event (same ▸ rfl)
      obtain ⟨eventRx, notificationRx, buffered, -, rfl, -⟩ := nextInput_eq next
      obtain ⟨streaming, -, opened⟩ := isLive_iff.mp live.1
      refine ⟨unread.answer storage uuid known ⟨streaming, opened, live.2⟩, ?_⟩
      -- what is put out grows by the answer; to the condition the rest of the state is as before
      rw [answer_outgoing, safe_answer_iff]
      apply (answer_safe_iff unread storage uuid known).trans
      apply and_congr_right'
      constructor
      · intro ready other _ same answered
        cases next.symm.trans same
        exact ⟨(ready answered).earlier, (ready answered).own⟩
      · intro ready answered
        have soundly := ready input _ next answered
        exact ⟨soundly.earlier, soundly.own⟩
  · next idle =>
    refine ⟨coherent, (and_iff_left fun live drained => ?_).symm⟩
    simp [live, drained] at idle

theorem stepsSafely (action : Action) : StepsSafely cursor s action := by
  cases action with
  | commit event => exact commit_stepsSafely coherent event
  | publish event => exact publish_stepsSafely coherent event
  | connect storage => exact connect_stepsSafely coherent storage
  | readMissed storage => exact readMissed_stepsSafely coherent storage
  | emit => exact emit_stepsSafely coherent
  | drain => exact drain_stepsSafely coherent
  | take storage uuid inlet => exact take_stepsSafely coherent storage uuid inlet
  | notify | lagEvents | lagNotifications | closeEvents =>
    exact ⟨{ coherent with }, (and_iff_left trivial).symm⟩

/-! ### Runs -/

theorem Coherent.run (actions : List Action) : Coherent cursor (s.run actions) := by
  induction actions generalizing s with
  | nil => exact coherent
  | cons action rest ih => exact ih (stepsSafely coherent action).1

/-- What a run puts out is safe exactly if it was before and every step is sound. -/
theorem run_safe_iff (actions : List Action) :
    (s.run actions).Safe cursor (s.run actions).outgoing ↔
      s.Safe cursor s.outgoing ∧ EverySound cursor s actions := by
  induction actions generalizing s with
  | nil => exact (and_iff_left trivial).symm
  | cons action rest ih =>
    obtain ⟨next, kept⟩ := stepsSafely coherent action
    rw [EverySound, ← and_assoc, ← kept]
    exact ih next

end Steps

/-! ### Sending what waits -/

/-- The actions of the stream itself. -/
def Action.isPoll : Action → Bool
  | .emit | .drain | .take .. => true
  | _ => false

/-- Polls lead from one stream to another. -/
def PollsTo (s s' : SessionStream) : Prop :=
  ∃ polls : List Action, (∀ action ∈ polls, action.isPoll = true) ∧ s.run polls = s'

theorem PollsTo.refl (s : SessionStream) : PollsTo s s := ⟨[], by simp, rfl⟩

theorem PollsTo.head {action : Action} (poll : action.isPoll = true)
    (rest : PollsTo (s.step action) s') : PollsTo s s' := by
  obtain ⟨polls, all, rfl⟩ := rest
  exact ⟨action :: polls, by simpa [poll] using all, rfl⟩

/-- What waits in a stream gets less by some poll: an input is answered or an item is sent. -/
theorem exists_poll_nearer (coherent : Coherent cursor s)
    (waits : ¬ (s.replay = [] ∧ s.buffered = [] ∧ s.pending = [])) :
    ∃ poll : Action, poll.isPoll = true ∧ Prod.Lex (· < ·) (· < ·)
      ((s.step poll).buffered.length, (s.step poll).replay.length + (s.step poll).pending.length)
      (s.buffered.length, s.replay.length + s.pending.length) := by
  cases replay : s.replay with
  | cons item rest =>
    have sent : s.step .emit = { s with replay := rest, emitted := s.emitted ++ [item] } := by
      simp [step, emit, replay]
    refine ⟨.emit, rfl, ?_⟩
    rw [sent]
    exact .right _ (by simp)
  | nil =>
    cases buffered : s.buffered with
    | cons input rest =>
      obtain ⟨streaming, opened, drained⟩ := coherent.begun (Or.inr (by simp [buffered]))
      have live : s.isLive = true := isLive_iff.mpr ⟨streaming, replay, opened⟩
      -- whether the storage answers does not matter for getting through the buffer
      have taken : s.step (.take true "" .buffered) =
          { s with buffered := rest }.answer true "" input := by
        simp [step, take, live, drained, nextInput, buffered]
      obtain ⟨hasMessages, childSessions, cachedCursor, answers, -⟩ :=
        { s with buffered := rest }.answer_eq true "" input
      refine ⟨.take true "" .buffered, rfl, ?_⟩
      rw [taken, answers]
      exact .left _ _ (Nat.lt_succ_self _)
    | nil =>
      cases pending : s.pending with
      | nil => exact absurd ⟨replay, buffered, pending⟩ waits
      | cons item rest =>
        obtain ⟨streaming, opened, drained⟩ := coherent.begun (Or.inl (by simp [pending]))
        have live : s.isLive = true := isLive_iff.mpr ⟨streaming, replay, opened⟩
        have sent : s.step .emit = { s with pending := rest, emitted := s.emitted ++ [item] } := by
          simp [step, emit, replay, live, drained, buffered, pending]
        refine ⟨.emit, rfl, ?_⟩
        rw [sent]
        simpa [replay, buffered] using Prod.Lex.right _ (Nat.lt_succ_self rest.length)

/-- Polls alone send all the stream has put out. -/
theorem exists_all_sent {s : SessionStream} (coherent : Coherent cursor s) :
    ∃ s', PollsTo s s' ∧ s'.emitted = s'.outgoing := by
  by_cases waits : s.replay = [] ∧ s.buffered = [] ∧ s.pending = []
  · exact ⟨s, .refl s, by simp [outgoing, waits]⟩
  · obtain ⟨poll, isPoll, nearer⟩ := exists_poll_nearer coherent waits
    obtain ⟨s', polls, done⟩ := exists_all_sent (stepsSafely coherent poll).1
    exact ⟨s', .head isPoll polls, done⟩
termination_by (s.buffered.length, s.replay.length + s.pending.length)
decreasing_by exact nearer

/-- Whatever commits, publications, notifications and polls do in turn: if every step of a run
is sound, a client can connect again with any cursor it was sent. If one step is not, then
the stream will send a cursor that stands for a delta it has not sent. -/
theorem cursors_safe_iff_steps_sound (sessionId : SessionId) (text : String) (cursor : Nat)
    (parsed : parseReplayCursor text = .ok cursor) (log : List DurableEvent) (hasMessages : Bool)
    (childSessions : ChildSessionTracker) (actions : List Action) :
    let start := subscribe sessionId (some text) log hasMessages childSessions
    (EverySound cursor start actions → (start.run actions).CursorSafe cursor) ∧
      (¬ EverySound cursor start actions →
        ∃ s', PollsTo (start.run actions) s' ∧ ¬ s'.CursorSafe cursor) := by
  intro start
  have coherent : Coherent cursor start :=
    coherent_subscribe parsed sessionId log hasMessages childSessions
  have safe_iff := run_safe_iff coherent actions
  have fresh : start.Safe cursor start.outgoing := atEach_nil
  rw [and_iff_right fresh] at safe_iff
  constructor
  · intro sound
    have safe := safe_iff.mpr sound
    exact safe.of_isPrefix (by simp [outgoing, append_assoc])
  · intro unsound
    have atEnd := coherent.run actions
    obtain ⟨s', polls, sent⟩ := exists_all_sent atEnd
    refine ⟨s', polls, fun safe => unsound (safe_iff.mp ?_)⟩
    obtain ⟨polls, -, rfl⟩ := polls
    -- all is sent, so that safe cursors would make the run sound after all
    rw [CursorSafe, sent] at safe
    exact ((run_safe_iff atEnd polls).mp safe).1

end SessionStream

/-! ### Two ways to lose a delta, and a stream that loses none -/

open SessionStream

def sessionEvent (id : EventId) (payload : DurableEventPayload) : DurableEvent :=
  ⟨id, "session", some "turn", ⟨0⟩, payload⟩

def openingEvent : DurableEvent :=
  sessionEvent "event-0" (.sessionStarted
    ⟨"/work", "model", none, .all [], none, ⟨"prompt", "fingerprint", none, .native⟩⟩)

def messageEvent : DurableEvent :=
  sessionEvent "event-1" (.userMessage "message-1" "hello" [] none)

def toolResultEvent : DurableEvent :=
  sessionEvent "event-1"
    (.toolCallCompleted "call-1" "read" ⟨"text", false, none, [], none⟩ "" none)

/-- A client connects to a session of one event, after which nothing is missed. -/
def connectedStream : SessionStream :=
  subscribe "session" (some "0") [openingEvent] false ⟨fun _ => none, fun _ => none⟩

def connecting : List Action := [.connect true, .readMissed true, .drain]

/-- The message is committed; before it is published, the extensions change. -/
def notifiedEarly : List Action :=
  connecting ++ [.commit messageEvent, .notify .extensionRegistryChanged,
    .take true "" .notifications, .emit]

/-- The result of a tool is sent with its first envelope only. -/
def cutShort : List Action :=
  connecting ++ [.commit toolResultEvent, .publish (.durable ⟨1, toolResultEvent⟩),
    .take true "" .events, .emit]

/-- Cursor 1 is sent before the message with this number, and again before all the deltas of
the tool's result. -/
theorem cursor_ahead_of_deltas :
    ¬ (connectedStream.run notifiedEarly).CursorSafe 0 ∧
      ¬ (connectedStream.run cutShort).CursorSafe 0 := by
  constructor
  · intro safe
    have covered := safe [] _ [] rfl
    obtain ⟨hasMessages, all⟩ :=
      covered ⟨1, messageEvent⟩ (mem_events.mpr rfl) (by decide) (by decide +kernel)
    revert all
    revert hasMessages
    decide +kernel
  · intro safe
    have covered := safe [] _ [] rfl
    obtain ⟨hasMessages, all⟩ :=
      covered ⟨1, toolResultEvent⟩ (mem_events.mpr rfl) (by decide) (by decide +kernel)
    revert all
    revert hasMessages
    decide +kernel

/-- The message is published and sent before the notification comes. -/
def notifiedLater : List Action :=
  connecting ++ [.commit messageEvent, .publish (.durable ⟨1, messageEvent⟩),
    .notify .extensionRegistryChanged, .take true "" .events, .emit,
    .take true "" .notifications, .emit]

/-- Both the message and the notification have been sent, with cursor 1. -/
theorem notified_later_safe :
    parseReplayCursor "0" = .ok 0 ∧ EverySound 0 connectedStream notifiedLater ∧
      (connectedStream.run notifiedLater).CursorSafe 0 ∧
      (connectedStream.run notifiedLater).emitted.map (·.envelope.cursor) = [1, 1] := by
  have parsed : parseReplayCursor "0" = .ok 0 := by decide +kernel
  have sound : EverySound 0 connectedStream notifiedLater := by decide +kernel
  refine ⟨parsed, sound, ?_, by decide +kernel⟩
  exact (cursors_safe_iff_steps_sound "session" "0" 0 parsed [openingEvent] false
    ⟨fun _ => none, fun _ => none⟩ notifiedLater).1 sound

end Astrcode
