import Astrcode.Server.Conversation

/-!
# The event stream of a session

`astrcode-server/src/http/stream.rs` with `stream/replay.rs` and `stream/child_sessions.rs`: the
stream a client opens on one session, between the log the session's events are committed to and
the bus they are published on. It subscribes to the bus, replays the events after the client's
cursor from the log, and then forwards what the bus delivers. Every envelope it sends carries
a cursor, with which the client may connect again.

Commits, publications and the stream take turns in any order; a step is what happens between
two points at which the stream waits. Cursors are numbers here; the code sends them as decimal
text. An `SseItem` also notes which stored event its delta belongs to, which is not sent.
-/
namespace Astrcode

/-! ### Children of the session -/

/-- The child sessions a client sees, by the session that now runs for them. -/
structure ChildSessionTracker where
  initialByLeaf : SessionId → Option SessionId
  lastProgress : SessionId → Option (Phase × Option String)

namespace ChildSessionTracker

variable (tracker : ChildSessionTracker)

def updateFromParentEvent : Event → ChildSessionTracker
  | .live _ => tracker
  | .durable stored =>
    match stored.event.payload with
    | .agentSessionSpawned childSessionId .. =>
      { initialByLeaf := Function.update tracker.initialByLeaf childSessionId (some childSessionId)
        lastProgress := Function.update tracker.lastProgress childSessionId
          (some (.thinking, none)) }
    | .agentSessionCompleted childSessionId .. | .agentSessionFailed childSessionId ..
    | .agentSessionRecycled childSessionId =>
      { initialByLeaf := fun leaf => (tracker.initialByLeaf leaf).filter (· ≠ childSessionId)
        lastProgress := Function.update tracker.lastProgress childSessionId none }
    | _ => tracker

def isTrackedEvent (event : Event) : Bool :=
  (tracker.initialByLeaf event.sessionId).isSome

/-- The delta for progress of a child that was not reported last. -/
def projectEvent (event : Event) :
    Option (ConversationDelta × ChildSessionTracker) := do
  let initialChildId ← tracker.initialByLeaf event.sessionId
  let progress ← agentSessionProgress event
  if tracker.lastProgress initialChildId = some progress then none
  else some (.agentSessionUpdated (.progress initialChildId progress.1 progress.2),
    { tracker with
      lastProgress := Function.update tracker.lastProgress initialChildId (some progress) })

end ChildSessionTracker

/-! ### What the stream takes in and sends -/

/-- Those of the global notifications the stream tells apart; `other` are the ones it ignores. -/
inductive ClientNotification where
  | event (event : Event)
  | statusItemUpdate (id text : String)
  | extensionRegistryChanged
  | extensionCommandResult (commandName content : String) (isError : Bool)
  | globalCustomEvent (sessionId extensionId eventType : String) (schemaVersion : Nat)
      (payload : Library.Json)
  | other
  deriving DecidableEq

inductive LiveInput where
  | event (event : Event)
  | notification (notification : ClientNotification)
  deriving DecidableEq

structure ConversationStreamEnvelope where
  sessionId : SessionId
  cursor : Nat
  delta : ConversationDelta
  deriving DecidableEq

structure SseItem where
  envelope : ConversationStreamEnvelope
  /-- The sequence number of the stored event the delta is of. -/
  origin : Option Nat
  deriving DecidableEq

/-- The receiving end of a broadcast channel. A receiver that falls behind loses messages and
is told so; a channel without senders ends once it is empty. -/
structure Receiver (α : Type) where
  queue : List α
  lagged : Bool
  closed : Bool

namespace Receiver

variable {α : Type}

def subscribe : Receiver α := ⟨[], false, false⟩

variable (rx : Receiver α)

def send (message : α) : Receiver α := { rx with queue := rx.queue ++ [message] }

/-- `recv`: the next message or an error; nothing while the receiver waits. -/
def recv : Option (Except Unit α × Receiver α) :=
  if rx.lagged then some (.error (), rx)
  else match rx.queue with
    | message :: rest => some (.ok message, { rx with queue := rest })
    | [] => if rx.closed then some (.error (), rx) else none

/-- Calls `try_recv` until there is nothing left. -/
def drain : Except Unit (List α) :=
  if rx.lagged || rx.closed then .error () else .ok rx.queue

end Receiver

/-! ### Replay -/

def maxReplayEvents : Nat := 1000

inductive ReplayError where
  | invalidCursor (cursor : String)
  | cursorAhead (requestedSeq latestSeq : Nat)
  | limitExceeded (limit : Nat)
  | session
  deriving DecidableEq

def parseReplayCursor (cursor : String) : Except ReplayError Nat :=
  match parseUsize cursor.toList with
  | some seq => .ok seq
  | none => .error (.invalidCursor cursor)

/-- Where the connection stands: nothing read yet, the cursor found to be one of the log, or
the response begun. After a failed replay the live part of it is never polled. -/
inductive Connection where
  | subscribed
  | accepted (requestedSeq : Nat)
  | streaming (live : Bool)
  deriving DecidableEq

/-! ### The stream -/

structure SessionStream where
  sessionId : SessionId
  /-- The cursor the client connects with, if any. -/
  query : Option String
  /-- The session's log: the event at index `n` has sequence number `n`. -/
  log : List DurableEvent
  eventRx : Receiver Event
  notificationRx : Receiver ClientNotification
  connection : Connection
  /-- What the replay still has to send. -/
  replay : List SseItem
  replayMaxSeq : Option Nat
  closing : Bool
  pending : List SseItem
  hasMessages : Bool
  drained : Bool
  /-- What the first live poll found in the channels and has not answered yet. -/
  buffered : List LiveInput
  childSessions : ChildSessionTracker
  cachedCursor : Option Nat
  emitted : List SseItem

namespace SessionStream

/-- A stream that just subscribed to the bus. -/
def subscribe (sessionId : SessionId) (query : Option String) (log : List DurableEvent)
    (hasMessages : Bool) (childSessions : ChildSessionTracker) : SessionStream :=
  { sessionId, query, log, hasMessages, childSessions
    eventRx := .subscribe, notificationRx := .subscribe, connection := .subscribed, replay := []
    replayMaxSeq := none, closing := false, pending := [], drained := false, buffered := []
    cachedCursor := none, emitted := [] }

variable (s : SessionStream)

/-- The committed events with their sequence numbers. -/
def events : List StoredEvent := numberFrom 0 s.log

def latestCursor : Option Nat :=
  if s.log.isEmpty then none else some (s.log.length - 1)

/-- `state_cursor`; a failing storage counts as an empty log. -/
def stateCursor (storage : Bool) (s : SessionStream) : Nat :=
  if storage then s.latestCursor.getD 0 else 0

def conversationSseItem (origin : Option Nat) (cursor : Nat)
    (delta : ConversationDelta) : SseItem :=
  ⟨⟨s.sessionId, cursor, delta⟩, origin⟩

/-! ### Connecting -/

/-- `latest_event_seq` and the comparison with it. -/
def acceptCursor (storage : Bool) (requestedSeq : Nat) (s : SessionStream) :
    Except ReplayError Unit :=
  if storage then
    let latestSeq := s.latestCursor.getD 0
    if latestSeq < requestedSeq then .error (.cursorAhead requestedSeq latestSeq) else .ok ()
  else .error .session

/-- The read of `replay_after_cursor`. -/
def replayAfterCursor (storage : Bool) (requestedSeq : Nat) (s : SessionStream) :
    Except ReplayError (List StoredEvent) :=
  if storage then
    let events := (s.events.filter (requestedSeq < ·.seq)).take (maxReplayEvents + 1)
    if maxReplayEvents < events.length then .error (.limitExceeded maxReplayEvents) else .ok events
  else .error .session

/-- The response begins with the missed events. Each is sent with its own number: `event_cursor`
asks the storage only for events without one. -/
def stream (missedEvents : List StoredEvent) (s : SessionStream) : SessionStream :=
  { s with
    connection := .streaming true
    replayMaxSeq := (missedEvents.map (·.seq)).max?
    replay := missedEvents.flatMap fun event =>
      (eventToReplayDeltas event s.hasMessages).map
        (s.conversationSseItem (some event.seq) event.seq) }

/-- The response is a single request to load the session anew. -/
def rehydrate : SessionStream :=
  { s with
    connection := .streaming false
    replay := [s.conversationSseItem none 0 .rehydrateRequired] }

variable (storage : Bool)

/-- `session_stream` up to the first wait for the storage. -/
def connect (s : SessionStream) : SessionStream :=
  match s.query with
  | none => s.stream []
  | some cursor =>
    match parseReplayCursor cursor with
    | .error _ => s.rehydrate
    | .ok requestedSeq =>
      match s.acceptCursor storage requestedSeq with
      | .error _ => s.rehydrate
      | .ok () => { s with connection := .accepted requestedSeq }

def readMissed (requestedSeq : Nat) (s : SessionStream) : SessionStream :=
  match s.replayAfterCursor storage requestedSeq with
  | .error _ => s.rehydrate
  | .ok missedEvents => s.stream missedEvents

/-! ### Answering an input -/

def alreadyReplayed (replayMaxSeq eventSeq : Option Nat) : Bool :=
  match replayMaxSeq, eventSeq with
  | some max, some seq => seq ≤ max
  | _, _ => false

def eventAddsMessage : Event → Bool
  | .live _ => false
  | .durable stored =>
    match stored.event.payload with
    | .userMessage .. | .assistantMessageCompleted .. => true
    | _ => false

def getOrFetchCursor (s : SessionStream) : Nat × SessionStream :=
  match s.cachedCursor with
  | some cursor => (cursor, s)
  | none =>
    let cursor := s.stateCursor storage
    (cursor, { s with cachedCursor := some cursor })

/-- What the stream notes of an event of its session before it projects it. -/
def observe (event : Event) (s : SessionStream) : SessionStream :=
  { s with
    hasMessages := s.hasMessages || eventAddsMessage event
    childSessions := s.childSessions.updateFromParentEvent event
    cachedCursor := event.seq.or s.cachedCursor }

/-- The envelope for what has no sequence number of its own. -/
def sseItemAtCursor (delta : ConversationDelta) (s : SessionStream) :
    List SseItem × SessionStream :=
  let (cursor, s) := s.getOrFetchCursor storage
  ([s.conversationSseItem none cursor delta], s)

/-- The cursor `event_to_sse_items` sends the deltas of an event of the session with. -/
def sseCursor (event : Event) (s : SessionStream) : Nat × SessionStream :=
  match event.seq with
  | some seq => (seq, s)
  | none => s.getOrFetchCursor storage

def eventToSseItems (event : Event) (s : SessionStream) :
    List SseItem × SessionStream :=
  if event.sessionId = s.sessionId then
    if alreadyReplayed s.replayMaxSeq event.seq then ([], s)
    else
      let s := s.observe event
      match eventToDeltas event s.hasMessages with
      | [] => ([], s)
      | deltas =>
        let (cursor, s) := s.sseCursor storage event
        (deltas.map (s.conversationSseItem event.seq cursor), s)
  else
    -- the sequence number of a child's event is one of the child's log
    match s.childSessions.projectEvent event with
    | none => ([], s)
    | some (delta, childSessions) => { s with childSessions }.sseItemAtCursor storage delta

variable (uuid : String)

/-- The delta of a notification; `uuid` is fresh. -/
def notificationDelta (sessionId : SessionId) :
    ClientNotification → Option ConversationDelta
  | .event _ | .other => none
  | .statusItemUpdate id text => some (.statusItemUpdate id text)
  | .extensionRegistryChanged => some .extensionRegistryChanged
  | .extensionCommandResult commandName content isError =>
    let blockId := "cmd-" ++ uuid
    let message := if isBlank content then "/" ++ commandName ++ " failed" else content
    some (.appendBlock (if isError then .error blockId message else .systemNote blockId content))
  | .globalCustomEvent source extensionId eventType schemaVersion payload =>
    if source = sessionId then none
    else some (.customEvent extensionId eventType schemaVersion payload)

def notificationToSseItems (notification : ClientNotification)
    (s : SessionStream) : List SseItem × SessionStream :=
  match notificationDelta uuid s.sessionId notification with
  | none => ([], s)
  | some delta => s.sseItemAtCursor storage delta

def liveInputToSseItems (input : LiveInput) (s : SessionStream) :
    List SseItem × SessionStream :=
  match input with
  | .event event => s.eventToSseItems storage event
  | .notification notification => s.notificationToSseItems storage uuid notification

/-- Queues the answer to an input. -/
def answer (input : LiveInput) (s : SessionStream) :
    SessionStream :=
  let (items, s) := s.liveInputToSseItems storage uuid input
  { s with pending := s.pending ++ items }

/-! ### The first live poll -/

/-- Which events in the channel are kept when the live part begins after a replay up to
`replayMax`. -/
def keepsEvent (replayMax : Nat) (s : SessionStream) (event : Event) : Bool :=
  if event.sessionId = s.sessionId then
    match event with
    -- a replay cannot make up for the live state of extensions
    | .live event => match event.payload with
      | .customEvent _ => true
      | _ => false
    | .durable stored => replayMax < stored.seq
  else s.childSessions.isTrackedEvent event

def keepsNotification : ClientNotification → Bool
  | .event _ | .other => false
  | _ => true

/-- `drain_stale_live_events` up to the first answer. -/
def drainStaleLiveEvents : SessionStream :=
  match s.replayMaxSeq with
  | none => s
  | some replayMax =>
    match s.eventRx.drain, s.notificationRx.drain with
    | .ok events, .ok notifications =>
      { s with
        eventRx := { s.eventRx with queue := [] }
        notificationRx := { s.notificationRx with queue := [] }
        buffered := (events.filter (s.keepsEvent replayMax)).map .event ++
          (notifications.filter keepsNotification).map .notification }
    | _, _ => { s with closing := true }

/-! ### Steps -/

/-- Whether the live part of the response is being polled. -/
def isLive : Bool :=
  s.connection = .streaming true && s.replay.isEmpty && !s.closing

/-- Where the stream takes its next input from. -/
inductive Inlet where
  | buffered
  | events
  | notifications
  deriving DecidableEq

/-- The next input from an inlet; an error of the channel is no input. -/
def nextInput (inlet : Inlet) (s : SessionStream) :
    Option (Except Unit LiveInput × SessionStream) :=
  match inlet with
  | .buffered =>
    match s.buffered with
    | [] => none
    | input :: rest => some (.ok input, { s with buffered := rest })
  | .events =>
    if s.buffered.isEmpty && s.pending.isEmpty then
      s.eventRx.recv.map fun (event, eventRx) => (event.map .event, { s with eventRx })
    else none
  | .notifications =>
    if s.buffered.isEmpty && s.pending.isEmpty then
      s.notificationRx.recv.map fun (notification, notificationRx) =>
        (notification.map .notification, { s with notificationRx })
    else none

inductive Action where
  /-- The session commits an event. -/
  | commit (event : DurableEvent)
  /-- The bus delivers an event to the subscribers of the session. -/
  | publish (event : Event)
  | notify (notification : ClientNotification)
  /-- The stream falls behind on a channel. -/
  | lagEvents
  | lagNotifications
  /-- The bus gives up the session's channel. -/
  | closeEvents
  | connect (storage : Bool)
  | readMissed (storage : Bool)
  /-- The stream sends the next item it has. -/
  | emit
  | drain
  | take (storage : Bool) (uuid : String) (inlet : Inlet)
  deriving DecidableEq

/-- What the bus may deliver: stored events of the session only after their commit. -/
def mayPublish : Event → Bool
  | .live _ => true
  | .durable stored =>
    stored.event.sessionId ≠ s.sessionId || s.log[stored.seq]? = some stored.event

def emit : SessionStream :=
  match s.replay with
  | item :: rest => { s with replay := rest, emitted := s.emitted ++ [item] }
  | [] =>
    -- the drain answers what it found before anything is sent
    if s.isLive && s.drained && s.buffered.isEmpty then
      match s.pending with
      | item :: rest => { s with pending := rest, emitted := s.emitted ++ [item] }
      | [] => s
    else s

def take (storage : Bool) (uuid : String) (inlet : Inlet) (s : SessionStream) : SessionStream :=
  if s.isLive && s.drained then
    match s.nextInput inlet with
    | none => s
    | some (.error _, s) => { s with closing := true }
    | some (.ok input, s) => s.answer storage uuid input
  else s

/-- An action that is not possible in a state leaves it alone. -/
def step : Action → SessionStream
  | .commit event =>
    if event.sessionId = s.sessionId then { s with log := s.log ++ [event] } else s
  | .publish event => if s.mayPublish event then { s with eventRx := s.eventRx.send event } else s
  | .notify notification => { s with notificationRx := s.notificationRx.send notification }
  | .lagEvents => { s with eventRx := { s.eventRx with lagged := true } }
  | .lagNotifications => { s with notificationRx := { s.notificationRx with lagged := true } }
  | .closeEvents => { s with eventRx := { s.eventRx with closed := true } }
  | .connect storage => if s.connection = .subscribed then s.connect storage else s
  | .readMissed storage =>
    match s.connection with
    | .accepted requestedSeq => s.readMissed storage requestedSeq
    | _ => s
  | .emit => s.emit
  | .drain =>
    if s.isLive && !s.drained then { s with drained := true }.drainStaleLiveEvents else s
  | .take storage uuid inlet => s.take storage uuid inlet

def run (actions : List Action) : SessionStream := actions.foldl step s

end SessionStream

end Astrcode
