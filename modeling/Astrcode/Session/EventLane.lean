import Astrcode.Storage.Journal

/-!
# The event lane of a session

`SessionEventLane` and `run_lane` of `astrcode-session/src/session_event_sink.rs`: one task takes
the commands of a session out of a bounded channel, hands neighbouring appends of one kind to the
journal as one batch, publishes what the journal has stored and replies. Senders run at any time;
how the journal's files behave is an argument of each step of the task.

A reply channel is the ticket of its command: the number of commands the channel has taken before.
-/
namespace Astrcode

def eventPublishCapacity : Nat := 1024

def maxDurableBatchSize : Nat := 32

inductive SessionEventPublishError where
  | closed
  | task (message : String)
  | alreadyDeferred (sessionId : SessionId)
  | storage (error : StorageError)
  deriving DecidableEq

inductive DurableCommit where
  | create
  | append
  | appendAndSync
  deriving DecidableEq

inductive PublishCommand where
  | durable (kind : DurableCommit) (event : DurableEvent)
  | live (event : LiveEvent)
  | sync
  | retryUncertainSync (expectedThroughSeq : Nat)
  | shutdown
  deriving DecidableEq

namespace PublishCommand

/-- A live event is sent without a reply channel. -/
def wantsReply : PublishCommand → Bool
  | .live _ => false
  | _ => true

def isShutdown : PublishCommand → Bool
  | .shutdown => true
  | _ => false

/-- The sink finds the lane by the session of the event. -/
def isFor (sessionId : SessionId) : PublishCommand → Bool
  | .durable _ event => event.sessionId = sessionId
  | .live event => event.sessionId = sessionId
  | .sync => true
  | .retryUncertainSync _ => true
  | .shutdown => true

end PublishCommand

structure LaneRequest where
  ticket : Nat
  command : PublishCommand
  deriving DecidableEq

inductive LaneReply where
  | stored (result : Except SessionEventPublishError StoredEvent)
  | done (result : Except SessionEventPublishError Unit)

/-- A session that is not open yet, as its directory has it. -/
structure StoredSession where
  chunk : ChunkSize
  path : String
  file : List UInt8

/-- How the files behave during one call of the journal. -/
structure JournalOutcome where
  /-- What `get_or_open_meta` finds, if the session has to be opened. -/
  found : Except StorageError StoredSession
  /-- What goes wrong while a session is created. -/
  createError : Option StorageError
  write : WriteOutcome
  sync : SyncOutcome

/-! ### The journal of one session -/

/-- An operation on the session, which is opened first if it has to be. -/
def withSession {α : Type} (codec : RecordCodec) (sessionId : SessionId) (outcome : JournalOutcome)
    (operation : SessionMeta → Except StorageError α × SessionMeta) (journal : Option SessionMeta) :
    Except StorageError α × Option SessionMeta :=
  match journal with
  | some state =>
    let (result, state) := operation state
    (result, some state)
  | none =>
    let opened : Except StorageError SessionMeta := do
      validateStorageSessionId sessionId
      let found ← outcome.found
      openMeta codec found.chunk found.path sessionId found.file
    match opened with
    | .error e => (.error e, none)
    | .ok state =>
      let (result, state) := operation state
      (result, some state)

/-- `create_session`; the log of a session that exists is never replaced. -/
def createInJournal (codec : RecordCodec) (path : String) (outcome : JournalOutcome)
    (event : DurableEvent) (journal : Option SessionMeta) :
    Except StorageError StoredEvent × Option SessionMeta :=
  match createSession codec path event with
  | .error e => (.error e, journal)
  | .ok (state, stored) =>
    match journal with
    | some _ => (.error (.io ("failed to open session file '" ++ path ++ "'")), journal)
    | none =>
      match outcome.createError with
      | some e => (.error e, none)
      | none => (.ok stored, some state)

/-! ### What the task has done so far -/

structure LaneState where
  journal : Option SessionMeta
  /-- What the lane has published, oldest first. -/
  observer : List Event
  replies : List (Nat × LaneReply)

namespace LaneState

def publish (event : Event) (lane : LaneState) : LaneState :=
  { lane with observer := lane.observer ++ [event] }

def reply (ticket : Nat) (result : LaneReply) (lane : LaneState) : LaneState :=
  { lane with replies := lane.replies ++ [(ticket, result)] }

def publishDurable (stored : StoredEvent) (lane : LaneState) : LaneState :=
  lane.publish (.durable stored)

def publishAll : List StoredEvent → LaneState → LaneState
  | [], lane => lane
  | stored :: rest, lane => publishAll rest (lane.publishDurable stored)

/-- Publishes the events of a batch, each before its reply. -/
def settle : List (Nat × StoredEvent) → LaneState → LaneState
  | [], lane => lane
  | (ticket, stored) :: rest, lane =>
    settle rest ((lane.publishDurable stored).reply ticket (.stored (.ok stored)))

/-- Every command of a batch gets its error. -/
def fail (error : SessionEventPublishError) : List Nat → LaneState → LaneState
  | [], lane => lane
  | ticket :: rest, lane => fail error rest (lane.reply ticket (.stored (.error error)))

def recordCountMismatch (stored submitted : Nat) : SessionEventPublishError :=
  .task ("event journal returned " ++ toString stored ++ " records for a batch of " ++
    toString submitted)

variable (codec : RecordCodec) (sessionId : SessionId) (outcome : JournalOutcome)

/-- `journal.append_events` or `journal.append_events_and_sync`. -/
def appendBatch (kind : DurableCommit) (events : List DurableEvent) (state : SessionMeta) :
    Except StorageError (List StoredEvent) × SessionMeta :=
  match kind with
  | .appendAndSync => state.appendEventsAndSync codec events outcome.write outcome.sync
  | _ => state.appendEvents codec events outcome.write

/-- A batch of appends of one kind. -/
def commitBatch (kind : DurableCommit) (batch : List (Nat × DurableEvent)) (lane : LaneState) :
    LaneState :=
  let events := batch.map (·.2)
  let tickets := batch.map (·.1)
  match withSession codec sessionId outcome (appendBatch codec outcome kind events) lane.journal with
  | (.error e, journal) => fail (.storage e) tickets { lane with journal }
  | (.ok stored, journal) =>
    if stored.length = tickets.length then settle (tickets.zip stored) { lane with journal }
    else fail (recordCountMismatch stored.length tickets.length) tickets { lane with journal }

def create (path : String) (ticket : Nat) (event : DurableEvent) (lane : LaneState) : LaneState :=
  match createInJournal codec path outcome event lane.journal with
  | (.error e, journal) => { lane with journal }.reply ticket (.stored (.error (.storage e)))
  | (.ok stored, journal) =>
    ({ lane with journal }.publishDurable stored).reply ticket (.stored (.ok stored))

def syncLane (ticket : Nat) (lane : LaneState) : LaneState :=
  let (result, journal) := withSession codec sessionId outcome
    (fun state => state.syncDurableEvents sessionId outcome.sync) lane.journal
  { lane with journal }.reply ticket (.done (result.mapError .storage))

def retryUncertainSync (ticket expectedThroughSeq : Nat) (lane : LaneState) : LaneState :=
  match withSession codec sessionId outcome
      (fun state => state.retryUncertainSync sessionId expectedThroughSeq outcome.sync)
      lane.journal with
  | (.error e, journal) => { lane with journal }.reply ticket (.done (.error (.storage e)))
  | (.ok confirmed, journal) =>
    (publishAll confirmed { lane with journal }).reply ticket (.done (.ok ()))

end LaneState

/-! ### The task and its channel -/

structure EventLane where
  sessionId : SessionId
  /-- Where `create_session` puts the log. -/
  path : String
  /-- The sink still has the lane in its table. -/
  listed : Bool
  commands : List LaneRequest
  closed : Bool
  /-- A command that came while a batch was collected and is not part of it. -/
  pending : Option LaneRequest
  /-- The batch that is being collected. -/
  collecting : Option (DurableCommit × List (Nat × DurableEvent))
  shutdownReply : Option Nat
  stopped : Bool
  state : LaneState
  /-- All commands the channel has taken, and those among them that the task has come to. -/
  accepted : List LaneRequest
  processed : List LaneRequest

namespace EventLane

def start (sessionId : SessionId) (path : String) (journal : Option SessionMeta) : EventLane :=
  { sessionId, path
    listed := true
    commands := []
    closed := false
    pending := none
    collecting := none
    shutdownReply := none
    stopped := false
    state := ⟨journal, [], []⟩
    accepted := []
    processed := [] }

inductive Action where
  /-- A sender puts a command into the channel. -/
  | send (command : PublishCommand)
  /-- The task goes on. -/
  | work (outcome : JournalOutcome)

def enqueue (command : PublishCommand) (lane : EventLane) : EventLane :=
  let request : LaneRequest := ⟨lane.accepted.length, command⟩
  { lane with commands := lane.commands ++ [request], accepted := lane.accepted ++ [request] }

/-- A closed channel refuses the command, and the sender of a full one waits. `release` and
`shutdown` of the sink take the lane out of the table first, so that `Shutdown` comes once. -/
def send (command : PublishCommand) (lane : EventLane) : EventLane :=
  if lane.closed ∨ eventPublishCapacity ≤ lane.commands.length ∨
      command.isFor lane.sessionId = false then lane
  else if command.isShutdown then
    if lane.listed then { lane with listed := false }.enqueue command else lane
  else lane.enqueue command

variable (codec : RecordCodec) (outcome : JournalOutcome)

/-- One command, up to where the task awaits the next. -/
def handle (request : LaneRequest) (lane : EventLane) : EventLane :=
  let lane := { lane with processed := lane.processed ++ [request] }
  match request.command with
  | .durable .create event =>
    { lane with state := lane.state.create codec outcome lane.path request.ticket event }
  | .durable kind event => { lane with collecting := some (kind, [(request.ticket, event)]) }
  | .live event => { lane with state := lane.state.publish (.live event) }
  | .sync => { lane with state := lane.state.syncLane codec lane.sessionId outcome request.ticket }
  | .retryUncertainSync expectedThroughSeq =>
    { lane with
      state := lane.state.retryUncertainSync codec lane.sessionId outcome request.ticket
        expectedThroughSeq }
  | .shutdown => { lane with closed := true, shutdownReply := some request.ticket }

def commit (kind : DurableCommit) (batch : List (Nat × DurableEvent)) (lane : EventLane) :
    EventLane :=
  { lane with
    collecting := none
    state := lane.state.commitBatch codec lane.sessionId outcome kind batch }

/-- One `try_recv` of the loop that collects a batch; without another command of the kind the
batch goes to the journal. -/
def collect (kind : DurableCommit) (batch : List (Nat × DurableEvent)) (lane : EventLane) :
    EventLane :=
  if maxDurableBatchSize ≤ batch.length then lane.commit codec outcome kind batch
  else match lane.commands with
    | [] => lane.commit codec outcome kind batch
    | ⟨ticket, .durable nextKind event⟩ :: rest =>
      if nextKind = kind then
        { lane with
          commands := rest
          processed := lane.processed ++ [⟨ticket, .durable nextKind event⟩]
          collecting := some (kind, batch ++ [(ticket, event)]) }
      else
        { lane with commands := rest, pending := some ⟨ticket, .durable nextKind event⟩ }.commit
          codec outcome kind batch
    | request :: rest =>
      { lane with commands := rest, pending := some request }.commit codec outcome kind batch

variable (lane : EventLane)

/-- The loop is over: the log is synced for whoever has asked for the shutdown. -/
def finish : EventLane :=
  match lane.shutdownReply with
  | none => { lane with stopped := true }
  | some ticket =>
    { lane with
      stopped := true
      shutdownReply := none
      state := lane.state.syncLane codec lane.sessionId outcome ticket }

def work : EventLane :=
  if lane.stopped then lane
  else match lane.collecting with
    | some (kind, batch) => lane.collect codec outcome kind batch
    | none =>
      match lane.pending with
      | some request => { lane with pending := none }.handle codec outcome request
      | none =>
        match lane.commands with
        | request :: rest => { lane with commands := rest }.handle codec outcome request
        | [] => if lane.closed then lane.finish codec outcome else lane

def step : Action → EventLane
  | .send command => lane.send command
  | .work outcome => lane.work codec outcome

def run (actions : List Action) : EventLane := actions.foldl (step codec) lane

end EventLane

end Astrcode
