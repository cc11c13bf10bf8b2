import Astrcode.Core.Event

/-!
# Deferred publication

`PublicationState` and `SessionEventPublicationGuard` of
`astrcode-session/src/session_event_sink.rs`, with every part that runs under the lock of the
table as one step. Publishers are the lanes and the callers of `publish_live`: a publisher that
finds no deferral hands its event to the observer only after it has released the lock, and so
does a commit with the events it has taken, so that other threads run in between.
-/
namespace Astrcode

/-- One call of `publish`. Beside the event it has what the source leaves implicit: who
called, after how many other calls, and the deferral the call has met, if any. -/
structure Publication where
  ticket : Nat
  publisher : Nat
  event : Event
  deferral : Option Nat
  deriving DecidableEq

def Publication.sessionId (publication : Publication) : SessionId := publication.event.sessionId

/-- The table of deferrals, with the vectors it refers to by their addresses, and what has
come to the observer. -/
structure PublicationState where
  deferred : SessionId → Option Nat
  events : Nat → List Publication
  observer : List Publication

namespace PublicationState

variable (state : PublicationState)

/-- `publish` of the observer itself. -/
def observe (publication : Publication) : PublicationState :=
  { state with observer := state.observer ++ [publication] }

/-- What `publish` does under the lock when the session has a deferral. -/
@[simps] def push (publication : Publication) (address : Nat) :
    PublicationState :=
  { state with
    events := Function.update state.events address (state.events address ++ [publication]) }

/-- One round of the loop of `commit_deferred`, up to where it releases the lock: the events
that it has taken, or `none` when the function returns. -/
def takeDeferred (sessionId : SessionId) (events : Nat) :
    PublicationState × Option (List Publication) :=
  match state.deferred sessionId with
  | none => (state, none)
  | some current =>
    if current ≠ events then (state, none)
    else if (state.events events).isEmpty then
      ({ state with deferred := Function.update state.deferred sessionId none }, none)
    else
      ({ state with events := Function.update state.events events [] },
        some (state.events events))

def discardDeferred (sessionId : SessionId) (events : Nat) :
    PublicationState :=
  match state.deferred sessionId with
  | none => state
  | some current =>
    if current ≠ events then state
    else { state with deferred := Function.update state.deferred sessionId none }

end PublicationState

/-- What has become of a guard: `commit` consumes it, and so does dropping it. -/
inductive GuardState where
  | held
  /-- Inside `commit`, with the events that it has taken and not yet published. -/
  | committing (pending : List Publication)
  | committed
  | discarded
  deriving DecidableEq

structure SessionEventPublicationGuard where
  sessionId : SessionId
  state : GuardState
  deriving DecidableEq

/-- All threads that publish, and all guards by the address of their events. -/
structure PublicationSystem where
  publication : PublicationState
  /-- What a publisher is about to hand to the observer. -/
  publishers : Nat → Option Publication
  guards : Nat → Option SessionEventPublicationGuard
  allocated : Nat
  /-- Every call of `publish`, oldest first. -/
  sent : List Publication

namespace PublicationSystem

def empty : PublicationSystem :=
  { publication := { deferred := fun _ => none, events := fun _ => [], observer := [] }
    publishers := fun _ => none
    guards := fun _ => none
    allocated := 0
    sent := [] }

inductive Action where
  /-- A publisher calls `publish` and leaves its critical section. -/
  | publish (publisher : Nat) (event : Event)
  /-- A publisher that has found no deferral reaches the observer. -/
  | reachObserver (publisher : Nat)
  | deferPublication (sessionId : SessionId)
  /-- The thread in `commit` of a guard takes its next step. -/
  | commit (events : Nat)
  | drop (events : Nat)
  deriving DecidableEq

variable (system : PublicationSystem)

def setGuard (events : Nat) (sessionId : SessionId) (state : GuardState) : PublicationSystem :=
  { system with guards := Function.update system.guards events (some ⟨sessionId, state⟩) }

def publish (publisher : Nat) (event : Event) :
    PublicationSystem :=
  let deferral := system.publication.deferred event.sessionId
  let publication := ⟨system.sent.length, publisher, event, deferral⟩
  let system := { system with sent := system.sent ++ [publication] }
  match deferral with
  | some events => { system with publication := system.publication.push publication events }
  | none =>
    { system with publishers := Function.update system.publishers publisher (some publication) }

def deferPublication (sessionId : SessionId) : PublicationSystem :=
  match system.publication.deferred sessionId with
  -- `AlreadyDeferred`
  | some _ => system
  | none =>
    { system with
      publication := { system.publication with
        deferred := Function.update system.publication.deferred sessionId (some system.allocated)
        events := Function.update system.publication.events system.allocated [] }
      guards := Function.update system.guards system.allocated (some ⟨sessionId, .held⟩)
      allocated := system.allocated + 1 }

/-- One round of the loop. -/
def commitRound (events : Nat) (sessionId : SessionId) :
    PublicationSystem :=
  match system.publication.takeDeferred sessionId events with
  | (publication, none) =>
    { system with publication := publication }.setGuard events sessionId .committed
  | (publication, some pending) =>
    { system with publication := publication }.setGuard events sessionId (.committing pending)

def commit (events : Nat) : PublicationSystem :=
  match system.guards events with
  | some ⟨sessionId, .held⟩ => system.commitRound events sessionId
  | some ⟨sessionId, .committing []⟩ => system.commitRound events sessionId
  | some ⟨sessionId, .committing (next :: rest)⟩ =>
    { system with publication := system.publication.observe next }.setGuard events sessionId
      (.committing rest)
  | _ => system

def drop (events : Nat) : PublicationSystem :=
  match system.guards events with
  | some ⟨sessionId, .held⟩ =>
    { system with publication := system.publication.discardDeferred sessionId events }.setGuard
      events sessionId .discarded
  | _ => system

def step : Action → PublicationSystem
  | .publish publisher event =>
    -- a publisher runs one call after the other
    match system.publishers publisher with
    | some _ => system
    | none => system.publish publisher event
  | .reachObserver publisher =>
    match system.publishers publisher with
    | none => system
    | some publication =>
      { system with
        publication := system.publication.observe publication
        publishers := Function.update system.publishers publisher none }
  | .deferPublication sessionId => system.deferPublication sessionId
  | .commit events => system.commit events
  | .drop events => system.drop events

def run (actions : List Action) : PublicationSystem :=
  actions.foldl step system

end PublicationSystem

end Astrcode
