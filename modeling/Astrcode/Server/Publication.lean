import Astrcode.Server.Stream

/-!
# From a session's log to its streams

`astrcode-session/src/session_event_sink.rs` and `publish_event` of
`astrcode-server/src/server_event_bus.rs`, as a stream sees them. Each session has one lane: it
commits batches of events to the log and publishes each event after its commit, one after the
other. A batch whose sync failed cannot be read until the sync is retried, so that a commit
here is a confirmed one. A lane may hold publications back, and may give up those it holds back.
-/
namespace Astrcode

/-- A stream with the lane of its session. -/
structure SessionFeed where
  stream : SessionStream
  /-- The events below this number have been published or never will be. -/
  published : Nat

namespace SessionFeed

inductive Action where
  /-- `append_events` or `append_events_and_sync` succeed. -/
  | commit (events : List DurableEvent)
  /-- The lane publishes its next event. -/
  | publishDurable
  /-- The publications that are held back are given up. -/
  | discardDeferred
  /-- Anything that is not up to the lane. -/
  | elsewhere (action : SessionStream.Action)
  deriving DecidableEq

/-- Only the lane commits and publishes durable events of the session. -/
def upToLane (sessionId : SessionId) : SessionStream.Action → Bool
  | .commit _ => true
  | .publish (.durable stored) => stored.event.sessionId = sessionId
  | _ => false

def step (feed : SessionFeed) : Action → SessionFeed
  | .commit events => { feed with stream := feed.stream.run (events.map .commit) }
  | .publishDurable =>
    match feed.stream.log[feed.published]? with
    | none => feed
    | some event =>
      { stream := feed.stream.step (.publish (.durable ⟨feed.published, event⟩))
        published := feed.published + 1 }
  | .discardDeferred => { feed with published := max feed.published feed.stream.log.length }
  | .elsewhere action =>
    if upToLane feed.stream.sessionId action then feed
    else { feed with stream := feed.stream.step action }

def run (feed : SessionFeed) (actions : List Action) : SessionFeed := actions.foldl step feed

end SessionFeed

end Astrcode
