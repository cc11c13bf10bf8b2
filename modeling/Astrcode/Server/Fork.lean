import Astrcode.Session.Lifecycle

/-!
# Forking a session

`astrcode-server/src/session_manager/fork.rs`: a new root session with a copy of the
messages a source session had at some cursor. The new session is created without a parent
and without a requested selection.
-/
namespace Astrcode

/-- `SessionManagerError`, as far as a fork can raise it. -/
inductive SessionManagerError where
  | session (e : LifecycleError)
  | storage (e : StorageError)
  | projection (e : ProjectionError)
  | invalidCursor (cursor : Cursor)

structure ForkRequest where
  sourceId : SessionId
  atCursor : Option Cursor
  sourceExtension : Option String
  sessionId : SessionId
  startedStamp : Stamp
  forkedStamp : Stamp

namespace SessionRepository

variable (repository : SessionRepository)

/-- The messages and the first user message at the fork point. -/
def forkPoint (source : SessionReadModel) (request : ForkRequest) :
    Except SessionManagerError (List SequencedLlmMessage × Option String) :=
  match request.atCursor with
  | some cursor => do
    let events ← (repository.replayEvents request.sourceId).mapError .storage
    match parseUsize cursor.toList with
    | none => .error (.invalidCursor cursor)
    | some truncatedSeq => do
      let truncated ←
        (replay request.sourceId (events.filter (·.seq ≤ truncatedSeq))).mapError .projection
      return (truncated.modelContext.messages, truncated.presentation.firstUserMessage)
  | none => .ok (source.modelContext.messages, source.presentation.firstUserMessage)

def fork (request : ForkRequest) : Except SessionManagerError SessionRepository := do
  let source ← (repository.sessionReadModel request.sourceId).mapError .storage
  let (messages, firstUserMessage) ← repository.forkPoint source request
  let created ← (repository.createWithParams {
    sessionId := request.sessionId
    workingDir := source.identity.workingDir
    modelId := source.identity.modelId
    parentSessionId := none
    toolSelection := none
    sourceExtension := request.sourceExtension
    initialSystemPrompt := {
      text := source.systemPrompt.text
      fingerprint := source.systemPrompt.fingerprint
      extraSystemPrompt := source.systemPrompt.extra
      -- with messages the prompt is kept as it is, so that the provider's cache still fits
      source := if messages.isEmpty then .native else .inherited }
    stamp := request.startedStamp }).mapError .session
  (created.emitDurable (request.forkedStamp.sessionEvent request.sessionId
    (.sessionForked request.sourceId (request.atCursor.getD source.cursor) firstUserMessage
      (messages.map fun entry => ⟨entry.message, entry.origin⟩)))).mapError .session

end SessionRepository

end Astrcode
