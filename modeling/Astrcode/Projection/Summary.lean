import Astrcode.Projection.Reducer

/-!
# Session summaries

The summary of a read model, and `SessionSummaryProjection` of
`astrcode-session-projection/src/reducer.rs`, which lists of sessions use: it follows the execution
state and the few fields of the summary, and skips the rest of the read model. A time is kept as
it is where the source keeps its text.
-/
namespace Astrcode

structure SessionSummary where
  sessionId : SessionId
  createdAt : Timestamp
  updatedAt : Timestamp
  workingDir : String
  modelId : String
  parentSessionId : Option SessionId
  phase : Phase
  latestCursor : Cursor
  firstUserMessage : Option String
  sourceExtension : Option String
  deriving DecidableEq

namespace SessionReadModel

variable (model : SessionReadModel)

def cursor : Cursor := toString model.stats.lastSeq

@[simp] def parentSessionId : Option SessionId := model.identity.parent.map (·.sessionId)

def toSummary : SessionSummary where
  sessionId := model.identity.sessionId
  createdAt := model.stats.createdAt
  updatedAt := model.stats.updatedAt
  workingDir := model.identity.workingDir
  modelId := model.identity.modelId
  parentSessionId := model.parentSessionId
  phase := model.execution.phase
  latestCursor := model.cursor
  firstUserMessage := model.presentation.firstUserMessage
  sourceExtension := model.identity.sourceExtension

end SessionReadModel

structure SessionSummaryProjection where
  sessionId : SessionId
  summary : Option SessionSummary
  execution : SessionExecutionState
  lastSeq : Nat

namespace SessionSummaryProjection

def new (sessionId : SessionId) : SessionSummaryProjection := ⟨sessionId, none, .default, 0⟩

/-- The fields of the summary that an event changes, `execution` being the state after it. -/
def summaryAfter (event : StoredEvent) (execution : SessionExecutionState)
    (summary : SessionSummary) : SessionSummary :=
  let summary := match event.event.payload with
    | .modelIdChanged modelId => { summary with modelId }
    | .userMessage _ text _ _ =>
      if summary.firstUserMessage.isNone then { summary with firstUserMessage := some text }
      else summary
    | .sessionForked _ _ firstUserMessage _ => { summary with firstUserMessage }
    | _ => summary
  { summary with
    updatedAt := event.event.timestamp
    latestCursor := toString event.seq
    phase := execution.phase }

def apply (event : StoredEvent) (projection : SessionSummaryProjection) :
    Except ProjectionError SessionSummaryProjection :=
  if event.event.sessionId ≠ projection.sessionId then
    .error (.sessionMismatch projection.sessionId event.event.sessionId)
  else match projection.summary with
    | none => do
      let started ← validateFirstEvent event
      let model := SessionReadModel.fromStarted projection.sessionId started event.event.timestamp
      return { projection with summary := some model.toSummary, lastSeq := event.seq }
    | some summary => do
      -- the fingerprint of a rewrite is not checked: there are no messages to check it against
      validateNextEventDetails event.seq event.event projection.sessionId projection.lastSeq
      let execution := Execution.applyEvent event projection.execution
      return { projection with
        summary := some (summaryAfter event execution summary)
        execution
        lastSeq := event.seq }

def snapshot (projection : SessionSummaryProjection) : Except ProjectionError SessionSummary :=
  match projection.summary with
  | some summary => .ok summary
  | none => .error (.missingSessionStarted projection.sessionId)

end SessionSummaryProjection

end Astrcode
