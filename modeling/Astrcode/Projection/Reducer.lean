import Astrcode.Library.Runs
import Astrcode.Projection.Components

/-!
# The reducer

`astrcode-session-projection/src/reducer.rs`: one event at a time (`reduce`), a
whole log (`replay`), and a batch that is validated before its events are durable
and applied afterwards (`PreparedProjectionBatch`).
-/
namespace Astrcode

/-! ### One event -/

def validateContiguous (seq currentSeq : Nat) : Except ProjectionError Unit :=
  match checkedAdd currentSeq 1 with
  | none => .error .sequenceOverflow
  | some expectedSeq =>
    if seq ≠ expectedSeq then .error (.nonContiguousSequence expectedSeq seq) else .ok ()

def validateNextEventDetails (seq : Nat) (event : DurableEvent) (expectedSessionId : SessionId)
    (currentSeq : Nat) : Except ProjectionError Unit :=
  if event.sessionId ≠ expectedSessionId then
    .error (.sessionMismatch expectedSessionId event.sessionId)
  else if event.payload.isSessionStarted then .error (.duplicateSessionStarted seq)
  else if event.payload.isGlobalCustomEvent then .error (.invalidDurableCustomEventAudience seq)
  else match event.payload.rewriteSource? with
    | some sourceSeq =>
      if currentSeq < sourceSeq then
        .error (.invalidTranscriptRewriteSource sourceSeq currentSeq)
      else validateContiguous seq currentSeq
    | none => validateContiguous seq currentSeq

def validateNextEvent (seq : Nat) (event : DurableEvent) (model : SessionReadModel) :
    Except ProjectionError Unit := do
  validateNextEventDetails seq event model.identity.sessionId model.stats.lastSeq
  validateRewriteFingerprintAgainst event model.systemPrompt.text model.modelContext.messages

variable (event : StoredEvent)

def identityAfter (identity : SessionIdentity) : SessionIdentity :=
  match event.event.payload with
  | .modelIdChanged modelId => { identity with modelId }
  | .sessionToolsConfigured selection => { identity with toolSelection := selection }
  | .sessionForked sourceSessionId sourceCursor _ _ =>
    { identity with forkedFrom := some ⟨sourceSessionId, sourceCursor⟩ }
  | _ => identity

@[simps] def applyValidatedEvent (model : SessionReadModel) : SessionReadModel where
  identity := identityAfter event model.identity
  stats :=
    { model.stats with
      lastSeq := event.seq
      updatedAt := event.event.timestamp
      eventCount := model.stats.eventCount + 1 }
  systemPrompt := ModelContext.systemPromptAfter event model.systemPrompt
  modelContext := ModelContext.applyEvent event model.modelContext
  presentation := Presentation.applyEvent event model.presentation
  execution := Execution.applyEvent event model.execution
  agentSessions := Agents.applyEvent event model.agentSessions

def reduce (model : SessionReadModel) :
    Except ProjectionError SessionReadModel := do
  validateNextEvent event.seq event.event model
  return applyValidatedEvent event model

/-! ### A whole log -/

def validateFirstEvent : Except ProjectionError SessionStarted :=
  if event.seq ≠ 0 then .error (.invalidFirstSequence event.seq)
  else if event.event.turnId.isSome then .error .sessionStartedHasTurn
  else match event.event.payload with
    | .sessionStarted started => .ok started
    | _ => .error .invalidFirstEvent

structure SessionReadModelProjection where
  sessionId : SessionId
  model : Option SessionReadModel

def SessionReadModelProjection.apply (projection : SessionReadModelProjection) :
    Except ProjectionError SessionReadModelProjection :=
  if event.event.sessionId ≠ projection.sessionId then
    .error (.sessionMismatch projection.sessionId event.event.sessionId)
  else match projection.model with
    | some model => do
      let model ← reduce event model
      return { projection with model := some model }
    | none => do
      let started ← validateFirstEvent event
      return { projection with
        model := some (.fromStarted projection.sessionId started event.event.timestamp) }

variable {event}

def SessionReadModelProjection.snapshot (projection : SessionReadModelProjection) :
    Except ProjectionError SessionReadModel :=
  match projection.model with
  | some model => .ok model
  | none => .error (.missingSessionStarted projection.sessionId)

def replay (sessionId : SessionId) (events : List StoredEvent) :
    Except ProjectionError SessionReadModel := do
  let projection ← Library.runAll SessionReadModelProjection.apply events ⟨sessionId, none⟩
  projection.snapshot

/-! ### Batches -/

structure PreparedProjectionBatch where
  firstSeq : Nat
  events : List StoredEvent

/-- Gives the events of a batch their sequence numbers, `index` being that of the first. -/
def numberBatch (firstSeq : Nat) :
    Nat → List DurableEvent → Except ProjectionError (List StoredEvent)
  | _, [] => .ok []
  | index, event :: rest =>
    match checkedAdd firstSeq index with
    | none => .error .sequenceOverflow
    | some seq => do
      let stored ← numberBatch firstSeq (index + 1) rest
      return ⟨seq, event⟩ :: stored

/-- Validates a batch event by event. The context is only followed when some event of the
batch rewrites the transcript. -/
def validateBatch (sessionId : SessionId) :
    Nat → Option ModelContextValidationState → List StoredEvent → Except ProjectionError Unit
  | _, _, [] => .ok ()
  | currentSeq, context, event :: rest => do
    validateNextEventDetails event.seq event.event sessionId currentSeq
    match context with
    | some state =>
      let state ← state.validateAndApply event
      -- a later rewrite is checked against what the earlier events of the batch leave
      validateBatch sessionId event.seq (some state) rest
    | none => validateBatch sessionId event.seq none rest

namespace PreparedProjectionBatch

def prepare (model : SessionReadModel) (events : List DurableEvent) :
    Except ProjectionError PreparedProjectionBatch :=
  if events.isEmpty then .error .emptyBatch
  else match checkedAdd model.stats.lastSeq 1 with
    | none => .error .sequenceOverflow
    | some firstSeq => do
      -- every event is numbered before the first one is validated
      let stored ← numberBatch firstSeq 0 events
      let context :=
        if stored.any (·.event.payload.rewriteSource?.isSome) then
          some ⟨model.systemPrompt.text, model.modelContext.messages⟩
        else none
      validateBatch model.identity.sessionId model.stats.lastSeq context stored
      return ⟨firstSeq, stored⟩

def applyToModel (batch : PreparedProjectionBatch) (model : SessionReadModel) :
    SessionReadModel :=
  batch.events.foldl (fun model event => applyValidatedEvent event model) model

end PreparedProjectionBatch

/-- A batch as its callers run it: prepared against the model and, once that succeeded,
applied to it. -/
def projectBatch (events : List DurableEvent) (model : SessionReadModel) :
    Except ProjectionError Unit × SessionReadModel :=
  match PreparedProjectionBatch.prepare model events with
  | .ok batch => (.ok (), batch.applyToModel model)
  -- nothing of a refused batch is applied
  | .error e => (.error e, model)

/-! ### Runs of the reducer -/

/-- Reduces events one after the other, up to the first one that is refused. -/
def reduceAll (events : List StoredEvent) (model : SessionReadModel) :
    Except ProjectionError SessionReadModel :=
  Library.runAll reduce events model

/-- A read model some log replays to. -/
def ReplayReachable (model : SessionReadModel) : Prop :=
  ∃ sessionId events, replay sessionId events = .ok model

end Astrcode
