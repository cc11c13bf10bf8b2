import Astrcode.Core.ToolSelection
import Astrcode.Storage.Sessions

/-!
# Creating and configuring sessions

`astrcode-session/src/session_lifecycle.rs` with `configure_tools` of `session.rs` and the
part of `prepare_turn_runner` that fixes the tools of a turn. A session may use a tool if
its own selection and those of all its ancestors allow it; the selections are intersected
when a session is created, when it is configured and whenever a turn starts.

System prompts are prepared by extensions and come as arguments, as do the ids and times
that are new. Lifecycle hooks, publication and the compensation of a failed creation are
left out: a creation that fails leaves the store as it was.
-/
namespace Astrcode

open Library

/-- `SessionError`, as far as creating and configuring a session can raise it. -/
inductive LifecycleError where
  | storage (e : StorageError)
  | eventPublish (e : StorageError)
  | parentCycle (sessionId : SessionId)
  deriving DecidableEq

def LifecycleError.ofWalk : WalkError SessionId StorageError → LifecycleError
  | .cycle sessionId => .parentCycle sessionId
  | .resolve e => .storage e

/-- What `DurableEvent::new` gives an event besides its payload. -/
structure Stamp where
  id : EventId
  timestamp : Timestamp

def Stamp.sessionEvent (stamp : Stamp) (sessionId : SessionId) (payload : DurableEventPayload) :
    DurableEvent :=
  ⟨stamp.id, sessionId, none, stamp.timestamp, payload⟩

structure SessionCreateParams where
  sessionId : SessionId
  workingDir : String
  modelId : String
  parentSessionId : Option SessionId
  toolSelection : Option SessionToolSelection
  sourceExtension : Option String
  initialSystemPrompt : PersistedSystemPrompt
  stamp : Stamp

structure SpawnChildParams where
  workingDir : String
  modelId : String
  agentName : String
  task : String
  toolSelection : Option SessionToolSelection
  sourceExtension : Option String
  toolCallId : Option ToolCallId
  initialSystemPrompt : PersistedSystemPrompt
  childSessionId : SessionId
  childStamp : Stamp
  linkStamp : Stamp

namespace SessionRepository

variable (repository : SessionRepository)

def readModel (sessionId : SessionId) : Except LifecycleError SessionReadModel :=
  (repository.sessionReadModel sessionId).mapError .storage

def emitDurable (event : DurableEvent) : Except LifecycleError SessionRepository :=
  (repository.append event).mapError .eventPublish

/-! ### Tool selections -/

/-- The selection of a session, narrowed by those of its ancestors. -/
def resolveEffectiveToolSelection (sessionId : SessionId) (model : SessionReadModel) :
    Except LifecycleError (Option SessionToolSelection) :=
  let own := some model.identity.toolSelection
  match model.identity.parent with
  | none => .ok own
  | some parent =>
    (repository.genealogy.walk
      (fun selection _ parent =>
        SessionToolSelection.intersect (some parent.identity.toolSelection) selection)
      [sessionId] own parent.sessionId).mapError .ofWalk

def resolveInitialToolSelection (parentSessionId : Option SessionId)
    (requested : Option SessionToolSelection) :
    Except LifecycleError (Option SessionToolSelection) :=
  match parentSessionId with
  | none => .ok (SessionToolSelection.intersect none requested)
  | some parentSessionId => do
    let parent ← repository.readModel parentSessionId
    let parentSelection ← repository.resolveEffectiveToolSelection parentSessionId parent
    return SessionToolSelection.intersect parentSelection requested

/-- The selection a turn is started with. -/
def turnToolSelection (sessionId : SessionId) : Except LifecycleError SessionToolSelection := do
  let model ← repository.readModel sessionId
  let selection ← repository.resolveEffectiveToolSelection sessionId model
  return selection.getD (.all [])

/-! ### Creation -/

def createPersisted (params : SessionCreateParams) : Except LifecycleError SessionRepository :=
  (repository.create (params.stamp.sessionEvent params.sessionId (.sessionStarted {
    workingDir := params.workingDir
    modelId := params.modelId
    parent := params.parentSessionId.map fun sessionId => ⟨sessionId⟩
    toolSelection := params.toolSelection.getD (.all [])
    sourceExtension := params.sourceExtension
    initialSystemPrompt := params.initialSystemPrompt }))).mapError .eventPublish

def createWithParams (params : SessionCreateParams) : Except LifecycleError SessionRepository := do
  let toolSelection ←
    repository.resolveInitialToolSelection params.parentSessionId params.toolSelection
  repository.createPersisted { params with toolSelection }

/-- Creates the child, then links it to its parent. -/
def spawnChild (parentId : SessionId) (params : SpawnChildParams) :
    Except LifecycleError SessionRepository := do
  let toolSelection ← repository.resolveInitialToolSelection (some parentId) params.toolSelection
  let created ← repository.createPersisted {
    sessionId := params.childSessionId
    workingDir := params.workingDir
    modelId := params.modelId
    parentSessionId := some parentId
    toolSelection
    sourceExtension := params.sourceExtension
    initialSystemPrompt := params.initialSystemPrompt
    stamp := params.childStamp }
  created.emitDurable (params.linkStamp.sessionEvent parentId
    (.agentSessionSpawned params.childSessionId params.agentName params.task toolSelection
      params.toolCallId))

/-! ### Configuration -/

/-- What the ancestors of a session allow; a root has none. -/
def parentToolSelection (model : SessionReadModel) :
    Except LifecycleError (Option SessionToolSelection) :=
  match model.identity.parent with
  | some parent => do
    let parentModel ← repository.readModel parent.sessionId
    repository.resolveEffectiveToolSelection parent.sessionId parentModel
  | none => .ok none

def configureTools (sessionId : SessionId) (requested : SessionToolSelection) (stamp : Stamp) :
    Except LifecycleError SessionRepository := do
  let model ← repository.readModel sessionId
  let parentSelection ← repository.parentToolSelection model
  repository.emitDurable (stamp.sessionEvent sessionId
    (.sessionToolsConfigured (SessionToolSelection.restrict parentSelection requested)))

end SessionRepository

end Astrcode
