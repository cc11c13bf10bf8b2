import Astrcode.Storage.Sessions

/-!
# Access between sessions

Which sessions a caller may look at: `verify_access_in_scope` of
`astrcode-server/src/child_session.rs`, which walks from the target to its root, and
`session_state` of `session_operations.rs`, which chooses the scope of the walk by where
the target is found. Which turn is running is known to the scheduler and is an argument.
-/
namespace Astrcode

open Library

/-- `SessionApiError`, as far as these operations can raise it; internal errors as texts. -/
inductive SessionApiError where
  | notFound (message : String)
  | permissionDenied (message : String)
  | unsupported (message : String)
  | internal (message : String)
  deriving DecidableEq

inductive SessionAccessScope where
  | active
  | activeOrRecycled
  deriving DecidableEq

def cycleMessage (sessionId : SessionId) : String :=
  "session parent chain contains a cycle at " ++ sessionId

/-- `map_recycled_access_error` and `map_restore_error`. -/
def recycledAccessError : StorageError → SessionApiError
  | .notFound sessionId => .notFound (StorageError.notFound sessionId).display
  | .unsupported reason => .unsupported reason
  | e => .internal e.display

def parentChainWalkApiError : WalkError SessionId SessionApiError → SessionApiError
  | .cycle sessionId => .internal (cycleMessage sessionId)
  | .resolve e => e

inductive SessionLifecycleState where
  | active
  | recycled
  deriving DecidableEq

structure SessionState where
  lifecycle : SessionLifecycleState
  phase : Phase
  activeTurnId : Option TurnId
  queuedInputs : Nat
  messageCount : Nat
  deriving DecidableEq

def stateOf (lifecycle : SessionLifecycleState) (activeTurnId : Option TurnId)
    (model : SessionReadModel) : SessionState :=
  ⟨lifecycle, model.execution.phase, activeTurnId, model.execution.pendingInputs.length,
    model.modelContext.messages.length⟩

namespace SessionRepository

variable (repository : SessionRepository)

def readAccessModel (scope : SessionAccessScope) (sessionId : SessionId) :
    Except SessionApiError SessionReadModel :=
  match repository.sessionReadModel sessionId with
  | .ok model => .ok model
  | .error e =>
    if scope = .active then .error (.notFound e.display)
    else match e with
      | .notFound _ => (repository.recycledSessionReadModel sessionId).mapError recycledAccessError
      | e => .error (.internal e.display)

variable {repository} in
theorem readAccessModel_ok_iff {scope : SessionAccessScope} {sessionId : SessionId}
    {model : SessionReadModel} :
    repository.readAccessModel scope sessionId = .ok model ↔
      repository.sessionReadModel sessionId = .ok model ∨
        scope = .activeOrRecycled ∧
          (∃ other, repository.sessionReadModel sessionId = .error (.notFound other)) ∧
          repository.recycledSessionReadModel sessionId = .ok model := by
  simp only [readAccessModel]
  cases repository.sessionReadModel sessionId with
  | ok found => simp
  | error e =>
    cases scope with
    | active => simp
    | activeOrRecycled => cases e <;> simp [mapError_ok_iff]

/-- The sessions a walk in the given scope can read. -/
def accessGenealogy (scope : SessionAccessScope) :
    Genealogy SessionId SessionReadModel SessionApiError where
  read := repository.readAccessModel scope
  parent := SessionReadModel.parentSessionId
  linked := repository.active.keys ++ repository.recycled.keys
  linked_of_parent := by
    intro sessionId model _ read _
    obtain active | ⟨-, -, recycled⟩ := readAccessModel_ok_iff.mp read
    · exact List.mem_append_left _ (AList.mem_keys.mp (mem_active_of_read active))
    · obtain ⟨-, events, found, -⟩ := tableModel_ok_iff.mp recycled
      exact List.mem_append_right _ (AList.mem_keys.mp (AList.lookup_isSome.mp (by simp [found])))

def verifyAccessInScope (caller target : SessionId) (scope : SessionAccessScope) :
    Except SessionApiError Unit :=
  if caller = target then .ok ()
  else do
    let chain ←
      ((repository.accessGenealogy scope).collectParentChain target).mapError parentChainWalkApiError
    if chain.tail.contains caller then .ok ()
    else .error (.permissionDenied
      ("session " ++ target ++ " is not a descendant of " ++ caller))

def sessionState (activeTurn : SessionId → Option TurnId) (caller target : SessionId) :
    Except SessionApiError SessionState :=
  match repository.sessionReadModel target with
  | .ok model => do
    repository.verifyAccessInScope caller target .active
    return stateOf .active (activeTurn target) model
  | .error (.notFound _) => do
    repository.verifyAccessInScope caller target .activeOrRecycled
    let model ← (repository.recycledSessionReadModel target).mapError recycledAccessError
    return stateOf .recycled none model
  | .error e => .error (.internal e.display)

end SessionRepository

end Astrcode
