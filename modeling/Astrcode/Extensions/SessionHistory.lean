import Astrcode.Library.Worklist
import Astrcode.Server.Access

/-!
# Session history for extensions

`astrcode-extensions/src/host_router/session.rs`: the listing of the sessions whose history
a caller may read, and the check the reading operations make for one target. The listing
closes the child relation over the summaries of the active sessions; the check asks the
server for the state of the target.
-/
namespace Astrcode

open Library

inductive WireErrorCode where
  | readFailed
  | permissionDenied
  | sessionNotFound
  | unsupported
  | internalError
  | invalidInput
  | ioError
  | staleFile
  | fileTooLarge
  deriving DecidableEq

structure ErrorPayload where
  code : WireErrorCode
  message : String
  deriving DecidableEq

structure HostSessionSummary where
  sessionId : SessionId
  parentSessionId : Option SessionId
  sourceExtension : Option String
  workingDir : String
  modelId : String
  createdAt : Timestamp
  updatedAt : Timestamp
  latestCursor : Cursor
  deriving DecidableEq

def SessionSummary.toHost (summary : SessionSummary) : HostSessionSummary where
  sessionId := summary.sessionId
  parentSessionId := summary.parentSessionId
  sourceExtension := summary.sourceExtension
  workingDir := summary.workingDir
  modelId := summary.modelId
  createdAt := summary.createdAt
  updatedAt := summary.updatedAt
  latestCursor := summary.latestCursor

/-! ### The listing -/

abbrev ParentTable := AList fun _ : SessionId => Option SessionId

def duplicateSummary (sessionId : SessionId) : ErrorPayload :=
  ⟨.readFailed, "duplicate session summary for " ++ sessionId⟩

def insertParents (parents : ParentTable) : List SessionSummary → Except ErrorPayload ParentTable
  | [] => .ok parents
  | summary :: summaries =>
    if summary.sessionId ∈ parents then .error (duplicateSummary summary.sessionId)
    else insertParents (parents.insert summary.sessionId summary.parentSessionId) summaries

/-- The parents as the search for cycles sees them: it does not look behind sessions it has
resolved, and a session that is not in the table counts as a root. -/
def pathGenealogy (parents : ParentTable) (resolved : List SessionId) :
    Genealogy SessionId (Option SessionId) Empty where
  read current := .ok (if current ∈ resolved then none else (parents.lookup current).join)
  parent := id
  linked := parents.keys
  linked_of_parent := by
    intro current parent _ read up
    cases read
    split at up
    · cases up
    · obtain ⟨entry, found⟩ : ∃ entry, parents.lookup current = some entry := by
        cases found : parents.lookup current with
        | none => simp [found] at up
        | some entry => exact ⟨entry, rfl⟩
      exact AList.mem_keys.mp (AList.lookup_isSome.mp (by simp [found]))

def cycleError : WalkError SessionId Empty → ErrorPayload
  | .cycle sessionId => ⟨.readFailed, cycleMessage sessionId⟩

def resolvePaths (parents : ParentTable) (resolved : List SessionId) :
    List SessionId → Except ErrorPayload (List SessionId)
  | [] => .ok resolved
  | sessionId :: rest =>
    if sessionId ∈ resolved then resolvePaths parents resolved rest
    else do
      let path ← ((pathGenealogy parents resolved).collectParentChain sessionId).mapError cycleError
      resolvePaths parents (resolved ++ path) rest

/-- The children of each session. -/
def childGraph (parents : ParentTable) : FiniteGraph SessionId where
  next parent := parents.keys.filter fun child => parents.lookup child = some (some parent)
  nodes := parents.keys
  next_mem := fun member => (List.mem_filter.mp member).1

def visibleHistorySessions (caller : SessionId) (parents : ParentTable) :
    Except ErrorPayload (List SessionId) := do
  let _ ← resolvePaths parents [] parents.keys
  return (childGraph parents).visit [] [caller]

namespace SessionRepository

variable (repository : SessionRepository)

def historyList (caller : SessionId) : Except ErrorPayload (List HostSessionSummary) := do
  let summaries := repository.listAllSessionSummaries
  let parents ← insertParents ∅ summaries
  let visible ← visibleHistorySessions caller parents
  return (summaries.filter fun summary => visible.contains summary.sessionId).map (·.toHost)

end SessionRepository

/-! ### The check of a target -/

def SessionApiError.wireCode : SessionApiError → WireErrorCode
  | .notFound _ => .sessionNotFound
  | .permissionDenied _ => .permissionDenied
  | .unsupported _ => .unsupported
  | .internal _ => .internalError

def SessionApiError.display : SessionApiError → String
  | .notFound message => "session not found: " ++ message
  | .permissionDenied message => "permission denied: " ++ message
  | .unsupported message => "unsupported session operation: " ++ message
  | .internal message => message

def sessionApiError (e : SessionApiError) : ErrorPayload := ⟨e.wireCode, e.display⟩

abbrev SessionStateOperation := SessionId → SessionId → Except SessionApiError SessionState

def historyTargetIsVisible (ops : Option SessionStateOperation) (caller target : SessionId) :
    Except ErrorPayload Bool :=
  if caller = target then .ok true
  else match ops with
    | none => .ok false
    | some sessionState =>
      match sessionState caller target with
      | .ok _ => .ok true
      | .error (.permissionDenied _) | .error (.notFound _) => .ok false
      | .error e => .error (sessionApiError e)

def authorizeHistoryTarget (ops : Option SessionStateOperation) (caller target : SessionId) :
    Except ErrorPayload Unit := do
  if ← historyTargetIsVisible ops caller target then .ok ()
  else .error ⟨.permissionDenied, "session history target is outside the caller session lineage"⟩

end Astrcode
