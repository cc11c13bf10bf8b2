import Astrcode.Server.Repair

/-!
# Settling a finished turn

`settle_finished_execution_locked` of `turn_scheduler/lifecycle.rs`, and the loop in which the
completion watcher of `turn_scheduler.rs` retries it. Before it settles the turn, the watcher
records how child sessions have ended (`child_session.rs`).
-/
namespace Astrcode

open Library

/-! ### Relations between parent and child -/

/-- `TurnScheduleError`, as far as a child turn can raise it. -/
inductive ChildTurnError where
  | schedule (e : TurnScheduleError)
  | session (e : StorageError)
  | turn (e : SessionError)
  | childRelationConflict (parentSessionId childSessionId : SessionId) (expected actual : String)
  | completionOwnershipLost (sessionId : SessionId) (turnId : TurnId)
  deriving DecidableEq

inductive ChildRelationUpdate where
  | completed (childSessionId : SessionId) (summary : String)
  | failed (childSessionId : SessionId) (error : String)
  | recycled (childSessionId : SessionId)

namespace ChildRelationUpdate

def childSessionId : ChildRelationUpdate → SessionId
  | completed childSessionId _ => childSessionId
  | failed childSessionId _ => childSessionId
  | recycled childSessionId => childSessionId

def expected : ChildRelationUpdate → String
  | completed _ _ => "completed"
  | failed _ _ => "failed"
  | recycled _ => "recycled"

@[simp] def isApplied : ChildRelationUpdate → Option AgentSessionLinkView → Bool
  | completed childSessionId summary, some link =>
    link.status = .completed && link.finalSessionId = some childSessionId &&
      link.summary = some summary
  | failed childSessionId error, some link =>
    link.status = .failed && link.finalSessionId = some childSessionId &&
      link.error = some error
  | recycled _, none => true
  | _, _ => false

/-- A link ends once: only a running one is completed or failed. -/
@[simp] def canApply : ChildRelationUpdate → Option AgentSessionLinkView → Bool
  | completed _ _, link => link.any (·.status = .running)
  | failed _ _, link => link.any (·.status = .running)
  | recycled _, link => link.isSome

def intoPayload : ChildRelationUpdate → DurableEventPayload
  | completed childSessionId summary =>
    .agentSessionCompleted childSessionId childSessionId summary
  | failed childSessionId error => agentSessionFailedPayload childSessionId error
  | recycled childSessionId => .agentSessionRecycled childSessionId

end ChildRelationUpdate

def AgentSessionStatus.lowercase : AgentSessionStatus → String
  | .running => "running"
  | .completed => "completed"
  | .failed => "failed"

/-- Runs on the parent. -/
def recordChildRelation (journal : SessionJournal) (parentSessionId : SessionId)
    (update : ChildRelationUpdate) : Program ChildTurnError Session Unit := do
  let parentModel ← readModel
  let link := parentModel.agentSessions.find? (·.childSessionId = update.childSessionId)
  if update.isApplied link then
    Program.mapError .schedule (syncDurableEventsRequired journal)
  else if !update.canApply link then
    Program.fail (.childRelationConflict parentSessionId update.childSessionId update.expected
      ((link.map (·.status.lowercase)).getD "missing"))
  else do
    let _ ← Program.mapError (fun e => .schedule (.eventEmit e))
      (emitDurable journal none update.intoPayload)
    Program.mapError .schedule (syncDurableEventsRequired journal)

section Settle

variable (journal : SessionJournal)

def repairFinishedTurnState : SchedulerM Unit := do
  let _ ← repairTurnProtocolState journal
  syncDurableEventsRequired journal

/-- Returns whether the registry gave the turn up. The finalization the registry recorded
goes before the one the caller brings. -/
def settleFinishedExecutionLocked (activeTurnId : Option TurnId)
    (recordedFinalization : Option TurnFinalization) (turnId : TurnId)
    (finalization : Option TurnFinalization) : SchedulerM Bool :=
  if activeTurnId ≠ some turnId then pure false
  else match recordedFinalization.or finalization with
    | some finalization =>
      if !finalization.terminalPersisted then do
        Program.mapError .eventEmit (finalizeTurn journal turnId finalization)
        syncDurableEventsRequired journal
        return true
      -- the turn wrote its own completion
      else pure true
    -- the task left no finalization behind, so the turn is repaired like a stale one
    | none => do
      repairFinishedTurnState journal
      return true

/-- `drain_completed`, as far as it writes to this session. What fails is only logged. -/
def drainCompleted (completed : List ChildRelationUpdate) : SchedulerM Unit :=
  Program.forEach (fun update => do
    let parent ← readModel
    let _ ← Program.orNone (recordChildRelation journal parent.identity.sessionId update)) completed

/-- `finish_and_maybe_start_next` up to the point where the next input is considered. -/
def finishTurn (turnId : TurnId) (finalization : TurnFinalization)
    (completed : List ChildRelationUpdate) : SchedulerM Bool := do
  syncDurableEventsRequired journal
  drainCompleted journal completed
  settleFinishedExecutionLocked journal (some turnId) none turnId (some finalization)

/-- The watcher's retries, at most the given number of them. `completed` are the children that
have ended when so many operations have been tried. -/
def retryFinish (turnId : TurnId) (finalization : TurnFinalization)
    (completed : Nat → List ChildRelationUpdate) : Nat → Session → Option Session
  | 0, _ => none
  | attempts + 1, session =>
    match finishTurn journal turnId finalization (completed session.operations) session with
    | (.ok _, session) => some session
    | (.error _, session) => retryFinish turnId finalization completed attempts session

end Settle

end Astrcode
