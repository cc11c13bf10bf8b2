import Astrcode.Library.Programs
import Astrcode.Storage.Journal

/-!
# Ending a turn

`session_turn.rs`: what a session appends when a turn ends, is aborted or is found
interrupted. Every append goes through the journal and can fail; what was appended
before stays. Live events are left out.
-/
namespace Astrcode

open Library

/-- `SessionError`, as far as appending and ending a turn can raise it. -/
inductive SessionError where
  | eventPublish (e : StorageError)
  | unsettledToolCalls (turnId : TurnId) (callIds : List ToolCallId)
  deriving DecidableEq

/-- The journal around each operation: the id and time `DurableEvent::new` gives, the error, if
any, the files give it, and whether `begin_session_operation` has been through right before. -/
structure SessionJournal where
  stamp : Nat → EventId × Timestamp
  files : Nat → Option StorageError
  begun : Nat → Bool

def StorageError.isDurabilityUncertain : StorageError → Bool
  | .durabilityUncertain _ _ _ => true
  | _ => false

/-- The error an operation ends with. An fsync that fails leaves its marker, and
`acquire_confirmed_commit_lane` refuses every operation with it until one that is begun on the
session confirms the sync. -/
def SessionJournal.outcome (journal : SessionJournal) : Nat → Option StorageError
  | 0 => journal.files 0
  | n + 1 =>
    let marker := (journal.outcome n).filter fun e =>
      e.isDurabilityUncertain && !journal.begun (n + 1)
    marker.or (journal.files (n + 1))

/-- A session with the journal operations tried so far and the events appended so far. -/
structure Session where
  model : SessionReadModel
  operations : Nat
  appended : List StoredEvent

abbrev SessionM := Program SessionError Session

def readModel {ε : Type} : Program ε Session SessionReadModel := do
  let session ← Program.read
  return session.model

section Emit

variable (journal : SessionJournal)

def emitDurable (turnId : Option TurnId) (payload : DurableEventPayload) : SessionM StoredEvent :=
  fun session =>
    let tried := { session with operations := session.operations + 1 }
    match journal.outcome session.operations with
    | some e => (.error (.eventPublish e), tried)
    | none =>
      let (id, timestamp) := journal.stamp session.operations
      let event : DurableEvent :=
        ⟨id, session.model.identity.sessionId, turnId, timestamp, payload⟩
      -- one event is a batch of one; the append can refuse it before anything is written
      match SessionMeta.prepareBatch [event] session.model with
      | .error e => (.error (.eventPublish e), tried)
      | .ok batch =>
        (.ok ⟨batch.firstSeq, event⟩, { tried with
          model := batch.applyToModel session.model
          appended := session.appended ++ batch.events })

def Session.syncDurableEvents : SessionM Unit := fun session =>
  let tried := { session with operations := session.operations + 1 }
  match journal.outcome session.operations with
  | some e => (.error (.eventPublish e), tried)
  | none => (.ok (), tried)

/-! ### Interrupted tool calls -/

inductive InterruptedToolOutcome where
  | failed
  | cancelled
  deriving DecidableEq

@[simp] def interruptedPayload (outcome : InterruptedToolOutcome) (pending : UnansweredToolCall) :
    DurableEventPayload :=
  match outcome with
  | .failed =>
    .toolCallFailed pending.callId pending.toolName "tool execution interrupted before completion"
      [] none "" none
  | .cancelled => .toolCallCancelled pending.callId pending.toolName "turn aborted" none "" none

/-- Answers the calls the given state lists, and returns their number. -/
def emitInterruptedToolResults (state : SessionReadModel) (turnId : Option TurnId)
    (outcome : InterruptedToolOutcome) : SessionM Nat := do
  let calls := state.toolCallsNeedingInterruption
  Program.forEach (fun pending => do
    let _ ← emitDurable journal turnId (interruptedPayload outcome pending)) calls
  return calls.length

def emitTurnAbortedContext (turnId : Option TurnId) : SessionM Unit := do
  let _ ← emitDurable journal turnId .turnAbortedContext

/-! ### Finalization -/

structure TurnFinalization where
  finishReason : String
  pendingError : Option String
  aborted : Bool
  terminalPersisted : Bool
  deriving DecidableEq

def turnFinishAborted : String := "aborted"
def turnFinishInterrupted : String := "interrupted"
def jsonRpcInternalError : Int := -32603

def turnCompletedPayload (finishReason : String) : DurableEventPayload := .turnCompleted finishReason

def emitTurnCompleted (turnId : TurnId) (finishReason : String) : SessionM Unit := do
  let unsettled := (← readModel).toolCallsNeedingInterruption.map (·.callId)
  -- a completion would hide the calls: whoever ends a turn has to answer them first
  if !unsettled.isEmpty then Program.fail (.unsettledToolCalls turnId unsettled)
  else do
    let _ ← emitDurable journal (some turnId) (turnCompletedPayload finishReason)

def finalizeAbortedTurn (turnId : TurnId) : SessionM Unit := do
  let state ← readModel
  if state.execution.phase = .idle then return
  else do
    let _ ← emitInterruptedToolResults journal state (some turnId) .cancelled
    -- asked of the state before the answers: a retry after the context finds it in the last place
    let hasAbortedContext := state.modelContext.messages.getLast?.any (·.origin = some .turnAborted)
    Program.when (!hasAbortedContext) (emitTurnAbortedContext journal (some turnId))
    emitTurnCompleted journal turnId turnFinishAborted

/-- The error a turn ended with, unless one is on record already. -/
def emitPendingError (turnId : TurnId) (pendingError : Option String) (phase : Phase) :
    SessionM Unit :=
  match pendingError with
  | some message =>
    Program.when (phase ≠ .error) do
      let _ ← emitDurable journal (some turnId) (.errorOccurred jsonRpcInternalError message false)
  | none => pure ()

def finalizeTurn (turnId : TurnId) (finalization : TurnFinalization) : SessionM Unit :=
  if finalization.aborted then finalizeAbortedTurn journal turnId
  else do
    let state ← readModel
    if state.execution.phase = .idle then return
    else do
      -- nothing on this path answers a call
      emitPendingError journal turnId finalization.pendingError state.execution.phase
      emitTurnCompleted journal turnId finalization.finishReason

end Emit

end Astrcode
