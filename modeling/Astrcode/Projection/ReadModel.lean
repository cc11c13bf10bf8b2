import Astrcode.Core.Event

/-!
# The session read model

`astrcode-session-projection/src/model.rs` with the component types of its
neighbours. Sets and maps keyed by a call id are lists here: membership, insertion
and removal are the only operations on them, so their order never shows.
-/
namespace Astrcode

/-! ### Model context -/

structure CompactionView where
  trigger : String
  preTokens : Nat
  postTokens : Nat
  summary : String
  transcriptPath : Option String
  seq : Nat
  sourceSeq : Nat
  strategy : CompactStrategy
  deriving DecidableEq

/-- A provider message with the sequence number of the event that last touched it. -/
structure SequencedLlmMessage where
  message : LlmMessage
  updatedSeq : Nat
  origin : Option TranscriptMessageOrigin
  deriving DecidableEq

def SequencedLlmMessage.plain (message : LlmMessage) (updatedSeq : Nat) : SequencedLlmMessage :=
  ⟨message, updatedSeq, none⟩

structure UnansweredToolCall where
  callId : String
  toolName : String
  deriving DecidableEq

structure ContextUsageView where
  contextTokens : Nat
  modelContextWindow : Nat
  coveredMessageCount : Nat
  deriving DecidableEq

structure SessionSystemPrompt where
  text : String
  extra : Option String
  fingerprint : String
  source : SystemPromptSource
  deriving DecidableEq

structure SessionModelContext where
  messages : List SequencedLlmMessage
  usage : Option ContextUsageView
  compactions : List CompactionView
  deriving DecidableEq

/-! ### Presentation -/

inductive SessionArtifactView where
  | error (id : String) (message : String) (seq : Nat)
  | recap (id : String) (text source : String) (seq : Nat)
  deriving DecidableEq

def SessionArtifactView.seq : SessionArtifactView → Nat
  | .error _ _ seq => seq
  | .recap _ _ _ seq => seq

structure SessionPresentation where
  firstUserMessage : Option String
  artifacts : List SessionArtifactView
  deriving DecidableEq

/-! ### Execution -/

structure PendingToolApprovalView where
  prompt : String
  ruleKey : Option String
  deriving DecidableEq

structure PendingInput where
  acceptedSeq : Nat
  input : UserInput
  turnId : Option TurnId
  deriving DecidableEq

structure ActiveStepView where
  stepIndex : Nat
  attempt : Nat
  completed : Bool
  finishReason : Option String
  deriving DecidableEq

structure SessionExecutionState where
  phase : Phase
  unsettledTurnId : Option TurnId
  pendingInputs : List PendingInput
  pendingToolCalls : List ToolCallId
  pendingToolApprovals : List (ToolCallId × PendingToolApprovalView)
  activeStep : Option ActiveStepView
  deriving DecidableEq

/-- `SessionExecutionState::default()`. -/
def SessionExecutionState.default : SessionExecutionState :=
  ⟨.idle, none, [], [], [], none⟩

/-! ### Agent links -/

inductive AgentSessionStatus where
  | running
  | completed
  | failed
  deriving DecidableEq

structure AgentSessionLinkView where
  childSessionId : SessionId
  toolCallId : Option ToolCallId
  agentName : String
  task : String
  status : AgentSessionStatus
  finalSessionId : Option SessionId
  summary : Option String
  error : Option String
  deriving DecidableEq

/-! ### The whole model -/

structure ForkSourceRef where
  sessionId : SessionId
  cursor : Cursor
  deriving DecidableEq

structure SessionIdentity where
  sessionId : SessionId
  workingDir : String
  modelId : String
  parent : Option ParentSessionRef
  forkedFrom : Option ForkSourceRef
  toolSelection : SessionToolSelection
  sourceExtension : Option String
  deriving DecidableEq

structure SessionEventStats where
  createdAt : Timestamp
  updatedAt : Timestamp
  lastSeq : Nat
  eventCount : Nat
  deriving DecidableEq

structure SessionReadModel where
  identity : SessionIdentity
  stats : SessionEventStats
  systemPrompt : SessionSystemPrompt
  modelContext : SessionModelContext
  presentation : SessionPresentation
  execution : SessionExecutionState
  agentSessions : List AgentSessionLinkView
  deriving DecidableEq

@[simps] def SessionReadModel.fromStarted (sessionId : SessionId) (started : SessionStarted)
    (timestamp : Timestamp) : SessionReadModel where
  identity :=
    { sessionId, workingDir := started.workingDir, modelId := started.modelId
      parent := started.parent, forkedFrom := none, toolSelection := started.toolSelection
      sourceExtension := started.sourceExtension }
  -- the first event has sequence number 0 and is counted
  stats := ⟨timestamp, timestamp, 0, 1⟩
  systemPrompt :=
    { text := started.initialSystemPrompt.text
      extra := started.initialSystemPrompt.extraSystemPrompt
      fingerprint := started.initialSystemPrompt.fingerprint
      source := started.initialSystemPrompt.source }
  modelContext := ⟨[], none, []⟩
  presentation := ⟨none, []⟩
  execution := .default
  agentSessions := []

/-! ### Tool calls without a result -/

def LlmContent.toolCall? : LlmContent → Option UnansweredToolCall
  | .toolCall callId name _ _ => some ⟨callId, name⟩
  | _ => none

/-- Keeps the first call with each id that is not in `seen`. -/
@[simp] def firstOfEach (seen : List String) : List UnansweredToolCall → List UnansweredToolCall
  | [] => []
  | call :: calls =>
    if seen.contains call.callId then firstOfEach seen calls
    else call :: firstOfEach (call.callId :: seen) calls

namespace SessionModelContext

def assistantToolCalls (messages : List SequencedLlmMessage) : List UnansweredToolCall :=
  messages.flatMap fun m =>
    if m.message.role = .assistant then m.message.content.filterMap LlmContent.toolCall? else []

def requestedToolCalls (context : SessionModelContext) (callIds : List ToolCallId) :
    List UnansweredToolCall :=
  firstOfEach [] ((assistantToolCalls context.messages).filter fun call =>
    callIds.contains call.callId)

/-- The last assistant message with tool calls, and what follows it. -/
def lastToolCallMessage :
    List SequencedLlmMessage → Option (LlmMessage × List SequencedLlmMessage)
  | [] => none
  | m :: rest =>
    match lastToolCallMessage rest with
    | some found => some found
    | none => if m.message.hasToolCalls then some (m.message, rest) else none

def tailUnansweredToolCalls (context : SessionModelContext) : List UnansweredToolCall :=
  match lastToolCallMessage context.messages with
  | none => []
  | some (assistant, rest) =>
    -- a message after the results ends the round, answered or not
    if rest.any (·.message.role ≠ .tool) then []
    else
      let answered := rest.flatMap (·.message.toolResultIds)
      firstOfEach [] ((assistant.content.filterMap LlmContent.toolCall?).filter fun call =>
        !answered.contains call.callId)

end SessionModelContext

/-- The tool calls an abort or a repair has to answer. -/
def SessionReadModel.toolCallsNeedingInterruption (model : SessionReadModel) :
    List UnansweredToolCall :=
  let calls := model.modelContext.requestedToolCalls model.execution.pendingToolCalls
  -- the transcript may show a call that a settled turn no longer lists as pending
  calls ++ firstOfEach (calls.map (·.callId)) model.modelContext.tailUnansweredToolCalls

end Astrcode
