import Astrcode.Server.ChildTurns
import Astrcode.Session.Permission

/-!
# What clients see of an event

`astrcode-server/src/http/projection`: an event becomes the deltas a client applies to its
view of a conversation. `live.rs` projects the events a client hears as they happen,
`replay.rs` the stored events it missed, and both share the blocks of `blocks.rs`. Most
events have one delta or none. A tool call that ends and a turn that completes have two.
-/
namespace Astrcode

open Library (Json JsonNumber)

/-! ### Blocks and deltas -/

inductive ConversationBlockStatus where
  | streaming
  | complete
  | error
  deriving DecidableEq

inductive ToolCallStatus where
  | streaming
  | complete
  | failed
  | cancelled
  deriving DecidableEq

structure ToolApproval where
  callId : String
  prompt : String
  ruleKey : Option String
  deriving DecidableEq

inductive ConversationBlock where
  | user (id text : String) (attachments : List MessageAttachment)
  | assistant (id text : String) (reasoningContent : Option String) (storageSeq : Option Nat)
      (status : ConversationBlockStatus)
  | toolCall (id name arguments text : String) (status : ToolCallStatus) (metadata : Option Json)
      (approval : Option ToolApproval) (argumentsJson : Option Json)
  | error (id message : String)
  | recap (id text source : String)
  | systemNote (id text : String)
  | compactSummary (id summary trigger : String) (preTokens postTokens : Nat)
      (transcriptPath : Option String)
  deriving DecidableEq

structure LlmRetryStatus where
  status : Option Nat
  attempt : Nat
  maxRetries : Nat
  delayMs : Nat
  deriving DecidableEq

structure ConversationControlState where
  phase : Phase
  canSubmitPrompt : Bool
  canRequestCompact : Bool
  activeTurnId : Option String
  retryStatus : Option LlmRetryStatus
  deriving DecidableEq

inductive AgentSessionUpdate where
  | spawned (childSessionId : String) (toolCallId : Option String) (agentName task : String)
  | completed (childSessionId finalSessionId summary : String)
  | failed (childSessionId finalSessionId error : String)
  | progress (childSessionId : String) (phase : Phase) (currentTool : Option String)
  deriving DecidableEq

inductive ConversationDelta where
  | appendBlock (block : ConversationBlock)
  | appendTransientBlock (turnId : String) (block : ConversationBlock)
  | clearTransientBlocks (turnId : String)
  | patchBlock (blockId textDelta : String)
  | resetBlock (blockId : String)
  | finalizeBlock (block : ConversationBlock)
  | updateControlState (control : ConversationControlState)
  | rehydrateRequired
  | toolOutput (callId : String) (stream : ToolOutputStream) (delta : String)
  | thinkingDelta (blockId delta : String)
  | agentSessionUpdated (agentSession : AgentSessionUpdate)
  | agentSessionRemoved (childSessionId : String)
  | statusItemUpdate (id text : String)
  | extensionRegistryChanged
  | toolApprovalRequested (approval : ToolApproval)
  | toolApprovalResolved (callId : String) (decision : ApprovalDecision)
  | customEvent (extensionId eventType : String) (schemaVersion : Nat) (payload : Json)
  deriving DecidableEq

/-! ### Arguments in one line -/

def maxArgumentSummaryChars : Nat := 140

def stringArg (args : Json) (key : String) : Option String :=
  (((Json.get? key args).bind Json.asStr?).map trim).filter (· ≠ "")

def primaryArgument (args : Json) : Option String :=
  ["description", "command", "path", "pattern", "query", "prompt", "action"].findSome?
    (stringArg args)

def jsonValueInline : Json → String
  | .string value => value
  | other => other.text

def formatArgsInline (args : Json) : String :=
  match primaryArgument args with
  | some summary => inlinePreview summary maxArgumentSummaryChars
  | none =>
    match args with
    | .object [] => ""
    | .object members =>
      let pairs := (members.take 4).map fun (key, value) =>
        key ++ "=" ++ inlinePreview (jsonValueInline value) 48
      inlinePreview (", ".intercalate pairs) maxArgumentSummaryChars
    | .string s => inlinePreview s maxArgumentSummaryChars
    | .null => ""
    | other => inlinePreview other.text maxArgumentSummaryChars

/-! ### Blocks of events -/

def compactSummaryBlockId : String := "compact-current"

def streamingAssistantBlock (id text : String) (reasoningContent : Option String) :
    ConversationBlock :=
  .assistant id text reasoningContent none .streaming

def streamingToolCallBlock (id name : String) (arguments : Option Json) : ConversationBlock :=
  .toolCall id name ((arguments.map formatArgsInline).getD "") "" .streaming none none arguments

/-- `BTreeMap::insert` on the entries in key order. -/
def insertEntry (key : String) (value : Json) : List (String × Json) → List (String × Json)
  | [] => [(key, value)]
  | (k, v) :: rest =>
    if key < k then (key, value) :: (k, v) :: rest
    else if key = k then (key, value) :: rest
    else (k, v) :: insertEntry key value rest

def nonEmptyMetadata (metadata : List (String × Json)) : Option Json :=
  if metadata.isEmpty then none else some (.object metadata)

def toolTerminalMetadata (metadata : List (String × Json)) (durationMs : Option Nat) :
    Option Json :=
  nonEmptyMetadata <| match durationMs with
    | some duration => insertEntry "durationMs" (.number (.ofNat duration)) metadata
    | none => metadata

def toolCallTerminalBlock (callId : ToolCallId) (toolName arguments : String)
    (argumentsJson : Option Json) (text : String) (status : ToolCallStatus)
    (metadata : Option Json) : ConversationBlock :=
  .toolCall callId toolName arguments text status metadata none argumentsJson

/-- `block_from_payload` on a stored event. -/
@[simp] def blockFromStored (stored : StoredEvent) : Option ConversationBlock :=
  match stored.event.payload with
  | .userMessage messageId text attachments _ => some (.user messageId text attachments)
  | .assistantMessageCompleted messageId text reasoningContent =>
    some (.assistant messageId text reasoningContent (some stored.seq) .complete)
  | .toolCallCompleted callId toolName result arguments argumentsJson =>
    some (toolCallTerminalBlock callId toolName arguments argumentsJson result.content .complete
      (toolTerminalMetadata result.metadata result.durationMs))
  | .toolCallFailed callId toolName error metadata durationMs arguments argumentsJson =>
    some (toolCallTerminalBlock callId toolName arguments argumentsJson error .failed
      (toolTerminalMetadata metadata durationMs))
  | .toolCallCancelled callId toolName reason durationMs arguments argumentsJson =>
    some (toolCallTerminalBlock callId toolName arguments argumentsJson
      ("Tool cancelled: " ++ reason) .cancelled (toolTerminalMetadata [] durationMs))
  | .errorOccurred _ message _ => some (.error stored.event.id message)
  | .transcriptRewritten _ _ _ (.compaction details) =>
    some (.compactSummary compactSummaryBlockId details.summary details.trigger details.preTokens
      details.postTokens details.transcriptPath)
  | .recapGenerated text source => some (.recap stored.event.id text source)
  | _ => none

/-- `block_from_payload` on a live event. -/
def blockFromLive (event : LiveEvent) : Option ConversationBlock :=
  match event.payload with
  | .errorOccurred _ message _ => some (.error event.id message)
  | _ => none

/-! ### Control state -/

def controlFromState (phase : Phase) (hasMessages : Bool) (activeTurnId : Option String) :
    ConversationControlState :=
  let canSubmitPrompt := phase = .idle || phase = .error
  { phase, canSubmitPrompt, canRequestCompact := canSubmitPrompt && hasMessages, activeTurnId,
    retryStatus := none }

def controlFromPhase (phase : Phase) (hasMessages : Bool) : ConversationControlState :=
  controlFromState phase hasMessages none

/-- `projected_phase` of a durable payload. -/
def DurableEventPayload.projectedPhase : DurableEventPayload → Phase
  | .turnStarted | .userMessage .. => .thinking
  | .toolCallRequested .. => .callingTool
  | .toolCallCompleted .. | .toolCallFailed .. | .toolCallCancelled .. => .thinking
  | .errorOccurred .. => .error
  | _ => .idle

/-- `projected_phase` of a live payload. -/
def LiveEventPayload.projectedPhase : LiveEventPayload → Phase
  | .agentRunStarted | .llmRetrying .. | .llmRetryRecovered | .assistantMessageReset _ => .thinking
  | .assistantMessageStarted _ | .assistantTextDelta .. | .thinkingDelta .. => .streaming
  | .toolCallStarted .. | .toolCallArgumentsDelta .. | .toolOutputDelta .. => .callingTool
  | .compactionStarted => .compacting
  | .errorOccurred .. => .error
  | _ => .idle

/-- `control_from_event` of a stored event. -/
def StoredEvent.control (stored : StoredEvent) (hasMessages : Bool) : ConversationControlState :=
  match stored.event.payload with
  | .turnCompleted _ => controlFromState .idle hasMessages none
  | payload => controlFromState payload.projectedPhase hasMessages stored.event.turnId

/-- `control_from_event` of a live event. -/
def LiveEvent.control (event : LiveEvent) (hasMessages : Bool) : ConversationControlState :=
  match event.payload with
  | .agentRunCompleted _ => controlFromState .idle hasMessages none
  | .compactionCompleted _ | .compactionSkipped _ | .compactionFailed _ =>
    controlFromState (if event.turnId.isSome then .thinking else .idle) hasMessages event.turnId
  | .llmRetrying status attempt maxRetries delayMs =>
    { controlFromState .thinking hasMessages event.turnId with
      retryStatus := some ⟨status, attempt, maxRetries, delayMs⟩ }
  | payload => controlFromState payload.projectedPhase hasMessages event.turnId

/-! ### Deltas of events -/

@[simp] def customEventDelta (data : CustomEventData) : ConversationDelta :=
  .customEvent data.extensionId data.eventType data.schemaVersion data.payload

def appendTransientBlock (turnId : Option TurnId) (block : ConversationBlock) :
    List ConversationDelta :=
  (turnId.map (ConversationDelta.appendTransientBlock · block)).toList

@[simp] def clearTransientTurn (turnId : Option TurnId) : List ConversationDelta :=
  (turnId.map ConversationDelta.clearTransientBlocks).toList

/-- The block a tool request opens; arguments that could not be read are not shown. -/
def requestedToolCallBlock (callId : ToolCallId) (toolName : String) (arguments : Json)
    (rawArguments : Option String) : ConversationBlock :=
  streamingToolCallBlock callId toolName (if rawArguments.isNone then some arguments else none)

def durableEventToDeltas (stored : StoredEvent) (hasMessages : Bool) : List ConversationDelta :=
  match stored.event.payload with
  | .userMessage .. | .errorOccurred .. | .recapGenerated .. =>
    ((blockFromStored stored).map .appendBlock).toList
  | .assistantMessageCompleted .. => ((blockFromStored stored).map .finalizeBlock).toList
  | .toolCallCompleted .. | .toolCallFailed .. | .toolCallCancelled .. =>
    match blockFromStored stored with
    | none => []
    | some block => [.finalizeBlock block, .updateControlState (stored.control hasMessages)]
  | .transcriptRewritten .. => [.rehydrateRequired]
  | .turnStarted => [.updateControlState (stored.control hasMessages)]
  | .turnCompleted _ =>
    clearTransientTurn stored.event.turnId ++ [.updateControlState (stored.control hasMessages)]
  | .toolCallRequested callId toolName arguments rawArguments =>
    [.appendBlock (requestedToolCallBlock callId toolName arguments rawArguments)]
  | .toolApprovalRequested callId _ prompt ruleKey _ _ =>
    [.toolApprovalRequested ⟨callId, prompt, ruleKey⟩]
  | .toolApprovalResolved callId decision _ => [.toolApprovalResolved callId decision]
  | .agentSessionSpawned childSessionId agentName task _ toolCallId =>
    [.agentSessionUpdated (.spawned childSessionId toolCallId agentName task)]
  | .agentSessionCompleted childSessionId finalSessionId summary =>
    [.agentSessionUpdated (.completed childSessionId finalSessionId summary)]
  | .agentSessionFailed childSessionId finalSessionId error =>
    [.agentSessionUpdated (.failed childSessionId finalSessionId error)]
  | .agentSessionRecycled childSessionId => [.agentSessionRemoved childSessionId]
  | .customEvent data => [customEventDelta data]
  | _ => []

def liveEventToDeltas (event : LiveEvent) (hasMessages : Bool) : List ConversationDelta :=
  match event.payload with
  | .assistantMessageStarted messageId =>
    appendTransientBlock event.turnId (streamingAssistantBlock messageId "" none) ++
      [.updateControlState (event.control hasMessages)]
  | .assistantMessageReset messageId => [.resetBlock messageId]
  | .assistantTextDelta messageId delta => [.patchBlock messageId delta]
  | .thinkingDelta messageId delta => [.thinkingDelta messageId delta]
  | .toolCallStarted callId toolName =>
    appendTransientBlock event.turnId (streamingToolCallBlock callId toolName none) ++
      [.updateControlState (event.control hasMessages)]
  | .toolOutputDelta callId stream delta => [.toolOutput callId stream delta]
  | .errorOccurred .. => ((blockFromLive event).map .appendBlock).toList
  | .llmRetrying .. =>
    clearTransientTurn event.turnId ++ [.updateControlState (event.control hasMessages)]
  | .agentRunStarted | .agentRunCompleted _ | .llmRetryRecovered | .compactionStarted
  | .compactionCompleted _ | .compactionSkipped _ | .compactionFailed _ =>
    [.updateControlState (event.control hasMessages)]
  | .customEvent data => [customEventDelta data]
  | .toolCallArgumentsDelta .. => []

def eventToDeltas (event : Event) (hasMessages : Bool) : List ConversationDelta :=
  match event with
  | .durable stored => durableEventToDeltas stored hasMessages
  | .live event => liveEventToDeltas event hasMessages

/-- `event_to_replay_deltas`. Rewrites and forks cannot be replayed piece by piece. -/
def eventToReplayDeltas (stored : StoredEvent) (hasMessages : Bool) : List ConversationDelta :=
  match stored.event.payload with
  | .transcriptRewritten .. | .sessionForked .. => [.rehydrateRequired]
  | payload =>
    match blockFromStored stored with
    | some block => [.appendBlock block]
    | none =>
      match payload with
      | .toolCallRequested callId toolName arguments rawArguments =>
        [.appendBlock (requestedToolCallBlock callId toolName arguments rawArguments)]
      | .turnStarted => [.updateControlState (controlFromPhase .thinking hasMessages)]
      | .turnCompleted _ =>
        clearTransientTurn stored.event.turnId ++
          [.updateControlState (controlFromPhase .idle hasMessages)]
      | .toolApprovalRequested callId _ prompt ruleKey _ _ =>
        [.toolApprovalRequested ⟨callId, prompt, ruleKey⟩]
      | .toolApprovalResolved callId decision _ => [.toolApprovalResolved callId decision]
      | .customEvent data => [customEventDelta data]
      | _ => []

/-- `agent_session_progress`: what an event of a child says about its progress. -/
def agentSessionProgress : Event → Option (Phase × Option String)
  | .durable stored =>
    match stored.event.payload with
    | .turnStarted => some (.thinking, none)
    | .toolCallRequested _ toolName _ _ => some (.callingTool, some toolName)
    | .toolCallCompleted .. | .toolCallFailed .. | .toolCallCancelled .. => some (.thinking, none)
    | .turnCompleted _ => some (.idle, none)
    | .errorOccurred .. => some (.error, none)
    | _ => none
  | .live event =>
    match event.payload with
    | .agentRunStarted => some (.thinking, none)
    | .assistantMessageStarted _ => some (.streaming, none)
    | .toolCallStarted _ toolName => some (.callingTool, some toolName)
    | .agentRunCompleted _ => some (.idle, none)
    | .errorOccurred .. => some (.error, none)
    | _ => none

/-! ### The deltas of one event

What a delta says may depend on whether there are messages; how many there are does not. -/

variable (stored : StoredEvent)

/-- No event repeats one of its deltas. -/
theorem eventDeltas_nodup (hasMessages : Bool) : (durableEventToDeltas stored hasMessages).Nodup ∧
    (eventToReplayDeltas stored hasMessages).Nodup := by
  obtain ⟨seq, id, sessionId, turnId, timestamp, payload⟩ := stored
  cases payload with
  | turnCompleted =>
    cases turnId with
    | none => exact ⟨List.nodup_singleton _, List.nodup_singleton _⟩
    | some turnId =>
      simp [durableEventToDeltas, eventToReplayDeltas]
  | _ => simp [durableEventToDeltas, eventToReplayDeltas]

theorem eventDeltas_length (a b : Bool) :
    (durableEventToDeltas stored a).length = (durableEventToDeltas stored b).length ∧
      (eventToReplayDeltas stored a).length = (eventToReplayDeltas stored b).length := by
  obtain ⟨seq, id, sessionId, turnId, timestamp, payload⟩ := stored
  cases payload with
  | turnCompleted =>
    simp [durableEventToDeltas, eventToReplayDeltas, List.length_append]
  | _ => exact ⟨rfl, rfl⟩

end Astrcode
