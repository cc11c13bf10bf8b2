import Astrcode.Core.Llm

/-!
# Events

`astrcode-core/src/event`: the facts a session log holds and the envelope they
travel in. A `DurableEvent` has no position yet; a `StoredEvent` carries the
sequence number the log gave it. A `LiveEvent` never reaches the log or a
projection; only the clients that listen hear of it.
-/
namespace Astrcode

open Library (Json)

abbrev SessionId := String
abbrev EventId := String
abbrev TurnId := String
abbrev MessageId := String
abbrev ToolCallId := String
abbrev Cursor := String

/-- A point in time; only stored and handed on. -/
structure Timestamp where
  nanos : Int
  deriving DecidableEq

/-! ### What events are made of -/

inductive Phase where
  | idle
  | thinking
  | streaming
  | callingTool
  | compacting
  | error
  deriving DecidableEq

structure UserInput where
  text : String
  attachments : List MessageAttachment
  deriving DecidableEq

inductive SessionToolSelection where
  | all (except : List String)
  | only (names : List String)
  deriving DecidableEq

inductive SystemPromptSource where
  | native
  | inherited
  deriving DecidableEq

structure PersistedSystemPrompt where
  text : String
  fingerprint : String
  extraSystemPrompt : Option String
  source : SystemPromptSource
  deriving DecidableEq

structure ParentSessionRef where
  sessionId : SessionId
  deriving DecidableEq

structure SessionStarted where
  workingDir : String
  modelId : String
  parent : Option ParentSessionRef
  toolSelection : SessionToolSelection
  sourceExtension : Option String
  initialSystemPrompt : PersistedSystemPrompt
  deriving DecidableEq

inductive CustomEventAudience where
  | session
  | global
  deriving DecidableEq

structure CustomEventData where
  extensionId : String
  eventType : String
  schemaVersion : Nat
  audience : CustomEventAudience
  causationId : Option EventId
  cascadeDepth : Nat
  payload : Json
  deriving DecidableEq

inductive CompactStrategy where
  | auto
  | manual (keepRecentTurns : Option Nat)
  | reactivePromptTooLong
  deriving DecidableEq

inductive CompactTrigger where
  | autoThreshold
  | manualCommand
  | reactivePromptTooLong
  deriving DecidableEq

def CompactTrigger.asStr : CompactTrigger → String
  | .autoThreshold => "auto_threshold"
  | .manualCommand => "manual_command"
  | .reactivePromptTooLong => "reactive_prompt_too_long"

def CompactStrategy.trigger : CompactStrategy → CompactTrigger
  | .auto => .autoThreshold
  | .manual _ => .manualCommand
  | .reactivePromptTooLong => .reactivePromptTooLong

structure CompactionDetails where
  trigger : String
  preTokens : Nat
  postTokens : Nat
  summary : String
  transcriptPath : Option String
  strategy : CompactStrategy
  deriving DecidableEq

inductive TranscriptRewriteReason where
  | compaction (details : CompactionDetails)
  deriving DecidableEq

inductive ApprovalDecision where
  | allowOnce
  | denyOnce
  | allowAlways
  | denyAlways
  deriving DecidableEq

inductive ApprovalSource where
  | extension
  | core
  deriving DecidableEq

/-- `metadata` is a `BTreeMap`: its entries in key order. -/
structure ToolResult where
  content : String
  isError : Bool
  error : Option String
  metadata : List (String × Json)
  durationMs : Option Nat
  deriving DecidableEq

/-! ### Token usage -/

inductive LlmInputTokenAccounting where
  | inclusive
  | components
  deriving DecidableEq

inductive LlmTokenUsageSource where
  | providerUsage
  | providerCount
  | providerCountFallback
  | localEstimateFallback
  deriving DecidableEq

structure LlmTokenUsage where
  inputTokens : Option Nat
  cachedInputTokens : Option Nat
  cacheCreationInputTokens : Option Nat
  inputAccounting : Option LlmInputTokenAccounting
  outputTokens : Option Nat
  reasoningOutputTokens : Option Nat
  totalTokens : Option Nat
  source : Option LlmTokenUsageSource
  deriving DecidableEq

/-- `u64::saturating_add`. -/
def saturatingAdd (a b : Nat) : Nat := min (a + b) u64Max

def LlmTokenUsage.contextTokensAfterResponse (usage : LlmTokenUsage) : Option Nat :=
  match usage.totalTokens.filter (0 < ·) with
  | some total => some total
  | none => do
    let input ← usage.inputTokens
    let output ← usage.outputTokens
    some <| match usage.inputAccounting with
      -- the provider's input count already holds the cached tokens
      | some .inclusive => saturatingAdd input output
      | some .components | none =>
        saturatingAdd
          (saturatingAdd (saturatingAdd input (usage.cachedInputTokens.getD 0))
            (usage.cacheCreationInputTokens.getD 0))
          output

/-! ### Payload and envelope -/

inductive DurableEventPayload where
  | sessionStarted (started : SessionStarted)
  | modelIdChanged (modelId : String)
  | sessionToolsConfigured (selection : SessionToolSelection)
  | systemPromptConfigured (text fingerprint : String) (extraSystemPrompt : Option String)
      (source : SystemPromptSource)
  | agentSessionSpawned (childSessionId : SessionId) (agentName task : String)
      (toolSelection : Option SessionToolSelection) (toolCallId : Option ToolCallId)
  | agentSessionCompleted (childSessionId finalSessionId : SessionId) (summary : String)
  | agentSessionFailed (childSessionId finalSessionId : SessionId) (error : String)
  | agentSessionRecycled (childSessionId : SessionId)
  | turnStarted
  | stepStarted (stepIndex attempt : Nat)
  | stepCompleted (stepIndex attempt : Nat) (finishReason : Option String)
  | turnCompleted (finishReason : String)
  | turnAbortedContext
  | userInputAccepted (input : UserInput)
  | userMessage (messageId : MessageId) (text : String) (attachments : List MessageAttachment)
      (acceptedSeq : Option Nat)
  | recapGenerated (text source : String)
  | assistantMessageCompleted (messageId : MessageId) (text : String)
      (reasoningContent : Option String)
  | tokenUsageRecorded (usage : LlmTokenUsage) (modelContextWindow : Nat)
  | toolCallRequested (callId : ToolCallId) (toolName : String) (arguments : Json)
      (rawArguments : Option String)
  | toolApprovalRequested (callId : ToolCallId) (toolName prompt : String)
      (ruleKey : Option String) (source : ApprovalSource) (arguments : Json)
  | toolApprovalResolved (callId : ToolCallId) (decision : ApprovalDecision)
      (detail : Option String)
  | toolCallCompleted (callId : ToolCallId) (toolName : String) (result : ToolResult)
      (arguments : String) (argumentsJson : Option Json)
  | toolCallFailed (callId : ToolCallId) (toolName error : String)
      (metadata : List (String × Json)) (durationMs : Option Nat) (arguments : String)
      (argumentsJson : Option Json)
  | toolCallCancelled (callId : ToolCallId) (toolName reason : String) (durationMs : Option Nat)
      (arguments : String) (argumentsJson : Option Json)
  | transcriptRewritten (sourceSeq : Nat) (sourceFingerprint : String)
      (messages : List TranscriptMessage) (reason : TranscriptRewriteReason)
  | sessionForked (sourceSessionId : SessionId) (sourceCursor : Cursor)
      (firstUserMessage : Option String) (messages : List TranscriptMessage)
  | errorOccurred (code : Int) (message : String) (recoverable : Bool)
  | customEvent (data : CustomEventData)
  deriving DecidableEq

structure DurableEvent where
  id : EventId
  sessionId : SessionId
  turnId : Option TurnId
  timestamp : Timestamp
  payload : DurableEventPayload
  deriving DecidableEq

structure StoredEvent where
  seq : Nat
  event : DurableEvent
  deriving DecidableEq

namespace DurableEventPayload

def isSessionStarted : DurableEventPayload → Bool
  | .sessionStarted _ => true
  | _ => false

def isTurnCompleted : DurableEventPayload → Bool
  | .turnCompleted _ => true
  | _ => false

/-- A custom event whose audience is not its session. -/
def isGlobalCustomEvent : DurableEventPayload → Bool
  | .customEvent data => data.audience ≠ .session
  | _ => false

@[simp] def rewriteSource? : DurableEventPayload → Option Nat
  | .transcriptRewritten sourceSeq _ _ _ => some sourceSeq
  | _ => none

end DurableEventPayload

/-! ### Live events -/

inductive ToolOutputStream where
  | stdout
  | stderr
  deriving DecidableEq

inductive LiveEventPayload where
  | agentRunStarted
  | agentRunCompleted (reason : String)
  | llmRetrying (status : Option Nat) (attempt maxRetries delayMs : Nat)
  | llmRetryRecovered
  | assistantMessageStarted (messageId : MessageId)
  | assistantMessageReset (messageId : MessageId)
  | assistantTextDelta (messageId : MessageId) (delta : String)
  | thinkingDelta (messageId : MessageId) (delta : String)
  | toolCallStarted (callId : ToolCallId) (toolName : String)
  | toolCallArgumentsDelta (callId : ToolCallId) (delta : String)
  | toolOutputDelta (callId : ToolCallId) (stream : ToolOutputStream) (delta : String)
  | compactionStarted
  | compactionCompleted (messagesRemoved : Nat)
  | compactionSkipped (reason : String)
  | compactionFailed (reason : String)
  | errorOccurred (code : Int) (message : String) (recoverable : Bool)
  | customEvent (data : CustomEventData)
  deriving DecidableEq

structure LiveEvent where
  id : EventId
  sessionId : SessionId
  turnId : Option TurnId
  timestamp : Timestamp
  payload : LiveEventPayload
  deriving DecidableEq

/-- What travels over the event bus: a stored event, or a live one. -/
inductive Event where
  | durable (stored : StoredEvent)
  | live (event : LiveEvent)
  deriving DecidableEq

namespace Event

def seq : Event → Option Nat
  | .durable stored => some stored.seq
  | .live _ => none

def id : Event → EventId
  | .durable stored => stored.event.id
  | .live event => event.id

def sessionId : Event → SessionId
  | .durable stored => stored.event.sessionId
  | .live event => event.sessionId

def turnId : Event → Option TurnId
  | .durable stored => stored.event.turnId
  | .live event => event.turnId

end Event

/-- The events numbered from `first` on. -/
@[simp] def numberFrom (first : Nat) : List DurableEvent → List StoredEvent
  | [] => []
  | event :: rest => ⟨first, event⟩ :: numberFrom (first + 1) rest

theorem numberFrom_eq_map (first : Nat) (log : List DurableEvent) :
    numberFrom first log = (log.zipIdx first).map fun numbered => ⟨numbered.2, numbered.1⟩ := by
  induction log generalizing first with
  | nil => rfl
  | cons event rest ih => rw [numberFrom, ih, List.zipIdx_cons, List.map_cons]

theorem numberFrom_length (first : Nat) (log : List DurableEvent) :
    (numberFrom first log).length = log.length := by
  simp [numberFrom_eq_map]

end Astrcode
