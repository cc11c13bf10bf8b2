import Astrcode.Core.Fingerprint
import Astrcode.Projection.ReadModel

/-!
# Component projections

How one durable event changes each part of the read model:
`model_context.rs`, `presentation.rs`, `execution.rs` and `agents.rs` of
`astrcode-session-projection`. Validation of a transcript rewrite belongs to the
model context, since it recomputes the fingerprint of the prefix it replaces.
-/
namespace Astrcode

inductive ProjectionError where
  | emptyBatch
  | sequenceOverflow
  | missingSessionStarted (sessionId : SessionId)
  | sessionMismatch (expected actual : SessionId)
  | invalidFirstSequence (seq : Nat)
  | invalidFirstEvent
  | sessionStartedHasTurn
  | duplicateSessionStarted (seq : Nat)
  | invalidDurableCustomEventAudience (seq : Nat)
  | nonContiguousSequence (expected actual : Nat)
  | invalidTranscriptRewriteSource (sourceSeq currentSeq : Nat)
  | transcriptRewriteSourceFingerprintMismatch (sourceSeq : Nat) (expected actual : String)
  deriving DecidableEq

/-! ### Provider input -/

/-- The system prompt text and the messages: all a rewrite is validated against. -/
structure ModelContextValidationState where
  systemPrompt : String
  messages : List SequencedLlmMessage
  deriving DecidableEq

def applyTranscriptRewrite (current : List SequencedLlmMessage)
    (rewritten : List TranscriptMessage) (sourceSeq : Nat) : List SequencedLlmMessage :=
  rewritten.map (fun entry => ⟨entry.message, sourceSeq, entry.origin⟩) ++
    -- a message touched after the source stays, also where it began before it
    current.filter fun m => sourceSeq < m.updatedSeq

variable (messages : List SequencedLlmMessage)

def applyToolTerminal (callId : ToolCallId)
    (toolName content : String) (isError : Bool) (origin : Option TranscriptMessageOrigin)
    (eventSeq : Nat) : List SequencedLlmMessage :=
  messages ++ [⟨.tool toolName callId content isError, eventSeq, origin⟩]

/-- A tool call joins the assistant message at the end, or starts a new one. -/
def applyToolCallRequested (toolCall : LlmContent) (eventSeq : Nat) : List SequencedLlmMessage :=
  match messages.getLast? with
  | some last =>
    if last.message.role = .assistant then
      messages.dropLast ++ [{ last with
        message := { last.message with content := last.message.content ++ [toolCall] }
        updatedSeq := eventSeq }]
    else messages ++ [.plain ⟨.assistant, [toolCall], none, none⟩ eventSeq]
  | none => messages ++ [.plain ⟨.assistant, [toolCall], none, none⟩ eventSeq]

/-- The message list after one event; the prompt is handled next to it. -/
@[simp] def applyProviderMessages (event : StoredEvent) (messages : List SequencedLlmMessage) :
    List SequencedLlmMessage :=
  match event.event.payload with
  | .userMessage _ text attachments _ =>
    messages ++ [.plain (.userWithAttachments text attachments) event.seq]
  | .turnAbortedContext =>
    messages ++ [⟨turnAbortedContextMessage, event.seq, some .turnAborted⟩]
  | .assistantMessageCompleted _ text reasoningContent =>
    messages ++ [.plain { LlmMessage.assistant text with reasoningContent } event.seq]
  | .toolCallRequested callId toolName arguments rawArguments =>
    applyToolCallRequested messages (.toolCall callId toolName arguments rawArguments) event.seq
  | .toolCallCompleted callId toolName result _ _ =>
    applyToolTerminal messages callId toolName result.content result.isError none event.seq
  | .toolCallFailed callId toolName error _ _ _ _ =>
    applyToolTerminal messages callId toolName error true (some .toolCallFailed) event.seq
  | .toolCallCancelled callId toolName reason _ _ _ =>
    applyToolTerminal messages callId toolName ("Tool cancelled: " ++ reason) true
      (some .toolCallCancelled) event.seq
  | .transcriptRewritten sourceSeq _ rewritten _ =>
    applyTranscriptRewrite messages rewritten sourceSeq
  | .sessionForked _ _ _ forked =>
    forked.map fun entry => ⟨entry.message, event.seq, entry.origin⟩
  | _ => messages

def applyProviderPrompt (event : StoredEvent) (systemPrompt : String) : String :=
  match event.event.payload with
  | .systemPromptConfigured text _ _ _ => text
  | _ => systemPrompt

def applyProviderEvent (event : StoredEvent) (s : ModelContextValidationState) :
    ModelContextValidationState :=
  ⟨applyProviderPrompt event s.systemPrompt, applyProviderMessages event s.messages⟩

/-- The transcript the fingerprint of a rewrite from `sourceSeq` is computed over. -/
def rewritePrefix (sourceSeq : Nat) : List LlmMessage :=
  providerTranscript ((messages.filter fun m => m.updatedSeq ≤ sourceSeq).map (·.message))

variable {messages}

def validateRewriteFingerprintAgainst (event : DurableEvent) (systemPrompt : String)
    (messages : List SequencedLlmMessage) : Except ProjectionError Unit :=
  match event.payload with
  | .transcriptRewritten sourceSeq expected _ _ =>
    -- the prompt of now, the messages of then
    let actual := transcriptPrefixFingerprint systemPrompt (rewritePrefix messages sourceSeq)
    if actual = expected then .ok ()
    else .error (.transcriptRewriteSourceFingerprintMismatch sourceSeq expected actual)
  | _ => .ok ()

def ModelContextValidationState.validateAndApply (s : ModelContextValidationState)
    (event : StoredEvent) : Except ProjectionError ModelContextValidationState := do
  validateRewriteFingerprintAgainst event.event s.systemPrompt s.messages
  return applyProviderEvent event s

/-! ### Model context -/

namespace ModelContext

variable (event : StoredEvent)

def systemPromptAfter (systemPrompt : SessionSystemPrompt) :
    SessionSystemPrompt :=
  let systemPrompt := { systemPrompt with text := applyProviderPrompt event systemPrompt.text }
  match event.event.payload with
  | .systemPromptConfigured _ fingerprint extra source =>
    { systemPrompt with extra, fingerprint, source }
  | _ => systemPrompt

/-- `covered_message_count` counts the messages after the event. -/
@[simp] def usageAfter (messageCount : Nat) (usage : Option ContextUsageView) :
    Option ContextUsageView :=
  match event.event.payload with
  -- whatever changes the request makes the last count useless
  | .modelIdChanged _ | .sessionToolsConfigured _ | .sessionForked .. => none
  | .systemPromptConfigured .. => none
  | .transcriptRewritten .. => none
  | .tokenUsageRecorded reported modelContextWindow =>
    match reported.contextTokensAfterResponse with
    | some contextTokens => some ⟨contextTokens, modelContextWindow, messageCount⟩
    | none => usage
  | _ => usage

def compactionsAfter (compactions : List CompactionView) :
    List CompactionView :=
  match event.event.payload with
  | .transcriptRewritten sourceSeq _ _ (.compaction details) =>
    compactions ++ [{
      trigger := details.trigger
      preTokens := details.preTokens
      postTokens := details.postTokens
      summary := details.summary
      transcriptPath := details.transcriptPath
      seq := event.seq
      sourceSeq
      strategy := details.strategy }]
  | _ => compactions

def applyEvent (context : SessionModelContext) : SessionModelContext :=
  let messages := applyProviderMessages event context.messages
  { messages
    usage := usageAfter event messages.length context.usage
    compactions := compactionsAfter event context.compactions }

end ModelContext

/-! ### Presentation -/

def Presentation.applyEvent (event : StoredEvent) (presentation : SessionPresentation) :
    SessionPresentation :=
  match event.event.payload with
  | .userMessage _ text _ _ =>
    { presentation with firstUserMessage := presentation.firstUserMessage.or (some text) }
  | .transcriptRewritten sourceSeq _ _ _ =>
    { presentation with
      artifacts := presentation.artifacts.filter fun artifact => sourceSeq < artifact.seq }
  | .sessionForked _ _ firstUserMessage _ => { presentation with firstUserMessage }
  | .errorOccurred _ message _ =>
    { presentation with
      artifacts := presentation.artifacts ++ [.error event.event.id message event.seq] }
  | .recapGenerated text source =>
    { presentation with
      artifacts := presentation.artifacts ++ [.recap event.event.id text source event.seq] }
  | _ => presentation

/-! ### Execution -/

namespace Execution

def settle (execution : SessionExecutionState) (phase : Phase) : SessionExecutionState :=
  { execution with
    phase
    unsettledTurnId := none
    pendingToolCalls := []
    pendingToolApprovals := []
    activeStep := none }

def removeCall (callId : ToolCallId) (execution : SessionExecutionState) :
    SessionExecutionState :=
  let pendingToolCalls := execution.pendingToolCalls.filter (· ≠ callId)
  { execution with
    pendingToolCalls
    pendingToolApprovals := execution.pendingToolApprovals.filter (·.1 ≠ callId)
    phase := if pendingToolCalls.isEmpty then .thinking else .callingTool }

/-- A completed step only closes the attempt it names. -/
def completeStep (stepIndex attempt : Nat) (finishReason : Option String)
    (step : ActiveStepView) : ActiveStepView :=
  if step.stepIndex = stepIndex ∧ step.attempt = attempt then
    { step with completed := true, finishReason }
  else step

def applyEvent (event : StoredEvent) (execution : SessionExecutionState) :
    SessionExecutionState :=
  match event.event.payload with
  | .turnStarted =>
    -- an unsettled turn of before is forgotten, its step and calls are not
    { execution with phase := .thinking, unsettledTurnId := event.event.turnId }
  | .stepStarted stepIndex attempt =>
    { execution with activeStep := some ⟨stepIndex, attempt, false, none⟩ }
  | .stepCompleted stepIndex attempt finishReason =>
    { execution with
      activeStep := execution.activeStep.map (completeStep stepIndex attempt finishReason) }
  | .userInputAccepted input =>
    { execution with
      pendingInputs := execution.pendingInputs ++ [⟨event.seq, input, event.event.turnId⟩] }
  | .userMessage _ _ _ acceptedSeq =>
    { execution with
      pendingInputs := match acceptedSeq with
        -- the message was queued before: it leaves the queue where it enters the transcript
        | some acceptedSeq => execution.pendingInputs.filter (·.acceptedSeq ≠ acceptedSeq)
        | none => execution.pendingInputs
      phase := .thinking }
  | .assistantMessageCompleted .. => { execution with phase := .thinking }
  | .toolCallRequested callId _ _ _ =>
    { execution with
      pendingToolCalls := execution.pendingToolCalls.insert callId
      phase := .callingTool }
  | .toolApprovalRequested callId _ prompt ruleKey _ _ =>
    { execution with
      pendingToolApprovals :=
        (callId, ⟨prompt, ruleKey⟩) :: execution.pendingToolApprovals.filter (·.1 ≠ callId)
      phase := .callingTool }
  | .toolApprovalResolved callId _ _ =>
    { execution with
      pendingToolApprovals := execution.pendingToolApprovals.filter (·.1 ≠ callId) }
  | .toolCallCompleted callId .. => removeCall callId execution
  | .toolCallFailed callId .. => removeCall callId execution
  | .toolCallCancelled callId .. => removeCall callId execution
  | .turnCompleted _ =>
    -- the completion of another turn is ignored
    if event.event.turnId.isNone || execution.unsettledTurnId.isNone ||
        event.event.turnId = execution.unsettledTurnId then
      settle execution .idle
    else execution
  | .sessionForked .. => settle execution .idle
  -- the turn and its step stay until a completion settles them
  | .errorOccurred .. => { execution with phase := .error }
  | _ => execution

end Execution

/-! ### Agent links -/

namespace Agents

/-- Changes the first link to the child, which is the one `find_link` returns. -/
@[simp]
def updateLink (childSessionId : SessionId) (update : AgentSessionLinkView → AgentSessionLinkView) :
    List AgentSessionLinkView → List AgentSessionLinkView
  | [] => []
  | link :: links =>
    if link.childSessionId = childSessionId then update link :: links
    else link :: updateLink childSessionId update links

def applyEvent (event : StoredEvent) (links : List AgentSessionLinkView) :
    List AgentSessionLinkView :=
  match event.event.payload with
  | .agentSessionSpawned childSessionId agentName task _ toolCallId =>
    links ++ [{
      childSessionId, toolCallId, agentName, task
      status := .running, finalSessionId := none, summary := none, error := none }]
  | .agentSessionCompleted childSessionId finalSessionId summary =>
    updateLink childSessionId (fun link =>
      { link with
        status := .completed, finalSessionId := some finalSessionId
        summary := some summary, error := none }) links
  | .agentSessionFailed childSessionId finalSessionId error =>
    updateLink childSessionId (fun link =>
      { link with
        status := .failed, finalSessionId := some finalSessionId
        error := some error, summary := none }) links
  | .agentSessionRecycled childSessionId => links.filter (·.childSessionId ≠ childSessionId)
  | _ => links

end Agents

end Astrcode
