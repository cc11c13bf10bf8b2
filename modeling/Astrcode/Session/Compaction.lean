import Astrcode.Projection.Reducer
import Astrcode.Storage.Error

/-!
# Compaction of the transcript

A compaction works on a snapshot of the provider context
(`astrcode-context/src/context.rs`, `astrcode-session/src/projection_context.rs`) and
ends in one `TranscriptRewritten` event (`compaction/persistence.rs`, `payload.rs`)
that names the snapshot by its sequence number and its fingerprint. Other events may
be accepted while the summary is computed.
-/
namespace Astrcode

structure InputTokenAnchor where
  contextTokens : Nat
  modelContextWindow : Nat
  coveredMessageCount : Nat
  deriving DecidableEq

/-- `origins` runs parallel to `messages`. -/
structure ContextSnapshot where
  sourceSeq : Nat
  systemPrompt : String
  messages : List LlmMessage
  origins : List (Option TranscriptMessageOrigin)
  inputTokenAnchor : Option InputTokenAnchor
  deriving DecidableEq

namespace ContextSnapshot

def fromSharedTranscript (sourceSeq : Nat) (systemPrompt : String)
    (messages : List SharedTranscriptMessage) : ContextSnapshot :=
  -- the snapshot shows what the provider would be sent, without the system messages
  let transcript := providerTranscriptSharedMessages messages
  { sourceSeq, systemPrompt
    messages := transcript.map (·.message)
    origins := transcript.map (·.origin)
    inputTokenAnchor := none }

@[simp] def withInputTokenAnchor (snapshot : ContextSnapshot)
    (contextTokens modelContextWindow coveredMessageCount : Nat) : ContextSnapshot :=
  -- the count was taken on all messages; an anchor beyond the visible ones is dropped
  if coveredMessageCount ≤ snapshot.messages.length then
    { snapshot with
      inputTokenAnchor := some ⟨contextTokens, modelContextWindow, coveredMessageCount⟩ }
  else snapshot

/-- The end of the transcript a compaction keeps, with its origins. `none` when the given
messages are not that end. -/
def retainedTranscriptMessages (snapshot : ContextSnapshot) (retained : List LlmMessage) :
    Option (List TranscriptMessage) :=
  if snapshot.messages.length < retained.length then none
  else
    let start := snapshot.messages.length - retained.length
    if snapshot.messages.drop start ≠ retained then none
    else some (((snapshot.messages.drop start).zip (snapshot.origins.drop start)).map
      fun (message, origin) => ⟨message, origin⟩)

end ContextSnapshot

def contextSnapshot (model : SessionReadModel) : ContextSnapshot :=
  let transcript := model.modelContext.messages.map fun entry => ⟨entry.message, entry.origin⟩
  let snapshot :=
    ContextSnapshot.fromSharedTranscript model.stats.lastSeq model.systemPrompt.text transcript
  match model.modelContext.usage with
  | none => snapshot
  | some usage =>
    snapshot.withInputTokenAnchor usage.contextTokens usage.modelContextWindow
      usage.coveredMessageCount

structure CompactResult where
  preTokens : Nat
  postTokens : Nat
  summary : String
  messagesRemoved : Nat
  summaryMessages : List LlmMessage
  retainedMessages : List LlmMessage
  transcriptPath : Option String

def transcriptRewrittenPayload (compaction : CompactResult)
    (retainedMessages : List TranscriptMessage) (sourceSeq : Nat) (sourceFingerprint : String)
    (strategy : CompactStrategy) : DurableEventPayload :=
  .transcriptRewritten sourceSeq sourceFingerprint
    (compaction.summaryMessages.map TranscriptMessage.plain ++ retainedMessages)
    (.compaction {
      trigger := strategy.trigger.asStr
      preTokens := compaction.preTokens
      postTokens := compaction.postTokens
      summary := compaction.summary
      transcriptPath := compaction.transcriptPath
      strategy })

/-- The payload `persist_compaction` hands to the event sink, outside any turn. -/
def persistCompaction (compaction : CompactResult) (snapshot : ContextSnapshot)
    (strategy : CompactStrategy) : Except StorageError DurableEventPayload :=
  match snapshot.retainedTranscriptMessages compaction.retainedMessages with
  | none =>
    .error (.invalidEvent "compact retained messages are not the source transcript suffix")
  | some retained =>
    -- the fingerprint is that of the snapshot, however much has been appended since
    let fingerprint := transcriptPrefixFingerprint snapshot.systemPrompt snapshot.messages
    .ok (transcriptRewrittenPayload compaction retained snapshot.sourceSeq fingerprint strategy)

/-! ### Small facts -/

theorem contextSnapshot_fields (model : SessionReadModel) :
    (contextSnapshot model).sourceSeq = model.stats.lastSeq ∧
      (contextSnapshot model).systemPrompt = model.systemPrompt.text ∧
      (contextSnapshot model).messages =
        (providerTranscriptSharedMessages (model.modelContext.messages.map fun entry =>
          ⟨entry.message, entry.origin⟩)).map (·.message) := by
  unfold contextSnapshot
  cases model.modelContext.usage with
  | none => exact ⟨rfl, rfl, rfl⟩
  | some usage =>
    -- the anchor changes nothing but itself
    simp only [ContextSnapshot.withInputTokenAnchor]
    split <;> exact ⟨rfl, rfl, rfl⟩

/-- A persisted rewrite names the sequence number and the fingerprint of its snapshot. -/
theorem persistCompaction_ok {compaction : CompactResult} {snapshot : ContextSnapshot}
    {strategy : CompactStrategy} {payload : DurableEventPayload}
    (built : persistCompaction compaction snapshot strategy = .ok payload) :
    ∃ rewritten reason, payload = .transcriptRewritten snapshot.sourceSeq
      (transcriptPrefixFingerprint snapshot.systemPrompt snapshot.messages) rewritten reason := by
  unfold persistCompaction at built
  split at built
  · cases built
  · cases built
    exact ⟨_, _, rfl⟩

end Astrcode
