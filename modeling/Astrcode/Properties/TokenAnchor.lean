import Astrcode.Properties.Normalisation
import Astrcode.Properties.Rewrite
import Astrcode.Session.TokenEstimate

/-!
# What the token anchor covers

The reducer counts the messages of the raw transcript when a provider reports its usage;
the snapshot uses that count as a position in the normalised transcript. The two agree
only as long as normalisation leaves the counted messages alone. To say which entries
of the normalised transcript hold something recorded after the usage, the messages are
normalised once more with a mark on each of them: the code that normalises is generic
in its entries.
-/
namespace Astrcode

variable {model : SessionReadModel} {usage : ContextUsageView} {event : StoredEvent}

open ProviderVisibleEntry List DurableEventPayload

/-! ### Entries that remember when they were recorded -/

/-- A message, and whether anything in it was recorded after the usage. -/
structure TracedMessage where
  message : LlmMessage
  later : Bool
  deriving DecidableEq

@[simp] def TracedMessage.earlier (entry : TracedMessage) : Bool := !entry.later

instance : ProviderVisibleEntry TracedMessage where
  message := TracedMessage.message
  absorbAssistant e other := ⟨e.message.append other.message, e.later || other.later⟩
  message_absorb _ _ := rfl

/-- The messages with all but the first `count` of them marked. -/
def traceMessages (count : Nat) (messages : List LlmMessage) : List TracedMessage :=
  (messages.take count).map (⟨·, false⟩) ++ (messages.drop count).map (⟨·, true⟩)

/-- The provider transcript with the marks. -/
def tracedTranscript (count : Nat) (messages : List LlmMessage) : List TracedMessage :=
  (providerVisibleEntries (traceMessages count messages)).filter fun entry =>
    entry.message.role ≠ .system

theorem tracedTranscript_message (count : Nat) (messages : List LlmMessage) :
    (tracedTranscript count messages).map (·.message) = providerTranscript messages := by
  have bare : (traceMessages count messages).map message = messages := by
    change (traceMessages count messages).map (·.message) = messages
    simp [traceMessages, Function.comp_def]
  have visible := providerVisibleEntries_transcript (traceMessages count messages)
  rw [bare, ← providerTranscript_eq] at visible
  exact visible

/-! ### The front of the normalised transcript -/

section Front

variable {front rest : List TracedMessage}

/-- The loop keeps the unmarked entries in front exactly when none of them waits behind a
round that is still open at the boundary. -/
private theorem front_kept_iff (earlier : ∀ e ∈ front, e.later = false)
    (later : ∀ e ∈ rest, e.later = true) (plain : ∀ e ∈ front, e.message.role ≠ .system)
    (long : front.length ≤ ((truncateIncompleteToolEntries (front ++ rest)).filter fun entry =>
      entry.message.role ≠ .system).length) :
    (∀ e ∈ ((truncateIncompleteToolEntries (front ++ rest)).filter fun entry =>
        entry.message.role ≠ .system).take front.length, e.later = false) ↔
      ∀ s, truncateRun ⟨[], none, []⟩ front = .ok s → s.buffered = [] := by
  have bound : front.length ≤ (truncateIncompleteToolEntries (front ++ rest)).length :=
    long.trans (length_filter_le _ _)
  have spec := truncateRun_spec front TruncateState.sound_start
  unfold truncateIncompleteToolEntries at bound long ⊢
  rw [truncateLoop_append] at bound long ⊢
  cases run : truncateRun ⟨[], none, []⟩ front with
  | error out =>
    -- an early return leaves fewer entries than there are in front
    simp [run] at spec bound
    omega
  | ok s =>
    simp only [run] at spec bound long ⊢
    obtain ⟨sound, perm⟩ := spec
    have size := perm.length_eq
    simp only [nil_append, length_append] at size perm
    have outFront : ∀ e ∈ s.out, e ∈ front := fun e member =>
      perm.mem_iff.mp (mem_append_left _ member)
    obtain ⟨closed, opened⟩ := truncateLoop_keeps_out rest s sound
    -- an open round is not taken back, as the result is long enough
    have settles := fun round pending => (opened round pending).resolve_left fun taken => by
      have inside := sound.inside round pending
      rw [taken, length_take] at bound
      omega
    have kept : s.out.filter (fun entry => entry.message.role ≠ .system) = s.out := by
      rw [filter_eq_self]
      intro e member
      simpa using plain e (outFront e member)
    constructor
    · rintro unmarked _ ⟨⟩
      by_contra waiting
      have positive := length_pos_iff.mpr waiting
      cases pending : s.pending with
      | none => exact waiting (sound.waits pending)
      | some round =>
        obtain ⟨result, member, isTool, lead⟩ := settles round pending
        -- the result comes before what waits, so it stands inside the front
        have lead' := lead.filter (fun entry => entry.message.role ≠ .system)
        rw [filter_append, kept, filter_singleton] at lead'
        have notSystem : result.message.role ≠ .system := by
          change result.message.role = .tool at isTool
          simp [isTool]
        simp only [notSystem, ne_eq, not_false_eq_true, decide_true, cond_true] at lead'
        have early : result ∈ ((truncateLoop s rest).filter fun entry =>
            entry.message.role ≠ .system).take front.length := by
          have fits : (s.out ++ [result]).length ≤ front.length := by
            simp only [length_append, length_singleton]
            omega
          exact (prefix_take_iff.mpr ⟨lead', fits⟩).subset (by simp)
        have marked := later result member
        rw [unmarked result early] at marked
        cases marked
    · intro released
      have nothing := released s rfl
      rw [nothing, length_nil, Nat.add_zero] at size
      have lead : s.out <+: truncateLoop s rest := by
        cases pending : s.pending with
        | none => exact closed pending
        | some round =>
          obtain ⟨result, -, -, lead⟩ := settles round pending
          exact (prefix_append _ _).trans lead
      have lead' := lead.filter (fun entry => entry.message.role ≠ .system)
      rw [kept] at lead'
      rw [← size, ← prefix_iff_eq_take.mp lead']
      exact fun e member => earlier e (outFront e member)

private theorem unmarked_absorbed (last entry : TracedMessage)
    (unmarked : (absorbAssistant last entry).earlier = true) : last.earlier = true := by
  change (!(last.later || entry.later)) = true at unmarked
  unfold TracedMessage.earlier
  simp_all

private theorem countP_earlier {entries : List TracedMessage} (every : ∀ e ∈ entries, e.later = true) :
    entries.countP TracedMessage.earlier = 0 := by
  rw [countP_eq_zero]
  intro e member
  simp [every e member]

/-- As long as no unmarked entry is lost, none is merged. -/
private theorem chain_of_count_append (later : ∀ e ∈ rest, e.later = true)
    (all : front.length ≤ (normalizeToolCallEntries (front ++ rest)).countP TracedMessage.earlier) :
    (front ++ rest.take 1).IsChain Unmerged := by
  unfold normalizeToolCallEntries at all
  rw [foldl_append] at all
  have chain : front.IsChain Unmerged := by
    refine chain_of_count unmarked_absorbed ?_
    have most := foldl_merge_countP unmarked_absorbed rest (front.foldl mergeToolCallEntry [])
    rw [countP_append, countP_earlier later] at most
    exact all.trans most
  have kept := normalize_of_chain chain
  unfold normalizeToolCallEntries at kept
  rw [kept] at all
  refine isChain_append.mpr ⟨chain, ?_, ?_⟩
  · cases rest <;> simp
  · cases rest with
    | nil => simp
    | cons entry rest =>
      intro last found next same
      simp only [take_succ_cons, take_zero, head?_cons, Option.mem_def,
        Option.some.injEq] at same
      subst same
      by_contra joined
      obtain ⟨init, rfl⟩ := getLast?_eq_some_iff.mp found
      rw [foldl_cons, merge_of_merged joined] at all
      have most := foldl_merge_countP unmarked_absorbed rest
        (init ++ [absorbAssistant last entry])
      have mark : (absorbAssistant last entry).later = true := by
        change (last.later || entry.later) = true
        simp [later entry]
      rw [countP_append, countP_earlier (forall_mem_cons.mp later).2,
        countP_append, countP_singleton, TracedMessage.earlier, mark] at most
      have most' := countP_le_length (p := TracedMessage.earlier) (l := init)
      simp only [length_append, length_singleton] at all
      simp at most
      omega

end Front

/-! ### The covered messages -/

/-- The first `count` messages reach the provider each as one message, before anything
recorded after them. -/
structure CoveredIntact (count : Nat) (messages : List LlmMessage) : Prop where
  visible : ∀ m ∈ messages.take count, m.hasProviderVisibleContent = true ∧ m.role ≠ .system
  unmerged : (messages.take count ++
    ((messages.drop count).filter (·.hasProviderVisibleContent)).take 1).IsChain Unmerged
  released : ∀ s, truncateRun ⟨[], none, []⟩ (messages.take count) = .ok s → s.buffered = []

section Covered

variable (count : Nat) (messages : List LlmMessage)

private abbrev coveredFront : List TracedMessage := (messages.take count).map (⟨·, false⟩)

private abbrev laterRest : List TracedMessage :=
  ((messages.drop count).filter (·.hasProviderVisibleContent)).map (⟨·, true⟩)

private abbrev visibleTrace : List TracedMessage :=
  (traceMessages count messages).filter fun entry => (message entry).hasProviderVisibleContent

private theorem visibleTrace_eq :
    visibleTrace count messages =
      ((messages.take count).filter (·.hasProviderVisibleContent)).map (⟨·, false⟩) ++
        laterRest count messages := by
  rw [visibleTrace, traceMessages, filter_append, filter_map, filter_map]
  rfl

private theorem tracedTranscript_countP (p : TracedMessage → Bool) :
    (tracedTranscript count messages).countP p ≤
      (normalizeToolCallEntries (visibleTrace count messages)).countP p := by
  have filtered : (tracedTranscript count messages).countP p ≤
      (providerVisibleEntries (traceMessages count messages)).countP p :=
    filter_sublist.countP_le
  have loop := truncateLoop_countP p (normalizeToolCallEntries (visibleTrace count messages))
    ⟨[], none, []⟩ TruncateState.sound_start
  exact filtered.trans loop

private theorem coveredFront_earlier : ∀ e ∈ coveredFront count messages, e.later = false := by
  intro e member
  obtain ⟨m, -, rfl⟩ := mem_map.mp member
  rfl

private theorem laterRest_later : ∀ e ∈ laterRest count messages, e.later = true := by
  intro e member
  obtain ⟨m, -, rfl⟩ := mem_map.mp member
  rfl

private theorem normalize_later : ∀ e ∈ normalizeToolCallEntries (laterRest count messages),
    e.later = true := by
  have merged := foldl_merge_countP unmarked_absorbed (laterRest count messages) []
  rw [nil_append, countP_earlier (laterRest_later count messages), Nat.le_zero, countP_eq_zero]
    at merged
  intro e member
  simpa using merged e member

/-- The entries the loop works on, where the covered messages are all visible and apart. -/
private theorem entries_of_visible
    (visible : ∀ m ∈ messages.take count, m.hasProviderVisibleContent = true) :
    visibleTrace count messages = coveredFront count messages ++ laterRest count messages := by
  rw [visibleTrace_eq, filter_eq_self.mpr visible]

private theorem chain_message_iff :
    (coveredFront count messages ++ (laterRest count messages).take 1).IsChain Unmerged ↔
      (messages.take count ++
        ((messages.drop count).filter (·.hasProviderVisibleContent)).take 1).IsChain Unmerged := by
  have bare : (coveredFront count messages ++ (laterRest count messages).take 1).map (·.message) =
      messages.take count ++
        ((messages.drop count).filter (·.hasProviderVisibleContent)).take 1 := by
    simp [Function.comp_def, ← map_take]
  rw [← bare, isChain_map]
  rfl

/-- Where nothing marked stands in the front, every covered message is visible. -/
private theorem visible_of_unmarked (enough : count ≤ messages.length)
    (all : count ≤ (tracedTranscript count messages).countP TracedMessage.earlier) :
    ∀ m ∈ messages.take count, m.hasProviderVisibleContent = true ∧ m.role ≠ .system := by
  let plain : TracedMessage → Bool := fun e => e.earlier && e.message.role ≠ .system
  have absorbed : ∀ last entry, plain (absorbAssistant last entry) = true → plain last = true := by
    intro last entry both
    obtain ⟨unmarked, notSystem⟩ := Bool.and_eq_true_iff.mp both
    exact Bool.and_eq_true_iff.mpr ⟨unmarked_absorbed last entry unmarked, notSystem⟩
  have through : (tracedTranscript count messages).countP TracedMessage.earlier ≤
      (visibleTrace count messages).countP plain := by
    calc (tracedTranscript count messages).countP TracedMessage.earlier
        = (tracedTranscript count messages).countP plain := by
          refine countP_congr fun e member => ?_
          have notSystem := (mem_filter.mp member).2
          simp [plain, of_decide_eq_true notSystem]
      _ ≤ (normalizeToolCallEntries (visibleTrace count messages)).countP plain :=
          tracedTranscript_countP count messages plain
      _ ≤ (visibleTrace count messages).countP plain :=
          foldl_merge_countP absorbed (visibleTrace count messages) []
  -- what is left of the covered messages has to be all of them
  have marked : (laterRest count messages).countP plain = 0 := by
    rw [countP_eq_zero]
    intro e member
    simp [plain, laterRest_later count messages e member]
  rw [visibleTrace_eq, countP_append, marked, Nat.add_zero, countP_map,
    countP_filter] at through
  have every := countP_eq_length.mp (Nat.le_antisymm countP_le_length
    (show (messages.take count).length ≤ _ by
      rw [length_take, Nat.min_eq_left enough]
      exact all.trans through))
  intro m member
  have both := every m member
  simp only [plain, TracedMessage.earlier, Function.comp_apply, Bool.not_false, Bool.true_and,
    Bool.and_eq_true, decide_eq_true_eq] at both
  exact ⟨both.2, both.1⟩

/-- No marked entry stands among the first `count` exactly when the covered messages come
through as they are. -/
theorem unmarked_front_iff (enough : count ≤ messages.length)
    (long : count ≤ (tracedTranscript count messages).length) :
    (∀ e ∈ (tracedTranscript count messages).take count, e.later = false) ↔
      CoveredIntact count messages := by
  have size : (coveredFront count messages).length = count := by
    simp [enough]
  -- for covered messages that are visible and apart, only the loop is left to look at
  have loop : (∀ m ∈ messages.take count, m.hasProviderVisibleContent = true ∧ m.role ≠ .system) →
      (messages.take count ++
        ((messages.drop count).filter (·.hasProviderVisibleContent)).take 1).IsChain Unmerged →
      ((∀ e ∈ (tracedTranscript count messages).take count, e.later = false) ↔
        ∀ s, truncateRun ⟨[], none, []⟩ (messages.take count) = .ok s → s.buffered = []) := by
    intro visible unmerged
    have entries : normalizeToolCallEntries (visibleTrace count messages) =
        coveredFront count messages ++ normalizeToolCallEntries (laterRest count messages) := by
      rw [entries_of_visible count messages fun m member => (visible m member).1]
      exact normalize_append_of_chain ((chain_message_iff count messages).mpr unmerged)
    have transcript : tracedTranscript count messages = (truncateIncompleteToolEntries
        (coveredFront count messages ++ normalizeToolCallEntries (laterRest count messages))).filter
          fun entry => entry.message.role ≠ .system := by
      rw [← entries]
      rfl
    have plain : ∀ e ∈ coveredFront count messages, e.message.role ≠ .system := by
      intro e member
      obtain ⟨m, found, rfl⟩ := mem_map.mp member
      exact (visible m found).2
    have kept := front_kept_iff (coveredFront_earlier count messages) (normalize_later count messages)
      plain (by rw [size, ← transcript]; exact long)
    rw [size, ← transcript, ← truncateRun_released_iff] at kept
    have bare : (coveredFront count messages).map message = messages.take count := by
      change (coveredFront count messages).map (·.message) = messages.take count
      simp [Function.comp_def]
    rw [bare] at kept
    exact kept
  constructor
  · intro unmarked
    have all : count ≤ (tracedTranscript count messages).countP TracedMessage.earlier := by
      calc count = ((tracedTranscript count messages).take count).countP TracedMessage.earlier := by
            rw [countP_eq_length.mpr fun e member => by
              simp [unmarked e member], length_take]
            omega
        _ ≤ (tracedTranscript count messages).countP TracedMessage.earlier :=
          (take_sublist _ _).countP_le
    have visible := visible_of_unmarked count messages enough all
    have unmerged := (chain_message_iff count messages).mp
      (chain_of_count_append (laterRest_later count messages)
        (by
          rw [size, ← entries_of_visible count messages fun m member => (visible m member).1]
          exact all.trans (tracedTranscript_countP count messages _)))
    exact ⟨visible, unmerged, (loop visible unmerged).mp unmarked⟩
  · rintro ⟨visible, unmerged, released⟩
    exact (loop visible unmerged).mpr released

end Covered

/-! ### Runs after a recorded usage -/

/-- The event clears the recorded usage or records another one. -/
@[simp] def DurableEventPayload.replacesUsage : DurableEventPayload → Bool
  | .modelIdChanged _ | .sessionToolsConfigured _ | .sessionForked .. => true
  | .systemPromptConfigured .. | .transcriptRewritten .. => true
  | .tokenUsageRecorded reported _ => reported.contextTokensAfterResponse.isSome
  | _ => false

private theorem replacesUsage_keeps
    (kept : event.event.payload.replacesUsage = false) : KeepsTranscript event := by
  unfold KeepsTranscript
  cases kind : event.event.payload with
  | transcriptRewritten | sessionForked => simp [kind] at kept
  | _ => exact ⟨rfl, rfl⟩

private theorem usageAfter_kept (messageCount : Nat)
    (usage : Option ContextUsageView) (kept : event.event.payload.replacesUsage = false) :
    ModelContext.usageAfter event messageCount usage = usage := by
  unfold ModelContext.usageAfter
  cases kind : event.event.payload with
  | tokenUsageRecorded reported window =>
    rw [kind, replacesUsage, Option.isSome_eq_false_iff,
      Option.isNone_iff_eq_none] at kept
    simp [kept]
  | modelIdChanged | sessionToolsConfigured | sessionForked | systemPromptConfigured =>
    simp [kind] at kept
  | transcriptRewritten => simp [kind] at kept
  | _ => rfl

/-- The messages that were there stay in their places. Only the last of them may change,
by tool calls that join it. -/
structure GrowsFrom (before after : List SequencedLlmMessage) : Prop where
  length_le : before.length ≤ after.length
  front : after.take (before.length - 1) = before.take (before.length - 1)

private theorem MessageEdit.continues {seq : Nat} {start before after : List SequencedLlmMessage}
    (edit : MessageEdit seq before after) (continued : GrowsFrom start before) :
    GrowsFrom start after := by
  obtain ⟨length_le, front⟩ := continued
  refine ⟨length_le.trans edit.length_le, ?_⟩
  rw [← front]
  cases edit with
  | keep => rfl
  | push messages stamped => rw [take_append_of_le_length (by omega)]
  | join init stamped changed =>
    rw [length_append, length_singleton] at length_le
    rw [take_append_of_le_length (by omega), take_append_of_le_length (by omega)]

private theorem usage_kept {events : List StoredEvent} {recorded : SessionReadModel}
    (run : reduceAll events recorded = .ok model)
    (kept : ∀ event ∈ events, event.event.payload.replacesUsage = false) :
    model.modelContext.usage = recorded.modelContext.usage ∧
      GrowsFrom recorded.modelContext.messages model.modelContext.messages := by
  -- the messages at the usage stay fixed along the run
  refine Library.runAll_invariant_of (P := fun mid : SessionReadModel =>
    mid.modelContext.usage = recorded.modelContext.usage ∧
      GrowsFrom recorded.modelContext.messages mid.modelContext.messages) ?_ kept run
    ⟨rfl, Nat.le_refl _, rfl⟩
  rintro event mid _ keeps accepted ⟨usage, continued⟩
  obtain ⟨-, -, rfl⟩ := reduce_ok_iff.mp accepted
  exact ⟨(usageAfter_kept _ _ keeps).trans usage,
    (applyProviderMessages_edit (replacesUsage_keeps keeps) _).continues continued⟩

/-- No message recorded after the usage, which counted `count` messages, stands in the part
of the request that the anchor stands for, whatever model the request goes to. -/
def LaterMessagesEstimated (count : Nat) (model : SessionReadModel) : Prop :=
  ∀ window, ∀ entry ∈ (tracedTranscript count (model.modelContext.messages.map (·.message))).take
    ((contextSnapshot model).coveredCount window), entry.later = false

private theorem withInputTokenAnchor_anchor (snapshot : ContextSnapshot)
    (tokens window covered : Nat) :
    (snapshot.withInputTokenAnchor tokens window covered).inputTokenAnchor =
      if covered ≤ snapshot.messages.length then some ⟨tokens, window, covered⟩
      else snapshot.inputTokenAnchor := by
  by_cases attached : covered ≤ snapshot.messages.length
  all_goals simp [attached]

private theorem contextSnapshot_anchor (recorded : model.modelContext.usage = some usage) :
    (contextSnapshot model).inputTokenAnchor =
      if usage.coveredMessageCount ≤ (contextSnapshot model).messages.length then
        some ⟨usage.contextTokens, usage.modelContextWindow, usage.coveredMessageCount⟩
      else none := by
  rw [(contextSnapshot_fields model).2.2, contextSnapshot, recorded]
  exact withInputTokenAnchor_anchor _ _ _ _

private theorem contextSnapshot_traced (count : Nat) (model : SessionReadModel) :
    (contextSnapshot model).messages =
      (tracedTranscript count (model.modelContext.messages.map (·.message))).map (·.message) := by
  rw [(contextSnapshot_fields model).2.2, providerTranscript_message, tracedTranscript_message,
    map_map]
  rfl

private theorem coveredCount_eq (recorded : model.modelContext.usage = some usage) (window : Nat) :
    (contextSnapshot model).coveredCount window =
      if usage.coveredMessageCount ≤ (contextSnapshot model).messages.length ∧
          usage.modelContextWindow = window then usage.coveredMessageCount
      else 0 := by
  rw [ContextSnapshot.coveredCount, contextSnapshot_anchor recorded]
  by_cases attached : usage.coveredMessageCount ≤ (contextSnapshot model).messages.length
  all_goals simp [attached]

/-- After a usage is recorded, as long as no event replaces it, the snapshot estimates every
message recorded later exactly when the anchor is dropped or the messages counted at the
usage come through normalisation as they are. Where the anchor is kept, the entries from
the counted position on are those whose estimate is added. -/
theorem later_messages_estimated_iff {start recorded model : SessionReadModel}
    {recording : StoredEvent} {after : List StoredEvent} {reported : LlmTokenUsage}
    {window tokens : Nat} (usage : recording.event.payload = .tokenUsageRecorded reported window)
    (counted : reported.contextTokensAfterResponse = some tokens)
    (accepted : reduce recording start = .ok recorded) (run : reduceAll after recorded = .ok model)
    (kept : ∀ event ∈ after, event.event.payload.replacesUsage = false) :
    let count := start.modelContext.messages.length
    GrowsFrom start.modelContext.messages model.modelContext.messages ∧
    (count ≤ (contextSnapshot model).messages.length → ∀ toolsTokens,
      (contextSnapshot model).estimateOwnInputTokens toolsTokens window =
        saturatingAdd
          (saturatingAdd tokens (estimateProviderMessageTokens
            (((tracedTranscript count (model.modelContext.messages.map (·.message))).drop count).map
              (·.message))))
          toolsTokens) ∧
    (LaterMessagesEstimated count model ↔
      (count ≤ (contextSnapshot model).messages.length →
        CoveredIntact count (model.modelContext.messages.map (·.message)))) := by
  intro count
  obtain ⟨-, -, rfl⟩ := reduce_ok_iff.mp accepted
  obtain ⟨sameUsage, continued⟩ := usage_kept run kept
  have messages : (applyValidatedEvent recording start).modelContext.messages =
      start.modelContext.messages := by
    simp [ModelContext.applyEvent, usage]
  have view : model.modelContext.usage = some ⟨tokens, window, count⟩ := by
    rw [sameUsage]
    simp [ModelContext.applyEvent, usage, counted, count]
  rw [messages] at continued
  have traced := contextSnapshot_traced count model
  refine ⟨continued, ?_, ?_⟩
  · intro attached toolsTokens
    rw [ContextSnapshot.estimateOwnInputTokens, contextSnapshot_anchor view]
    simp only [attached, if_true, ne_eq, not_true_eq_false, if_false, Nat.not_lt.mpr attached]
    rw [traced, map_drop]
  · have enough : count ≤ (model.modelContext.messages.map (·.message)).length := by
      simpa using continued.length_le
    rw [LaterMessagesEstimated]
    simp only [coveredCount_eq view]
    by_cases attached : count ≤ (contextSnapshot model).messages.length
    · have long := attached
      rw [traced, length_map] at long
      rw [← unmarked_front_iff count _ enough long]
      simp only [attached, true_and, forall_const]
      constructor
      · intro every entry member
        exact every window entry (by simpa using member)
      · intro front other entry member
        split at member
        · exact front entry member
        · simp at member
    · simp [attached]

/-! An assistant message of white space is counted at the usage but not sent. The next user
message then takes its place in the covered prefix, and nothing estimates it. -/

def sampleReport : LlmTokenUsage := ⟨some 100, none, none, none, some 10, none, none, none⟩

def sampleUsage : DurableEventPayload := .tokenUsageRecorded sampleReport 1000

def blankReply : List DurableEventPayload :=
  [.userMessage "m1" "hello" [] none, .assistantMessageCompleted "m2" "\n" none]

def spokenReply : List DurableEventPayload :=
  [.userMessage "m1" "hello" [] none, .assistantMessageCompleted "m2" "hi" none]

def usageThenMessage : List DurableEventPayload :=
  [sampleUsage, .userMessage "m3" "more" [] none]

theorem blank_reply_hides_message :
    ReplayReachable (sampleRun (blankReply ++ usageThenMessage)) ∧
    (contextSnapshot (sampleRun (blankReply ++ usageThenMessage))).messages =
      [.user "hello", .user "more"] ∧
    (contextSnapshot (sampleRun (blankReply ++ usageThenMessage))).estimateOwnInputTokens 0 1000 =
      110 ∧
    ¬ LaterMessagesEstimated (sampleRun blankReply).modelContext.messages.length
      (sampleRun (blankReply ++ usageThenMessage)) := by
  refine ⟨sampleRun_reachable (by decide +kernel), by decide +kernel, by decide +kernel, ?_⟩
  intro estimated
  have covered := estimated 1000 ⟨.user "more", true⟩ (by decide +kernel)
  cases covered

theorem spoken_reply_keeps_estimate :
    CoveredIntact 2 ((sampleRun (spokenReply ++ usageThenMessage)).modelContext.messages.map
      (·.message)) ∧
    LaterMessagesEstimated (sampleRun spokenReply).modelContext.messages.length
      (sampleRun (spokenReply ++ usageThenMessage)) := by
  have intact : CoveredIntact 2 [.user "hello", .assistant "hi", .user "more"] := by
    refine ⟨by decide +kernel, by decide +kernel, ?_⟩
    rintro _ ⟨⟩
    rfl
  have accepted : reduce ⟨3, sampleEvent sampleUsage⟩ (sampleRun spokenReply) =
      .ok (sampleRun (spokenReply ++ [sampleUsage])) := by
    decide +kernel
  have run : reduceAll [⟨4, sampleEvent (.userMessage "m3" "more" [] none)⟩]
      (sampleRun (spokenReply ++ [sampleUsage])) =
        .ok (sampleRun (spokenReply ++ usageThenMessage)) := by
    decide +kernel
  have counted : sampleReport.contextTokensAfterResponse = some 110 := by decide
  have result := later_messages_estimated_iff rfl counted accepted run (by decide +kernel)
  exact ⟨intact, result.2.2.mpr fun _ => intact⟩

end Astrcode
