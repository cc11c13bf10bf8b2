import Astrcode.Library.Prefixes
import Astrcode.Properties.Rewrite

/-!
# What holds of every read model that a log replays to

Messages carry the number of the event that last touched them, and only the last message is ever
touched again, so that the numbers never go down along the list: the messages up to a source form
a prefix. A rewrite gives its messages the number of the source, which is below all that it keeps.
Usage and compaction records, the queue of inputs and the approvals keep to the log likewise.
-/
namespace Astrcode

open List Execution

variable {event : StoredEvent} {model : SessionReadModel} {messages : List SequencedLlmMessage}
  {callId : ToolCallId}

/-! ### Messages -/

def Stamped (messages : List SequencedLlmMessage) : Prop :=
  messages.Pairwise fun earlier later => earlier.updatedSeq ≤ later.updatedSeq

theorem MessageEdit.stamped {seq : Nat} {before after : List SequencedLlmMessage}
    (edit : MessageEdit seq before after) (ordered : Stamped before)
    (old : ∀ m ∈ before, m.updatedSeq ≤ seq) : Stamped after := by
  cases edit with
  | keep => exact ordered
  | push messages stamp =>
    refine pairwise_append.mpr ⟨ordered, pairwise_singleton _ _, ?_⟩
    intro m member added only
    rw [mem_singleton.mp only, stamp]
    exact old m member
  | join init stamp changed =>
    refine pairwise_append.mpr
      ⟨(pairwise_append.mp ordered).1, pairwise_singleton _ _, ?_⟩
    intro m member joined only
    rw [mem_singleton.mp only, stamp]
    exact old m (mem_append_left _ member)

/-- Messages with one number for all of them. -/
theorem stamped_map_const {α : Type} (entries : List α) (f : α → SequencedLlmMessage) (seq : Nat)
    (stamp : ∀ entry, (f entry).updatedSeq = seq) : Stamped (entries.map f) := by
  apply pairwise_map.mpr
  apply pairwise_of_forall
  intro a b
  rw [stamp, stamp]

theorem applyTranscriptRewrite_stamped
    (ordered : Stamped messages) (rewritten : List TranscriptMessage) (sourceSeq : Nat) :
    Stamped (applyTranscriptRewrite messages rewritten sourceSeq) := by
  refine pairwise_append.mpr ⟨stamped_map_const _ _ sourceSeq fun _ => rfl,
    ordered.sublist filter_sublist, ?_⟩
  -- what is kept was touched after the source
  intro new member kept later
  obtain ⟨entry, -, rfl⟩ := mem_map.mp member
  exact Nat.le_of_lt (of_decide_eq_true (mem_filter.mp later).2)

theorem applyProviderMessages_stamped
    (ordered : Stamped messages) (old : ∀ m ∈ messages, m.updatedSeq ≤ event.seq) :
    Stamped (applyProviderMessages event messages) := by
  by_cases keeps : KeepsTranscript event
  · exact (applyProviderMessages_edit keeps messages).stamped ordered old
  · cases kind : event.event.payload with
    | transcriptRewritten sourceSeq fingerprint rewritten reason =>
      rw [applyProviderMessages, kind]
      exact applyTranscriptRewrite_stamped ordered rewritten sourceSeq
    | sessionForked =>
      rw [applyProviderMessages, kind]
      exact stamped_map_const _ _ event.seq fun _ => rfl
    | _ => simp [KeepsTranscript, kind] at keeps

/-! ### The invariant -/

/-- Entries made by events of the log, in their order. -/
structure Recorded {α : Type} (key : α → Nat) (lastSeq : Nat) (entries : List α) : Prop where
  bounded : ∀ entry ∈ entries, key entry ≤ lastSeq
  ordered : entries.Pairwise (key · < key ·)

namespace Recorded

variable {α : Type} {key : α → Nat} {lastSeq seq : Nat} {entries : List α}

theorem fewer {kept : List α} (recorded : Recorded key lastSeq entries) (later : lastSeq < seq)
    (sublist : List.Sublist kept entries) : Recorded key seq kept where
  bounded entry member :=
    Nat.le_trans (recorded.bounded entry (sublist.subset member)) (Nat.le_of_lt later)
  ordered := recorded.ordered.sublist sublist

theorem add {entry : α} (recorded : Recorded key lastSeq entries) (later : lastSeq < seq)
    (made : key entry = seq) : Recorded key seq (entries ++ [entry]) where
  bounded := forall_mem_append.mpr
    ⟨(recorded.fewer later (List.Sublist.refl _)).bounded, by simp [made]⟩
  ordered := by
    refine pairwise_append.mpr ⟨recorded.ordered, pairwise_singleton _ _, ?_⟩
    intro other member new only
    rw [mem_singleton.mp only, made]
    exact Nat.lt_of_le_of_lt (recorded.bounded other member) later

end Recorded

structure ReadModelInvariant (model : SessionReadModel) : Prop where
  stamped : Stamped model.modelContext.messages
  bounded : StampsBounded model
  counted : model.stats.eventCount = model.stats.lastSeq + 1
  covered : ∀ usage ∈ model.modelContext.usage,
    usage.coveredMessageCount ≤ model.modelContext.messages.length
  compactions : Recorded CompactionView.seq model.stats.lastSeq model.modelContext.compactions
  sources : ∀ record ∈ model.modelContext.compactions, record.sourceSeq < record.seq
  inputs : Recorded PendingInput.acceptedSeq model.stats.lastSeq model.execution.pendingInputs

/-- A usage record that an event leaves is an old one of a list that has not become shorter, or
counts the messages of now. -/
theorem usageAfter_covered {context : SessionModelContext}
    (covered : ∀ usage ∈ context.usage, usage.coveredMessageCount ≤ context.messages.length) :
    ∀ usage ∈ (ModelContext.applyEvent event context).usage, usage.coveredMessageCount ≤
      (ModelContext.applyEvent event context).messages.length := by
  intro usage recorded
  simp only [ModelContext.applyEvent] at recorded ⊢
  by_cases keeps : KeepsTranscript event
  · have longer := (applyProviderMessages_edit keeps context.messages).length_le
    rw [ModelContext.usageAfter] at recorded
    split at recorded
    · cases recorded
    · cases recorded
    · cases recorded
    · cases recorded
    · cases recorded
    · split at recorded
      · cases recorded
        exact Nat.le_refl _
      · exact Nat.le_trans (covered usage recorded) longer
    · exact Nat.le_trans (covered usage recorded) longer
  · cases kind : event.event.payload with
    | transcriptRewritten | sessionForked => simp [kind] at recorded
    | _ => simp [KeepsTranscript, kind] at keeps

variable (event)

/-- Records only come at the end, with the number of the event. -/
theorem compactionsAfter_cases (compactions : List CompactionView) :
    ModelContext.compactionsAfter event compactions = compactions ∨
      ∃ record, ModelContext.compactionsAfter event compactions = compactions ++ [record] ∧
        record.seq = event.seq ∧ event.event.payload.rewriteSource? = some record.sourceSeq := by
  rw [ModelContext.compactionsAfter]
  split
  · next kind => exact .inr ⟨_, rfl, rfl, by rw [kind]; rfl⟩
  · exact .inl rfl

/-- Inputs leave the queue anywhere, and join it at its end. -/
theorem pendingInputs_cases (execution : SessionExecutionState) :
    List.Sublist (applyEvent event execution).pendingInputs execution.pendingInputs ∨
      ∃ input, (applyEvent event execution).pendingInputs =
        execution.pendingInputs ++ [input] ∧ input.acceptedSeq = event.seq := by
  rw [applyEvent]
  split
  all_goals try exact .inl (List.Sublist.refl _)
  · exact .inr ⟨_, rfl, rfl⟩
  · left
    split
    · exact filter_sublist
    · exact List.Sublist.refl _
  · split
    all_goals exact .inl (List.Sublist.refl _)

theorem ReadModelInvariant.reduce (model model' : SessionReadModel)
    (accepted : reduce event model = .ok model') (inv : ReadModelInvariant model) :
    ReadModelInvariant model' := by
  have bounded := stampsBounded_reduce event model model' accepted inv.bounded
  obtain ⟨next, -, rfl⟩ := reduce_ok_iff.mp accepted
  have later : model.stats.lastSeq < event.seq := by
    rw [next.contiguous]
    exact Nat.lt_succ_self _
  have records : Recorded CompactionView.seq event.seq
      (ModelContext.compactionsAfter event model.modelContext.compactions) ∧
      ∀ record ∈ ModelContext.compactionsAfter event model.modelContext.compactions,
        record.sourceSeq < record.seq := by
    obtain same | ⟨added, grown, seq, source⟩ :=
      compactionsAfter_cases event model.modelContext.compactions
    · rw [same]
      exact ⟨inv.compactions.fewer later (List.Sublist.refl _), inv.sources⟩
    · rw [grown]
      refine ⟨inv.compactions.add later seq, ?_⟩
      intro record member
      rcases mem_append.mp member with old | new
      · exact inv.sources record old
      · -- the source of a rewrite is not ahead of the log
        rw [mem_singleton.mp new, seq]
        exact Nat.lt_of_le_of_lt (next.source _ source) later
  exact {
    stamped := applyProviderMessages_stamped inv.stamped fun m member =>
      Nat.le_trans (inv.bounded m member) (Nat.le_of_lt later)
    bounded
    counted := by
      show model.stats.eventCount + 1 = event.seq + 1
      rw [inv.counted, next.contiguous]
    covered := usageAfter_covered inv.covered
    compactions := records.1
    sources := records.2
    inputs := by
      show Recorded _ _ (applyEvent event model.execution).pendingInputs
      obtain fewer | ⟨added, grown, seq⟩ := pendingInputs_cases event model.execution
      · exact inv.inputs.fewer later fewer
      · rw [grown]
        exact inv.inputs.add later seq }

variable {event}

theorem ReplayReachable.invariant (reachable : ReplayReachable model) :
    ReadModelInvariant model := by
  refine reachable.induction ?_ ReadModelInvariant.reduce
  intro sessionId started timestamp
  exact {
    stamped := List.Pairwise.nil
    bounded := nofun
    counted := rfl
    covered := nofun
    compactions := ⟨nofun, List.Pairwise.nil⟩
    sources := nofun
    inputs := ⟨nofun, List.Pairwise.nil⟩ }

/-! ### Approvals -/

@[simp] def DurableEventPayload.approvalRequested? : DurableEventPayload → Option ToolCallId
  | .toolApprovalRequested callId _ _ _ _ _ => some callId
  | _ => none

/-- An approval that the event has not asked for was there before, and its call has not gone. -/
theorem approval_persists {execution : SessionExecutionState}
    (other : event.event.payload.approvalRequested? ≠ some callId)
    (pending : callId ∈ (applyEvent event execution).pendingToolApprovals.map (·.1)) :
    callId ∈ execution.pendingToolApprovals.map (·.1) ∧
      (callId ∈ execution.pendingToolCalls →
        callId ∈ (applyEvent event execution).pendingToolCalls) := by
  -- a call that ends takes its approval with it, and a settled turn takes all of them
  have removed : ∀ callId', callId ∈ (removeCall callId' execution).pendingToolApprovals.map
      (·.1) → callId ∈ execution.pendingToolApprovals.map (·.1) ∧ (callId ∈ execution.pendingToolCalls →
        callId ∈ (removeCall callId' execution).pendingToolCalls) := by
    intro callId' left
    simp only [removeCall, mem_map, mem_filter] at left ⊢
    obtain ⟨entry, ⟨member, apart⟩, rfl⟩ := left
    exact ⟨⟨entry, member, rfl⟩, fun call => ⟨call, apart⟩⟩
  have settled : ∀ phase, callId ∈ (settle execution phase).pendingToolApprovals.map (·.1) →
      False := by
    intro phase left
    cases left
  revert pending
  rw [applyEvent]
  cases kind : event.event.payload with
  | toolCallCompleted callId' | toolCallFailed callId' | toolCallCancelled callId' =>
    exact removed callId'
  | toolCallRequested callId' => exact fun pending => ⟨pending, mem_insert_of_mem⟩
  | toolApprovalRequested callId' =>
    refine fun pending => ⟨?_, id⟩
    rcases mem_cons.mp pending with rfl | old
    · exact absurd (by rw [kind]; rfl) other
    · exact (filter_sublist.map _).subset old
  | toolApprovalResolved callId' =>
    exact fun pending => ⟨(filter_sublist.map _).subset pending, id⟩
  | turnCompleted finishReason =>
    simp only []
    split
    · exact fun pending => (settled _ pending).elim
    · exact fun pending => ⟨pending, id⟩
  | sessionForked => exact fun pending => (settled _ pending).elim
  | _ => exact fun pending => ⟨pending, id⟩

theorem approval_persists_run {events : List StoredEvent}
    {model' : SessionReadModel} (accepted : reduceAll events model = .ok model')
    (others : ∀ event ∈ events, event.event.payload.approvalRequested? ≠ some callId)
    (pending : callId ∈ model'.execution.pendingToolApprovals.map (·.1)) :
    callId ∈ model.execution.pendingToolApprovals.map (·.1) ∧
      (callId ∈ model.execution.pendingToolCalls → callId ∈ model'.execution.pendingToolCalls) := by
  induction events generalizing model with
  | nil =>
    obtain rfl := Library.runAll_nil.mp accepted
    exact ⟨pending, id⟩
  | cons event events ih =>
    obtain ⟨mid, first, rest⟩ := Library.runAll_cons.mp accepted
    obtain ⟨-, -, rfl⟩ := reduce_ok_iff.mp first
    obtain ⟨waits, later⟩ := ih rest (forall_mem_cons.mp others).2
    obtain ⟨before, now⟩ := approval_persists (others event mem_cons_self) waits
    exact ⟨before, fun call => later (now call)⟩

theorem reduceAll_of_replay {sessionId : SessionId} {before after : List StoredEvent}
    {mid : SessionReadModel} (first : replay sessionId before = .ok mid)
    (whole : replay sessionId (before ++ after) = .ok model) : reduceAll after mid = .ok model := by
  obtain ⟨event, rest, started, rfl, -, valid, reduced⟩ := replay_ok_iff.mp first
  obtain ⟨event', rest', started', same, -, valid', reduced'⟩ := replay_ok_iff.mp whole
  obtain ⟨rfl, rfl⟩ := cons.inj same
  obtain rfl : started = started' := Except.ok.inj (valid.symm.trans valid')
  obtain ⟨between, reducedFirst, reducedRest⟩ := Library.runAll_append.mp reduced'
  cases reducedFirst.symm.trans reduced
  exact reducedRest

/-- Every read model that a log replays to: the numbers of the messages do not go down and are
not ahead of the log, so that those up to any source are a prefix; every event is counted; usage
covers messages that are there; compactions come after their sources and in order, and so do the
inputs. An approval whose last request found its call pending still has a pending call. -/
theorem replayed_model_invariant {sessionId : SessionId} {events : List StoredEvent}
    {model : SessionReadModel} (replayed : replay sessionId events = .ok model) :
    (model.modelContext.messages.Pairwise (·.updatedSeq ≤ ·.updatedSeq) ∧
      (∀ m ∈ model.modelContext.messages, m.updatedSeq ≤ model.stats.lastSeq) ∧
      ∀ sourceSeq, model.modelContext.messages.filter (·.updatedSeq ≤ sourceSeq) =
        model.modelContext.messages.takeWhile (·.updatedSeq ≤ sourceSeq)) ∧
    model.stats.eventCount = model.stats.lastSeq + 1 ∧ (∀ usage ∈ model.modelContext.usage,
      usage.coveredMessageCount ≤ model.modelContext.messages.length) ∧
    ((∀ record ∈ model.modelContext.compactions, record.sourceSeq < record.seq) ∧
      model.modelContext.compactions.Pairwise (·.seq < ·.seq)) ∧
    (model.execution.pendingInputs.Pairwise (·.acceptedSeq < ·.acceptedSeq) ∧
      ∀ input ∈ model.execution.pendingInputs, input.acceptedSeq ≤ model.stats.lastSeq) ∧
    ∀ before event after callId raisedIn, events = before ++ event :: after →
      event.event.payload.approvalRequested? = some callId →
      (∀ later ∈ after, later.event.payload.approvalRequested? ≠ some callId) →
      replay sessionId before = .ok raisedIn → callId ∈ raisedIn.execution.pendingToolCalls →
      callId ∈ model.execution.pendingToolApprovals.map (·.1) →
      callId ∈ model.execution.pendingToolCalls := by
  have inv := ReplayReachable.invariant ⟨sessionId, events, replayed⟩
  refine ⟨⟨inv.stamped, inv.bounded, ?_⟩, inv.counted, inv.covered,
    ⟨inv.sources, inv.compactions.ordered⟩, ⟨inv.inputs.ordered, inv.inputs.bounded⟩, ?_⟩
  · intro sourceSeq
    apply Library.filter_eq_takeWhile
    refine inv.stamped.imp fun ordered below => ?_
    simp only [decide_eq_true_eq] at below ⊢
    exact Nat.le_trans ordered below
  · rintro before event after callId raisedIn rfl requests last replayedBefore call pending
    have rest := reduceAll_of_replay replayedBefore replayed
    obtain ⟨mid, first, later⟩ := Library.runAll_cons.mp rest
    obtain ⟨-, -, rfl⟩ := reduce_ok_iff.mp first
    apply (approval_persists_run later last pending).2
    -- asking for the approval leaves the calls as they are
    cases kind : event.event.payload with
    | toolApprovalRequested =>
      show callId ∈ (applyEvent event raisedIn.execution).pendingToolCalls
      rw [applyEvent, kind]
      exact call
    | _ => simp [kind] at requests

/-- A tool call of the small session, and the question whether it may run. -/
def sampleQuestion : List DurableEventPayload :=
  [.toolCallRequested "call" "shell" .null none,
    .toolApprovalRequested "call" "shell" "run?" none .core .null]

theorem sampleQuestion_call_pending :
    (sampleRun sampleQuestion).stats.eventCount = 3 ∧
      "call" ∈ (sampleRun sampleQuestion).execution.pendingToolCalls := by
  have replayed : replay "session" (⟨0, sampleEvent (.sessionStarted sampleStarted)⟩ ::
      numberFrom 1 (sampleQuestion.map sampleEvent)) = .ok (sampleRun sampleQuestion) := by
    decide +kernel
  obtain ⟨-, counted, -, -, -, approvals⟩ := replayed_model_invariant replayed
  refine ⟨counted.trans (by decide +kernel), ?_⟩
  apply approvals [⟨0, sampleEvent (.sessionStarted sampleStarted)⟩,
    ⟨1, sampleEvent (.toolCallRequested "call" "shell" .null none)⟩]
    ⟨2, sampleEvent (.toolApprovalRequested "call" "shell" "run?" none .core .null)⟩ [] "call"
    (sampleRun [.toolCallRequested "call" "shell" .null none])
  · rfl
  · rfl
  · simp
  all_goals decide +kernel

end Astrcode
