import Astrcode.Projection.Reachable
import Astrcode.Properties.Transcript
import Astrcode.Session.Compaction

/-!
# Rewriting the transcript while the session goes on

A compaction is computed from a snapshot at sequence number `s` and committed later.
In between other events may add messages, and a tool call may join an assistant
message that was there before. The stamp `updatedSeq` on every message tells the two
sides of the cut apart: whatever an event after `s` touched carries a later stamp and
survives the rewrite. The fingerprint makes sure that what is replaced is what the
compaction has seen.
-/
namespace Astrcode

open List

variable {event : StoredEvent} {model final : SessionReadModel} {events : List StoredEvent}
  {x : SequencedLlmMessage} {i s : Nat}

@[simp] def DurableEventPayload.isSessionForked : DurableEventPayload → Bool
  | .sessionForked .. => true
  | _ => false

/-- The event neither rewrites nor forks the transcript. -/
def KeepsTranscript (event : StoredEvent) : Prop :=
  event.event.payload.rewriteSource? = none ∧ event.event.payload.isSessionForked = false

instance (event : StoredEvent) : Decidable (KeepsTranscript event) :=
  inferInstanceAs (Decidable (_ ∧ _))

/-! ### How one event edits the messages -/

/-- All that an event which keeps the transcript can do to the message list: nothing, add
one message, or let a tool call join the last one. -/
inductive MessageEdit (seq : Nat) :
    List SequencedLlmMessage → List SequencedLlmMessage → Prop where
  | keep (messages : List SequencedLlmMessage) : MessageEdit seq messages messages
  | push (messages : List SequencedLlmMessage) {added : SequencedLlmMessage}
      (stamped : added.updatedSeq = seq) : MessageEdit seq messages (messages ++ [added])
  | join (init : List SequencedLlmMessage) {last joined : SequencedLlmMessage}
      (stamped : joined.updatedSeq = seq) (changed : joined.message ≠ last.message) :
      MessageEdit seq (init ++ [last]) (init ++ [joined])

private theorem toolCallRequested_edit (messages : List SequencedLlmMessage) (call : LlmContent)
    (seq : Nat) : MessageEdit seq messages (applyToolCallRequested messages call seq) := by
  unfold applyToolCallRequested
  cases found : messages.getLast? with
  | none => exact .push messages rfl
  | some last =>
    have whole : messages.dropLast ++ [last] = messages :=
      dropLast_append_getLast? last (by simp [found])
    simp only []
    split
    · -- the joined message has one block more than before
      have longer : ({ last.message with content := last.message.content ++ [call] } : LlmMessage) ≠
          last.message := by
        intro same
        have lengths := congrArg (fun m => m.content.length) same
        simp at lengths
      have edit : MessageEdit seq (messages.dropLast ++ [last]) (messages.dropLast ++ [{ last with
          message := { last.message with content := last.message.content ++ [call] }
          updatedSeq := seq }]) := .join messages.dropLast rfl longer
      rw [whole] at edit
      exact edit
    · exact .push messages rfl

theorem applyProviderMessages_edit (keeps : KeepsTranscript event)
    (messages : List SequencedLlmMessage) :
    MessageEdit event.seq messages (applyProviderMessages event messages) := by
  obtain ⟨noRewrite, noFork⟩ := keeps
  unfold applyProviderMessages
  cases kind : event.event.payload with
  | userMessage | turnAbortedContext | assistantMessageCompleted => exact .push messages rfl
  | toolCallRequested => exact toolCallRequested_edit messages _ _
  | toolCallCompleted | toolCallFailed | toolCallCancelled => exact .push messages rfl
  | transcriptRewritten => simp [kind] at noRewrite
  | sessionForked => simp [kind] at noFork
  | _ => exact .keep messages

namespace MessageEdit

variable {seq : Nat} {before after : List SequencedLlmMessage}

theorem length_le (edit : MessageEdit seq before after) : before.length ≤ after.length := by
  cases edit <;> simp

private theorem getElem?_concat_eq_some {α : Type} {init : List α} {last x : α}
    (found : (init ++ [last])[i]? = some x) : init[i]? = some x ∨ i = init.length ∧ last = x := by
  rcases Nat.lt_trichotomy i init.length with inside | rfl | beyond
  · rw [getElem?_append_left inside] at found
    exact .inl found
  · exact .inr (by simpa using found)
  · rw [getElem?_eq_none (by simp; omega)] at found
    cases found

/-- A message is either where it was, or it is new or changed and carries the new stamp. -/
theorem at_position (edit : MessageEdit seq before after) (found : after[i]? = some x) :
    before[i]? = some x ∨
      (x.updatedSeq = seq ∧ (before[i]?).map (·.message) ≠ some x.message) := by
  cases edit with
  | keep => exact Or.inl found
  | push messages stamped =>
    rcases getElem?_concat_eq_some found with old | ⟨rfl, rfl⟩
    · exact .inl old
    · exact .inr ⟨stamped, by simp⟩
  | join init stamped changed =>
    rcases getElem?_concat_eq_some found with old | ⟨rfl, rfl⟩
    · exact .inl (by rw [getElem?_append_left (List.getElem?_eq_some_iff.mp old).1, old])
    · exact .inr ⟨stamped, by simpa using changed.symm⟩

end MessageEdit

/-! ### Stamps -/

/-- No stamp is ahead of the log. -/
def StampsBounded (model : SessionReadModel) : Prop :=
  ∀ m ∈ model.modelContext.messages, m.updatedSeq ≤ model.stats.lastSeq

theorem stampsBounded_reduce (event : StoredEvent) (model model' : SessionReadModel)
    (accepted : reduce event model = .ok model') (bounded : StampsBounded model) :
    StampsBounded model' := by
  obtain ⟨next, -, rfl⟩ := reduce_ok_iff.mp accepted
  have later : model.stats.lastSeq ≤ event.seq := by
    rw [next.contiguous]
    omega
  have old : ∀ m ∈ model.modelContext.messages, m.updatedSeq ≤ event.seq := by
    intro m member
    exact Nat.le_trans (bounded m member) later
  intro m member
  change m ∈ applyProviderMessages event model.modelContext.messages at member
  change m.updatedSeq ≤ event.seq
  by_cases keeps : KeepsTranscript event
  · obtain ⟨i, found⟩ := mem_iff_getElem?.mp member
    -- untouched messages keep their stamp, the others get that of the event
    rcases (applyProviderMessages_edit keeps _).at_position found with same | ⟨stamped, -⟩
    · exact old m (mem_of_getElem? same)
    · omega
  · cases kind : event.event.payload with
    | transcriptRewritten sourceSeq fingerprint rewritten reason =>
      -- rewritten entries carry the source, the rest is kept as it was
      have source := next.source sourceSeq (by simp [kind])
      simp only [applyProviderMessages, kind, applyTranscriptRewrite, mem_append,
        mem_map, mem_filter] at member
      rcases member with ⟨entry, -, rfl⟩ | ⟨kept, -⟩
      · exact Nat.le_trans source later
      · exact old m kept
    | sessionForked =>
      simp only [applyProviderMessages, kind, mem_map] at member
      obtain ⟨entry, -, rfl⟩ := member
      exact Nat.le_refl _
    | _ => simp [KeepsTranscript, kind] at keeps

theorem ReplayReachable.stampsBounded (reachable : ReplayReachable model) :
    StampsBounded model := by
  refine reachable.induction ?_ stampsBounded_reduce
  intro sessionId started timestamp m member
  simp at member

/-! ### What a run touches -/

def messageAt (model : SessionReadModel) (i : Nat) : Option LlmMessage :=
  (model.modelContext.messages[i]?).map (·.message)

/-- Some event of the run created the message at position `i` or merged content into it. -/
def touched : List StoredEvent → SessionReadModel → Nat → Bool
  | [], _, _ => false
  | event :: events, model, i =>
    let after := applyValidatedEvent event model
    messageAt model i ≠ messageAt after i || touched events after i

/-- The messages at the positions a run touched, in order. -/
def touchedMessages (events : List StoredEvent) (start final : SessionReadModel) :
    List SequencedLlmMessage :=
  (final.modelContext.messages.zipIdx.filter fun (_, i) => touched events start i).map (·.1)

def untouchedMessages (events : List StoredEvent) (start final : SessionReadModel) :
    List SequencedLlmMessage :=
  (final.modelContext.messages.zipIdx.filter fun (_, i) => !touched events start i).map (·.1)

/-- Selecting by position agrees with selecting by element when the two tests agree. -/
private theorem zipIdx_filter_eq {α : Type} (xs : List α) (p : Nat → Bool) (q : α → Bool)
    (agree : ∀ i x, xs[i]? = some x → p i = q x) :
    (xs.zipIdx.filter fun (_, i) => p i).map (·.1) = xs.filter q := by
  have same : xs.zipIdx.filter (fun (_, i) => p i) = xs.zipIdx.filter fun (x, _) => q x := by
    apply filter_congr
    rintro ⟨x, i⟩ member
    exact agree i x (mem_zipIdx_iff_getElem?.mp member)
  rw [same]
  have projected : (fun entry : α × Nat => q entry.1) = q ∘ Prod.fst := rfl
  rw [projected, ← filter_map, zipIdx_map_fst]

private theorem changed_iff (keeps : KeepsTranscript event) (later : s < event.seq) :
    (∃ y, (applyValidatedEvent event model).modelContext.messages[i]? = some y ∧ s < y.updatedSeq) ↔
      messageAt model i ≠ messageAt (applyValidatedEvent event model) i ∨
      ∃ y, model.modelContext.messages[i]? = some y ∧ s < y.updatedSeq := by
  have edit := applyProviderMessages_edit keeps model.modelContext.messages
  change (∃ y, (applyProviderMessages event model.modelContext.messages)[i]? = some y ∧ _) ↔
    (model.modelContext.messages[i]?).map _ ≠
      ((applyProviderMessages event model.modelContext.messages)[i]?).map _ ∨ _
  generalize applyProviderMessages event model.modelContext.messages = after at edit ⊢
  have grows := edit.length_le
  cases found : after[i]? with
  | none =>
    have outside : model.modelContext.messages[i]? = none := by
      have := getElem?_eq_none_iff.mp found
      exact getElem?_eq_none (by omega)
    simp [outside]
  | some x =>
    -- an untouched position tells nothing; a touched one has a later stamp and another message
    rcases edit.at_position found with same | ⟨stamped, changed⟩
    · simp [same]
    · constructor
      · exact fun _ => Or.inl changed
      · exact fun _ => ⟨x, rfl, by omega⟩

section

variable (keeps : ∀ event ∈ events, KeepsTranscript event)

include keeps

/-- Along a run after `s`, the messages with a later stamp are those the run touched and
those that had one before. -/
private theorem laterStamp_iff (behind : s ≤ model.stats.lastSeq)
    (run : reduceAll events model = .ok final) :
    (∃ x, final.modelContext.messages[i]? = some x ∧ s < x.updatedSeq) ↔
      touched events model i = true ∨
      ∃ y, model.modelContext.messages[i]? = some y ∧ s < y.updatedSeq := by
  induction events generalizing model with
  | nil =>
    rw [Library.runAll_nil.mp run]
    simp [touched]
  | cons event events ih =>
    obtain ⟨mid, first, rest⟩ := Library.runAll_cons.mp run
    obtain ⟨next, -, rfl⟩ := reduce_ok_iff.mp first
    have later : s < event.seq := by
      have := next.contiguous
      omega
    have tail := ih (forall_mem_cons.mp keeps).2
      (by rw [applyValidatedEvent_lastSeq]; omega) rest
    rw [tail, changed_iff (keeps event (by simp)) later]
    simp only [touched, Bool.or_eq_true, decide_eq_true_eq]
    rw [or_left_comm, or_assoc]

variable (bounded : StampsBounded model)

include bounded

private theorem touched_iff
    (run : reduceAll events model = .ok final) (found : final.modelContext.messages[i]? = some x) :
    touched events model i = decide (model.stats.lastSeq < x.updatedSeq) := by
  have stamps := laterStamp_iff (i := i) keeps (Nat.le_refl _) run
  -- at the snapshot itself nothing is stamped later
  have fresh : ¬ ∃ y, model.modelContext.messages[i]? = some y ∧
      model.stats.lastSeq < y.updatedSeq := by
    rintro ⟨y, old, ahead⟩
    have := bounded y (mem_of_getElem? old)
    omega
  simp only [found, Option.some.injEq, exists_eq_left', fresh, or_false] at stamps
  exact Bool.eq_iff_iff.mpr (by rw [decide_eq_true_iff]; exact stamps.symm)

theorem touchedMessages_eq (run : reduceAll events model = .ok final) :
    touchedMessages events model final =
      final.modelContext.messages.filter fun m => model.stats.lastSeq < m.updatedSeq :=
  zipIdx_filter_eq _ _ _ fun _ _ found => touched_iff keeps bounded run found

theorem untouchedMessages_eq (run : reduceAll events model = .ok final) :
    untouchedMessages events model final =
      final.modelContext.messages.filter fun m => m.updatedSeq ≤ model.stats.lastSeq := by
  refine zipIdx_filter_eq _ (fun i => !touched events model i) _ fun i x found => ?_
  rw [touched_iff keeps bounded run found, ← decide_not]
  simp

end

/-! ### No concurrent update is lost -/

/-- The hash tells the two prefixes apart if they differ. -/
def CollisionFree (prompt : String) (messages : List LlmMessage) (prompt' : String)
    (messages' : List LlmMessage) : Prop :=
  transcriptPrefixFingerprint prompt messages = transcriptPrefixFingerprint prompt' messages' →
    fingerprintParts prompt messages = fingerprintParts prompt' messages'

/-- A rewrite that names the snapshot of `model`, as `persistCompaction` builds it, and is
accepted after further events replaces exactly what the snapshot shows and keeps, in order,
every message those events created or merged content into. -/
theorem rewrite_keeps_concurrent_updates {model final rewritten : SessionReadModel}
    {events : List StoredEvent} {event : StoredEvent} {entries : List TranscriptMessage}
    {reason : TranscriptRewriteReason} (reachable : ReplayReachable model)
    (keeps : ∀ other ∈ events, KeepsTranscript other) (run : reduceAll events model = .ok final)
    (built : event.event.payload = .transcriptRewritten (contextSnapshot model).sourceSeq
      (transcriptPrefixFingerprint (contextSnapshot model).systemPrompt
        (contextSnapshot model).messages) entries reason)
    (accepted : reduce event final = .ok rewritten)
    (distinct : CollisionFree final.systemPrompt.text
      (rewritePrefix final.modelContext.messages model.stats.lastSeq)
      (contextSnapshot model).systemPrompt (contextSnapshot model).messages) :
    rewritten.modelContext.messages =
        entries.map (fun entry => ⟨entry.message, model.stats.lastSeq, entry.origin⟩) ++
          touchedMessages events model final ∧
      providerTranscript ((untouchedMessages events model final).map (·.message)) =
        (contextSnapshot model).messages ∧
      rewritten.systemPrompt.text = (contextSnapshot model).systemPrompt := by
  have bounded := reachable.stampsBounded
  obtain ⟨-, matching, rfl⟩ := reduce_ok_iff.mp accepted
  rw [(contextSnapshot_fields model).1] at built
  -- the reducer accepted, so the fingerprints agree; without a collision the prefixes do
  have same := distinct (matching _ _ _ _ built)
  obtain ⟨prompt, messages⟩ := fingerprintParts_inj same
  refine ⟨?_, ?_, ?_⟩
  · rw [touchedMessages_eq keeps bounded run]
    simp [ModelContext.applyEvent, built, applyTranscriptRewrite]
  · rw [untouchedMessages_eq keeps bounded run]
    exact messages
  · rw [← prompt]
    simp [ModelContext.systemPromptAfter, applyProviderPrompt, built]

/-! A tool call after the snapshot joins the assistant message of an open round: the message
moves across the cut and survives with both calls. -/

def snapshotPayloads : List DurableEventPayload :=
  [.userMessage "m1" "hello" [] none, .toolCallRequested "call-1" "shell" .null none]

def concurrentPayloads : List DurableEventPayload :=
  [.toolCallRequested "call-2" "shell" .null none, .userMessage "m2" "more" [] none]

def concurrentEvents : List StoredEvent := numberFrom 3 (concurrentPayloads.map sampleEvent)

def sampleCompaction : CompactResult :=
  ⟨10, 5, "summary", 1, [.user "summary"], [], none⟩

def sampleRewrite (seq : Nat) : StoredEvent :=
  ⟨seq, sampleEvent (transcriptRewrittenPayload sampleCompaction [] 2
    (transcriptPrefixFingerprint "system" [.user "hello"]) (.manual none))⟩

theorem rewrite_keeps_joined_call :
    (applyValidatedEvent (sampleRewrite 5)
        (sampleRun (snapshotPayloads ++ concurrentPayloads))).modelContext.messages =
      ⟨.user "summary", 2, none⟩ ::
        touchedMessages concurrentEvents (sampleRun snapshotPayloads)
          (sampleRun (snapshotPayloads ++ concurrentPayloads)) ∧
    touchedMessages concurrentEvents (sampleRun snapshotPayloads)
        (sampleRun (snapshotPayloads ++ concurrentPayloads)) =
      [⟨⟨.assistant, [.toolCall "call-1" "shell" .null none, .toolCall "call-2" "shell" .null none],
          none, none⟩, 3, none⟩, ⟨.user "more", 4, none⟩] := by
  have run : reduceAll concurrentEvents (sampleRun snapshotPayloads) =
      .ok (sampleRun (snapshotPayloads ++ concurrentPayloads)) := by
    decide +kernel
  have accepted : reduce (sampleRewrite 5) (sampleRun (snapshotPayloads ++ concurrentPayloads)) =
      .ok (applyValidatedEvent (sampleRewrite 5)
        (sampleRun (snapshotPayloads ++ concurrentPayloads))) := by
    decide +kernel
  have built : (sampleRewrite 5).event.payload =
      .transcriptRewritten (contextSnapshot (sampleRun snapshotPayloads)).sourceSeq
        (transcriptPrefixFingerprint (contextSnapshot (sampleRun snapshotPayloads)).systemPrompt
          (contextSnapshot (sampleRun snapshotPayloads)).messages) [.plain (.user "summary")]
        (.compaction ⟨"manual_command", 10, 5, "summary", none, .manual none⟩) := by
    decide +kernel
  have result := rewrite_keeps_concurrent_updates (sampleRun_reachable (by decide +kernel))
    (by decide +kernel) run built accepted (fun _ => by decide +kernel)
  exact ⟨result.1, by decide +kernel⟩

/-! ### Writer and reducer agree -/

/-- The event leaves the prompt, the transcript and every message stamped up to `s` alone. -/
structure Undisturbed (s : Nat) (event : StoredEvent) (model : SessionReadModel) : Prop where
  keeps : KeepsTranscript event
  prompt : (applyValidatedEvent event model).systemPrompt.text = model.systemPrompt.text
  old : ∀ (i : Nat) (x : SequencedLlmMessage), model.modelContext.messages[i]? = some x → x.updatedSeq ≤ s →
    (applyValidatedEvent event model).modelContext.messages[i]? = some x

/-- A run of accepted events none of which disturbs what was there at `s`. -/
inductive UndisturbedRun (s : Nat) :
    SessionReadModel → List StoredEvent → SessionReadModel → Prop where
  | nil (model : SessionReadModel) : UndisturbedRun s model [] model
  | cons {event : StoredEvent} {events : List StoredEvent} {model mid final : SessionReadModel}
      (accepted : reduce event model = .ok mid) (undisturbed : Undisturbed s event model)
      (rest : UndisturbedRun s mid events final) : UndisturbedRun s model (event :: events) final

private theorem undisturbed_filter (undisturbed : Undisturbed s event model)
    (later : s < event.seq) :
    (applyValidatedEvent event model).modelContext.messages.filter (·.updatedSeq ≤ s) =
      model.modelContext.messages.filter (·.updatedSeq ≤ s) := by
  have edit := applyProviderMessages_edit undisturbed.keeps model.modelContext.messages
  have old := undisturbed.old
  change ∀ i x, _ → _ → (applyProviderMessages event _)[i]? = some x at old
  change (applyProviderMessages event _).filter _ = _
  generalize applyProviderMessages event model.modelContext.messages = after at edit old ⊢
  generalize model.modelContext.messages = before at edit old ⊢
  cases edit with
  | keep => rfl
  | push messages stamped => simp [filter_append, stamped, later]
  | join init stamped changed =>
    rename_i last joined
    -- the joined message was stamped after the cut already, or it would have been disturbed
    have late : ¬ last.updatedSeq ≤ s := by
      intro early
      have same := old init.length last (by simp) early
      simp only [getElem?_concat_length, Option.some.injEq] at same
      exact changed (congrArg (·.message) same)
    simp [filter_append, stamped, later, late]

/-- What survives an undisturbed run: all that the fingerprint of the cut depends on. -/
private structure SameCut (s : Nat) (model final : SessionReadModel) : Prop where
  session : final.identity.sessionId = model.identity.sessionId
  behind : s ≤ final.stats.lastSeq
  prompt : final.systemPrompt.text = model.systemPrompt.text
  messages : final.modelContext.messages.filter (·.updatedSeq ≤ s) =
    model.modelContext.messages.filter (·.updatedSeq ≤ s)

private theorem undisturbedRun_sameCut (run : UndisturbedRun s model events final)
    (behind : s ≤ model.stats.lastSeq) : SameCut s model final := by
  induction run with
  | nil model => exact ⟨rfl, behind, rfl, rfl⟩
  | cons accepted undisturbed rest ih =>
    obtain ⟨next, -, rfl⟩ := reduce_ok_iff.mp accepted
    have contiguous := next.contiguous
    have cut := ih (by rw [applyValidatedEvent_lastSeq]; omega)
    exact {
      session := cut.session.trans (applyValidatedEvent_sessionId ..)
      behind := cut.behind
      prompt := cut.prompt.trans undisturbed.prompt
      messages := cut.messages.trans (undisturbed_filter undisturbed (by omega)) }

/-- The reducer recomputes the writer's fingerprint. -/
private theorem rewritePrefix_eq (bounded : StampsBounded model) :
    rewritePrefix model.modelContext.messages model.stats.lastSeq =
      (contextSnapshot model).messages := by
  have all : model.modelContext.messages.filter (fun m => m.updatedSeq ≤ model.stats.lastSeq) =
      model.modelContext.messages := by
    apply filter_eq_self.mpr
    intro m member
    exact decide_eq_true (bounded m member)
  rw [rewritePrefix, all, (contextSnapshot_fields model).2.2, providerTranscript_message,
    map_map]
  rfl

/-- What `persistCompaction` builds from a snapshot is accepted as the next event of every
state an undisturbed run leads to, the state of the snapshot itself included. -/
theorem persisted_rewrite_accepted {model final : SessionReadModel} {events : List StoredEvent}
    {compaction : CompactResult} {strategy : CompactStrategy} {payload : DurableEventPayload}
    (reachable : ReplayReachable model)
    (built : persistCompaction compaction (contextSnapshot model) strategy = .ok payload)
    (run : UndisturbedRun model.stats.lastSeq model events final)
    (room : final.stats.lastSeq + 1 < u64Limit) (id : EventId) (turnId : Option TurnId)
    (timestamp : Timestamp) :
    ∃ rewritten, reduce ⟨final.stats.lastSeq + 1, id, model.identity.sessionId, turnId, timestamp,
      payload⟩ final = .ok rewritten := by
  obtain ⟨entries, reason, rfl⟩ := persistCompaction_ok built
  obtain ⟨source, prompt, -⟩ := contextSnapshot_fields model
  have cut := undisturbedRun_sameCut run (Nat.le_refl _)
  refine ⟨_, reduce_ok_iff.mpr ⟨?_, ?_, rfl⟩⟩
  -- the source lies in the past, and its prefix hashes as it did for the writer
  · refine ⟨cut.session.symm, rfl, rfl, ?_, room, rfl⟩
    intro sourceSeq named
    cases named
    rw [source]
    exact cut.behind
  · intro sourceSeq expected _ _ same
    cases same
    have messages := rewritePrefix_eq reachable.stampsBounded
    rw [rewritePrefix] at messages
    rw [source, prompt, cut.prompt, rewritePrefix, cut.messages, messages]

/-- The result of the open call arrives after the snapshot; the rewrite is still accepted. -/
def lateResult : StoredEvent :=
  ⟨3, sampleEvent (.toolCallCompleted "call-1" "shell" ⟨"done", false, none, [], none⟩ "" none)⟩

theorem persisted_rewrite_accepted_after_result :
    ∃ rewritten, reduce ⟨4, "rewrite", "session", none, ⟨0⟩, (sampleRewrite 4).event.payload⟩
      (applyValidatedEvent lateResult (sampleRun snapshotPayloads)) = .ok rewritten := by
  have built : persistCompaction sampleCompaction (contextSnapshot (sampleRun snapshotPayloads))
      (.manual none) = .ok (sampleRewrite 4).event.payload := by
    decide +kernel
  have undisturbed : Undisturbed 2 lateResult (sampleRun snapshotPayloads) := by
    refine ⟨by decide, rfl, ?_⟩
    intro i x found _
    exact (List.getElem?_append_left (List.getElem?_eq_some_iff.mp found).1).trans found
  have run : UndisturbedRun 2 (sampleRun snapshotPayloads) [lateResult]
      (applyValidatedEvent lateResult (sampleRun snapshotPayloads)) :=
    .cons (by decide +kernel) undisturbed (.nil _)
  exact persisted_rewrite_accepted (sampleRun_reachable (by decide +kernel)) built run (by decide)
    "rewrite" none ⟨0⟩

end Astrcode
