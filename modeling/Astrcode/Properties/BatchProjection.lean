import Astrcode.Projection.Reachable

/-!
# Batches refine the one-by-one reducer

`prepare` never touches the read model. It follows the two parts of it a rewrite is
validated against, and only when the batch holds a rewrite. That is enough: along
any batch the followed state agrees with the model the reducer would have built, so
both accept and refuse at the same event, with the same error.
-/
namespace Astrcode

variable {events : List DurableEvent}

open PreparedProjectionBatch

/-! ### Numbering -/

theorem numberBatch_eq (firstSeq : Nat) (events : List DurableEvent) (index : Nat)
    (room : firstSeq + index + events.length ≤ u64Limit) :
    numberBatch firstSeq index events = .ok (numberFrom (firstSeq + index) events) := by
  induction events generalizing index with
  | nil => rfl
  | cons event events ih =>
    simp only [List.length_cons] at room
    have rest := ih (index + 1) (by omega)
    simp only [numberBatch, checkedAdd_of_lt (show firstSeq + index < u64Limit by omega), rest]
    rfl

/-! ### The followed context -/

/-- What `prepare` keeps of a model. -/
def SessionReadModel.validationState (model : SessionReadModel) : ModelContextValidationState :=
  ⟨model.systemPrompt.text, model.modelContext.messages⟩

variable (event : StoredEvent) (model : SessionReadModel)

/-- Applying an event commutes with forgetting the rest of the model. -/
theorem validationState_applyValidatedEvent :
    (applyValidatedEvent event model).validationState =
      applyProviderEvent event model.validationState := by
  simp only [SessionReadModel.validationState, applyValidatedEvent, applyProviderEvent,
    ModelContext.applyEvent, ModelContext.systemPromptAfter]
  split <;> rfl

private theorem validateAndApply_eq :
    model.validationState.validateAndApply event =
      (validateRewriteFingerprintAgainst event.event model.systemPrompt.text
        model.modelContext.messages).map
        fun _ => (applyValidatedEvent event model).validationState := by
  rw [validationState_applyValidatedEvent]
  simp only [ModelContextValidationState.validateAndApply, SessionReadModel.validationState]
  cases validateRewriteFingerprintAgainst event.event model.systemPrompt.text
    model.modelContext.messages <;> rfl

private theorem noRewrite_ok {event : StoredEvent} (none : event.event.payload.rewriteSource? = none)
    (systemPrompt : String) (messages : List SequencedLlmMessage) :
    validateRewriteFingerprintAgainst event.event systemPrompt messages = .ok () := by
  apply validateRewriteFingerprintAgainst_ok_iff.mpr
  intro sourceSeq expected rewritten reason rewrites
  simp [rewrites] at none

private theorem reduce_eq :
    reduce event model =
      (validateNextEventDetails event.seq event.event model.identity.sessionId
        model.stats.lastSeq).bind fun _ =>
      (validateRewriteFingerprintAgainst event.event model.systemPrompt.text
        model.modelContext.messages).map fun _ => applyValidatedEvent event model := by
  simp only [reduce, validateNextEvent]
  cases validateNextEventDetails event.seq event.event model.identity.sessionId
    model.stats.lastSeq <;>
    cases validateRewriteFingerprintAgainst event.event model.systemPrompt.text
      model.modelContext.messages <;> rfl

/-- Following the context of a model, the batch loop runs like the reducer on that model. -/
private theorem validateBatch_follows (events : List StoredEvent) (model : SessionReadModel) :
    validateBatch model.identity.sessionId model.stats.lastSeq (some model.validationState) events =
      (reduceAll events model).map fun _ => () := by
  induction events generalizing model with
  | nil => rfl
  | cons event events ih =>
    have rest := ih (applyValidatedEvent event model)
    rw [applyValidatedEvent_sessionId, applyValidatedEvent_lastSeq] at rest
    simp only [validateBatch, validateAndApply_eq, reduceAll, Library.runAll, reduce_eq]
    -- both sides make the same two checks in the same order and stop at the same error
    cases validateNextEventDetails event.seq event.event model.identity.sessionId
      model.stats.lastSeq with
    | error e => rfl
    | ok _ =>
      cases validateRewriteFingerprintAgainst event.event model.systemPrompt.text
        model.modelContext.messages with
      | error e => rfl
      | ok _ => exact rest

private theorem validateBatch_skips (events : List StoredEvent) (model : SessionReadModel)
    (plain : ∀ event ∈ events, event.event.payload.rewriteSource? = none) :
    validateBatch model.identity.sessionId model.stats.lastSeq none events =
      (reduceAll events model).map fun _ => () := by
  induction events generalizing model with
  | nil => rfl
  | cons event events ih =>
    -- without a rewrite the fingerprint check passes whatever the context
    have rest := ih (applyValidatedEvent event model) (List.forall_mem_cons.mp plain).2
    rw [applyValidatedEvent_sessionId, applyValidatedEvent_lastSeq] at rest
    simp only [validateBatch, reduceAll, Library.runAll, reduce_eq, noRewrite_ok (plain event (by simp))]
    cases validateNextEventDetails event.seq event.event model.identity.sessionId
      model.stats.lastSeq with
    | error e => rfl
    | ok _ => exact rest

/-! ### Batches -/

/-- Preparing a batch succeeds exactly when the reducer accepts its events one by one, and
fails with the same error. -/
theorem prepare_eq (events : List DurableEvent) (nonempty : events ≠ [])
    (room : model.stats.lastSeq + events.length < u64Limit) :
    prepare model events =
      (reduceAll (numberFrom (model.stats.lastSeq + 1) events) model).map fun _ =>
        ⟨model.stats.lastSeq + 1, numberFrom (model.stats.lastSeq + 1) events⟩ := by
  have short : 0 < events.length := List.length_pos_iff.mpr nonempty
  have numbered := numberBatch_eq (model.stats.lastSeq + 1) events 0 (by omega)
  simp only [prepare, List.isEmpty_iff, nonempty, if_false,
    checkedAdd_of_lt (show model.stats.lastSeq + 1 < u64Limit by omega), numbered]
  generalize numberFrom (model.stats.lastSeq + 1 + 0) events = stored
  simp only [bind, Except.bind, pure, Except.pure]
  have validated : validateBatch model.identity.sessionId model.stats.lastSeq
      (if stored.any (·.event.payload.rewriteSource?.isSome) then some model.validationState
        else none) stored = (reduceAll stored model).map fun _ => () := by
    -- the context is followed only if some event needs it
    by_cases rewrites : stored.any (·.event.payload.rewriteSource?.isSome)
    · rw [if_pos rewrites]
      exact validateBatch_follows stored model
    · rw [if_neg rewrites]
      refine validateBatch_skips stored model ?_
      simpa using rewrites
  simp only [SessionReadModel.validationState] at validated
  rw [validated]
  cases reduceAll stored model <;> rfl

private theorem numberBatch_room {firstSeq index : Nat}
    {stored : List StoredEvent} (numbered : numberBatch firstSeq index events = .ok stored)
    (nonempty : events ≠ []) : firstSeq + index + events.length ≤ u64Limit := by
  induction events generalizing index stored with
  | nil => contradiction
  | cons event events ih =>
    simp only [numberBatch] at numbered
    split at numbered
    · cases numbered
    · next seq fits =>
      obtain ⟨room, -⟩ := checkedAdd_eq_some.mp fits
      obtain ⟨rest, later, -⟩ := Library.bind_ok_iff.mp numbered
      -- the last number of the batch is the one that must fit
      by_cases last : events = []
      · simp only [last, List.length_singleton]
        omega
      · have := ih later last
        simp only [List.length_cons]
        omega

/-- A prepared batch holds the events under the next sequence numbers, all of them below the
limit, and the reducer accepts them. -/
theorem prepare_ok {model : SessionReadModel} {batch : PreparedProjectionBatch}
    (prepared : prepare model events = .ok batch) :
    events ≠ [] ∧ batch.firstSeq = model.stats.lastSeq + 1 ∧
      batch.events = numberFrom (model.stats.lastSeq + 1) events ∧
      reduceAll batch.events model = .ok (batch.applyToModel model) := by
  have unfolded := prepared
  rw [prepare] at unfolded
  split at unfolded
  · cases unfolded
  · next nonempty =>
    have nonempty : events ≠ [] := by simpa using nonempty
    split at unfolded
    · cases unfolded
    · next firstSeq fits =>
      obtain ⟨-, rfl⟩ := checkedAdd_eq_some.mp fits
      obtain ⟨stored, numbered, -⟩ := Library.bind_ok_iff.mp unfolded
      have room := numberBatch_room numbered nonempty
      rw [prepare_eq model events nonempty (by omega)] at prepared
      cases run : reduceAll (numberFrom (model.stats.lastSeq + 1) events) model with
      | error e =>
        rw [run] at prepared
        cases prepared
      | ok after =>
        rw [run] at prepared
        cases prepared
        refine ⟨nonempty, rfl, rfl, ?_⟩
        rw [run, reduceAll_eq_foldl run]
        rfl

/-- A batch is accepted exactly when its events are accepted one by one under the next
sequence numbers, and then applying it yields the model of that fold. A refused batch
leaves the model as it was. -/
theorem prepare_refines_reduce (model : SessionReadModel) (events : List DurableEvent)
    (nonempty : events ≠ []) (room : model.stats.lastSeq + events.length < u64Limit) :
    ((∃ batch, prepare model events = .ok batch) ↔
      ∃ after, reduceAll (numberFrom (model.stats.lastSeq + 1) events) model = .ok after) ∧
    (∀ batch, prepare model events = .ok batch →
      reduceAll (numberFrom (model.stats.lastSeq + 1) events) model =
          .ok (batch.applyToModel model) ∧
        projectBatch events model = (.ok (), batch.applyToModel model)) ∧
    (∀ e, prepare model events = .error e →
      projectBatch events model = (.error e, model)) := by
  have prepared := prepare_eq model events nonempty room
  refine ⟨?_, ?_, ?_⟩
  · rw [prepared]
    cases reduceAll (numberFrom (model.stats.lastSeq + 1) events) model <;> simp [Except.map]
  · intro batch accepted
    obtain ⟨-, -, stored, run⟩ := prepare_ok accepted
    rw [← stored]
    exact ⟨run, by simp only [projectBatch, accepted]⟩
  · intro e refused
    simp [projectBatch, refused]

/-! A batch with two rewrites: the first is validated against the message and the prompt
the batch itself brings in, the second against the transcript the first one leaves. -/

def exampleCompaction : TranscriptRewriteReason :=
  .compaction ⟨"manual_command", 10, 5, "summary", none, .manual none⟩

def exampleBatch : List DurableEvent :=
  [sampleEvent (.userMessage "m1" "hello" [] none),
    sampleEvent (.systemPromptConfigured "changed" "" none .native),
    sampleEvent (.transcriptRewritten 1 (transcriptPrefixFingerprint "changed" [.user "hello"])
      [.plain (.user "summary")] exampleCompaction),
    sampleEvent (.toolCallRequested "call-1" "shell" .null none),
    sampleEvent (.transcriptRewritten 2 (transcriptPrefixFingerprint "changed" [.user "summary"])
      [.plain (.user "shorter")] exampleCompaction)]

theorem prepare_refines_reduce_rewrites :
    (∃ batch, prepare sampleModel exampleBatch = .ok batch) ∧
      ∃ after, reduceAll (numberFrom 1 exampleBatch) sampleModel = .ok after := by
  have accepted : ∃ batch, prepare sampleModel exampleBatch = .ok batch :=
    Library.exists_of_isOk (by decide +kernel)
  have refines := prepare_refines_reduce sampleModel exampleBatch (by decide) (by decide)
  exact ⟨accepted, refines.1.mp accepted⟩

end Astrcode
