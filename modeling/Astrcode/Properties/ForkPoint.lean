import Astrcode.Library.Prefixes
import Astrcode.Server.Fork

/-!
# What a fork starts with

A fork copies the transcript and the first user message the source had at the fork point, and
it always succeeds for an accepted log and a readable cursor. The system prompt is that of the
source as it is now. So a fork at an earlier cursor is the source at that cursor as long as the
prompt in force there is the one in force at the head.
-/
namespace Astrcode

variable {events : List StoredEvent} {model model' : SessionReadModel} {sessionId : SessionId}

open Library List

/-! ### The log up to a sequence number -/

theorem reduceAll_seq (run : reduceAll events model = .ok model') :
    ∀ event ∈ events, model.stats.lastSeq < event.seq ∧ event.seq ≤ model'.stats.lastSeq := by
  intro event member
  have listed : event.seq ∈ events.map (·.seq) := mem_map_of_mem member
  have total := reduceAll_lastSeq run
  rw [reduceAll_numbers run, mem_range'_1] at listed
  omega

/-- Cutting an accepted run at a sequence number leaves an accepted run. -/
theorem reduceAll_cut (cut : Nat) (run : reduceAll events model = .ok model') :
    ∃ truncated, reduceAll (events.filter (·.seq ≤ cut)) model = .ok truncated := by
  have sorted : events.Pairwise (·.seq < ·.seq) := by
    apply pairwise_map.mp
    rw [reduceAll_numbers run]
    exact pairwise_lt_range'
  -- the events up to the cut come first
  have split := filter_append_filter_not (p := (·.seq ≤ cut)) (sorted.imp fun less below => by
    simp only [decide_eq_true_eq] at below ⊢
    omega)
  rw [← split] at run
  obtain ⟨truncated, shorter, -⟩ := runAll_append.mp run
  exact ⟨truncated, shorter⟩

section

variable (accepted : replay sessionId events = .ok model)

include accepted

theorem replay_cut (cut : Nat) :
    ∃ truncated, replay sessionId (events.filter (·.seq ≤ cut)) = .ok truncated := by
  obtain ⟨first, rest, started, rfl, same, valid, run⟩ := replay_ok_iff.mp accepted
  obtain ⟨truncated, shorter⟩ := reduceAll_cut cut run
  obtain ⟨zero, -⟩ := validateFirstEvent_ok valid
  rw [filter_cons_of_pos (by simp [zero])]
  exact ⟨truncated, replay_ok_iff.mpr ⟨first, _, started, rfl, same, valid, shorter⟩⟩

/-- Nothing is cut off at the head. -/
theorem filter_lastSeq : events.filter (·.seq ≤ model.stats.lastSeq) = events := by
  obtain ⟨first, rest, started, rfl, -, valid, run⟩ := replay_ok_iff.mp accepted
  obtain ⟨zero, -⟩ := validateFirstEvent_ok valid
  refine filter_eq_self.mpr (forall_mem_cons.mpr ⟨by simp [zero], fun event member => ?_⟩)
  simpa using (reduceAll_seq run event member).2

/-! ### The prompt in force -/

/-- The prompt text an event sets. -/
def StoredEvent.promptText? (event : StoredEvent) : Option String :=
  match event.event.payload with
  | .sessionStarted started => some started.initialSystemPrompt.text
  | .systemPromptConfigured text _ _ _ => some text
  | _ => none

/-- The prompt text that was set last. -/
def lastPromptText (events : List StoredEvent) : Option String :=
  (events.filterMap StoredEvent.promptText?).getLast?

omit accepted in
theorem applyValidatedEvent_promptText {event : StoredEvent}
    (notStarted : event.event.payload.isSessionStarted = false) :
    (applyValidatedEvent event model).systemPrompt.text =
      event.promptText?.getD model.systemPrompt.text := by
  simp only [applyValidatedEvent, ModelContext.systemPromptAfter, applyProviderPrompt,
    StoredEvent.promptText?]
  cases payload : event.event.payload with
  | sessionStarted started =>
    rw [payload] at notStarted
    cases notStarted
  | _ => rfl

omit accepted in
theorem reduceAll_promptText (run : reduceAll events model = .ok model') :
    model'.systemPrompt.text = (lastPromptText events).getD model.systemPrompt.text := by
  induction events generalizing model with
  | nil =>
    rw [runAll_nil.mp run]
    rfl
  | cons first rest ih =>
    obtain ⟨middle, reduced, run⟩ := runAll_cons.mp run
    obtain ⟨next, -, rfl⟩ := reduce_ok_iff.mp reduced
    rw [ih run, applyValidatedEvent_promptText next.notStarted, lastPromptText, lastPromptText,
      filterMap_cons]
    cases first.promptText? with
    | none => rfl
    | some text => simp [getLast?_cons]

/-- The prompt of a replayed model is the one the log set last. -/
theorem replay_promptText : lastPromptText events = some model.systemPrompt.text := by
  obtain ⟨first, rest, started, rfl, -, valid, run⟩ := replay_ok_iff.mp accepted
  obtain ⟨-, starts⟩ := validateFirstEvent_ok valid
  have sets : first.promptText? = some started.initialSystemPrompt.text := by
    simp [StoredEvent.promptText?, starts]
  rw [reduceAll_promptText run, lastPromptText, filterMap_cons, sets]
  exact getLast?_cons

end

/-! ### The fork -/

/-- The messages with their origins, as a fork copies them. -/
def SessionReadModel.transcript (model : SessionReadModel) : List TranscriptMessage :=
  model.modelContext.messages.map fun entry => ⟨entry.message, entry.origin⟩

/-- One session starts as the other one is: the same request prefix and the same name. -/
structure SessionReadModel.StartsAs (fork source : SessionReadModel) : Prop where
  transcript : fork.transcript = source.transcript
  prompt : fork.systemPrompt.text = source.systemPrompt.text
  firstUserMessage : fork.presentation.firstUserMessage = source.presentation.firstUserMessage

/-- The sequence number a fork is cut at: that of its cursor, or the last one of the source. -/
def ForkRequest.cut? (request : ForkRequest) (source : SessionReadModel) : Option Nat :=
  match request.atCursor with
  | some cursor => parseUsize cursor.toList
  | none => some source.stats.lastSeq

namespace SessionRepository

variable {repository : SessionRepository} {request : ForkRequest} {source : SessionReadModel}
  {events : List StoredEvent}

/-- The fork point is the source replayed up to the cut. -/
theorem forkPoint_eq {cut : Nat} (logged : repository.replayEvents request.sourceId = .ok events)
    (accepted : replay request.sourceId events = .ok source)
    (readable : request.cut? source = some cut) :
    ∃ truncated, replay request.sourceId (events.filter (·.seq ≤ cut)) = .ok truncated ∧
      repository.forkPoint source request =
        .ok (truncated.modelContext.messages, truncated.presentation.firstUserMessage) := by
  simp only [ForkRequest.cut?] at readable
  simp only [forkPoint]
  cases explicit : request.atCursor with
  | none =>
    rw [explicit] at readable
    cases readable
    exact ⟨source, by rw [filter_lastSeq accepted, accepted], rfl⟩
  | some cursor =>
    rw [explicit] at readable
    obtain ⟨truncated, shorter⟩ := replay_cut accepted cut
    refine ⟨truncated, shorter, ?_⟩
    simp [logged, readable, shorter, Except.mapError]

/-- An event the reducer accepts can be appended. -/
theorem append_of_reduce {event : DurableEvent} {model model' : SessionReadModel}
    (read : repository.sessionReadModel event.sessionId = .ok model)
    (accepted : reduce ⟨model.stats.lastSeq + 1, event⟩ model = .ok model') :
    ∃ repository', repository.append event = .ok repository' := by
  obtain ⟨next, -, -⟩ := reduce_ok_iff.mp accepted
  obtain ⟨valid, events, found, -⟩ := tableModel_ok_iff.mp read
  have logged : repository.replayEvents event.sessionId = .ok events := by
    simp [replayEvents, tableEvents, valid, found]
  have run : reduceAll (numberFrom (model.stats.lastSeq + 1) [event]) model = .ok model' :=
    runAll_cons.mpr ⟨model', accepted, runAll_nil.mpr rfl⟩
  have prepared := prepare_eq model [event] (cons_ne_nil _ _) next.room
  rw [run] at prepared
  simp only [append, logged, read, SessionMeta.prepareBatch, prepared, ok_bind]
  exact ⟨_, rfl⟩

/-- A session without a parent can be created under an id that is free. -/
theorem create_root {sessionId : SessionId} {started : SessionStarted} (stamp : Stamp)
    (valid : validateStorageSessionId sessionId = .ok ()) (fresh : sessionId ∉ repository.active)
    (root : started.parent = none) :
    ∃ created, repository.create (stamp.sessionEvent sessionId (.sessionStarted started)) =
      .ok created := by
  have placed : repository.newSessionDir started = .ok () := by rw [newSessionDir, root]
  simp [create, Stamp.sessionEvent, valid, placed, fresh]

theorem createWithParams_root {params : SessionCreateParams}
    (valid : validateStorageSessionId params.sessionId = .ok ())
    (fresh : params.sessionId ∉ repository.active) (root : params.parentSessionId = none) :
    ∃ created started, repository.createWithParams params = .ok created ∧
      created.sessionReadModel params.sessionId =
        .ok (.fromStarted params.sessionId started params.stamp.timestamp) ∧
      started.initialSystemPrompt = params.initialSystemPrompt := by
  let toolSelection := SessionToolSelection.intersect none params.toolSelection
  have selected : repository.resolveInitialToolSelection params.parentSessionId
      params.toolSelection = .ok toolSelection := by
    rw [root]
    rfl
  obtain ⟨created, persisted⟩ :
      ∃ created, repository.createPersisted { params with toolSelection } = .ok created := by
    simp only [createPersisted, mapError_ok_iff]
    exact create_root params.stamp valid fresh (by simp [root])
  have done : repository.createWithParams params = .ok created :=
    bind_ok_iff.mpr ⟨toolSelection, selected, persisted⟩
  exact ⟨created, _, done, sessionReadModel_create_self (mapError_ok persisted) rfl, rfl⟩

section

variable (sessionId : SessionId) (started : SessionStarted) (timestamp : Timestamp) (stamp : Stamp)
  (sourceId : SessionId) (cursor : Cursor) (firstUserMessage : Option String)
  (messages : List TranscriptMessage)

/-- The reducer accepts a fork event right after the start of a session. -/
theorem reduce_sessionForked :
    ∃ model', reduce ⟨1, stamp.sessionEvent sessionId
        (.sessionForked sourceId cursor firstUserMessage messages)⟩
      (.fromStarted sessionId started timestamp) = .ok model' := by
  refine ⟨_, reduce_ok_iff.mpr ⟨⟨rfl, rfl, rfl, ?_, ?_, rfl⟩, ?_, rfl⟩⟩
  · exact fun sourceSeq rewrites => nomatch rewrites
  · simp [u64Limit]
  · exact fun sourceSeq expected rewritten reason same => nomatch same

/-- What the fork event makes of a session that has just started. -/
theorem applyValidatedEvent_sessionForked (seq : Nat) :
    let fork := applyValidatedEvent ⟨seq, stamp.sessionEvent sessionId
        (.sessionForked sourceId cursor firstUserMessage messages)⟩
      (.fromStarted sessionId started timestamp)
    fork.transcript = messages ∧ fork.systemPrompt.text = started.initialSystemPrompt.text ∧
      fork.presentation.firstUserMessage = firstUserMessage := by
  refine ⟨?_, rfl, rfl⟩
  -- the origins are imported with the messages
  show (messages.map fun entry => _).map _ = messages
  rw [map_map]
  exact map_id messages

end

/-- Past the fork point a fork is a creation and one event. -/
theorem fork_eq {messages : List SequencedLlmMessage} {firstUserMessage : Option String}
    (read : repository.sessionReadModel request.sourceId = .ok source)
    (point : repository.forkPoint source request = .ok (messages, firstUserMessage)) :
    ∃ params cursor, params.sessionId = request.sessionId ∧ params.parentSessionId = none ∧
      params.initialSystemPrompt.text = source.systemPrompt.text ∧
      repository.fork request = (do
        let created ← (repository.createWithParams params).mapError .session
        (created.emitDurable (request.forkedStamp.sessionEvent request.sessionId
          (.sessionForked request.sourceId cursor firstUserMessage
            (messages.map fun entry => ⟨entry.message, entry.origin⟩)))).mapError .session) := by
  simp only [fork, read, point, Except.mapError, ok_bind]
  exact ⟨_, _, rfl, rfl, rfl, rfl⟩

/-- A fork of an accepted log succeeds. It starts as the source was at the cut exactly when the
prompt the log sets last is the one it had set last at the cut. -/
theorem fork_startsAs_iff {cut : Nat}
    (logged : repository.replayEvents request.sourceId = .ok events)
    (accepted : replay request.sourceId events = .ok source)
    (readable : request.cut? source = some cut)
    (valid : validateStorageSessionId request.sessionId = .ok ())
    (fresh : request.sessionId ∉ repository.active) :
    ∃ forked fork truncated, repository.fork request = .ok forked ∧
      forked.sessionReadModel request.sessionId = .ok fork ∧
      replay request.sourceId (events.filter (·.seq ≤ cut)) = .ok truncated ∧
      (fork.StartsAs truncated ↔
        lastPromptText events = lastPromptText (events.filter (·.seq ≤ cut))) := by
  obtain ⟨truncated, shorter, point⟩ := forkPoint_eq logged accepted readable
  have read : repository.sessionReadModel request.sourceId = .ok source := by
    rw [sessionReadModel, tableModel, ← replayEvents, logged]
    simp [accepted, Except.mapError]
  obtain ⟨params, cursor, sameId, root, prompt, steps⟩ := fork_eq read point
  rw [← sameId] at valid fresh steps ⊢
  -- the new session, then the fork event on top of it
  obtain ⟨created, started, done, first, initial⟩ := createWithParams_root valid fresh root
  obtain ⟨_, reduced⟩ := reduce_sessionForked params.sessionId started params.stamp.timestamp
    request.forkedStamp request.sourceId cursor truncated.presentation.firstUserMessage
    truncated.transcript
  obtain ⟨forked, appended⟩ := append_of_reduce first reduced
  obtain ⟨_, seq, before, after⟩ := sessionReadModel_append_self appended
  obtain rfl := Except.ok.inj (first.symm.trans before)
  have succeeds : repository.fork request = .ok forked := by
    rw [steps, bind_ok_iff]
    exact ⟨created, mapError_ok_iff.mpr done, mapError_ok_iff.mpr (mapError_ok_iff.mpr appended)⟩
  refine ⟨forked, _, truncated, succeeds, after, shorter, ?_⟩
  rw [replay_promptText accepted, replay_promptText shorter, Option.some_inj, ← prompt, ← initial]
  obtain ⟨sameTranscript, samePrompt, sameFirst⟩ := applyValidatedEvent_sessionForked
    params.sessionId started params.stamp.timestamp request.forkedStamp request.sourceId cursor
    truncated.presentation.firstUserMessage truncated.transcript seq
  constructor
  · exact fun starts => samePrompt.symm.trans starts.prompt
  · exact fun same => ⟨sameTranscript, samePrompt.trans same, sameFirst⟩

end SessionRepository

/-! ### A prompt that changed -/

/-- A session that receives a message and then another prompt. -/
def repromptedLog : List StoredEvent :=
  ⟨0, sampleEvent (.sessionStarted sampleStarted)⟩ :: numberFrom 1 [
    sampleTurnEvent (.userMessage "message" "hello" [] none),
    sampleEvent (.systemPromptConfigured "replaced" "" none .native)]

def repromptedRepository : SessionRepository :=
  ⟨AList.singleton "session" repromptedLog, ∅⟩

def forkAt (atCursor : Option Cursor) : ForkRequest :=
  ⟨"session", atCursor, none, "fork", ⟨"event", ⟨0⟩⟩, ⟨"event", ⟨0⟩⟩⟩

/-- Forked where the message was received, the session has the prompt that came later. -/
theorem fork_takes_later_prompt :
    ∃ forked fork truncated, repromptedRepository.fork (forkAt (some "1")) = .ok forked ∧
      forked.sessionReadModel "fork" = .ok fork ∧
      replay "session" (repromptedLog.filter (·.seq ≤ 1)) = .ok truncated ∧
      fork.systemPrompt.text = "replaced" ∧ truncated.systemPrompt.text = "system" ∧
      ¬ fork.StartsAs truncated := by
  obtain ⟨forked, done, reads⟩ := exists_of_any (show
    (repromptedRepository.fork (forkAt (some "1"))).toOption.any (fun forked =>
      (forked.sessionReadModel "fork").toOption.any fun fork =>
        fork.systemPrompt.text = "replaced") = true by decide +kernel)
  obtain ⟨fork, read, later⟩ := exists_of_any reads
  obtain ⟨truncated, shorter, earlier⟩ := exists_of_any (show
    (replay "session" (repromptedLog.filter (·.seq ≤ 1))).toOption.any (fun truncated =>
      truncated.systemPrompt.text = "system") = true by decide +kernel)
  rw [decide_eq_true_eq] at later earlier
  refine ⟨forked, fork, truncated, done, read, shorter, later, earlier, fun starts => ?_⟩
  have same := starts.prompt
  rw [later, earlier] at same
  exact absurd same (by decide)

/-- Forked at its head, it is the same session. -/
theorem fork_at_head_startsAs :
    ∃ forked fork truncated, repromptedRepository.fork (forkAt none) = .ok forked ∧
      forked.sessionReadModel "fork" = .ok fork ∧
      replay "session" (repromptedLog.filter (·.seq ≤ 2)) = .ok truncated ∧
      fork.StartsAs truncated := by
  obtain ⟨source, accepted, last⟩ := exists_of_any (show
    (replay "session" repromptedLog).toOption.any (fun source =>
      source.stats.lastSeq = 2) = true by decide +kernel)
  rw [decide_eq_true_eq] at last
  obtain ⟨forked, fork, truncated, done, read, shorter, same⟩ :=
    @SessionRepository.fork_startsAs_iff repromptedRepository (forkAt none) source repromptedLog 2
      (by decide +kernel) accepted (congrArg some last) (by decide +kernel) (by decide +kernel)
  exact ⟨forked, fork, truncated, done, read, shorter, same.mpr (by decide +kernel)⟩

end Astrcode
