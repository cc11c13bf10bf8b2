import Astrcode.Properties.Emission
import Astrcode.Server.Settle

/-!
# Ending a turn for good

`finalize_turn` refuses to complete a turn while a tool call waits for its answer. An aborted
turn answers its calls first, any other turn does not: it ends exactly if nothing waits. The
watcher retries until the turn ends, so that the same condition decides whether it ever stops,
once its operations are not refused any more. An fsync that fails has them refused until somebody
else begins an operation on the session.
-/
namespace Astrcode

variable {payload : DurableEventPayload} {turn : Option TurnId}

open Library List SessionModelContext

/-! ### Answering the calls -/

def interruptedMessage (outcome : InterruptedToolOutcome) (call : UnansweredToolCall) : LlmMessage :=
  match outcome with
  | .failed => .tool call.toolName call.callId "tool execution interrupted before completion" true
  | .cancelled => .tool call.toolName call.callId ("Tool cancelled: " ++ "turn aborted") true

variable (outcome : InterruptedToolOutcome)

private theorem interruptedMessage_role (call : UnansweredToolCall) :
    (interruptedMessage outcome call).role = .tool := by
  cases outcome <;> rfl

private theorem interruptedMessage_results (call : UnansweredToolCall) :
    (interruptedMessage outcome call).toolResultIds = [call.callId] := by
  cases outcome <;> rfl

theorem foldl_removeCall_pending (calls : List UnansweredToolCall)
    (execution : SessionExecutionState) :
    (calls.foldl (fun execution call => Execution.removeCall call.callId execution)
      execution).pendingToolCalls =
        execution.pendingToolCalls.filter fun id => id ∉ calls.map (·.callId) := by
  induction calls generalizing execution with
  | nil => simp
  | cons call calls ih =>
    rw [foldl_cons, ih]
    simp only [Execution.removeCall, filter_filter, map_cons, mem_cons, not_or]
    refine filter_congr fun id _ => ?_
    simp [Bool.and_comm]

section Answered

variable {calls : List UnansweredToolCall} {added : List SequencedLlmMessage}
  {session session' : Session} {turnId : Option TurnId} {outcome : InterruptedToolOutcome}

theorem answers_messages (appends : Appends (answers turnId outcome calls) session session') :
    ∃ added, session'.model.modelContext.messages = session.model.modelContext.messages ++ added ∧
      added.map (·.message) = calls.map (interruptedMessage outcome) := by
  refine appends.messages ?_
  intro call event same messages
  obtain ⟨-, payload⟩ := Prod.mk.inj same
  cases outcome <;>
    simp [applyToolTerminal, payload, interruptedMessage]

private theorem answers_others
    (texts : added.map (·.message) = calls.map (interruptedMessage outcome)) :
    ∀ m ∈ added, m.message.role = .tool := by
  intro m member
  have among : m.message ∈ calls.map (interruptedMessage outcome) :=
    texts ▸ mem_map_of_mem member
  obtain ⟨call, -, same⟩ := mem_map.mp among
  rw [← same, interruptedMessage_role]

private theorem answers_results
    (texts : added.map (·.message) = calls.map (interruptedMessage outcome)) :
    added.flatMap (·.message.toolResultIds) = calls.map (·.callId) := by
  have through : added.flatMap (·.message.toolResultIds) =
      (added.map (·.message)).flatMap LlmMessage.toolResultIds := by
    rw [flatMap_map]
  rw [through, texts, flatMap_map]
  simp only [interruptedMessage_results]
  exact flatMap_pure_eq_map _ _

private theorem tail_answered {context after : SessionModelContext} {ids : List String}
    (messages : after.messages = context.messages ++ added)
    (tools : ∀ m ∈ added, m.message.role = .tool)
    (results : added.flatMap (·.message.toolResultIds) = ids) :
    after.tailUnansweredToolCalls =
      context.tailUnansweredToolCalls.filter (·.callId ∉ ids) := by
  have plain : ∀ m ∈ added, m.message.hasToolCalls = false := by
    intro m member
    simp [LlmMessage.hasToolCalls, tools m member]
  have nothingElse : added.any (·.message.role ≠ .tool) = false := by
    simpa using tools
  rw [tailUnansweredToolCalls, tailUnansweredToolCalls, messages,
    lastToolCallMessage_append _ plain]
  cases lastToolCallMessage context.messages with
  | none => rfl
  | some found =>
    -- a round that was closed stays closed; an open one gets the answers behind it
    simp only [Option.map_some, any_append, nothingElse, Bool.or_false]
    split
    · rfl
    · rw [← firstOfEach_filter _ fun _ _ => Iff.rfl, filter_filter]
      simp [flatMap_append, results, Bool.and_comm]

/-- What is left to answer. -/
theorem answers_left (appends : Appends (answers turnId outcome calls) session session') :
    session'.model.toolCallsNeedingInterruption =
      session.model.toolCallsNeedingInterruption.filter (·.callId ∉ calls.map (·.callId)) := by
  obtain ⟨added, messages, texts⟩ := answers_messages appends
  have tools := answers_others texts
  -- no answer is an assistant message, so the calls asked for are the same
  have asked : assistantToolCalls session'.model.modelContext.messages =
      assistantToolCalls session.model.modelContext.messages := by
    rw [messages]
    refine assistantToolCalls_append fun m member => ?_
    simp [tools m member]
  have requested : session'.model.modelContext.requestedToolCalls
        session'.model.execution.pendingToolCalls =
      (session.model.modelContext.requestedToolCalls session.model.execution.pendingToolCalls).filter
        (·.callId ∉ calls.map (·.callId)) := by
    rw [requestedToolCalls, requestedToolCalls, asked, answers_execution appends,
      foldl_removeCall_pending, ← firstOfEach_filter _ fun _ _ => Iff.rfl, filter_filter]
    refine congrArg (firstOfEach []) (filter_congr fun call _ => Bool.eq_iff_iff.mpr ?_)
    simp [and_comm]
  rw [SessionReadModel.toolCallsNeedingInterruption, SessionReadModel.toolCallsNeedingInterruption,
    requested, tail_answered messages tools (answers_results texts), filter_append,
    firstOfEach_filter]
  intro id other
  grind

/-- Once every call on the list is answered, none waits. -/
theorem answers_settle
    (appends : Appends (answers turnId outcome session.model.toolCallsNeedingInterruption)
      session session') : session'.model.toolCallsNeedingInterruption = [] := by
  rw [answers_left appends, filter_eq_nil_iff]
  intro call member
  simpa using ⟨call, member, rfl⟩

end Answered

/-! ### A turn that is not over yet -/

/-- The session appended the events since `start`, the given number of them completions. -/
def CompletedSince (count : Nat) (start session : Session) : Prop :=
  ∃ events, session.appended = start.appended ++ events ∧
    events.countP (·.event.payload.isTurnCompleted) = count

theorem CompletedSince.appends {count : Nat} {start session session' : Session} {e : Entry}
    (since : CompletedSince count start session) (appends : Appends [e] session session') :
    CompletedSince (count + if e.2.isTurnCompleted then 1 else 0) start session' := by
  obtain ⟨events, appended, counted⟩ := since
  obtain ⟨stored, entries, -, more⟩ := appends
  obtain ⟨event, rfl, rfl⟩ := map_eq_singleton_iff.mp entries
  refine ⟨events ++ [event], by rw [more, appended, append_assoc], ?_⟩
  rw [countP_append, counted, countP_singleton]
  rfl

/-- Nothing about the turn has changed, whatever else was recorded. -/
structure Beside (session session' : Session) : Prop where
  execution : session'.model.execution = session.model.execution
  messages : session'.model.modelContext.messages = session.model.modelContext.messages
  completions : ∀ {count start}, CompletedSince count start session →
    CompletedSince count start session'

theorem Beside.of_same {session session' : Session} (model : session'.model = session.model)
    (appended : session'.appended = session.appended) : Beside session session' :=
  ⟨by rw [model], by rw [model], fun since => by rwa [CompletedSince, appended]⟩

theorem Beside.trans {session mid session' : Session} (before : Beside session mid)
    (after : Beside mid session') : Beside session session' :=
  ⟨after.execution.trans before.execution, after.messages.trans before.messages,
    fun since => after.completions (before.completions since)⟩

theorem Beside.calls {session session' : Session} (beside : Beside session session') :
    session'.model.toolCallsNeedingInterruption = session.model.toolCallsNeedingInterruption := by
  simp only [SessionReadModel.toolCallsNeedingInterruption, requestedToolCalls,
    tailUnansweredToolCalls, beside.execution, beside.messages]

/-- The turn is as unsettled as at the `start`, which may be some failed attempts back. -/
structure Pending (turnId : TurnId) (start session : Session) : Prop where
  unsettled : session.model.execution.unsettledTurnId = some turnId
  underWay : session.model.execution.phase ≠ .idle
  asked : assistantToolCalls session.model.modelContext.messages =
    assistantToolCalls start.model.modelContext.messages
  uncompleted : CompletedSince 0 start session

/-- The events that come before the completion of a turn. -/
inductive Interim : DurableEventPayload → Prop where
  | cancelled (call : UnansweredToolCall) : Interim (interruptedPayload .cancelled call)
  | aborted : Interim .turnAbortedContext
  | error (code : Int) (message : String) (recoverable : Bool) :
      Interim (.errorOccurred code message recoverable)

theorem Interim.plain (interim : Interim payload) :
    Plain payload := by
  cases interim <;> exact ⟨rfl, rfl, rfl⟩

section Pending

variable {journal : SessionJournal} {turnId : TurnId} {start session session' : Session}
  (pending : Pending turnId start session)

include pending

private theorem Pending.interim (interim : Interim payload)
    (appends : Appends [(turn, payload)] session session') : Pending turnId start session' := by
  have since := pending.uncompleted.appends appends
  obtain ⟨event, same, model⟩ := appends_single appends
  obtain ⟨-, payloadEq⟩ := Prod.mk.inj same
  -- one case per event; each leaves the turn unsettled and asks for no further call
  cases interim with
  | cancelled call =>
    refine ⟨?_, ?_, ?_, since⟩
    · rw [model]
      simpa [Execution.applyEvent, payloadEq, Execution.removeCall]
        using pending.unsettled
    · rw [model]
      simp only [applyValidatedEvent, Execution.applyEvent, payloadEq, interruptedPayload,
        Execution.removeCall]
      split <;> simp
    · rw [← pending.asked, model]
      simp only [applyValidatedEvent, ModelContext.applyEvent, applyProviderMessages, payloadEq,
        interruptedPayload, applyToolTerminal]
      exact assistantToolCalls_append (by simp [LlmMessage.tool])
  | aborted =>
    obtain ⟨-, asked, execution, -⟩ := turnAbortedContext_closes appends
    refine ⟨?_, ?_, asked.trans pending.asked, since⟩
    · rw [execution, pending.unsettled]
    · rw [execution]
      exact pending.underWay
  | error code message recoverable =>
    refine ⟨?_, ?_, ?_, since⟩
    · rw [model]
      simpa [Execution.applyEvent, payloadEq] using pending.unsettled
    · rw [model]
      simp [Execution.applyEvent, payloadEq]
    · rw [← pending.asked, model]
      simp [ModelContext.applyEvent, payloadEq]

private theorem Pending.beside (beside : Beside session session') :
    Pending turnId start session' := by
  refine ⟨?_, ?_, ?_, beside.completions pending.uncompleted⟩
  · rw [beside.execution, pending.unsettled]
  · rw [beside.execution]
    exact pending.underWay
  · rw [beside.messages, pending.asked]

private theorem Pending.sent {entries : List Entry} (interim : ∀ e ∈ entries, Interim e.2)
    (appends : Appends entries session session') : Pending turnId start session' := by
  induction entries generalizing session with
  | nil =>
    obtain ⟨stored, none, run, appended⟩ := appends
    obtain rfl := map_eq_nil_iff.mp none
    exact pending.beside (.of_same (runAll_nil.mp run) (by rw [appended, append_nil]))
  | cons e entries ih =>
    obtain ⟨first, rest⟩ := forall_mem_cons.mp interim
    obtain ⟨mid, one, more⟩ := @Appends.split _ _ [e] entries appends
    exact ih (pending.interim first one) rest more

end Pending

/-! ### Up to the completion -/

section BeforeCompletion

variable (journal : SessionJournal) (turnId : TurnId) (finalization : TurnFinalization)
  (state : SessionReadModel)

/-- What `finalizeTurn` does before it completes the turn. -/
def beforeCompletion : SessionM Unit :=
  if finalization.aborted then do
    let _ ← emitInterruptedToolResults journal state (some turnId) .cancelled
    let hasAbortedContext := state.modelContext.messages.getLast?.any (·.origin = some .turnAborted)
    Program.when (!hasAbortedContext) (emitTurnAbortedContext journal (some turnId))
  else emitPendingError journal turnId finalization.pendingError state.execution.phase

def TurnFinalization.reason : String :=
  if finalization.aborted then turnFinishAborted else finalization.finishReason

/-- A turn that can be finalised: it answers its calls itself, or has none to answer. -/
def Finalizable (model : SessionReadModel) : Prop :=
  finalization.aborted = true ∨ model.toolCallsNeedingInterruption = []

variable {journal turnId finalization} {start session session' : Session}

theorem finalizeTurn_idle (idle : session.model.execution.phase = .idle) :
    finalizeTurn journal turnId finalization session = (.ok (), session) := by
  by_cases aborted : finalization.aborted = true
  · rw [finalizeTurn, if_pos aborted, finalizeAbortedTurn, readModel_bind, if_pos idle]
    rfl
  · rw [finalizeTurn, if_neg aborted, readModel_bind, if_pos idle]
    rfl

theorem finalizeTurn_eq (underWay : session.model.execution.phase ≠ .idle) :
    finalizeTurn journal turnId finalization session =
      (beforeCompletion journal turnId finalization session.model >>= fun _ =>
        emitTurnCompleted journal turnId finalization.reason) session := by
  unfold finalizeTurn beforeCompletion TurnFinalization.reason
  by_cases aborted : finalization.aborted = true
  · simp only [aborted, if_true]
    rw [finalizeAbortedTurn, readModel_bind, if_neg underWay, Program.bind_assoc]
  · rw [if_neg aborted, readModel_bind, if_neg underWay, if_neg aborted, if_neg aborted]

/-- What `beforeCompletion` appends. -/
def interimEntries (turnId : TurnId) (finalization : TurnFinalization) (state : SessionReadModel) :
    List Entry :=
  if finalization.aborted then
    answers (some turnId) .cancelled state.toolCallsNeedingInterruption ++
      if !state.modelContext.messages.getLast?.any (·.origin = some .turnAborted) then
        [(some turnId, .turnAbortedContext)] else []
  else match finalization.pendingError with
    | some message =>
      if decide (state.execution.phase ≠ .error) then
        [(some turnId, .errorOccurred jsonRpcInternalError message false)] else []
    | none => []

theorem interimEntries_interim :
    ∀ e ∈ interimEntries turnId finalization state, Interim e.2 := by
  intro e member
  rw [interimEntries] at member
  split at member
  · rcases mem_append.mp member with answer | context
    · obtain ⟨call, -, rfl⟩ := mem_map.mp answer
      exact .cancelled call
    · obtain rfl := mem_singleton.mp (mem_ite_nil_right.mp context).2
      exact .aborted
  · split at member
    · obtain rfl := mem_singleton.mp (mem_ite_nil_right.mp member).2
      exact .error _ _ _
    · cases member

theorem interimEntries_length_le :
    (interimEntries turnId finalization state).length ≤
      state.toolCallsNeedingInterruption.length + 1 := by
  rw [interimEntries]
  split
  · rw [length_append, answers, length_map]
    split <;> simp
  · split
    · split <;> simp
    · exact Nat.zero_le _

variable (journal turnId finalization) in
theorem beforeCompletion_sends (session : Session) :
    Sends journal (interimEntries turnId finalization state)
      (beforeCompletion journal turnId finalization state) session := by
  unfold beforeCompletion interimEntries
  split
  · exact (emitInterruptedToolResults_sends state .cancelled session).bind fun _ mid _ _ =>
      (emit_sends Interim.aborted.plain mid).when _
  · unfold emitPendingError
    cases finalization.pendingError with
    | some message => exact (emit_sends (Interim.error _ _ _).plain session).when _
    | none => exact .of_pure ()

/-- Without an abort the calls are left as they are. -/
private theorem interimEntries_calls (notAborted : finalization.aborted ≠ true)
    {sent : List Entry} (prefixed : sent ⊆ interimEntries turnId finalization start.model)
    (appends : Appends sent session session') :
    session'.model.toolCallsNeedingInterruption = session.model.toolCallsNeedingInterruption := by
  refine appends.frame SessionReadModel.toolCallsNeedingInterruption fun event member model => ?_
  have error := prefixed member
  rw [interimEntries, if_neg notAborted] at error
  split at error
  · have same := mem_singleton.mp (mem_ite_nil_right.mp error).2
    obtain ⟨-, payload⟩ := Prod.mk.inj same
    simp [SessionReadModel.toolCallsNeedingInterruption, ModelContext.applyEvent,
      Execution.applyEvent, payload, requestedToolCalls, tailUnansweredToolCalls]
  · cases error

variable (journal turnId finalization session) in
theorem beforeCompletion_finalizable_iff :
    Finalizable finalization
        (beforeCompletion journal turnId finalization session.model session).2.model ↔
      Finalizable finalization session.model := by
  by_cases aborted : finalization.aborted = true
  · simp [Finalizable, aborted]
  · obtain ⟨sent, rest, split, appends, -⟩ :=
      beforeCompletion_sends journal turnId finalization session.model session
    have same := interimEntries_calls aborted (split ▸ subset_append_left sent rest) appends
    rw [Finalizable, Finalizable, same]

theorem turnAbortedContext_calls (appends : Appends [(turn, .turnAbortedContext)] session session')
    (settled : session.model.toolCallsNeedingInterruption = []) :
    session'.model.toolCallsNeedingInterruption = [] := by
  obtain ⟨closed, asked, execution, -⟩ := turnAbortedContext_closes appends
  rw [toolCallsNeedingInterruption_eq_nil_iff, requestedToolCalls, asked, execution]
  exact ⟨(toolCallsNeedingInterruption_eq_nil_iff.mp settled).1, closed⟩

/-- Where it gets as far as the completion, only a turn that cannot be finalised still has calls
to answer. -/
theorem beforeCompletion_ok
    (done : beforeCompletion journal turnId finalization session.model session =
      (.ok (), session')) :
    session'.model.toolCallsNeedingInterruption = [] ↔ Finalizable finalization session.model := by
  have appends := (beforeCompletion_sends journal turnId finalization session.model session).ok done
  by_cases aborted : finalization.aborted = true
  · refine iff_of_true ?_ (.inl aborted)
    rw [interimEntries, if_pos aborted] at appends
    obtain ⟨mid, answered, context⟩ := appends.split
    -- the answers alone are enough, the context only keeps it that way
    have settled := answers_settle answered
    split at context
    · exact turnAbortedContext_calls context settled
    · rwa [context.frame SessionReadModel.toolCallsNeedingInterruption (by simp)]
  · rw [interimEntries_calls aborted (Subset.refl _) appends]
    simp [Finalizable, aborted]

end BeforeCompletion

/-! ### One attempt -/

/-- The session since `start`: the turn is over, and was completed once. -/
structure Finalized (start session : Session) : Prop where
  idle : session.model.execution.phase = .idle
  noTurn : session.model.execution.unsettledTurnId = none
  noPendingCalls : session.model.execution.pendingToolCalls = []
  noCalls : session.model.toolCallsNeedingInterruption = []
  completedOnce : CompletedSince 1 start session

section Attempt

variable {finishReason : String} {journal : SessionJournal} {turnId : TurnId}
  {finalization : TurnFinalization} {start session session' : Session}
  {result : Except SessionError Unit} (pending : Pending turnId start session)

include pending

private theorem completion_finalizes (noCalls : session.model.toolCallsNeedingInterruption = [])
    (appends : Appends [(some turnId, .turnCompleted finishReason)] session session') :
    Finalized start session' := by
  have tail := (toolCallsNeedingInterruption_eq_nil_iff.mp noCalls).2
  obtain ⟨execution, settled, -⟩ :=
    turnCompleted_settles appends (.inr pending.unsettled.symm) tail
  exact ⟨by rw [execution]; rfl, by rw [execution]; rfl, by rw [execution]; rfl, settled,
    pending.uncompleted.appends appends⟩

/-- How a try at the completion ends: well, with calls still to answer, or in the journal. -/
private theorem emitTurnCompleted_pending
    (run : emitTurnCompleted journal turnId finishReason session = (result, session')) :
    Within 1 session session' ∧
      (result = .ok () ∧ session.model.toolCallsNeedingInterruption = [] ∧
          Finalized start session' ∨
        (∃ e, result = .error e) ∧ Pending turnId start session' ∧
          session'.model = session.model ∧
          (session.model.toolCallsNeedingInterruption = [] → Blamed journal session session')) := by
  by_cases noCalls : session.model.toolCallsNeedingInterruption = []
  -- no call waits: the completion is one event, and only the journal can refuse it
  · rw [emitTurnCompleted, readModel_bind, if_neg (by simp [noCalls]), turnCompletedPayload] at run
    have plain : Plain (.turnCompleted finishReason) := ⟨rfl, rfl, rfl⟩
    have sends := @emit_sends _ journal (some turnId) plain session
    obtain ⟨within, blame⟩ := sends.ran run
    refine ⟨within, ?_⟩
    obtain ⟨sent, rest, split, appends, outcome⟩ := sends
    simp only [run] at appends outcome
    rcases outcome with ⟨⟨⟨⟩, rfl⟩, -⟩ | ⟨⟨e, rfl⟩, refused, -⟩
    · exact .inl ⟨rfl, noCalls, completion_finalizes pending noCalls (emit_ok run)⟩
    · -- the one event was refused
      obtain rfl : sent = [] := by
        rcases append_eq_singleton_iff.mp split.symm with ⟨none, -⟩ | ⟨-, none⟩
        · exact none
        · exact absurd none refused
      exact .inr ⟨⟨e, rfl⟩, pending.sent (by simp) appends, appends.frame id (by simp),
        fun _ => blame e rfl⟩
  · rw [emitTurnCompleted, readModel_bind, if_pos (by simpa using noCalls)] at run
    cases run
    exact ⟨(Within.refl _).mono (Nat.zero_le _),
      .inr ⟨⟨_, rfl⟩, pending, rfl, fun settled => absurd settled noCalls⟩⟩

/-- How `finalizeTurn` ends on a turn that is not over. -/
theorem finalizeTurn_pending
    (run : finalizeTurn journal turnId finalization session = (result, session')) :
    Within (session.model.toolCallsNeedingInterruption.length + 2) session session' ∧
      (result = .ok () ∧ Finalizable finalization session.model ∧ Finalized start session' ∨
        (∃ e, result = .error e) ∧ Pending turnId start session' ∧
          (Finalizable finalization session'.model ↔ Finalizable finalization session.model) ∧
          (Finalizable finalization session.model → Blamed journal session session')) := by
  rw [finalizeTurn_eq pending.underWay] at run
  have sends := beforeCompletion_sends journal turnId finalization session.model session
  have condition := beforeCompletion_finalizable_iff journal turnId finalization session
  cases before : beforeCompletion journal turnId finalization session.model session with
  | mk reached mid =>
    rw [before] at condition
    obtain ⟨within, blame⟩ := sends.ran before
    have within := within.mono (interimEntries_length_le session.model)
    obtain ⟨sent, rest, split, appends, -⟩ := sends
    rw [before] at appends
    have kept := pending.sent (fun e member => interimEntries_interim session.model e
      (split ▸ mem_append_left rest member)) appends
    cases reached with
    | error e =>
      simp only [bind, before] at run
      cases run
      exact ⟨within.mono (Nat.le_succ _),
        .inr ⟨⟨e, rfl⟩, kept, condition, fun _ => blame e rfl⟩⟩
    | ok _ =>
      rw [Program.bind_eq before] at run
      -- the turn is as far as the completion, which asks whether a call waits
      have settled := beforeCompletion_ok before
      obtain ⟨more, outcome⟩ := emitTurnCompleted_pending kept run
      refine ⟨within.trans more, ?_⟩
      rcases outcome with ⟨rfl, noCalls, done⟩ | ⟨failed, still, same, blame'⟩
      · exact .inl ⟨rfl, settled.mp noCalls, done⟩
      · refine .inr ⟨failed, still, by rw [same, condition], fun able => ?_⟩
        exact (blame' (settled.mpr able)).earlier within

end Attempt

/-! ### Attempts until one succeeds -/

section Retry

variable {journal : SessionJournal} {turnId : TurnId} {finalization : TurnFinalization}
  {start session session' : Session}

/-- On its way to the end: it can be finalised, or has been. -/
def Ending (turnId : TurnId) (finalization : TurnFinalization) (start session : Session) : Prop :=
  Pending turnId start session ∧ Finalizable finalization session.model ∨ Finalized start session

private theorem Finalized.beside (finalized : Finalized start session)
    (beside : Beside session session') : Finalized start session' := by
  obtain ⟨idle, noTurn, noPendingCalls, noCalls, completedOnce⟩ := finalized
  exact ⟨by rw [beside.execution, idle], by rw [beside.execution, noTurn],
    by rw [beside.execution, noPendingCalls], by rw [beside.calls, noCalls],
    beside.completions completedOnce⟩

private theorem Ending.beside (ending : Ending turnId finalization start session)
    (beside : Beside session session') : Ending turnId finalization start session' := by
  rcases ending with ⟨pending, able⟩ | finalized
  · exact .inl ⟨pending.beside beside, able.imp id beside.calls.trans⟩
  · exact .inr (finalized.beside beside)

private theorem sync_beside (session : Session) :
    Beside session (Session.syncDurableEvents journal session).2 := by
  rw [Session.syncDurableEvents]
  cases journal.outcome session.operations <;> exact .of_same rfl rfl

private theorem sync_leads {P E : Session → Prop}
    (kept : ∀ session session', P session → Beside session session' → P session')
    (failed : ∀ session, P session → E session) :
    Leads journal 1 P P E (syncDurableEventsRequired journal) := by
  refine Leads.mapError fun session held => ?_
  obtain ⟨within, blame⟩ := @syncDurableEvents_ran journal session
  have after := kept session _ held (@sync_beside journal session)
  exact ⟨within, fun _ _ => after, fun e error => ⟨failed _ after, blame e error⟩⟩

/-! ### The children that have ended -/

/-- The end of a child is an event on its link alone. -/
private theorem emit_update (update : ChildRelationUpdate) (session : Session) :
    Within 1 session (emitDurable journal none update.intoPayload session).2 ∧
      Beside session (emitDurable journal none update.intoPayload session).2 := by
  have plain : Plain update.intoPayload := by
    cases update <;> exact ⟨rfl, rfl, rfl⟩
  have sends : Sends journal [(none, update.intoPayload)]
      (emitDurable journal none update.intoPayload) session := emitDurable_sends plain session
  cases emitted : emitDurable journal none update.intoPayload session with
  | mk result session' =>
    refine ⟨(sends.ran emitted).1, ?_⟩
    cases result with
    | error e =>
      obtain ⟨rfl, -⟩ := emitDurable_error plain emitted
      exact .of_same rfl rfl
    | ok stored =>
      have appends := emitDurable_ok emitted
      obtain ⟨event, same, model⟩ := appends_single appends
      have payload : event.event.payload = update.intoPayload := congrArg Prod.snd same
      refine ⟨?_, ?_, fun since => ?_⟩
      · rw [model]
        cases update <;>
          simp [Execution.applyEvent, payload, ChildRelationUpdate.intoPayload,
            agentSessionFailedPayload]
      · rw [model]
        cases update <;>
          simp [ModelContext.applyEvent, payload, ChildRelationUpdate.intoPayload,
            agentSessionFailedPayload]
      · have after := since.appends appends
        cases update <;> exact after

private theorem recordChildRelation_beside (parent : SessionId) (update : ChildRelationUpdate)
    (session : Session) :
    Within 2 session (recordChildRelation journal parent update session).2 ∧
      Beside session (recordChildRelation journal parent update session).2 := by
  have synced : ∀ session, Within 1 session
      (Program.mapError ChildTurnError.schedule (syncDurableEventsRequired journal) session).2 ∧
      Beside session
        (Program.mapError ChildTurnError.schedule (syncDurableEventsRequired journal) session).2 := by
    intro session
    rw [Program.mapError_snd, syncDurableEventsRequired, Program.mapError_snd]
    exact ⟨(syncDurableEvents_ran session).1, sync_beside session⟩
  rw [recordChildRelation, readModel_bind]
  split
  · exact (synced session).imp_left fun within => within.mono (by omega)
  · split
    · exact ⟨(Within.refl session).mono (by omega), .of_same rfl rfl⟩
    · refine Program.bind_rel (fun s s' => Within 1 s s' ∧ Beside s s')
        (fun s s' => Within 1 s s' ∧ Beside s s') (fun s s' => Within 2 s s' ∧ Beside s s')
        (fun session => ?_) (fun _ => synced) ?_ ?_ session
      · rw [Program.mapError_snd]
        exact emit_update update session
      · exact fun first => first.imp_left fun within => within.mono (by omega)
      · exact fun first second => ⟨first.1.trans second.1, first.2.trans second.2⟩

private theorem drainCompleted_ran (completed : List ChildRelationUpdate) (session : Session) :
    ∃ session', drainCompleted journal completed session = (.ok (), session') ∧
      Within (2 * completed.length) session session' ∧ Beside session session' := by
  induction completed generalizing session with
  | nil => exact ⟨session, rfl, .refl session, .of_same rfl rfl⟩
  | cons update completed ih =>
    obtain ⟨within, beside⟩ := @recordChildRelation_beside journal
      session.model.identity.sessionId update session
    obtain ⟨session', drained, within', beside'⟩ := ih
      (recordChildRelation journal session.model.identity.sessionId update session).2
    refine ⟨session', ?_, (within.trans within').mono (by rw [length_cons]; omega),
      beside.trans beside'⟩
    rw [drainCompleted, Program.forEach, Program.bind_eq (t := (recordChildRelation journal
      session.model.identity.sessionId update session).2) (a := ())]
    · exact drained
    · rw [readModel_bind]
      simp only [bind, pure, Program.orNone]
      cases recordChildRelation journal session.model.identity.sessionId update session with
      | mk result after => cases result <;> rfl

private theorem drain_leads {P E : Session → Prop} (completed : List ChildRelationUpdate)
    (kept : ∀ session session', P session → Beside session session' → P session') :
    Leads journal (2 * completed.length) P P E (drainCompleted journal completed) := by
  intro session held
  obtain ⟨session', drained, within, beside⟩ := @drainCompleted_ran journal completed session
  rw [drained]
  exact ⟨within, fun _ _ => kept session session' held beside, fun _ failed => nomatch failed⟩

private theorem firstOfEach_length_le (seen : List String) (calls : List UnansweredToolCall) :
    (firstOfEach seen calls).length ≤ calls.length := by
  induction calls generalizing seen with
  | nil => exact Nat.le_refl _
  | cons call calls ih =>
    unfold firstOfEach
    split
    · exact Nat.le_succ_of_le (ih seen)
    · exact Nat.succ_le_succ (ih _)

private theorem lastToolCallMessage_calls {messages rest : List SequencedLlmMessage}
    {assistant : LlmMessage} (last : lastToolCallMessage messages = some (assistant, rest)) :
    (assistant.content.filterMap LlmContent.toolCall?).length ≤
      (assistantToolCalls messages).length := by
  induction messages with
  | nil => cases last
  | cons m messages ih =>
    have split : (assistantToolCalls (m :: messages)).length =
        (if m.message.role = .assistant then m.message.content.filterMap LlmContent.toolCall?
          else []).length + (assistantToolCalls messages).length := by
      simp [assistantToolCalls]
    rw [split]
    simp only [lastToolCallMessage] at last
    cases later : lastToolCallMessage messages with
    | some found =>
      rw [later] at last
      cases last
      exact Nat.le_add_left_of_le (ih later)
    | none =>
      rw [later] at last
      by_cases calls : m.message.hasToolCalls = true
      · simp only [calls, if_true, Option.some.injEq, Prod.mk.injEq] at last
        have role : m.message.role = .assistant := by
          simp only [LlmMessage.hasToolCalls, Bool.and_eq_true, decide_eq_true_eq] at calls
          exact calls.1
        rw [if_pos role, ← last.1]
        exact Nat.le_add_right _ _
      · simp [calls] at last

/-- There are never more calls to answer than twice those in the transcript. -/
private theorem calls_length_le (model : SessionReadModel) :
    model.toolCallsNeedingInterruption.length ≤
      2 * (assistantToolCalls model.modelContext.messages).length := by
  -- pending calls and the last round are both taken from the transcript
  have requested : (model.modelContext.requestedToolCalls
      model.execution.pendingToolCalls).length ≤
        (assistantToolCalls model.modelContext.messages).length :=
    Nat.le_trans (firstOfEach_length_le _ _) (length_filter_le _ _)
  have tail : model.modelContext.tailUnansweredToolCalls.length ≤
      (assistantToolCalls model.modelContext.messages).length := by
    rw [tailUnansweredToolCalls]
    split
    · exact Nat.zero_le _
    · next assistant rest last =>
      split
      · exact Nat.zero_le _
      · exact Nat.le_trans (firstOfEach_length_le _ _)
          (Nat.le_trans (length_filter_le _ _) (lastToolCallMessage_calls last))
  have others := firstOfEach_length_le
    ((model.modelContext.requestedToolCalls model.execution.pendingToolCalls).map (·.callId))
    model.modelContext.tailUnansweredToolCalls
  simp only [SessionReadModel.toolCallsNeedingInterruption, length_append]
  omega

/-- More operations than an attempt can need. -/
def attemptCost (session : Session) : Nat :=
  2 * (assistantToolCalls session.model.modelContext.messages).length + 4

private theorem finalizeTurn_leads :
    Leads journal
      (2 * (assistantToolCalls start.model.modelContext.messages).length + 2)
      (Ending turnId finalization start) (Finalized start) (Ending turnId finalization start)
      (finalizeTurn journal turnId finalization) := by
  intro session ending
  rcases ending with ⟨pending, able⟩ | finalized
  · cases run : finalizeTurn journal turnId finalization session with
    | mk result session' =>
      obtain ⟨within, outcome⟩ := finalizeTurn_pending pending run
      have calls := calls_length_le session.model
      rw [pending.asked] at calls
      refine ⟨within.mono (Nat.add_le_add_right calls 2), ?_, ?_⟩
      · rintro ⟨⟩ rfl
        rcases outcome with ⟨-, -, finalized⟩ | ⟨⟨e, failed⟩, -⟩
        · exact finalized
        · cases failed
      · rintro e rfl
        rcases outcome with ⟨ok, -⟩ | ⟨-, still, condition, blame⟩
        · cases ok
        · exact ⟨.inl ⟨still, condition.mpr able⟩, blame able⟩
  · -- a completion that is not synced yet: there is nothing left to append
    rw [finalizeTurn_idle finalized.idle]
    refine ⟨(Within.refl _).mono (Nat.zero_le _), fun _ _ => finalized, ?_⟩
    intro _ error
    cases error

variable (unpersisted : finalization.terminalPersisted = false)

include unpersisted

private theorem settle_unpersisted :
    settleFinishedExecutionLocked journal (some turnId) none turnId (some finalization) = (do
      Program.mapError .eventEmit (finalizeTurn journal turnId finalization)
      syncDurableEventsRequired journal
      return true) := by
  simp [settleFinishedExecutionLocked, unpersisted]

theorem finishTurn_leads (completed : List ChildRelationUpdate) :
    Leads journal (attemptCost start + 2 * completed.length) (Ending turnId finalization start)
      (Finalized start) (Ending turnId finalization start)
      (finishTurn journal turnId finalization completed) := by
  have synced : Leads journal 1 (Finalized start) (Finalized start)
      (Ending turnId finalization start) (syncDurableEventsRequired journal) :=
    sync_leads (fun _ _ => Finalized.beside) fun _ => .inr
  have first : Leads journal 1 (Ending turnId finalization start) (Ending turnId finalization start)
      (Ending turnId finalization start) (syncDurableEventsRequired journal) :=
    sync_leads (fun _ _ => Ending.beside) fun _ => id
  have drained : Leads journal (2 * completed.length) (Ending turnId finalization start)
      (Ending turnId finalization start) (Ending turnId finalization start)
      (drainCompleted journal completed) :=
    drain_leads completed fun _ _ => Ending.beside
  unfold finishTurn
  rw [settle_unpersisted unpersisted]
  -- sync, drain, finalise, sync again; a failure anywhere leaves the turn on its way to the end
  refine Leads.mono (first.bind fun _ => drained.bind fun _ =>
    (Leads.mapError finalizeTurn_leads).bind fun _ => synced.bind fun _ => Leads.of_pure true) ?_
  rw [attemptCost]
  omega

/-! ### The watcher's loop -/

/-- A blocked turn stays blocked, whatever the journal does. -/
private theorem finishTurn_blocked (pending : Pending turnId start session)
    (blocked : ¬ Finalizable finalization session.model) (completed : List ChildRelationUpdate) :
    ∃ e session', finishTurn journal turnId finalization completed session = (.error e, session') ∧
      Pending turnId start session' ∧ ¬ Finalizable finalization session'.model := by
  rw [finishTurn, settle_unpersisted unpersisted]
  have stays {before after : Session} (beside : Beside before after)
      (held : Pending turnId start before ∧ ¬ Finalizable finalization before.model) :
      Pending turnId start after ∧ ¬ Finalizable finalization after.model :=
    ⟨held.1.beside beside, by rw [Finalizable, beside.calls]; exact held.2⟩
  have beside : Beside session (syncDurableEventsRequired journal session).2 := by
    rw [syncDurableEventsRequired, Program.mapError_snd]
    exact sync_beside session
  cases syncing : syncDurableEventsRequired journal session with
  | mk synced mid =>
    rw [syncing] at beside
    obtain ⟨still, stillBlocked⟩ := stays beside ⟨pending, blocked⟩
    cases synced with
    | error e => exact ⟨e, mid, Program.bind_error syncing, still, stillBlocked⟩
    | ok _ =>
      obtain ⟨late, drained, -, beside⟩ := @drainCompleted_ran journal completed mid
      obtain ⟨still, stillBlocked⟩ := stays beside ⟨still, stillBlocked⟩
      rw [Program.bind_eq syncing, Program.bind_eq drained]
      cases finalizing : finalizeTurn journal turnId finalization late with
      | mk result session' =>
        obtain ⟨-, outcome⟩ := finalizeTurn_pending still finalizing
        rcases outcome with ⟨-, able, -⟩ | ⟨⟨e, rfl⟩, pending', condition, -⟩
        · exact absurd able stillBlocked
        · refine ⟨.eventEmit e, session', Program.bind_error ?_, pending', mt condition.mp stillBlocked⟩
          rw [Program.mapError, finalizing]

variable (completed : Nat → List ChildRelationUpdate)

theorem retryFinish_blocked (pending : Pending turnId start session)
    (blocked : ¬ Finalizable finalization session.model) (attempts : Nat) :
    retryFinish journal turnId finalization completed attempts session = none := by
  induction attempts generalizing session with
  | zero => rfl
  | succ attempts ih =>
    have stuck : ∃ e session', finishTurn journal turnId finalization
        (completed session.operations) session = (.error e, session') ∧
        Pending turnId start session' ∧ ¬ Finalizable finalization session'.model :=
      finishTurn_blocked unpersisted pending blocked _
    obtain ⟨e, session', failed, still, stillBlocked⟩ := stuck
    rw [retryFinish, failed]
    exact ih still stillBlocked

/-- Failed attempts are paid for by failed operations, and of those there are only so many. -/
theorem retryFinish_ends {recovery children : Nat}
    (recovers : ∀ n, recovery ≤ n → journal.outcome n = none)
    (few : ∀ n, (completed n).length ≤ children)
    (ending : Ending turnId finalization start session)
    (room : session.model.stats.lastSeq + (recovery - session.operations) + attemptCost start +
      2 * children + 1 < u64Limit) (attempts : Nat)
    (enough : recovery - session.operations < attempts) :
    ∃ session', retryFinish journal turnId finalization completed attempts session = some session' ∧
      Finalized start session' := by
  induction attempts generalizing session with
  | zero => exact absurd enough (Nat.not_lt_zero _)
  | succ attempts ih =>
    have leads : Leads journal _ (Ending turnId finalization start) _ _ _ :=
      finishTurn_leads unpersisted (completed session.operations)
    obtain ⟨within, ended, failed⟩ := leads session ending
    rw [retryFinish]
    cases run : finishTurn journal turnId finalization (completed session.operations) session with
    | mk result session' =>
      rw [run] at within ended failed
      cases result with
      | ok settled => exact ⟨session', rfl, ended settled rfl⟩
      | error e =>
        obtain ⟨still, n, tried, last, cause⟩ := failed e rfl
        obtain ⟨-, bounded, pace⟩ := within
        have drained := few session.operations
        dsimp only at last bounded pace cause
        -- the failed operation came before the recovery, so that the next attempt is closer to it
        have early : n < recovery := by
          rcases cause with bad | full
          · exact Nat.lt_of_not_le fun late => bad (recovers n late)
          · omega
        exact ih still (by omega) (by omega)

omit unpersisted in
/-- An attempt begins with a sync, and no attempt confirms an earlier one. -/
theorem retryFinish_refused (refused : ∀ n, session.operations ≤ n → journal.outcome n ≠ none)
    (attempts : Nat) :
    retryFinish journal turnId finalization completed attempts session = none := by
  induction attempts generalizing session with
  | zero => rfl
  | succ attempts ih =>
    cases failed : journal.outcome session.operations with
    | none => exact absurd failed (refused _ (Nat.le_refl _))
    | some e =>
      have attempt : finishTurn journal turnId finalization (completed session.operations) session =
          (.error (.sessionManager (.eventPublish e)),
            { session with operations := session.operations + 1 }) := by
        refine Program.bind_error (Program.mapError_error ?_)
        rw [Session.syncDurableEvents, failed]
      rw [retryFinish, attempt]
      exact ih fun n late => refused n (Nat.le_of_succ_le late)

end Retry

/-! ### Every reachable turn -/

/-- An event that leaves the session idle leaves no turn unsettled, if there was none before. -/
private theorem applyEvent_idle {event : StoredEvent} {execution : SessionExecutionState}
    (held : execution.phase = .idle → execution.unsettledTurnId = none)
    (idle : (Execution.applyEvent event execution).phase = .idle) :
    (Execution.applyEvent event execution).unsettledTurnId = none := by
  have removed : ∀ callId, (Execution.removeCall callId execution).phase ≠ .idle := by
    intro callId
    simp only [Execution.removeCall]
    split <;> simp
  unfold Execution.applyEvent at idle ⊢
  cases payload : event.event.payload with
  | turnCompleted _ =>
    simp only [payload] at idle ⊢
    split
    · rfl
    · next other =>
      rw [if_neg other] at idle
      exact held idle
  | toolCallCompleted _ _ _ _ _ | toolCallFailed _ _ _ _ _ _ _ | toolCallCancelled _ _ _ _ _ _ =>
    simp only [payload] at idle
    exact absurd idle (removed _)
  | sessionForked _ _ _ _ => rfl
  | _ =>
    -- the event leaves the phase alone or moves it away from idle
    simp only [payload] at idle ⊢
    first
    | exact held idle
    | cases idle

theorem ReplayReachable.unsettled_underWay {model : SessionReadModel} {turnId : TurnId}
    (reachable : ReplayReachable model) (unsettled : model.execution.unsettledTurnId = some turnId) :
    model.execution.phase ≠ .idle := by
  have settled : model.execution.phase = .idle → model.execution.unsettledTurnId = none := by
    refine reachable.induction (P := fun model =>
      model.execution.phase = .idle → model.execution.unsettledTurnId = none) ?_ ?_
    · intro _ _ _ _
      rfl
    · intro event model model' accepted held
      obtain ⟨-, -, rfl⟩ := reduce_ok_iff.mp accepted
      exact applyEvent_idle held
  intro idle
  rw [settled idle] at unsettled
  cases unsettled

/-! ### The marker of a failed fsync -/

section Marker

variable {journal : SessionJournal} {recovery : Nat}

theorem outcome_recovered (recovers : ∀ n, recovery ≤ n → journal.files n = none)
    (unmarked : journal.outcome recovery = none) : ∀ n, recovery ≤ n → journal.outcome n = none := by
  intro n late
  induction late with
  | refl => exact unmarked
  | step late ih => simp [SessionJournal.outcome, ih, recovers _ (Nat.le_succ_of_le late)]

/-- Without a fault of the files an operation is refused for the marker only, and nobody takes
it away. -/
theorem outcome_marked (recovers : ∀ n, recovery ≤ n → journal.files n = none)
    (marked : journal.outcome recovery ≠ none)
    (unbegun : ∀ n, recovery ≤ n → journal.begun n = false) :
    ∀ n, recovery ≤ n → ∃ e, journal.outcome n = some e ∧ e.isDurabilityUncertain = true := by
  intro n late
  induction late with
  | refl =>
    cases recovery with
    | zero => exact absurd (recovers 0 (Nat.le_refl _)) marked
    | succ before =>
      obtain ⟨e, found⟩ := Option.ne_none_iff_exists'.mp marked
      refine ⟨e, found, ?_⟩
      rw [SessionJournal.outcome, recovers _ (Nat.le_refl _), Option.or_none] at found
      simp only [Option.filter_eq_some_iff, Bool.and_eq_true] at found
      exact found.2.1
  | step late ih =>
    obtain ⟨e, found, uncertain⟩ := ih
    exact ⟨e, by simp [SessionJournal.outcome, found, uncertain, unbegun _ (Nat.le_succ_of_le late)],
      uncertain⟩

end Marker

def unacknowledgedCall : SessionReadModel :=
  sampleTurn [.turnStarted, .userMessage "m1" "hello" [] none, .stepStarted 0 1,
    .assistantMessageCompleted "m2" "" none, .toolCallRequested "call-1" "shell" .null none]

def failedFinalization : TurnFinalization := ⟨"error", some "acknowledgement failed", false, false⟩

def abortedFinalization : TurnFinalization := ⟨"aborted", none, true, false⟩

/-- A journal whose first operation is an fsync that fails. -/
def markedJournal (begun : Nat → Bool) : SessionJournal where
  stamp := (sampleJournal 0).stamp
  files n := if n = 0 then some (.durabilityUncertain "session" 5 "disk full") else none
  begun := begun

end Astrcode
