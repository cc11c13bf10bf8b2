import Astrcode.Properties.Finalization
import Astrcode.Properties.StaleRepair

/-!
# A turn that takes several attempts to end

The end of a turn is several events, each an append of its own. Where one is refused, the next
attempt reads the model again and goes on from there. Calls that have an answer need none, so
that each is answered once. With the context of an aborted turn it is different: an abort looks
for it in the last place of the transcript, the repair of a stale turn appends it every time.
-/
namespace Astrcode

open Library List SessionModelContext

/-- Attempts until one succeeds, with the sessions in which the others were made. -/
inductive Retried {ε α : Type} (x : Program ε Session α) :
    List Session → Session → Session → Prop where
  | done {session session' : Session} {a : α} (run : x session = (.ok a, session')) :
      Retried x [] session session'
  | failed {session mid session' : Session} {e : ε} {later : List Session}
      (run : x session = (.error e, mid)) (rest : Retried x later mid session') :
      Retried x (session :: later) session session'

section

variable {ε α : Type} {x : Program ε Session α} {session session' : Session}

private theorem Retried.of_ok {a : α} (ok : (x session).1 = .ok a) :
    Retried x [] session (x session).2 :=
  .done (Prod.ext ok rfl)

private theorem Retried.of_error {e : ε} {later : List Session}
    (refused : (x session).1 = .error e) (rest : Retried x later (x session).2 session') :
    Retried x (session :: later) session session' :=
  .failed (Prod.ext refused rfl) rest

end

/-! ### Answers by several attempts -/

theorem Appends.unique {first second : List Entry} {session session' : Session}
    (appends : Appends first session session') (again : Appends second session session') :
    first = second := by
  obtain ⟨stored, rfl, -, appended⟩ := appends
  obtain ⟨other, rfl, -, same⟩ := again
  rw [append_cancel_left (appended.symm.trans same)]

private theorem firstOfEach_nodup (seen : List String) (calls : List UnansweredToolCall) :
    ((firstOfEach seen calls).map (·.callId)).Nodup ∧
      ∀ call ∈ firstOfEach seen calls, call.callId ∉ seen := by
  induction calls generalizing seen with
  | nil => simp [firstOfEach]
  | cons call calls ih =>
    by_cases known : call.callId ∈ seen
    · simpa [firstOfEach, known] using ih seen
    · obtain ⟨nodup, fresh⟩ := ih (call.callId :: seen)
      simp only [mem_cons, not_or] at fresh
      simpa [firstOfEach, known, nodup] using
        ⟨fun other member => (fresh other member).1, fun other member => (fresh other member).2⟩

theorem calls_nodup (model : SessionReadModel) :
    (model.toolCallsNeedingInterruption.map (·.callId)).Nodup := by
  rw [SessionReadModel.toolCallsNeedingInterruption, map_append, nodup_append]
  refine ⟨(firstOfEach_nodup _ _).1, (firstOfEach_nodup _ _).1, ?_⟩
  rintro id requested _ tail rfl
  obtain ⟨call, member, rfl⟩ := mem_map.mp tail
  exact (firstOfEach_nodup _ _).2 call member requested

/-- The transcript ends with the context of an aborted turn. -/
def endsAborted (model : SessionReadModel) : Bool :=
  model.modelContext.messages.getLast?.any (·.origin = some .turnAborted)

section Attempt

variable {journal : SessionJournal} {turn : Option TurnId} {outcome : InterruptedToolOutcome}
  {session session' : Session} {calls answered waiting : List UnansweredToolCall}

/-- A failed attempt has answered some of the calls, or got as far as the completion. -/
private theorem sent_cases {contexts sent rest : List Entry} {last : Entry}
    (split : answers turn outcome calls ++ (contexts ++ [last]) = sent ++ rest) (more : rest ≠ [])
    (one : contexts.length ≤ 1) :
    (∃ answered waiting, calls = answered ++ waiting ∧ sent = answers turn outcome answered) ∨
      sent = answers turn outcome calls ++ contexts ∧ contexts ≠ [] := by
  obtain ⟨rest, _, rfl⟩ := (eq_nil_or_concat' rest).resolve_left more
  rw [← append_assoc, ← append_assoc] at split
  rcases append_eq_append_iff.mp (append_inj' split rfl).1 with ⟨bs, rfl, rfl⟩ | ⟨bs, isAnswers, -⟩
  · cases bs with
    | nil => exact .inl ⟨calls, [], by simp, by simp⟩
    | cons b bs =>
      -- there is one context at most
      obtain rfl : rest = [] := by
        rw [cons_append, length_cons, length_append] at one
        exact eq_nil_of_length_eq_zero (by omega)
      exact .inr ⟨by simp, by simp⟩
  · obtain ⟨answered, waiting, rfl, rfl, -⟩ := map_eq_append_iff.mp isAnswers
    exact .inl ⟨answered, waiting, rfl, rfl⟩

/-- Calls that were answered are not asked for again, and the others still are. -/
private theorem calls_rest (appends : Appends (answers turn outcome answered) session session')
    (split : session.model.toolCallsNeedingInterruption = answered ++ waiting) :
    session'.model.toolCallsNeedingInterruption = waiting := by
  have nodup := calls_nodup session.model
  rw [split, map_append, nodup_append] at nodup
  rw [answers_left appends, split, filter_append, filter_eq_nil_iff.mpr, filter_eq_self.mpr,
    nil_append]
  · intro call member
    exact decide_eq_true fun twice => nodup.2.2 _ twice _ (mem_map_of_mem member) rfl
  · intro call member
    simpa using ⟨call, member, rfl⟩

/-- What a failed attempt has answered and what is left for the next make all the answers. -/
private theorem answers_resumed {tail : List Entry}
    (appends : Appends (answers turn outcome answered) session session')
    (split : session.model.toolCallsNeedingInterruption = answered ++ waiting) :
    answers turn outcome answered ++
        (answers turn outcome session'.model.toolCallsNeedingInterruption ++ tail) =
      answers turn outcome session.model.toolCallsNeedingInterruption ++ tail := by
  rw [calls_rest appends split, ← append_assoc, answers, answers, ← map_append, ← split]
  rfl

/-- An answer takes the last place in the transcript. -/
private theorem endsAborted_answered
    (appends : Appends (answers turn outcome answered) session session') :
    endsAborted session'.model = (answered.isEmpty && endsAborted session.model) := by
  have last : endsAborted session'.model = answered.foldl (fun _ _ => false)
      (endsAborted session.model) := by
    refine appends.view endsAborted fun call event same model => ?_
    obtain ⟨-, payload⟩ := Prod.mk.inj same
    cases outcome <;>
      simp [endsAborted, applyValidatedEvent, ModelContext.applyEvent, applyProviderMessages,
        applyToolTerminal, payload, interruptedPayload]
  rw [last]
  rcases eq_nil_or_concat' answered with rfl | ⟨_, _, rfl⟩
  · rfl
  · simp

private theorem endsAborted_context
    (appends : Appends [(turn, .turnAbortedContext)] session session') :
    endsAborted session'.model = true := by
  obtain ⟨event, same, model⟩ := appends_single appends
  obtain ⟨-, payload⟩ := Prod.mk.inj same
  simp [model, endsAborted, applyValidatedEvent, ModelContext.applyEvent, applyProviderMessages,
    payload]

end Attempt

/-! ### Aborted turns -/

section Abort

variable {journal : SessionJournal} {turnId : TurnId} {attempts : List Session}
  {start session session' : Session}

private theorem finalizeAbortedTurn_sends (underWay : session.model.execution.phase ≠ .idle) :
    Sends journal
      (answers (some turnId) .cancelled session.model.toolCallsNeedingInterruption ++
        ((if !endsAborted session.model then [(some turnId, .turnAbortedContext)] else []) ++
          [(some turnId, .turnCompleted turnFinishAborted)]))
      (finalizeAbortedTurn journal turnId) session := by
  have attempt : finalizeAbortedTurn journal turnId session = _ :=
    @finalizeTurn_eq journal turnId abortedFinalization session underWay
  rw [Sends, attempt, ← Sends, ← append_assoc]
  refine (beforeCompletion_sends journal turnId abortedFinalization _ session).bind
    fun _ mid done _ => ?_
  have settled := (beforeCompletion_ok done).mpr (.inl rfl)
  rw [Sends, emitTurnCompleted, readModel_bind, if_neg (by simp [settled]), ← Sends]
  exact emit_sends ⟨rfl, rfl, rfl⟩ mid

/-- The context is left out only where the transcript ends with one, and no attempt puts an answer
behind it. -/
private theorem Retried.abort
    (run : Retried (finalizeAbortedTurn journal turnId) attempts session session')
    (pending : Pending turnId start session) :
    Finalized start session' ∧ ∃ contexts,
      Appends (answers (some turnId) .cancelled session.model.toolCallsNeedingInterruption ++
        (contexts ++ [(some turnId, .turnCompleted turnFinishAborted)])) session session' ∧
      (contexts = [] ∧ endsAborted session.model = true ∨
        contexts = [(some turnId, .turnAbortedContext)] ∧
          (endsAborted session.model = true →
            session.model.toolCallsNeedingInterruption ≠ [])) := by
  induction run with
  | @done session session' _ run =>
    have sends := @finalizeAbortedTurn_sends journal turnId session pending.underWay
    obtain ⟨-, ⟨-, -, finalized⟩ | ⟨⟨e, failed⟩, -⟩⟩ :=
      @finalizeTurn_pending journal turnId abortedFinalization _ _ _ _ pending run
    · refine ⟨finalized, _, sends.ok run, ?_⟩
      cases ends : endsAborted session.model <;> simp
    · cases failed
  | @failed session mid session' _ _ run _ ih =>
    obtain ⟨-, ⟨ok, -⟩ | ⟨-, still, -⟩⟩ :=
      @finalizeTurn_pending journal turnId abortedFinalization _ _ _ _ pending run
    · cases ok
    obtain ⟨finalized, contexts, later, which⟩ := ih still
    refine ⟨finalized, ?_⟩
    obtain ⟨sent, rest, split, appends, outcome⟩ :=
      @finalizeAbortedTurn_sends journal turnId session pending.underWay
    simp only [run, reduceCtorEq, exists_false, false_and, false_or] at appends outcome
    rcases sent_cases split outcome.2.1 (by split <;> simp) with
      ⟨answered, waiting, calls, rfl⟩ | ⟨rfl, some⟩
    · refine ⟨contexts, answers_resumed appends calls ▸ appends.trans later, ?_⟩
      rw [endsAborted_answered appends, calls_rest appends calls] at which
      rcases which with ⟨none, both⟩ | ⟨one, notYet⟩
      · exact .inl ⟨none, ((Bool.and_eq_true ..).mp both).2⟩
      · refine .inr ⟨one, fun ends empty => ?_⟩
        obtain ⟨rfl, rfl⟩ := append_eq_nil_iff.mp (calls.symm.trans empty)
        exact notYet (by simp [ends]) rfl
    · -- the next attempt finds the context in the last place
      cases ends : endsAborted session.model with
      | true => simp [ends] at some
      | false =>
        rw [ends] at appends
        obtain ⟨_, answering, context⟩ := appends.split
        have settled := turnAbortedContext_calls context (answers_settle answering)
        rw [settled, endsAborted_context context] at which
        rw [settled] at later
        obtain ⟨rfl, -⟩ := which.resolve_right fun wrong => wrong.2 rfl rfl
        have both := appends.trans later
        rw [append_assoc] at both
        exact ⟨_, both, .inr ⟨rfl, by simp⟩⟩

/-- An aborted turn is ended once, however many attempts it takes: every call gets one answer, and
the context of the abort comes once, unless it is there already. -/
theorem retried_abort_once (reachable : ReplayReachable session.model)
    (unsettled : session.model.execution.unsettledTurnId = some turnId)
    (run : Retried (finalizeAbortedTurn journal turnId) attempts session session') :
    (session.model.toolCallsNeedingInterruption.map (·.callId)).Nodup ∧
    (∃ contexts,
      Appends (answers (some turnId) .cancelled session.model.toolCallsNeedingInterruption ++
        (contexts ++ [(some turnId, .turnCompleted turnFinishAborted)])) session session' ∧
      (contexts = [(some turnId, .turnAbortedContext)] ∨
        contexts = [] ∧ endsAborted session.model = true)) ∧
    session'.model.execution.phase = .idle ∧
    session'.model.toolCallsNeedingInterruption = [] ∧
    ∀ journal, finalizeAbortedTurn journal turnId session' = (.ok (), session') := by
  have pending : Pending turnId session session :=
    ⟨unsettled, reachable.unsettled_underWay unsettled, rfl, [], (append_nil _).symm, rfl⟩
  obtain ⟨finalized, contexts, appends, which⟩ := run.abort pending
  refine ⟨calls_nodup _, ⟨contexts, appends, which.symm.imp And.left id⟩, finalized.idle,
    finalized.noCalls, fun journal => ?_⟩
  exact @finalizeTurn_idle journal turnId abortedFinalization session' finalized.idle

end Abort

/-- A journal that refuses one operation. -/
private def faultAt (operation : Nat) : SessionJournal where
  stamp := (sampleJournal 0).stamp
  files n := if n = operation then some (.io "disk full") else none
  begun := fun _ => false

/-- The first attempt fails at the completion, when the call is answered and the context is
there. -/
theorem retried_abort_after_context :
    ∃ attempts session', attempts.length = 1 ∧
      Retried (finalizeAbortedTurn (faultAt 2) "turn") attempts ⟨unacknowledgedCall, 0, []⟩
        session' ∧
      session'.model.execution.phase = .idle ∧
      session'.model.toolCallsNeedingInterruption = [] := by
  have done : (finalizeAbortedTurn (faultAt 2) "turn"
      (finalizeAbortedTurn (faultAt 2) "turn" ⟨unacknowledgedCall, 0, []⟩).2).1 = .ok () := by
    decide +kernel
  have refused : (finalizeAbortedTurn (faultAt 2) "turn" ⟨unacknowledgedCall, 0, []⟩).1 =
      .error (.eventPublish (.io "disk full")) := by decide +kernel
  have run := Retried.of_error refused (.of_ok done)
  have reachable : ReplayReachable unacknowledgedCall := sampleTurn_reachable (by decide +kernel)
  have unsettled : unacknowledgedCall.execution.unsettledTurnId = some "turn" := by decide +kernel
  have once := @retried_abort_once (faultAt 2) "turn" _ ⟨unacknowledgedCall, 0, []⟩ _ reachable
    unsettled run
  exact ⟨_, _, rfl, run, once.2.2.1, once.2.2.2.1⟩

private def abortedTail : SessionReadModel :=
  sampleTurn [.turnStarted, .userMessage "m1" "hello" [] none, .turnAbortedContext]

/-- A turn whose transcript ends with the context of an abort gets no other one. -/
theorem abort_without_context :
    ReplayReachable abortedTail ∧ abortedTail.execution.unsettledTurnId = some "turn" ∧
      (finalizeAbortedTurn (sampleJournal 0) "turn" ⟨abortedTail, 0, []⟩).1 = .ok () ∧
      (finalizeAbortedTurn (sampleJournal 0) "turn" ⟨abortedTail, 0, []⟩).2.appended.map
        StoredEvent.entry = [(some "turn", .turnCompleted turnFinishAborted)] :=
  ⟨sampleTurn_reachable (by decide +kernel), by decide +kernel, by decide +kernel,
    by decide +kernel⟩

/-! ### Stale turns -/

/-- The session went on with exactly these events about its turn. -/
def TurnAppends (entries : List Entry) (session session' : Session) : Prop :=
  ∃ all, Appends all session session' ∧ all.filter (!aboutAgent ·) = entries

/-- What a repair appends about the turn when nothing fails. -/
def repairEntries (model : SessionReadModel) : List Entry :=
  answers none .failed model.toolCallsNeedingInterruption ++
    if model.execution.phase.isAtRest then
      if decide (0 < model.toolCallsNeedingInterruption.length) then
        [(none, .turnAbortedContext)] else []
    else [(none, .turnAbortedContext)] ++ [(none, .turnCompleted turnFinishInterrupted)]

/-- The attempt gets as far as the last event about the turn and fails there. -/
def failsLast (journal : SessionJournal) (session : Session) : Bool :=
  let (result, after) := repairTurnProtocolState journal session
  !result.isOk &&
    after.operations = session.operations + session.model.toolCallsNeedingInterruption.length + 2

section TurnEvents

variable {first second : List Entry} {session mid session' : Session}

private theorem TurnAppends.trans (before : TurnAppends first session mid)
    (after : TurnAppends second mid session') : TurnAppends (first ++ second) session session' := by
  obtain ⟨sent, appends, rfl⟩ := before
  obtain ⟨more, later, rfl⟩ := after
  exact ⟨sent ++ more, appends.trans later, filter_append ..⟩

private theorem TurnAppends.unique (appends : TurnAppends first session session')
    (again : TurnAppends second session session') : first = second := by
  obtain ⟨sent, appends, rfl⟩ := appends
  obtain ⟨other, again, rfl⟩ := again
  rw [appends.unique again]

private theorem Appends.turn (appends : Appends first session session')
    (about : ∀ entry ∈ first, aboutAgent entry = false) : TurnAppends first session session' :=
  ⟨first, appends, filter_eq_self.mpr (by simpa using about)⟩

private theorem answers_about (calls : List UnansweredToolCall) :
    ∀ entry ∈ answers none .failed calls, aboutAgent entry = false := by
  intro entry member
  obtain ⟨call, -, rfl⟩ := mem_map.mp member
  rfl

private theorem repairEntries_about (model : SessionReadModel) :
    ∀ entry ∈ repairEntries model, aboutAgent entry = false := by
  refine forall_mem_append.mpr ⟨answers_about _, ?_⟩
  split_ifs <;> simp [aboutAgent]

end TurnEvents

/-! What follows the events about the turn are those about agents. -/

section Agents

variable {journal : SessionJournal} {active : SessionId → Bool} {ε δ α β : Type}

private def AgentsOnly (x : Program ε Session α) : Prop :=
  ∀ session, ∃ sent, Appends sent session (x session).2 ∧ ∀ entry ∈ sent, aboutAgent entry = true

private theorem AgentsOnly.bind {x : Program ε Session α} {f : α → Program ε Session β}
    (head : AgentsOnly x) (tail : ∀ a, AgentsOnly (f a)) : AgentsOnly (x >>= f) := by
  intro session
  obtain ⟨sent, appends, agents⟩ := head session
  cases step : x session with
  | mk result mid =>
    rw [step] at appends
    cases result with
    | error e =>
      rw [Program.bind_error step]
      exact ⟨sent, appends, agents⟩
    | ok a =>
      obtain ⟨more, later, others⟩ := tail a mid
      rw [Program.bind_eq step]
      exact ⟨sent ++ more, appends.trans later, forall_mem_append.mpr ⟨agents, others⟩⟩

private theorem AgentsOnly.of_pure (a : α) : AgentsOnly (pure a : Program ε Session α) :=
  fun session => ⟨[], .refl session, by simp⟩

private theorem AgentsOnly.of_sends {x : Program ε Session α} {entries : List Entry}
    (sends : ∀ session, Sends journal entries x session)
    (agents : ∀ entry ∈ entries, aboutAgent entry = true) : AgentsOnly x := by
  intro session
  obtain ⟨sent, rest, rfl, appends, -⟩ := sends session
  exact ⟨sent, appends, (forall_mem_append.mp agents).1⟩

private theorem repairStaleRun_agents (link : AgentSessionLinkView) :
    AgentsOnly (repairStaleRun journal active link) := by
  rw [repairStaleRun]
  split
  · exact .of_pure ()
  · exact .of_sends (fun session => (emit_sends ⟨rfl, rfl, rfl⟩ session).mapError)
      (forall_mem_singleton.mpr rfl)

private theorem repairRest_agents (state : SessionReadModel) :
    AgentsOnly (repairStaleRunsForState journal active state >>= fun _ =>
      syncDurableEventsRequired journal) := by
  refine .bind ?_ fun _ session => ⟨[], ?_, by simp⟩
  · rw [repairStaleRunsForState]
    induction state.agentSessions.filter (·.status = .running) with
    | nil => exact .of_pure ()
    | cons link links ih => exact (repairStaleRun_agents link).bind fun _ => ih
  · rw [syncDurableEventsRequired, Program.mapError_snd, Session.syncDurableEvents]
    cases journal.outcome session.operations <;> exact .refl session

end Agents

section Repair

variable {journal : SessionJournal} {active : SessionId → Bool} {attempts : List Session}
  {session session' : Session}

private theorem repairTurnProtocolState_sends (session : Session) :
    Sends journal (repairEntries session.model) (repairTurnProtocolState journal) session := by
  have plain : Plain .turnAbortedContext := ⟨rfl, rfl, rfl⟩
  have answering := @emitInterruptedToolResults_sends journal none session.model .failed session
  rw [Sends, repairTurnProtocolState, readModel_bind, ← Sends, repairEntries, ← append_nil (_ ++ _)]
  split
  · refine Sends.bind (.mapError (answering.bind fun _ mid interrupting _ => ?_))
      fun _ _ _ _ => .of_pure _
    obtain ⟨rfl, -⟩ := emitInterruptedToolResults_ok interrupting
    exact (emit_sends plain mid).when _
  · next underWay =>
    rw [repairStalePhaseForState, if_neg underWay]
    refine Sends.bind (.mapError (answering.bind fun _ mid _ _ => (emit_sends plain mid).bind
      fun _ last _ _ => emit_sends ⟨rfl, rfl, rfl⟩ last)) fun _ _ _ _ => .of_pure _

/-- An attempt fails over the turn, or is done with the turn and goes on to the agents. -/
private theorem repairStaleLocked_cases {result : Except TurnScheduleError Unit}
    (free : active session.model.identity.sessionId = false)
    (run : repairStaleLocked journal active session = (result, session')) :
    (∃ e, result = .error e ∧ repairTurnProtocolState journal session = (.error e, session')) ∨
      ∃ state mid sent, repairTurnProtocolState journal session = (.ok state, mid) ∧
        Appends sent mid session' ∧ ∀ entry ∈ sent, aboutAgent entry = true := by
  rw [repairStaleLocked, readModel_bind, if_neg (by simp [free])] at run
  cases protocol : repairTurnProtocolState journal session with
  | mk outcome mid =>
    cases outcome with
    | error e =>
      rw [Program.bind_error protocol] at run
      cases run
      exact .inl ⟨e, rfl, rfl⟩
    | ok state =>
      rw [Program.bind_eq protocol] at run
      obtain ⟨sent, appends, agents⟩ := @repairRest_agents journal active state mid
      rw [run] at appends
      exact .inr ⟨state, mid, sent, rfl, appends, agents⟩

private theorem Appends.free {entries : List Entry} (appends : Appends entries session session')
    (free : active session.model.identity.sessionId = false) :
    active session'.model.identity.sessionId = false := by
  rwa [appends.frame (·.identity.sessionId) (by simp)]

/-- A turn that is over stays as it is, whatever happens to the agents. -/
private theorem Retried.settled
    (run : Retried (repairStaleLocked journal active) attempts session session')
    (free : active session.model.identity.sessionId = false)
    (settled : TurnSettled session.model) :
    TurnAppends [] session session' ∧ ∀ failed ∈ attempts, failsLast journal failed = false := by
  -- one attempt: nothing to append about the turn
  have attempt : ∀ {session after result}, TurnSettled session.model →
      active session.model.identity.sessionId = false →
      repairStaleLocked journal active session = (result, after) →
      TurnAppends [] session after ∧ TurnSettled after.model ∧
        active after.model.identity.sessionId = false ∧ failsLast journal session = false := by
    intro session after result settled free run
    have nothing : repairEntries session.model = [] := by
      simp [repairEntries, settled.atRest, settled.noCalls, answers]
    obtain ⟨sent, rest, split, appends, outcome⟩ := @repairTurnProtocolState_sends journal session
    obtain ⟨rfl, rfl⟩ := append_eq_nil_iff.mp (split.symm.trans nothing)
    obtain ⟨⟨state, ok⟩, -, -⟩ := outcome.resolve_right fun failed => failed.2.1 rfl
    rcases repairStaleLocked_cases free run with
      ⟨e, -, failed⟩ | ⟨_, mid, sent, done, later, agents⟩
    · rw [failed] at ok
      cases ok
    · rw [done] at appends
      have model : mid.model = session.model := appends.frame id (by simp)
      have both := appends.trans later
      refine ⟨⟨sent, both, ?_⟩, (agents_settled_iff later agents).mpr (model ▸ settled),
        both.free free, ?_⟩
      · simpa using agents
      · simp [failsLast, done, Except.isOk, Except.toBool]
  induction run with
  | done run => exact ⟨(attempt settled free run).1, by simp⟩
  | failed run _ ih =>
    obtain ⟨nothing, settled, free, early⟩ := attempt settled free run
    obtain ⟨later, others⟩ := ih free settled
    exact ⟨nothing.trans later, forall_mem_cons.mpr ⟨early, others⟩⟩

private theorem underWay_answered {answered : List UnansweredToolCall}
    (appends : Appends (answers none .failed answered) session session')
    (underWay : session.model.execution.phase.isAtRest = false) :
    session'.model.execution.phase.isAtRest = false := by
  by_cases none : answered = []
  · subst none
    have model : session'.model = session.model := appends.frame id (by simp [answers])
    rwa [model]
  · rcases answers_phase appends none with phase | phase <;> rw [phase] <;> rfl

/-- The attempt that is done with the turn. -/
private theorem repaired_turn {state : SessionReadModel} {mid : Session} {sent : List Entry}
    (done : repairTurnProtocolState journal session = (.ok state, mid))
    (later : Appends sent mid session') (agents : ∀ entry ∈ sent, aboutAgent entry = true) :
    TurnAppends (repairEntries session.model) session session' := by
  have appends := (repairTurnProtocolState_sends session).ok done
  rw [← append_nil (repairEntries _)]
  exact (appends.turn (repairEntries_about _)).trans ⟨sent, later, by simpa using agents⟩

/-- Every attempt that fails at the last event about the turn leaves a context behind. -/
private theorem Retried.repair
    (run : Retried (repairStaleLocked journal active) attempts session session')
    (free : active session.model.identity.sessionId = false)
    (underWay : session.model.execution.phase.isAtRest = false) :
    TurnAppends (answers none .failed session.model.toolCallsNeedingInterruption ++
      (replicate (attempts.countP (failsLast journal) + 1) (none, .turnAbortedContext) ++
        [(none, .turnCompleted turnFinishInterrupted)])) session session' := by
  induction run with
  | done run =>
    obtain ⟨_, wrong, -⟩ | ⟨_, _, _, done, later, agents⟩ := repairStaleLocked_cases free run
    · cases wrong
    · have repaired := repaired_turn done later agents
      rwa [repairEntries, if_neg (by simp [underWay])] at repaired
  | @failed session mid session' _ attempts run rest ih =>
    rw [countP_cons]
    rcases repairStaleLocked_cases free run with ⟨e, -, failed⟩ | ⟨_, _, _, done, later, agents⟩
    · obtain ⟨sent, unsent, split, appends, outcome⟩ :=
        @repairTurnProtocolState_sends journal session
      rw [repairEntries, if_neg (by simp [underWay])] at split
      simp only [failed, reduceCtorEq, exists_false, false_and, false_or] at appends outcome
      obtain ⟨-, more, tried, -⟩ := outcome
      have last : failsLast journal session = true ↔ mid.operations =
          session.operations + session.model.toolCallsNeedingInterruption.length + 2 := by
        simp [failsLast, failed, Except.isOk, Except.toBool]
      rcases sent_cases split more (by simp) with ⟨answered, waiting, calls, rfl⟩ | ⟨rfl, -⟩
      · have early : ¬ failsLast journal session = true := by
          rw [last, tried, calls, answers, length_map, length_append]
          omega
        rw [if_neg early]
        have rest := ih (appends.free free) (underWay_answered appends underWay)
        exact answers_resumed appends calls ▸ (appends.turn (answers_about _)).trans rest
      · obtain ⟨_, answering, context⟩ := appends.split
        obtain ⟨-, -, execution, -⟩ := turnAbortedContext_closes context
        have later := ih (appends.free free) (execution ▸ underWay_answered answering underWay)
        rw [turnAbortedContext_calls context (answers_settle answering)] at later
        have sent : TurnAppends _ session mid := appends.turn
          (forall_mem_append.mpr ⟨answers_about _, forall_mem_singleton.mpr rfl⟩)
        have both := sent.trans later
        rw [append_assoc] at both
        rw [if_pos (by simp [last, tried, answers, Nat.add_assoc])]
        exact both
    · -- the turn is over; the attempt failed over an agent
      have repaired := repaired_turn done later agents
      have settled := (agents_settled_iff later agents).mpr
        ((repairTurnProtocolState_ok done).2.2.mpr (.inl underWay))
      obtain ⟨nothing, none⟩ := rest.settled (by
        obtain ⟨all, appends, -⟩ := repaired
        exact appends.free free) settled
      have early : failsLast journal session = false := by
        simp [failsLast, done, Except.isOk, Except.toBool]
      rw [countP_eq_zero.mpr (by simpa using none), early]
      have both := repaired.trans nothing
      rwa [append_nil, repairEntries, if_neg (by simp [underWay])] at both

/-- The events about a stale turn are the same however many attempts its repair takes, and end the
turn once, exactly if the turn was under way and no attempt failed at the last of them. -/
theorem retried_repair_once_iff (free : active session.model.identity.sessionId = false)
    (run : Retried (repairStaleLocked journal active) attempts session session') :
    (∀ journal after, repairStaleLocked journal active session = (.ok (), after) →
      TurnAppends (repairEntries session.model) session after) ∧
    ((TurnAppends (answers none .failed session.model.toolCallsNeedingInterruption ++
        ([(none, .turnAbortedContext)] ++ [(none, .turnCompleted turnFinishInterrupted)]))
        session session' ∧
      TurnAppends (repairEntries session.model) session session') ↔
    session.model.execution.phase.isAtRest = false ∧
      ∀ failed ∈ attempts, failsLast journal failed = false) := by
  constructor
  · intro journal after done
    obtain ⟨_, wrong, -⟩ | ⟨_, _, _, done, later, agents⟩ := repairStaleLocked_cases free done
    · cases wrong
    · exact repaired_turn done later agents
  constructor
  · rintro ⟨once, same⟩
    have entries := once.unique same
    cases rest : session.model.execution.phase.isAtRest with
    | true =>
      have lengths := congrArg length (append_cancel_left entries)
      simp only [rest, if_true] at lengths
      split at lengths <;> cases lengths
    | false =>
      have counted := congrArg length (append_cancel_left (once.unique (run.repair free rest)))
      refine ⟨rfl, ?_⟩
      simpa [countP_eq_zero] using counted
  · rintro ⟨underWay, none⟩
    have appends := run.repair free underWay
    rw [countP_eq_zero.mpr (by simpa using none)] at appends
    refine ⟨appends, ?_⟩
    rwa [repairEntries, if_neg (by simp [underWay])]

end Repair

/-- The first attempt fails at the answer of the call. -/
theorem retried_repair_after_fault :
    ∃ session', Retried (repairStaleLocked (faultAt 0) fun _ => false)
        [⟨interruptedCall, 0, []⟩] ⟨interruptedCall, 0, []⟩ session' ∧
      TurnAppends (repairEntries interruptedCall) ⟨interruptedCall, 0, []⟩ session' := by
  have done : (repairStaleLocked (faultAt 0) (fun _ => false)
      (repairStaleLocked (faultAt 0) (fun _ => false) ⟨interruptedCall, 0, []⟩).2).1 = .ok () := by
    decide +kernel
  have refused : (repairStaleLocked (faultAt 0) (fun _ => false) ⟨interruptedCall, 0, []⟩).1 =
      .error (.eventEmit (.eventPublish (.io "disk full"))) := by decide +kernel
  have run := Retried.of_error refused (.of_ok done)
  have underWay : interruptedCall.execution.phase.isAtRest = false := by decide +kernel
  have early : failsLast (faultAt 0) ⟨interruptedCall, 0, []⟩ = false := by decide +kernel
  have once := (retried_repair_once_iff rfl run).2.mpr ⟨underWay, by simpa using early⟩
  exact ⟨_, run, once.2⟩

/-- The first attempt fails at the completion; the second one adds another context. -/
theorem repair_repeats_context :
    let attempt := repairStaleLocked (faultAt 2) fun _ => false
    let start : Session := ⟨interruptedCall, 0, []⟩
    ReplayReachable interruptedCall ∧ needsStaleRepair interruptedCall = true ∧
      (attempt start).1 = .error (.eventEmit (.eventPublish (.io "disk full"))) ∧
      (attempt (attempt start).2).1 = .ok () ∧
      (attempt (attempt start).2).2.appended.map StoredEvent.entry =
        answers none .failed interruptedCall.toolCallsNeedingInterruption ++
          [(none, .turnAbortedContext), (none, .turnAbortedContext),
            (none, .turnCompleted turnFinishInterrupted)] :=
  ⟨sampleTurn_reachable (by decide +kernel), by decide +kernel, by decide +kernel,
    by decide +kernel, by decide +kernel⟩

end Astrcode
