import Astrcode.Properties.Emission
import Astrcode.Server.Repair

/-!
# Whether one repair is enough

A repair that neither resumes a turn nor starts a queued input is meant to leave nothing to
repair. It does so from a turn under way. From a session at rest it appends no completion:
an active step stays active, and answering a call moves the session out of rest.
-/
namespace Astrcode

open Library Program List

/-- The turn is over: at rest, no step, no call to answer. -/
structure TurnSettled (model : SessionReadModel) : Prop where
  atRest : model.execution.phase.isAtRest = true
  noStep : model.execution.activeStep = none
  noCalls : model.toolCallsNeedingInterruption = []

def NoRunningAgents (model : SessionReadModel) : Prop :=
  ∀ link ∈ model.agentSessions, link.status ≠ .running

/-- Nothing is left to repair; queued inputs are not a matter of repair. -/
structure Quiet (model : SessionReadModel) : Prop where
  turn : TurnSettled model
  agents : NoRunningAgents model

theorem needsStaleRepair_eq_false_iff {model : SessionReadModel} :
    needsStaleRepair model = false ↔ Quiet model ∧ model.execution.pendingInputs = [] := by
  simp only [needsStaleRepair, Bool.or_eq_false_iff, Bool.not_eq_false', List.isEmpty_iff,
    any_eq_false, decide_eq_true_eq, Option.isSome_eq_false_iff, Option.isNone_iff_eq_none]
  constructor
  · rintro ⟨⟨⟨⟨atRest, noStep⟩, noCalls⟩, agents⟩, inputs⟩
    exact ⟨⟨⟨atRest, noStep, noCalls⟩, agents⟩, inputs⟩
  · rintro ⟨⟨⟨atRest, noStep, noCalls⟩, agents⟩, inputs⟩
    exact ⟨⟨⟨⟨atRest, noStep⟩, noCalls⟩, agents⟩, inputs⟩

/-! ### Agent links -/

/-- A running link is the first one to its child, which is the one an event reaches. -/
def RunningLinksReached (links : List AgentSessionLinkView) : Prop :=
  links.Pairwise fun earlier later =>
    later.status = .running → earlier.childSessionId ≠ later.childSessionId

def interruptLink (childSessionId : SessionId) (link : AgentSessionLinkView) :
    AgentSessionLinkView :=
  { link with
    status := .failed, finalSessionId := some childSessionId
    error := some "interrupted", summary := none }

variable (children : List SessionId)

def interruptLinks (links : List AgentSessionLinkView) :
    List AgentSessionLinkView :=
  children.foldl (fun links child => Agents.updateLink child (interruptLink child) links) links

/-- The first link takes the updates for its child, the others pass it. -/
private theorem interruptLinks_cons (link : AgentSessionLinkView)
    (links : List AgentSessionLinkView) :
    ∃ first, first.childSessionId = link.childSessionId ∧
      (first.status = .running ↔
        link.status = .running ∧ link.childSessionId ∉ children) ∧
      interruptLinks children (link :: links) =
        first :: interruptLinks (children.filter (· ≠ link.childSessionId)) links := by
  induction children generalizing link links with
  | nil => exact ⟨link, rfl, by simp, rfl⟩
  | cons child children ih =>
    -- an update for the first link's child stops there
    by_cases own : link.childSessionId = child
    · obtain ⟨first, sameChild, status, rest⟩ := ih (interruptLink child link) links
      refine ⟨first, sameChild, ?_, ?_⟩
      · simp [status, interruptLink, own]
      · have step : interruptLinks (child :: children) (link :: links) =
            interruptLinks children (interruptLink child link :: links) := by
          simp [interruptLinks, own]
        rw [step, rest]
        simp [interruptLink, own]
    · obtain ⟨first, sameChild, status, rest⟩ :=
        ih link (Agents.updateLink child (interruptLink child) links)
      refine ⟨first, sameChild, ?_, ?_⟩
      · simp [status, own]
      · have step : interruptLinks (child :: children) (link :: links) =
            interruptLinks children
              (link :: Agents.updateLink child (interruptLink child) links) := by
          simp [interruptLinks, own]
        rw [step, rest]
        have other : ¬ child = link.childSessionId := fun same => own same.symm
        simp [interruptLinks, other]

private theorem interruptLinks_stops_iff (links : List AgentSessionLinkView) :
    (∀ link ∈ interruptLinks children links, link.status ≠ .running) ↔
      (∀ link ∈ links, link.status = .running → link.childSessionId ∈ children) ∧
        RunningLinksReached links := by
  induction links generalizing children with
  | nil =>
    have empty : interruptLinks children [] = [] := by
      induction children with
      | nil => rfl
      | cons child children ih => exact ih
    simp [empty, RunningLinksReached]
  | cons link links ih =>
    -- behind the first link only the updates for other children arrive
    obtain ⟨first, -, status, split⟩ := interruptLinks_cons children link links
    unfold RunningLinksReached at ih ⊢
    rw [split, forall_mem_cons, ih, pairwise_cons, forall_mem_cons, Ne, status, not_and_not_right]
    constructor
    · rintro ⟨head, rest, reached⟩
      refine ⟨⟨head, fun later member running => ?_⟩, fun later member running => ?_, reached⟩
      · exact (mem_filter.mp (rest later member running)).1
      · have other := of_decide_eq_true (mem_filter.mp (rest later member running)).2
        exact fun same => other same.symm
    · rintro ⟨⟨head, rest⟩, apart, reached⟩
      refine ⟨head, fun later member running => ?_, reached⟩
      have other := apart later member running
      exact mem_filter.mpr
        ⟨rest later member running, decide_eq_true fun same => other same.symm⟩

section Repair

variable {state : SessionReadModel} {journal : SessionJournal} {session session' : Session}
  {finishReason : String}

theorem repairStaleRunsForState_ok
    (done : repairStaleRunsForState journal (fun _ => false) state session = (.ok (), session')) :
    Appends ((state.agentSessions.filter (·.status = .running)).map fun link =>
      (none, agentSessionFailedPayload link.childSessionId "interrupted")) session session' := by
  have step : ∀ (link : AgentSessionLinkView) (session : Session),
      Sends journal [(none, agentSessionFailedPayload link.childSessionId "interrupted")]
        (repairStaleRun journal (fun _ => false) link) session :=
    fun _ session => (emit_sends ⟨rfl, rfl, rfl⟩ session).mapError
  exact (Sends.forEach step _ session).ok done

/-- The event is about an agent of the session, not about its turn. -/
def aboutAgent (entry : Entry) : Bool :=
  match entry.2 with
  | .agentSessionFailed _ _ _ => true
  | _ => false

/-- The turn is read off parts that the events about agents leave alone. -/
theorem agents_settled_iff {entries : List Entry} (appends : Appends entries session session')
    (agents : ∀ entry ∈ entries, aboutAgent entry = true) :
    TurnSettled session'.model ↔ TurnSettled session.model := by
  have frame : (session'.model.execution, session'.model.modelContext) =
      (session.model.execution, session.model.modelContext) := by
    refine appends.frame (fun model => (model.execution, model.modelContext)) ?_
    intro event member model
    have about := agents _ member
    rw [aboutAgent, StoredEvent.entry] at about
    split at about
    · next failed =>
      have payload : event.event.payload = .agentSessionFailed _ _ _ := failed
      simp [Execution.applyEvent, ModelContext.applyEvent, ModelContext.compactionsAfter, payload]
    · cases about
  obtain ⟨execution, context⟩ := Prod.mk.inj frame
  have calls : session'.model.toolCallsNeedingInterruption =
      session.model.toolCallsNeedingInterruption := by
    simp only [SessionReadModel.toolCallsNeedingInterruption, execution, context]
  constructor <;> rintro ⟨atRest, noStep, noCalls⟩ <;>
    exact ⟨execution ▸ atRest, execution ▸ noStep, calls ▸ noCalls⟩

/-- Ending the runs of the agents touches nothing but the links. -/
theorem repairStaleRunsForState_quiet_iff
    (done : repairStaleRunsForState journal (fun _ => false) state session = (.ok (), session'))
    (links : state.agentSessions = session.model.agentSessions) :
    Quiet session'.model ↔
      TurnSettled session.model ∧ RunningLinksReached session.model.agentSessions := by
  have appends := repairStaleRunsForState_ok done
  have settled : TurnSettled session'.model ↔ TurnSettled session.model :=
    agents_settled_iff appends (forall_mem_map.mpr fun _ _ => rfl)
  have interrupted : session'.model.agentSessions =
      interruptLinks ((state.agentSessions.filter (·.status = .running)).map (·.childSessionId))
        session.model.agentSessions := by
    rw [interruptLinks, foldl_map]
    refine appends.view SessionReadModel.agentSessions ?_
    intro link event same model
    obtain ⟨-, payload⟩ := Prod.mk.inj same
    simp only [applyValidatedEvent, Agents.applyEvent, payload, agentSessionFailedPayload]
    rfl
  have stopped : NoRunningAgents session'.model ↔
      RunningLinksReached session.model.agentSessions := by
    rw [NoRunningAgents, interrupted, interruptLinks_stops_iff, links]
    -- every running child is on the list of updates
    refine and_iff_right fun link member running => ?_
    exact mem_map.mpr ⟨link, mem_filter.mpr ⟨member, by simpa using running⟩, rfl⟩
  rw [← settled, ← stopped]
  exact ⟨fun quiet => ⟨quiet.turn, quiet.agents⟩, fun both => ⟨both.1, both.2⟩⟩

/-! ### The turn protocol -/

private theorem turnCompleted_turnSettled {turnId : Option TurnId}
    (appends : Appends [(turnId, .turnCompleted finishReason)] session session')
    (own : turnId = none ∨ turnId = session.model.execution.unsettledTurnId)
    (tail : session.model.modelContext.tailUnansweredToolCalls = []) :
    TurnSettled session'.model ∧
      session'.model.agentSessions = session.model.agentSessions := by
  obtain ⟨execution, noCalls, links⟩ := turnCompleted_settles appends own tail
  refine ⟨⟨?_, ?_, noCalls⟩, links⟩
  · simp [execution, Execution.settle, Phase.isAtRest]
  · simp [execution, Execution.settle]

/-- At rest nothing is completed: what is appended, if anything, puts the turn under way. -/
private theorem repairIncomplete_ok (atRest : session.model.execution.phase.isAtRest = true)
    (done : repairIncompleteToolProtocolForState journal session.model session =
      (.ok (), session')) :
    session'.model.agentSessions = session.model.agentSessions ∧
      (TurnSettled session'.model ↔ session.model.execution.activeStep = none ∧
        session.model.toolCallsNeedingInterruption = []) := by
  obtain ⟨count, mid, interrupting, rest⟩ :=
    bind_ok_iff.mp (mapError_ok_iff.mp done)
  obtain ⟨rfl, answered⟩ := emitInterruptedToolResults_ok interrupting
  -- nothing to answer means nothing appended; one answer is enough to leave rest
  by_cases none : session.model.toolCallsNeedingInterruption = []
  · rw [none] at answered rest
    obtain ⟨-, rfl⟩ := pure_ok_iff.mp rest
    have model : session'.model = session.model := answered.frame id (by simp [answers])
    rw [model]
    exact ⟨rfl, fun settled => ⟨settled.noStep, none⟩,
      fun ⟨noStep, noCalls⟩ => ⟨atRest, noStep, noCalls⟩⟩
  · have pending : decide (0 < session.model.toolCallsNeedingInterruption.length) = true := by
      simpa [length_pos_iff] using none
    rw [pending] at rest
    obtain ⟨-, -, execution, links⟩ := turnAbortedContext_closes (emitTurnAbortedContext_ok rest)
    refine ⟨by rw [links, answers_agentSessions answered], ?_⟩
    have moved : session'.model.execution.phase.isAtRest = false := by
      rw [execution]
      rcases answers_phase answered none with phase | phase <;> rw [phase] <;> rfl
    constructor
    · intro settled
      rw [settled.atRest] at moved
      cases moved
    · rintro ⟨-, noCalls⟩
      contradiction

private theorem repairStalePhase_ok
    (done : repairStalePhaseForState journal session.model session = (.ok (), session')) :
    session'.model.agentSessions = session.model.agentSessions ∧ TurnSettled session'.model := by
  unfold repairStalePhaseForState at done
  split at done
  · cases done
  · obtain ⟨count, answeredSession, interrupting, rest⟩ :=
      bind_ok_iff.mp (mapError_ok_iff.mp done)
    obtain ⟨⟨⟩, abortedSession, aborting, completing⟩ := bind_ok_iff.mp rest
    obtain ⟨-, answered⟩ := emitInterruptedToolResults_ok interrupting
    obtain ⟨closed, -, -, links⟩ := turnAbortedContext_closes (emitTurnAbortedContext_ok aborting)
    obtain ⟨settled, kept⟩ := turnCompleted_turnSettled (emit_ok completing) (.inl rfl) closed
    exact ⟨by rw [kept, links, answers_agentSessions answered], settled⟩

/-- The repair of the turn: from a turn under way always, at rest only with nothing to do. -/
theorem repairTurnProtocolState_ok
    (done : repairTurnProtocolState journal session = (.ok state, session')) :
    state = session.model ∧ session'.model.agentSessions = session.model.agentSessions ∧
      (TurnSettled session'.model ↔
        session.model.execution.phase.isAtRest = false ∨
          session.model.execution.activeStep = none ∧
            session.model.toolCallsNeedingInterruption = []) := by
  rw [repairTurnProtocolState, readModel_bind] at done
  split at done
  · next atRest =>
    obtain ⟨⟨⟩, mid, repaired, rest⟩ := bind_ok_iff.mp done
    obtain ⟨rfl, rfl⟩ := pure_ok_iff.mp rest
    obtain ⟨links, settled⟩ := repairIncomplete_ok atRest repaired
    refine ⟨rfl, links, settled.trans ?_⟩
    simp [atRest]
  · next underWay =>
    obtain ⟨⟨⟩, mid, repaired, rest⟩ := bind_ok_iff.mp done
    obtain ⟨rfl, rfl⟩ := pure_ok_iff.mp rest
    obtain ⟨links, settled⟩ := repairStalePhase_ok repaired
    exact ⟨rfl, links, fun _ => .inl (by simpa using underWay), fun _ => settled⟩

/-! ### The whole repair -/

/-- What a session has to look like for one repair to leave nothing behind. -/
def RepairedAtOnce (model : SessionReadModel) : Prop :=
  (model.execution.phase.isAtRest = false ∨
    model.execution.activeStep = none ∧ model.toolCallsNeedingInterruption = []) ∧
  RunningLinksReached model.agentSessions

private theorem sync_model (done : syncDurableEventsRequired journal session = (.ok (), session')) :
    session'.model = session.model :=
  (syncDurableEvents_ok (mapError_ok_iff.mp done)).frame id (by simp)

theorem repairStaleLocked_ok
    (done : repairStaleLocked journal (fun _ => false) session = (.ok (), session')) :
    Quiet session'.model ↔ RepairedAtOnce session.model := by
  rw [repairStaleLocked, readModel_bind, if_neg Bool.false_ne_true] at done
  obtain ⟨state, protocolSession, protocol, rest⟩ := bind_ok_iff.mp done
  obtain ⟨⟨⟩, runsSession, runs, syncing⟩ := bind_ok_iff.mp rest
  obtain ⟨rfl, links, settled⟩ := repairTurnProtocolState_ok protocol
  rw [sync_model syncing, repairStaleRunsForState_quiet_iff runs links.symm, settled, links]
  rfl

private theorem finalizeTurn_completes {turnId : TurnId}
    (underWay : session.model.execution.phase ≠ .idle)
    (done : finalizeTurn journal turnId ⟨finishReason, none, false, false⟩ session =
      (.ok (), session')) :
    session.model.toolCallsNeedingInterruption = [] ∧
      Appends [(some turnId, .turnCompleted finishReason)] session session' := by
  rw [finalizeTurn, if_neg Bool.false_ne_true, readModel_bind, if_neg underWay] at done
  obtain ⟨⟨⟩, mid, noError, completing⟩ := bind_ok_iff.mp done
  obtain ⟨-, rfl⟩ := pure_ok_iff.mp noError
  exact emitTurnCompleted_ok completing

/-- A turn that is not resumed is left alone, or gets the completion it lacks. -/
theorem resumeStaleExecution_none
    (done : resumeStaleExecution journal (fun _ => false) session = (.ok none, session')) :
    session'.model = session.model ∨
      session.model.execution.phase.isAtRest = false ∧ TurnSettled session'.model ∧
        session'.model.agentSessions = session.model.agentSessions := by
  rw [resumeStaleExecution, readModel_bind] at done
  by_cases atRest : session.model.execution.phase.isAtRest = true
  · rw [atRest, Bool.or_true, if_pos rfl] at done
    obtain ⟨-, rfl⟩ := pure_ok_iff.mp done
    exact .inl rfl
  · have underWay : session.model.execution.phase.isAtRest = false := by simpa using atRest
    rw [underWay, Bool.or_self, if_neg Bool.false_ne_true] at done
    -- only a turn with an active step goes on
    cases unsettled : session.model.execution.unsettledTurnId with
    | none =>
      rw [unsettled] at done
      obtain ⟨-, rfl⟩ := pure_ok_iff.mp done
      exact .inl rfl
    | some turnId =>
      cases active : session.model.execution.activeStep with
      | none =>
        rw [unsettled, active] at done
        obtain ⟨-, rfl⟩ := pure_ok_iff.mp done
        exact .inl rfl
      | some step =>
        rw [unsettled, active] at done
        cases finished : step.finishReason with
        | none =>
          simp only [finished] at done
          obtain ⟨_, _, -, rest⟩ := bind_ok_iff.mp done
          obtain ⟨_, _, -, rest⟩ := bind_ok_iff.mp rest
          obtain ⟨wrong, -⟩ := pure_ok_iff.mp rest
          cases wrong
        | some finishReason =>
          simp only [finished] at done
          obtain ⟨⟨⟩, completed, completing, rest⟩ := bind_ok_iff.mp done
          obtain ⟨⟨⟩, synced, syncing, rest⟩ := bind_ok_iff.mp rest
          obtain ⟨-, rfl⟩ := pure_ok_iff.mp rest
          have notIdle : session.model.execution.phase ≠ .idle := by
            intro idle
            simp [idle, Phase.isAtRest] at underWay
          obtain ⟨noCalls, appends⟩ :=
            finalizeTurn_completes notIdle (mapError_ok_iff.mp completing)
          have tail := (toolCallsNeedingInterruption_eq_nil_iff.mp noCalls).2
          rw [sync_model syncing]
          exact .inr ⟨underWay, turnCompleted_turnSettled appends (.inr unsettled.symm) tail⟩

private theorem reserveNextPending_none {active : SessionId → Bool}
    (done : reserveNextPending active session = (.ok none, session')) :
    session' = session ∧ session.model.execution.pendingInputs = [] := by
  rw [reserveNextPending, readModel_bind] at done
  cases inputs : session.model.execution.pendingInputs with
  | nil =>
    rw [inputs] at done
    exact ⟨(pure_ok_iff.mp done).2, rfl⟩
  | cons entry entries =>
    rw [inputs] at done
    obtain ⟨_, _, -, rest⟩ := bind_ok_iff.mp done
    split at rest
    · cases rest
    · obtain ⟨wrong, -⟩ := pure_ok_iff.mp rest
      cases wrong

/-- When no turn is registered, a repair that neither resumes the turn nor starts an input leaves
nothing to repair exactly when the turn was under way, or at rest with no active step and no
call to answer, and every running agent is the first link to its child. -/
theorem repairStale_quiet_iff
    (done : repairStale journal (fun _ => false) session = (.ok .repaired, session')) :
    (Quiet session'.model ↔ RepairedAtOnce session.model) ∧
      (needsStaleRepair session'.model = false ↔ RepairedAtOnce session.model) := by
  obtain ⟨resumed, mid, resuming, rest⟩ := bind_ok_iff.mp done
  cases resumed with
  | some turnId =>
    obtain ⟨wrong, -⟩ := pure_ok_iff.mp rest
    cases wrong
  | none =>
    obtain ⟨⟨⟩, locked, repairing, rest⟩ := bind_ok_iff.mp rest
    obtain ⟨reserved, final, reserving, rest⟩ := bind_ok_iff.mp rest
    cases reserved with
    | some entry =>
      obtain ⟨wrong, -⟩ := pure_ok_iff.mp rest
      cases wrong
    | none =>
      obtain ⟨-, rfl⟩ := pure_ok_iff.mp rest
      obtain ⟨rfl, inputs⟩ := reserveNextPending_none reserving
      have quiet : Quiet session'.model ↔ RepairedAtOnce session.model := by
        rw [repairStaleLocked_ok repairing]
        rcases resumeStaleExecution_none resuming with same | ⟨underWay, settled, links⟩
        · rw [same]
        -- completed while resuming: the second part of the repair finds nothing to do
        · exact ⟨fun once => ⟨.inl underWay, links ▸ once.2⟩,
            fun once => ⟨.inr ⟨settled.noStep, settled.noCalls⟩, links ▸ once.2⟩⟩
      exact ⟨quiet, needsStaleRepair_eq_false_iff.trans ((and_iff_left inputs).trans quiet)⟩

end Repair

/-! A process that dies right after the error of a step is durable leaves the session in
`Error` with the step active. One that dies in the middle of a call is repaired. -/

def erroredStep : SessionReadModel :=
  sampleTurn [.turnStarted, .userMessage "m1" "hello" [] none, .stepStarted 0 1,
    .errorOccurred jsonRpcInternalError "provider failed" false]

def interruptedCall : SessionReadModel :=
  sampleTurn [.turnStarted, .userMessage "m1" "hello" [] none,
    .assistantMessageCompleted "m2" "" none, .toolCallRequested "call-1" "shell" .null none]

theorem repairStale_errored_step :
    ReplayReachable erroredStep ∧
      ∃ session', repairStale (sampleJournal 0) (fun _ => false) ⟨erroredStep, 0, []⟩ =
          (.ok .repaired, session') ∧
        session'.model.execution.phase = .error ∧
        session'.model.execution.activeStep = some ⟨0, 1, false, none⟩ ∧
        session'.model.execution.pendingInputs = [] ∧ needsStaleRepair session'.model = true := by
  refine ⟨sampleTurn_reachable (by decide +kernel),
    (repairStale (sampleJournal 0) (fun _ => false) ⟨erroredStep, 0, []⟩).2, ?_⟩
  have outcome : (repairStale (sampleJournal 0) (fun _ => false) ⟨erroredStep, 0, []⟩).1 =
      .ok .repaired := by decide +kernel
  exact ⟨Prod.ext outcome rfl, by decide +kernel, by decide +kernel, by decide +kernel,
    by decide +kernel⟩

theorem repairStale_interrupted_call :
    ∃ session', repairStale (sampleJournal 0) (fun _ => false) ⟨interruptedCall, 0, []⟩ =
        (.ok .repaired, session') ∧ needsStaleRepair session'.model = false := by
  have outcome : (repairStale (sampleJournal 0) (fun _ => false) ⟨interruptedCall, 0, []⟩).1 =
      .ok .repaired := by decide +kernel
  have done : repairStale (sampleJournal 0) (fun _ => false) ⟨interruptedCall, 0, []⟩ =
      (.ok .repaired, (repairStale (sampleJournal 0) (fun _ => false) ⟨interruptedCall, 0, []⟩).2) :=
    Prod.ext outcome rfl
  have once : RepairedAtOnce interruptedCall := by
    refine ⟨.inl (by decide +kernel), ?_⟩
    exact List.Pairwise.nil
  exact ⟨_, done, (repairStale_quiet_iff done).2.mpr once⟩

end Astrcode
