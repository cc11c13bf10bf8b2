import Astrcode.Properties.Emission
import Astrcode.Properties.ToolScope
import Astrcode.Server.ChildTurns

/-!
# Results of child turns

A caller that waits for the turn of a descendant gets its output exactly if its own link to
the descendant is running, or shows the same end already. A session has a link to its direct
children only, and the first turn of a child ends the link, so that neither a deeper
descendant nor a second turn of a child has its result returned; and where the result is not
returned, the next queued input of the descendant is not started either.
-/
namespace Astrcode

variable {output : String} {server : ChildSessionCoordinator}

open SessionRepository List

open Library hiding bind_ok_iff

namespace ChildSessionCoordinator

variable {drainNames : TurnId → Names} {turnId : TurnId}

open Program (bind_ok_iff)

/-! ### What the programs leave alone -/

/-- Logs grow and turns come and go; a turn that has come has not ended. -/
structure Careful (server server' : ChildSessionCoordinator) : Prop where
  guards : server'.guards = server.guards
  terminals : server'.terminals = server.terminals
  registry : ∀ sessionId active, server'.registry sessionId = some active →
    active.finalization = none ∨ server.registry sessionId = some active

namespace Careful

variable {server mid server' : ChildSessionCoordinator}

theorem refl (server : ChildSessionCoordinator) : Careful server server :=
  ⟨rfl, rfl, fun _ _ found => .inr found⟩

theorem trans (first : Careful server mid) (second : Careful mid server') :
    Careful server server' := by
  refine ⟨second.guards.trans first.guards, second.terminals.trans first.terminals, ?_⟩
  intro sessionId active found
  obtain new | old := second.registry sessionId active found
  · exact .inl new
  · exact first.registry sessionId active old

end Careful

/-- A program that changes nothing else, whether it succeeds or not. -/
def Steady {ε α : Type} (x : Program ε ChildSessionCoordinator α) : Prop :=
  ∀ server, Careful server (x server).2

namespace Steady

variable {ε δ α β : Type} {x : Program ε ChildSessionCoordinator α}

theorem of_pure (a : α) : Steady (pure a : Program ε ChildSessionCoordinator α) := .refl

theorem of_fail (e : ε) : Steady (Program.fail e : Program ε ChildSessionCoordinator α) := .refl

theorem bind
    {f : α → Program ε ChildSessionCoordinator β} (head : Steady x) (tail : ∀ a, Steady (f a)) :
    Steady (x >>= f) :=
  Program.bind_rel Careful Careful Careful head tail id Careful.trans

theorem read {f : ChildSessionCoordinator → Program ε ChildSessionCoordinator β}
    (tail : ∀ server, Steady (f server)) : Steady (Program.read >>= f) :=
  bind .refl tail

theorem mapError (f : ε → δ) (steady : Steady x) :
    Steady (x.mapError f) := by
  intro server
  rw [Program.mapError_snd]
  exact steady server

theorem orNone (steady : Steady x) :
    Steady (x.orNone : Program δ ChildSessionCoordinator (Option α)) := by
  intro server
  rw [Program.orNone_snd]
  exact steady server

theorem ite {x y : Program ε ChildSessionCoordinator α} (condition : Prop) [Decidable condition]
    (first : Steady x) (second : Steady y) : Steady (if condition then x else y) := by
  split
  · exact first
  · exact second

end Steady

section Programs

variable (names : Names) (sessionId : SessionId) (input : UserInput)

theorem readSession_steady : Steady (readSession sessionId) := by
  intro server
  simp only [readSession]
  split
  all_goals exact .refl server

theorem onSession_steady {α : Type} (program : Program ChildTurnError Session α) :
    Steady (onSession sessionId program) := by
  intro server
  simp only [onSession]
  split
  · exact ⟨rfl, rfl, fun _ _ found => .inr found⟩
  · exact .refl server

theorem setActive_steady (active : Option ActiveTurn)
    (begun : ∀ turn, active = some turn → turn.finalization = none) :
    Steady (setActive sessionId active) := by
  intro server
  refine ⟨rfl, rfl, fun other turn found => ?_⟩
  change Function.update server.registry sessionId active other = some turn at found
  -- only the entry of this session changes, and only to a turn that has not ended
  by_cases same : other = sessionId
  · subst same
    rw [Function.update_self] at found
    exact .inl (begun turn found)
  · rw [Function.update_of_ne same] at found
    exact .inr found

theorem validateUserInput_steady :
    Steady (validateUserInput input : Program TurnScheduleError ChildSessionCoordinator Unit) := by
  apply Steady.ite
  · exact .of_fail _
  · apply Steady.ite
    · exact .of_fail _
    · exact .of_pure _

theorem startReservedExecution_steady (acceptedSeq : Option Nat) :
    Steady (startReservedExecution names sessionId input acceptedSeq) := by
  apply Steady.bind (onSession_steady _ _)
  intro _
  apply setActive_steady
  rintro _ ⟨⟩
  rfl

theorem startWithCompletion_steady : Steady (startWithCompletion names sessionId input) := by
  apply Steady.bind ((validateUserInput_steady input).mapError _)
  intro _
  apply Steady.bind (readSession_steady _)
  intro model
  apply Steady.ite
  · exact .of_fail _
  · apply Steady.read
    intro server
    apply Steady.ite
    · exact .of_fail _
    · exact startReservedExecution_steady names sessionId input none

theorem startHead_steady : Steady (startHead names sessionId) := by
  apply Steady.read
  intro server
  apply Steady.bind (onSession_steady _ _)
  rintro (_ | entry)
  · exact .of_pure _
  · apply Steady.bind (Steady.orNone (startReservedExecution_steady _ _ _ _))
    intro _
    exact .of_pure _

theorem startNextAfterSettle_steady : Steady (startNextAfterSettle names sessionId) := by
  apply Steady.read
  intro server
  apply Steady.ite
  · exact .of_pure _
  · exact startHead_steady names sessionId

theorem settleFinishedExecution_steady (turnId : TurnId) (finalization : Option TurnFinalization) :
    Steady (settleFinishedExecution names sessionId turnId finalization) := by
  apply Steady.read
  intro server
  apply Steady.bind (onSession_steady _ _)
  intro settled
  apply Steady.ite
  · apply Steady.bind (setActive_steady _ none (by simp))
    intro _
    exact .of_pure _
  · exact .of_pure _

theorem settleChild_steady (guard : ChildSessionCompletionGuard) (completion : ChildCompletion) :
    Steady (settleChild names guard completion) := by
  apply Steady.ite
  · exact .of_pure _
  · apply Steady.bind
    · apply Steady.bind (onSession_steady _ _)
      intro _
      exact settleFinishedExecution_steady _ _ _ _
    · intro settled
      apply Steady.read
      intro server
      apply Steady.ite
      · exact .of_pure _
      · exact .of_fail _

theorem acceptPendingInput_steady : Steady (acceptPendingInput names sessionId input) := by
  apply Steady.bind (readSession_steady _)
  intro model
  apply Steady.ite
  · exact .of_fail _
  · exact onSession_steady _ _

theorem enqueueAndStartHead_steady : Steady (enqueueAndStartHead names sessionId input) := by
  apply Steady.bind (acceptPendingInput_steady names sessionId input)
  intro _
  apply Steady.bind (startHead_steady names sessionId)
  intro _
  exact .of_pure _

theorem queueBehind_steady (active : ActiveTurn) :
    Steady (queueBehind names sessionId input active) := by
  apply Steady.ite
  · apply Steady.bind (Steady.orNone (settleFinishedExecution_steady _ _ _ _))
    intro settled
    split
    · exact enqueueAndStartHead_steady names sessionId input
    · exact acceptPendingInput_steady names sessionId input
  · exact acceptPendingInput_steady names sessionId input

theorem queueIfRunningElseStart_steady :
    Steady (queueIfRunningElseStart names sessionId input) := by
  apply Steady.bind ((validateUserInput_steady input).mapError _)
  intro _
  apply Steady.read
  intro server
  split
  · exact queueBehind_steady _ _ _ _
  · apply Steady.bind (readSession_steady _)
    intro model
    apply Steady.ite
    · exact enqueueAndStartHead_steady names sessionId input
    · exact startReservedExecution_steady names sessionId input none

end Programs

/-! ### Other turns -/

/-- The guard of a turn and its caller are not touched, nor is the end of any turn on record. -/
structure Apart (own : TurnId) (server server' : ChildSessionCoordinator) : Prop where
  guards : server'.guards.filter (·.turnId = own) = server.guards.filter (·.turnId = own)
  terminals : server'.terminals own = server.terminals own
  registry : ∀ sessionId active, server'.registry sessionId = some active →
    active.finalization = none ∨ server.registry sessionId = some active

section Apart

variable {own : TurnId} {server mid server' : ChildSessionCoordinator}

theorem Careful.apart (careful : Careful server server') : Apart own server server' :=
  ⟨by rw [careful.guards], by rw [careful.terminals], careful.registry⟩

namespace Apart

theorem refl (server : ChildSessionCoordinator) : Apart own server server := (Careful.refl server).apart

theorem trans (first : Apart own server mid) (second : Apart own mid server') :
    Apart own server server' := by
  refine ⟨second.guards.trans first.guards, second.terminals.trans first.terminals, ?_⟩
  intro sessionId active found
  obtain new | old := second.registry sessionId active found
  · exact .inl new
  · exact first.registry sessionId active old

theorem foldl {α : Type} {step : ChildSessionCoordinator → α → ChildSessionCoordinator}
    {as : List α} (each : ∀ a ∈ as, ∀ server, Apart own server (step server a))
    (server : ChildSessionCoordinator) : Apart own server (as.foldl step server) := by
  induction as generalizing server with
  | nil => exact refl server
  | cons a as ih =>
    obtain ⟨first, rest⟩ := forall_mem_cons.mp each
    exact (first server).trans (ih rest (step server a))

variable {guard : ChildSessionCompletionGuard}

theorem claim (other : guard.turnId ≠ own) (server : ChildSessionCoordinator) :
    Apart own server (server.claim guard) := by
  refine ⟨?_, rfl, fun _ _ found => .inr found⟩
  simp only [ChildSessionCoordinator.claim, filter_filter]
  -- claiming takes out one guard, and it is not one of the turn's
  refine filter_congr fun candidate _ => ?_
  by_cases same : candidate.turnId = own
  · simp [same, other.symm]
  · simp [same]

theorem restore (other : guard.turnId ≠ own) (server : ChildSessionCoordinator) :
    Apart own server (server.restoreCompletionGuard guard) := by
  refine ⟨?_, rfl, fun _ _ found => .inr found⟩
  simp [restoreCompletionGuard, other]

theorem finish (other : turnId ≠ own) (result : Except ChildTurnError Unit)
    (server : ChildSessionCoordinator) : Apart own server (server.finishTerminal turnId result) := by
  refine ⟨rfl, ?_, fun _ _ found => .inr found⟩
  exact Function.update_of_ne other.symm _ _

end Apart

/-- The stages of draining a guard. The first that fails is the last. -/
private def drainStages (names : Names) (guard : ChildSessionCompletionGuard)
    (completion : ChildCompletion) : ChildM Unit := do
  settleChild names guard completion
  writeTerminalForGuard names { guard with childSettled := true } completion
  let _ ← startNextAfterSettle names guard.childSessionId

section Stages

variable (names : Names) (guard : ChildSessionCompletionGuard) (completion : ChildCompletion)
  (server : ChildSessionCoordinator)

private theorem drainStages_steady : Steady (drainStages names guard completion) := by
  apply Steady.bind (settleChild_steady names guard completion)
  intro _
  apply Steady.bind (onSession_steady _ _)
  intro _
  apply Steady.bind (startNextAfterSettle_steady names guard.childSessionId)
  intro _
  exact .of_pure _

/-- The caller is told how the stages ended. Where one fails the guard may be kept. -/
private theorem drainClaimed_eq : ∃ kept,
    server.drainClaimed names guard completion =
      kept.finishTerminal guard.turnId (drainStages names guard completion server).1 ∧
    (kept = (drainStages names guard completion server).2 ∨
      (drainStages names guard completion server).1 ≠ .ok () ∧ ∃ again, again.turnId = guard.turnId ∧
        kept = (drainStages names guard completion server).2.restoreCompletionGuard again) := by
  simp only [drainClaimed]
  split
  · next e after run =>
    rw [show drainStages names guard completion server = (.error e, after) from
      Program.bind_error run]
    refine ⟨_, rfl, ?_⟩
    split
    · exact .inl rfl
    · exact .inr ⟨nofun, guard, rfl, rfl⟩
  · next after run =>
    rw [show drainStages names guard completion server = _ from Program.bind_eq run]
    split
    · next run' =>
      rw [Program.bind_error run']
      exact ⟨_, rfl, .inl rfl⟩
    · next run' =>
      rw [Program.bind_error run']
      exact ⟨_, rfl, .inr ⟨nofun, { guard with childSettled := true }, rfl, rfl⟩⟩
    · next after' run' =>
      rw [Program.bind_eq run']
      split
      · next run'' =>
        rw [Program.bind_error run'']
        exact ⟨_, rfl, .inr ⟨nofun, { guard with childSettled := true }, rfl, rfl⟩⟩
      · next run'' =>
        rw [Program.bind_eq run'']
        exact ⟨_, rfl, .inl rfl⟩

end Stages

theorem drainClaimed_apart (names : Names) {guard : ChildSessionCompletionGuard}
    (completion : ChildCompletion) (other : guard.turnId ≠ own) (server : ChildSessionCoordinator) :
    Apart own server (server.drainClaimed names guard completion) := by
  have stages := @Careful.apart own _ _ (drainStages_steady names guard completion server)
  obtain ⟨kept, same, which⟩ := drainClaimed_eq names guard completion server
  rw [same]
  refine Apart.trans ?_ (.finish other _ _)
  rcases which with rfl | ⟨-, again, named, rfl⟩
  · exact stages
  · exact stages.trans (.restore (named ▸ other) _)

theorem drainGuard_apart (names : Names) (other : turnId ≠ own)
    (server : ChildSessionCoordinator) : Apart own server (server.drainGuard names turnId) := by
  simp only [drainGuard]
  split
  · exact .refl server
  · next guard found =>
    have named : guard.turnId = turnId := by simpa using find?_some found
    have different : guard.turnId ≠ own := named ▸ other
    split
    · exact .refl server
    · exact (Apart.claim different server).trans (drainClaimed_apart names _ different _)

theorem interim_apart (server : ChildSessionCoordinator) (step : Interim) :
    Apart own server (interim own server step) := by
  cases step with
  | record event =>
    simp only [interim]
    split
    · exact ⟨rfl, rfl, fun _ _ found => .inr found⟩
    · exact .refl server
  | deliver names sessionId input =>
    exact (queueIfRunningElseStart_steady names sessionId input server).apart
  | drain names turnId =>
    simp only [interim]
    split
    · exact .refl server
    · next other => exact drainGuard_apart names other server

theorem interims_apart (steps : List Interim) (server : ChildSessionCoordinator) :
    Apart own server (steps.foldl (interim own) server) :=
  Apart.foldl (fun step _ server => interim_apart server step) server

end Apart

/-! ### Waiting for the end -/

/-- The id of a new turn is not in use. -/
structure Unused (turnId : TurnId) (server : ChildSessionCoordinator) : Prop where
  guards : ∀ guard ∈ server.guards, guard.turnId ≠ turnId
  terminals : server.terminals turnId = none

variable {submission : Submission} {server begun server' : ChildSessionCoordinator}

/-- The turn has ended and its guard is there to be drained. -/
structure Waiting (submission : Submission) (server : ChildSessionCoordinator) : Prop where
  guards : server.guards.filter (·.turnId = submission.turnId) =
    [{ submission.guard with completion := some submission.completion }]
  terminals : server.terminals submission.turnId = none
  registry : ∀ active, server.registry submission.target = some active →
    active.turnId = submission.turnId →
    active.finalization = none ∨ active.finalization = submission.completion.finalization

theorem Waiting.apart (waiting : Waiting submission server)
    (apart : Apart submission.turnId server server') : Waiting submission server' := by
  refine ⟨apart.guards.trans waiting.guards, apart.terminals.trans waiting.terminals, ?_⟩
  intro active found named
  obtain new | old := apart.registry submission.target active found
  · exact .inl new
  · exact waiting.registry active old named

private theorem admitTurn_ok
    (admitted : admitTurn submission server = (.ok (), server')) : server = server' := by
  simp only [admitTurn] at admitted
  split at admitted
  · cases admitted
  · split at admitted
    · cases admitted
    · cases admitted
      rfl

private theorem beginTurn_ok (began : beginTurn submission drainNames server = (.ok (), begun)) :
    ∃ started, Careful server started ∧
      begun = { started with guards := started.guards ++ [submission.guard] }.drainCompleted
        drainNames submission.caller := by
  obtain ⟨⟨⟩, _, admitted, began⟩ := bind_ok_iff.mp began
  obtain rfl := admitTurn_ok admitted
  obtain ⟨⟨⟩, started, run, rest⟩ := bind_ok_iff.mp began
  have steady := startWithCompletion_steady submission.names submission.target
    ⟨submission.userPrompt, []⟩ server
  rw [Program.mapError_ok_iff.mp run] at steady
  cases rest
  exact ⟨started, steady, rfl⟩

private theorem waiting_turnEnds
    (guards : server.guards.filter (·.turnId = submission.turnId) = [submission.guard])
    (terminals : server.terminals submission.turnId = none) :
    Waiting submission
      (server.turnEnds submission.target submission.turnId submission.completion) := by
  refine ⟨?_, terminals, fun active found named => .inr ?_⟩
  -- the end of the turn is noted on its guard and changes no guard's id
  · simp only [turnEnds, filter_map]
    have same : ((fun guard : ChildSessionCompletionGuard => decide (guard.turnId = submission.turnId)) ∘
        fun guard => if guard.turnId = submission.turnId then
          { guard with completion := guard.completion.or (some submission.completion) } else guard) =
        fun guard => decide (guard.turnId = submission.turnId) := by
      funext guard
      by_cases named : guard.turnId = submission.turnId
      all_goals simp [named]
    rw [same, guards]
    simp
  · simp only [turnEnds, Function.update_self, Option.map_eq_some_iff] at found
    obtain ⟨before, -, rfl⟩ := found
    split at named
    · next same => rw [if_pos same]
    · next different => exact absurd named different

/-- Until it is drained, the guard of a submitted turn stays where it is. -/
theorem waiting_ended (unused : Unused submission.turnId server)
    (began : beginTurn submission drainNames server = (.ok (), begun)) :
    Waiting submission (begun.ended submission) := by
  obtain ⟨started, careful, rfl⟩ := beginTurn_ok began
  have alone : started.guards.filter (·.turnId = submission.turnId) = [] := by
    rw [careful.guards, filter_eq_nil_iff]
    intro guard member
    simpa using unused.guards guard member
  -- the guard does not count as ended yet, so the first pass over the guards is about others
  have passed : Apart submission.turnId
      { started with guards := started.guards ++ [submission.guard] }
      ({ started with guards := started.guards ++ [submission.guard] }.drainCompleted drainNames
        submission.caller) := by
    refine Apart.foldl (fun guard member server => drainGuard_apart _ ?_ server) _
    -- a guard that is drained here has another id, or is the new one
    obtain ⟨member, ended⟩ := mem_filter.mp member
    obtain old | new := mem_append.mp member
    · simpa using filter_eq_nil_iff.mp alone guard old
    · obtain rfl := mem_singleton.mp new
      simp at ended
  have running := passed.trans (interims_apart submission.meanwhile _)
  refine Waiting.apart (waiting_turnEnds (running.guards.trans ?_) (running.terminals.trans ?_))
    (interims_apart submission.afterwards _)
  · rw [filter_append, alone]
    simp
  · exact (congrFun careful.terminals _).trans unused.terminals

/-! ### The log of a session -/

section Sessions

variable {repository : SessionRepository} {sessionId other : SessionId} {model : SessionReadModel}

private theorem extend_nil : repository.extend sessionId [] = repository := by
  simp [extend]

private theorem sessionReadModel_extend_other (different : other ≠ sessionId)
    (events : List StoredEvent) :
    (repository.extend sessionId events).sessionReadModel other =
      repository.sessionReadModel other := by
  simp only [extend]
  split
  · rfl
  · rfl
  · simp [sessionReadModel, tableModel, tableEvents, AList.lookup_insert_ne different]

/-- Events that are appended to the log of a session are in it. -/
private theorem mem_replayEvents_extend (read : repository.sessionReadModel sessionId = .ok model)
    {events : List StoredEvent} {event : StoredEvent} (member : event ∈ events) :
    ∃ log, (repository.extend sessionId events).replayEvents sessionId = .ok log ∧ event ∈ log := by
  obtain ⟨valid, log, found, -⟩ := tableModel_ok_iff.mp read
  cases events with
  | nil => cases member
  | cons first rest =>
    refine ⟨log ++ first :: rest, ?_, mem_append_right _ member⟩
    simp only [extend, found, replayEvents,
      tableEvents, valid, AList.lookup_insert]
    rfl

variable (names : Names) (session : Session)

private theorem journal_outcome (n : Nat) : names.journal.outcome n = none := by
  induction n with
  | zero => rfl
  | succ n ih =>
    rw [SessionJournal.outcome, ih]
    rfl

private theorem sync_taken :
    Program.mapError ChildTurnError.schedule (syncDurableEventsRequired names.journal) session =
      (.ok (), { session with operations := session.operations + 1 }) := by
  simp [syncDurableEventsRequired, Session.syncDurableEvents, Program.mapError, journal_outcome]

/-- Working storage takes every event there is a number for. -/
private theorem emitDurable_taken (turnId : Option TurnId) (payload : DurableEventPayload)
    (plain : Plain payload) (room : session.model.stats.lastSeq + 1 < u64Limit) :
    ∃ stored session', emitDurable names.journal turnId payload session = (.ok stored, session') ∧
      Appends [(turnId, payload)] session session' := by
  cases done : emitDurable names.journal turnId payload session with
  | mk result session' =>
    cases result with
    | ok stored => exact ⟨stored, session', rfl, emitDurable_ok done⟩
    | error e =>
      -- without a write error only a full log refuses an event
      obtain ⟨-, failed | full⟩ := emitDurable_error plain done
      · exact absurd (journal_outcome names _) failed
      · exact absurd room (Nat.not_lt.mpr full)

private theorem emitTurnStartEvents_taken (messageId : MessageId) (input : UserInput)
    (turnId : TurnId) (acceptedSeq : Option Nat)
    (room : session.model.stats.lastSeq + 2 < u64Limit) :
    ∃ session', emitTurnStartEvents names.journal messageId input turnId acceptedSeq session =
        (.ok (), session') ∧
      Appends [(some turnId, .turnStarted),
        (some turnId, .userMessage messageId input.text input.attachments acceptedSeq)]
        session session' := by
  obtain ⟨_, mid, first, begun⟩ := emitDurable_taken names session (some turnId) .turnStarted
    ⟨rfl, rfl, rfl⟩ (by omega)
  have counted : mid.model.stats.lastSeq = session.model.stats.lastSeq + 1 := begun.lastSeq
  obtain ⟨_, session', second, asked⟩ := emitDurable_taken names mid (some turnId)
    (.userMessage messageId input.text input.attachments acceptedSeq) ⟨rfl, rfl, rfl⟩ (by omega)
  refine ⟨session', ?_, begun.trans asked⟩
  exact bind_ok_iff.mpr ⟨_, mid, first, bind_ok_iff.mpr ⟨_, session', second, rfl⟩⟩

end Sessions

/-! ### Draining the guard -/

/-- `validate_user_input` lets the input pass. -/
def Submittable (input : UserInput) : Prop :=
  input.canSubmit = true ∧ input.text.utf8ByteSize ≤ maxPromptTextBytes

variable (server)

/-- The queue can go on: a turn is registered, or the oldest input can be submitted. -/
def CanContinue (sessionId : SessionId) (model : SessionReadModel) : Prop :=
  (server.registry sessionId).isSome ∨
    ∀ entry, model.execution.pendingInputs.head? = some entry → Submittable entry.input

/-- The link shows a running child, or exactly this end of it. -/
def LinkAccepts (link : AgentSessionLinkView) (childSessionId : SessionId) (output : String) : Prop :=
  link.status = .running ∨
    link.status = .completed ∧ link.finalSessionId = some childSessionId ∧
      link.summary = some (inlinePreview output 159)

/-- There is a number for the next two events of every session. -/
def Room : Prop :=
  ∀ sessionId model, server.repository.sessionReadModel sessionId = .ok model →
    model.stats.lastSeq + 2 < u64Limit

/-- The turn is no longer registered. -/
def withoutTurn (sessionId : SessionId) (turnId : TurnId) :
    ChildSessionCoordinator :=
  { server with
    registry := Function.update server.registry sessionId
      ((server.registry sessionId).filter (·.turnId ≠ turnId)) }

/-- A turn has taken the queued input up. -/
def Started (sessionId : SessionId) (entry : PendingInput) (turnId : TurnId) : Prop :=
  server.registry sessionId = some ⟨turnId, none⟩ ∧
    ∃ log messageId, server.repository.replayEvents sessionId = .ok log ∧
      (some turnId, .userMessage messageId entry.input.text entry.input.attachments
        (some entry.acceptedSeq)) ∈ log.map StoredEvent.entry

variable {server}

section Drain

variable {link : Option AgentSessionLinkView} {child sessionId : SessionId}
  {finalization : TurnFinalization} {names : Names} {model : SessionReadModel}

section

variable {α : Type} {program : Program ChildTurnError Session α} {result : Except ChildTurnError α}
  {session : Session} (read : server.repository.sessionReadModel sessionId = .ok model)

include read

private theorem onSession_ok (run : program ⟨model, 0, []⟩ = (result, session)) :
    onSession sessionId program server = (result, { server with
      repository := server.repository.extend sessionId session.appended }) := by
  simp [onSession, read, run]

private theorem onSession_silent (run : program ⟨model, 0, []⟩ = (result, session))
    (silent : session.appended = []) :
    onSession sessionId program server = (result, server) := by
  rw [onSession_ok read run, silent, extend_nil]

private theorem onSession_reads {ε : Type} {f : ε → ChildTurnError}
    {program : Program ε Session α} {a : α} (run : program ⟨model, 0, []⟩ = (.ok a, ⟨model, 0, []⟩)) :
    onSession sessionId (Program.mapError f program) server = (.ok a, server) :=
  onSession_silent read (Program.mapError_ok_iff.mpr run) rfl

end

private theorem startReservedExecution_started (names : Names) (entry : PendingInput)
    (read : server.repository.sessionReadModel sessionId = .ok model)
    (room : model.stats.lastSeq + 2 < u64Limit) :
    ∃ server', startReservedExecution names sessionId entry.input (some entry.acceptedSeq) server =
        (.ok (), server') ∧ server'.Started sessionId entry names.turnId := by
  obtain ⟨session, emitted, stored, entries, -, appended⟩ :=
    emitTurnStartEvents_taken names ⟨model, 0, []⟩ names.messageId entry.input names.turnId
      (some entry.acceptedSeq) room
  have mapped := Program.mapError_ok_iff (f := ChildTurnError.turn) |>.mpr emitted
  have logged := onSession_ok read mapped
  refine ⟨_, bind_ok_iff.mpr ⟨(), _, logged, rfl⟩, Function.update_self .., ?_⟩
  -- the user message is among the events that were appended, hence in the log
  have asked : (some names.turnId, DurableEventPayload.userMessage names.messageId entry.input.text
      entry.input.attachments (some entry.acceptedSeq)) ∈ stored.map StoredEvent.entry := by
    simp [entries]
  obtain ⟨event, member, same⟩ := mem_map.mp asked
  obtain ⟨log, replayed, inside⟩ := mem_replayEvents_extend read member
  rw [appended, nil_append]
  exact ⟨log, names.messageId, replayed, mem_map.mpr ⟨event, inside, same⟩⟩

private theorem validateUserInput_cases {σ : Type} (input : UserInput) (state : σ) :
    validateUserInput input state = (.ok (), state) ∧ Submittable input ∨
      (∃ e, validateUserInput input state = (.error e, state)) ∧ ¬Submittable input := by
  simp only [validateUserInput, Submittable]
  split
  · next blank => exact .inr ⟨⟨_, rfl⟩, fun fine => by simp [fine.1] at blank⟩
  · split
    · next long => exact .inr ⟨⟨_, rfl⟩, fun fine => absurd fine.2 (Nat.not_le.mpr long)⟩
    · next filled short => exact .inl ⟨rfl, by simpa using filled, Nat.le_of_not_lt short⟩

private theorem reserveNextPending_cases (active : SessionId → Bool) (session : Session)
    (free : active session.model.identity.sessionId = false) :
    session.model.execution.pendingInputs.head? = none ∧
      reserveNextPending active session = (.ok none, session) ∨
    ∃ entry, session.model.execution.pendingInputs.head? = some entry ∧
      (Submittable entry.input ∧ reserveNextPending active session = (.ok (some entry), session) ∨
        ¬Submittable entry.input ∧ ∃ e, reserveNextPending active session = (.error e, session)) := by
  rw [reserveNextPending, readModel_bind]
  cases session.model.execution.pendingInputs.head? with
  | none => exact .inl ⟨rfl, rfl⟩
  | some entry =>
    refine .inr ⟨entry, rfl, ?_⟩
    obtain ⟨valid, fine⟩ | ⟨⟨e, refused⟩, bad⟩ := validateUserInput_cases entry.input session
    · refine .inl ⟨fine, ?_⟩
      refine (Program.bind_eq valid).trans ?_
      rw [free]
      rfl
    · exact .inr ⟨bad, e, Program.bind_error refused⟩

/-- The next input is started, unless it cannot be submitted. -/
private theorem startNextAfterSettle_cases (names : Names) (server : ChildSessionCoordinator)
    (read : server.repository.sessionReadModel sessionId = .ok model)
    (room : model.stats.lastSeq + 2 < u64Limit) :
    (∃ next server', startNextAfterSettle names sessionId server = (.ok next, server') ∧
      server.CanContinue sessionId model ∧
      ∀ entry, model.execution.pendingInputs.head? = some entry →
        server.registry sessionId = none ∧ server'.Started sessionId entry names.turnId ∨
        ∃ active, server.registry sessionId = some active ∧ server' = server) ∨
    (∃ e server', startNextAfterSettle names sessionId server = (.error e, server') ∧
      ¬server.CanContinue sessionId model) := by
  rw [startNextAfterSettle, Program.read_bind]
  cases registered : server.registry sessionId with
  | some active =>
    -- somebody has started a turn in between; it will go on with the queue
    refine .inl ⟨none, server, rfl, .inl (by simp [registered]), fun entry _ => .inr ?_⟩
    exact ⟨active, rfl, rfl⟩
  | none =>
    -- the program asks the log's own session, which is the one that was read
    have own : (server.registry model.identity.sessionId).isSome = false := by
      rw [tableModel_sessionId read, registered]
      rfl
    simp only [Option.isSome_none, Bool.false_eq_true, if_false]
    rw [startHead, Program.read_bind]
    obtain ⟨empty, run⟩ | ⟨entry, head, ⟨fine, run⟩ | ⟨bad, e, run⟩⟩ :=
      reserveNextPending_cases (fun other => (server.registry other).isSome) ⟨model, 0, []⟩ own
    · have reserved := onSession_reads (f := ChildTurnError.schedule) read run
      have waits : ∀ entry, model.execution.pendingInputs.head? ≠ some entry := by
        simp [show model.execution.pendingInputs.head? = none from empty]
      exact .inl ⟨none, server, Program.bind_eq reserved, .inr fun entry head => absurd head (waits entry),
        fun entry head => absurd head (waits entry)⟩
    · have reserved := onSession_reads (f := ChildTurnError.schedule) read run
      obtain ⟨server', begun, started⟩ := startReservedExecution_started names entry read room
      have next := Program.orNone_ok (δ := ChildTurnError) begun
      have only : ∀ other, model.execution.pendingInputs.head? = some other → other = entry :=
        fun other found => Option.some_inj.mp (found.symm.trans head)
      refine .inl ⟨some names.turnId, server', ?_, .inr fun other found => ?_, fun other found => ?_⟩
      · exact (Program.bind_eq reserved).trans (Program.bind_eq next)
      · exact only other found ▸ fine
      · exact .inl ⟨trivial, only other found ▸ started⟩
    · have refused := onSession_silent read
        (Program.mapError_error (f := ChildTurnError.schedule) run) rfl
      refine .inr ⟨_, server, Program.bind_error refused, ?_⟩
      rintro (busy | fine)
      · simp [registered] at busy
      · exact bad (fine entry head)

/-- A relation is recorded once, if the link is open for it. -/
private theorem recordChildRelation_run (names : Names) (parent : SessionId)
    (update : ChildRelationUpdate) (session : Session) (plain : Plain update.intoPayload)
    (room : session.model.stats.lastSeq + 1 < u64Limit) :
    let link := session.model.agentSessions.find? (·.childSessionId = update.childSessionId)
    let run := recordChildRelation names.journal parent update session
    (update.isApplied link = true ∧ ∃ session', run = (.ok (), session') ∧
        Appends [] session session') ∨
      (update.canApply link = true ∧ ∃ session', run = (.ok (), session') ∧
        Appends [(none, update.intoPayload)] session session') ∨
      (update.isApplied link ≠ true ∧ update.canApply link ≠ true ∧ ∃ actual,
        run = (.error (.childRelationConflict parent update.childSessionId update.expected actual),
          session)) := by
  intro link run
  have unfolded : run = (if update.isApplied link then
        Program.mapError .schedule (syncDurableEventsRequired names.journal)
      else if !update.canApply link then
        Program.fail (.childRelationConflict parent update.childSessionId update.expected
          ((link.map (·.status.lowercase)).getD "missing"))
      else do
        let _ ← Program.mapError (fun e => .schedule (.eventEmit e))
          (emitDurable names.journal none update.intoPayload)
        Program.mapError .schedule (syncDurableEventsRequired names.journal) :
          Program ChildTurnError Session Unit) session := rfl
  -- a link that shows this very end is taken as recorded, any other must be running
  by_cases applied : update.isApplied link = true
  · rw [if_pos applied] at unfolded
    exact .inl ⟨applied, _, unfolded.trans (sync_taken names session), .refl session⟩
  rw [if_neg applied] at unfolded
  by_cases opened : update.canApply link = true
  · rw [opened, Bool.not_true, if_neg Bool.false_ne_true] at unfolded
    obtain ⟨stored, mid, emitted, appends⟩ :=
      emitDurable_taken names session none update.intoPayload plain room
    have mapped := (Program.mapError_ok_iff
      (f := fun e => ChildTurnError.schedule (.eventEmit e))).mpr emitted
    rw [Program.bind_eq mapped, sync_taken] at unfolded
    exact .inr (.inl ⟨opened, _, unfolded, appends.trans (.refl mid)⟩)
  · rw [if_pos (by simpa using opened)] at unfolded
    exact .inr (.inr ⟨applied, opened, _, unfolded⟩)

/-- The turn completed, and says so in its finalization and in its log. -/
structure Completes (submission : Submission) (output : String) (server : ChildSessionCoordinator) :
    Prop where
  outcome : submission.completion.outcome = .completed output
  persisted : ∃ finalization, submission.completion.finalization = some finalization ∧
    finalization.terminalPersisted = true
  durable : server.hasDurableTurnCompletion submission.target submission.turnId = true

/-- The caller has a link to the target that accepts the end of its turn. -/
def Recordable (server : ChildSessionCoordinator) (caller target : SessionId) (output : String) :
    Prop :=
  ∃ model, server.repository.sessionReadModel caller = .ok model ∧
    ∃ link, model.agentSessions.find? (·.childSessionId = target) = some link ∧
      LinkAccepts link target output

private theorem linkAccepts_iff :
    (∃ view, link = some view ∧ LinkAccepts view child output) ↔
      (ChildRelationUpdate.completed child (inlinePreview output 159)).isApplied link = true ∨
      (ChildRelationUpdate.completed child (inlinePreview output 159)).canApply link = true := by
  cases link with
  | none => simp
  | some view =>
    simp [LinkAccepts, and_assoc, or_comm]

variable {guard : ChildSessionCompletionGuard} {completion : ChildCompletion} {output : String}

/-- The end of a completed turn is recorded exactly where the link accepts it. -/
private theorem writeTerminalForGuard_cases (names : Names)
    (guard : ChildSessionCompletionGuard) (server : ChildSessionCoordinator)
    (completed : completion.outcome = .completed output) (room : server.Room) :
    (∃ events, writeTerminalForGuard names guard completion server = (.ok (), { server with
        repository := server.repository.extend guard.parentSessionId events }) ∧
      server.Recordable guard.parentSessionId guard.childSessionId output) ∨
    (∃ e server', writeTerminalForGuard names guard completion server = (.error e, server') ∧
      ¬server.Recordable guard.parentSessionId guard.childSessionId output) := by
  rw [writeTerminalForGuard, completed]
  cases read : server.repository.sessionReadModel guard.parentSessionId with
  | error e =>
    refine .inr ⟨.session e, server, by simp only [onSession, read], ?_⟩
    rintro ⟨model, found, -⟩
    cases read.symm.trans found
  | ok model =>
    -- the caller is read once, so that what is recordable is decided by this model
    have accepted : server.Recordable guard.parentSessionId guard.childSessionId output ↔ _ :=
      (exists_congr fun other => by rw [read, Except.ok.injEq, eq_comm]).trans
        (exists_eq_left.trans linkAccepts_iff)
    rw [accepted]
    have number := room _ model read
    obtain ⟨applied, session, run, -⟩ | ⟨opened, session, run, -⟩ | ⟨notApplied, closed, actual, run⟩ :=
      recordChildRelation_run names guard.parentSessionId
        (.completed guard.childSessionId (inlinePreview output 159)) ⟨model, 0, []⟩ ⟨rfl, rfl, rfl⟩
        (Nat.lt_of_succ_lt number)
    · exact .inl ⟨session.appended, onSession_ok read run, .inl applied⟩
    · exact .inl ⟨session.appended, onSession_ok read run, .inr opened⟩
    · exact .inr ⟨_, _, onSession_ok read run, not_or.mpr ⟨notApplied, closed⟩⟩

variable (persisted : finalization.terminalPersisted = true)

include persisted

/-- A turn with its completion on record leaves the registry without another event. -/
private theorem settleFinishedExecution_persisted (names : Names)
    {brought : Option TurnFinalization}
    (read : server.repository.sessionReadModel sessionId = .ok model)
    (known : brought = some finalization)
    (registered : ∀ active, server.registry sessionId = some active → active.turnId = turnId →
      active.finalization = none ∨ active.finalization = brought) :
    ∃ settled, settleFinishedExecution names sessionId turnId brought server =
      (.ok settled, server.withoutTurn sessionId turnId) := by
  rw [settleFinishedExecution, Program.read_bind, withoutTurn]
  by_cases own : (server.registry sessionId).map (·.turnId) = some turnId
  -- the turn is still registered: its own finalization or the one brought along is persisted
  · obtain ⟨active, found, same⟩ := Option.map_eq_some_iff.mp own
    have finalized : ((server.registry sessionId).bind (·.finalization)).or brought =
        some finalization := by
      obtain missing | noted := registered active found same
      · simp [found, missing, known]
      · simp [found, noted, known]
    have settles : settleFinishedExecutionLocked names.journal
        ((server.registry sessionId).map (·.turnId)) ((server.registry sessionId).bind (·.finalization))
        turnId brought ⟨model, 0, []⟩ = (.ok true, ⟨model, 0, []⟩) := by
      simp [settleFinishedExecutionLocked, own, finalized, persisted, pure]
    have settled := onSession_reads (f := ChildTurnError.schedule) read settles
    have gone : (server.registry sessionId).filter (·.turnId ≠ turnId) = none := by
      simp [found, same]
    refine ⟨true, (Program.bind_eq settled).trans ?_⟩
    rw [gone]
    rfl
  -- another turn, or none, is registered, and stays so
  · have settles : settleFinishedExecutionLocked names.journal
        ((server.registry sessionId).map (·.turnId)) ((server.registry sessionId).bind (·.finalization))
        turnId brought ⟨model, 0, []⟩ = (.ok false, ⟨model, 0, []⟩) := by
      simp [settleFinishedExecutionLocked, own, pure]
    have settled := onSession_reads (f := ChildTurnError.schedule) read settles
    have kept : (server.registry sessionId).filter (·.turnId ≠ turnId) =
        server.registry sessionId := by
      cases found : server.registry sessionId with
      | none => rfl
      | some active => simpa [found] using own
    refine ⟨false, (Program.bind_eq settled).trans ?_⟩
    rw [kept, Function.update_eq_self]
    rfl

/-- So the child is settled, by this drain or by somebody before. -/
private theorem settleChild_completed (names : Names)
    (read : server.repository.sessionReadModel guard.childSessionId = .ok model)
    (unsettled : guard.childSettled = false) (known : completion.finalization = some finalization)
    (registered : ∀ active, server.registry guard.childSessionId = some active →
      active.turnId = guard.turnId →
      active.finalization = none ∨ active.finalization = completion.finalization)
    (durable : server.hasDurableTurnCompletion guard.childSessionId guard.turnId = true) :
    settleChild names guard completion server =
      (.ok (), server.withoutTurn guard.childSessionId guard.turnId) := by
  obtain ⟨settled, run⟩ := settleFinishedExecution_persisted persisted names read known registered
  have synced : onSession guard.childSessionId (Program.mapError .schedule
      (syncDurableEventsRequired names.journal)) server = (.ok (), server) :=
    onSession_silent read rfl rfl
  have released : releaseCompletedExecution names guard.childSessionId guard.turnId
      completion.finalization server = (.ok settled, _) := (Program.bind_eq synced).trans run
  rw [settleChild, if_neg (by simp [unsettled])]
  refine (Program.bind_eq released).trans ?_
  rw [Program.read_bind, if_pos]
  · rfl
  · exact (Bool.or_eq_true ..).mpr (.inr durable)

end Drain

/-! ### The result -/

/-- Whatever turn of the target is registered now, its queue can go on. -/
def QueueContinues (server : ChildSessionCoordinator) (target : SessionId) (own : TurnId) : Prop :=
  ∃ model, server.repository.sessionReadModel target = .ok model ∧
    ((∃ active, server.registry target = some active ∧ active.turnId ≠ own) ∨
      ∀ entry, model.execution.pendingInputs.head? = some entry → Submittable entry.input)

/-- The oldest input that was pending is started, unless another turn had been started before. -/
def OldestStarted (before after : ChildSessionCoordinator) (target : SessionId)
    (own next : TurnId) : Prop :=
  ∀ model entry, before.repository.sessionReadModel target = .ok model →
    model.execution.pendingInputs.head? = some entry →
    after.Started target entry next ∨
      ∃ active, before.registry target = some active ∧ active.turnId ≠ own ∧
        after.registry target = some active

section Result

variable {names : Names} {guard : ChildSessionCompletionGuard} {completion : ChildCompletion}
  {output : String}

private theorem drainClaimed_told (untold : server.terminals guard.turnId = none) :
    (server.drainClaimed names guard completion).terminals guard.turnId =
      some (drainStages names guard completion server).1 := by
  have stages := drainStages_steady names guard completion server
  obtain ⟨kept, same, which⟩ := drainClaimed_eq names guard completion server
  rw [same]
  have still : kept.terminals guard.turnId = none := by
    rcases which with rfl | ⟨-, again, -, rfl⟩
    all_goals exact (congrFun stages.terminals _).trans untold
  simp [finishTerminal, still]

private theorem canContinue_withoutTurn (server : ChildSessionCoordinator) (sessionId : SessionId)
    (turnId : TurnId) (model : SessionReadModel) :
    (server.withoutTurn sessionId turnId).CanContinue sessionId model ↔
      (∃ active, server.registry sessionId = some active ∧ active.turnId ≠ turnId) ∨
        ∀ entry, model.execution.pendingInputs.head? = some entry → Submittable entry.input := by
  simp only [CanContinue, withoutTurn, Function.update_self, Option.isSome_iff_exists,
    Option.filter_eq_some_iff, decide_eq_true_eq]

private theorem settleChild_unread {e : StorageError} (unsettled : guard.childSettled = false)
    (read : server.repository.sessionReadModel guard.childSessionId = .error e) :
    settleChild names guard completion server = (.error (.session e), server) := by
  have failed : ∀ program : Program ChildTurnError Session Unit,
      onSession guard.childSessionId program server = (.error (.session e), server) := by
    intro program
    simp [onSession, read]
  rw [settleChild, if_neg (by simp [unsettled])]
  exact Program.bind_error (Program.bind_error (failed _))

/-- The guard of a completed turn, drained: the caller is told that all went well, and the queue of
the child goes on, exactly if the link accepts the end and the queue can go on. -/
private theorem drainClaimed_iff (other : guard.parentSessionId ≠ guard.childSessionId)
    (unsettled : guard.childSettled = false) (completed : completion.outcome = .completed output)
    {finalization : TurnFinalization} (known : completion.finalization = some finalization)
    (persisted : finalization.terminalPersisted = true)
    (registered : ∀ active, server.registry guard.childSessionId = some active →
      active.turnId = guard.turnId →
      active.finalization = none ∨ active.finalization = completion.finalization)
    (durable : server.hasDurableTurnCompletion guard.childSessionId guard.turnId = true)
    (untold : server.terminals guard.turnId = none) (room : server.Room) :
    let after := server.drainClaimed names guard completion
    (after.terminals guard.turnId = some (.ok ()) ∧
      server.OldestStarted after guard.childSessionId guard.turnId names.turnId) ↔
    server.Recordable guard.parentSessionId guard.childSessionId output ∧
      server.QueueContinues guard.childSessionId guard.turnId := by
  intro after
  have told : after.terminals guard.turnId = _ := drainClaimed_told untold
  have refused : ∀ {e state}, drainStages names guard completion server = (.error e, state) →
      ¬(after.terminals guard.turnId = some (.ok ()) ∧
        server.OldestStarted after guard.childSessionId guard.turnId names.turnId) := by
    rintro e state failed ⟨fine, -⟩
    rw [told, failed] at fine
    cases fine
  cases read : server.repository.sessionReadModel guard.childSessionId with
  | error e =>
    refine iff_of_false (refused (Program.bind_error (settleChild_unread unsettled read))) ?_
    rintro ⟨-, model, found, -⟩
    cases read.symm.trans found
  | ok model =>
    have settles := settleChild_completed persisted names read unsettled known registered durable
    obtain ⟨events, writes, recordable⟩ | ⟨e, written, failed, unrecordable⟩ :=
      writeTerminalForGuard_cases names { guard with childSettled := true }
        (server.withoutTurn guard.childSessionId guard.turnId) completed room
    -- the record goes to the caller's log, so the child is read as before
    · have same := (sessionReadModel_extend_other other.symm events).trans read
      have continues := canContinue_withoutTurn server guard.childSessionId guard.turnId model
      obtain ⟨next, started, starts, goesOn, oldest⟩ | ⟨e, started, failed, stuck⟩ :=
        startNextAfterSettle_cases names { server.withoutTurn guard.childSessionId guard.turnId with
          repository := server.repository.extend guard.parentSessionId events } same
          (room _ model read)
      · have stages : drainStages names guard completion server = (.ok (), started) :=
          (Program.bind_eq settles).trans ((Program.bind_eq writes).trans (Program.bind_eq starts))
        have ended : after = started.finishTerminal guard.turnId (.ok ()) := by
          obtain ⟨kept, same, which⟩ := drainClaimed_eq names guard completion server
          rw [stages] at same which
          obtain rfl := which.resolve_right fun failed => failed.1 rfl
          exact same
        refine iff_of_true ⟨told.trans (by rw [stages]), ?_⟩
          ⟨recordable, model, read, continues.mp goesOn⟩
        rw [ended]
        intro model' entry found head
        obtain rfl := Except.ok.inj (read.symm.trans found)
        obtain ⟨-, begun⟩ | ⟨active, busy, rfl⟩ := oldest entry head
        · exact .inl begun
        · obtain ⟨running, different⟩ : server.registry guard.childSessionId = some active ∧
              active.turnId ≠ guard.turnId := by
            simpa [withoutTurn, Option.filter_eq_some_iff] using busy
          exact .inr ⟨active, running, different, busy⟩
      · refine iff_of_false (refused ((Program.bind_eq settles).trans
          ((Program.bind_eq writes).trans (Program.bind_error failed)))) ?_
        rintro ⟨-, model', found, either⟩
        obtain rfl := Except.ok.inj (read.symm.trans found)
        exact stuck (continues.mpr either)
    · refine iff_of_false (refused ((Program.bind_eq settles).trans (Program.bind_error failed))) ?_
      exact fun both => unrecordable both.1

private theorem drainGuard_waiting (waiting : Waiting submission server) :
    server.drainGuard names submission.turnId = (server.claim submission.guard).drainClaimed names
      { submission.guard with completion := some submission.completion } submission.completion := by
  -- the guard is the only one of its turn, so that the search finds it
  have found : server.guards.find? (·.turnId = submission.turnId) =
      some { submission.guard with completion := some submission.completion } := by
    rw [← head?_filter, waiting.guards]
    rfl
  simp only [drainGuard, found]
  rfl

end Result

/-! ### Sequences of submissions -/

/-- The turn was submitted, and ran until it completed with the output. -/
def Completed (drainNames : TurnId → Names) (submission : Submission)
    (server : ChildSessionCoordinator) (output : String) (ready : ChildSessionCoordinator) : Prop :=
  ∃ begun, beginTurn submission drainNames server = (.ok (), begun) ∧
    ready = begun.ended submission ∧ Completes submission output ready

/-- The caller gets the output, and the oldest pending input of the target is started. -/
def Delivered (drainNames : TurnId → Names) (submission : Submission)
    (server : ChildSessionCoordinator) (output : String) (ready : ChildSessionCoordinator) : Prop :=
  let (answer, after) := server.submitTurn submission drainNames
  answer = some (.ok output) ∧
    ready.OldestStarted after submission.target submission.turnId submission.nextNames.turnId

private theorem told_iff (outcome : submission.completion.outcome = .completed output)
    {told : Option (Except ChildTurnError Unit)} :
    told.map (turnResult submission.completion) = some (.ok output) ↔ told = some (.ok ()) := by
  cases told with
  | none => simp
  | some result => cases result <;> simp [turnResult, outcome]

/-- One submission, from any state: the result reaches the caller exactly if the caller's link to
the target accepts it when the turn has ended. -/
theorem delivered_iff {ready : ChildSessionCoordinator} (unused : Unused submission.turnId server)
    (completed : Completed drainNames submission server output ready) (room : ready.Room) :
    Delivered drainNames submission server output ready ↔
      ready.Recordable submission.caller submission.target output ∧
        ready.QueueContinues submission.target submission.turnId := by
  obtain ⟨begun, began, rfl, completes⟩ := completed
  obtain ⟨finalization, known, persisted⟩ := completes.persisted
  have waiting := waiting_ended unused began
  simp only [Delivered, submitTurn, began, told_iff completes.outcome, drainGuard_waiting waiting]
  exact drainClaimed_iff submission.other rfl completes.outcome known persisted waiting.registry
    completes.durable waiting.terminals room

/-- The submissions of a sequence, each with the state it is made in. -/
def trace (drainNames : TurnId → Names) :
    List Submission → ChildSessionCoordinator → List (Submission × ChildSessionCoordinator)
  | [], _ => []
  | submission :: rest, server =>
    (submission, server) :: trace drainNames rest (server.submitTurn submission drainNames).2

/-- Turn ids are new, and there is a number for every event. -/
def Working (drainNames : TurnId → Names) (step : Submission × ChildSessionCoordinator) : Prop :=
  Unused step.1.turnId step.2 ∧
    ∀ output ready, Completed drainNames step.1 step.2 output ready → ready.Room

/-- In a sequence of submissions all results reach their callers, and all queues go on, exactly if
every caller has a link to its target that accepts the result when the turn has ended: a running
one, or one that shows the same end already. -/
theorem results_reach_callers_iff (drainNames : TurnId → Names) (submissions : List Submission)
    (server : ChildSessionCoordinator)
    (working : ∀ step ∈ trace drainNames submissions server, Working drainNames step) :
    (∀ step ∈ trace drainNames submissions server, ∀ output ready,
      Completed drainNames step.1 step.2 output ready →
        Delivered drainNames step.1 step.2 output ready) ↔
    ∀ step ∈ trace drainNames submissions server, ∀ output ready,
      Completed drainNames step.1 step.2 output ready →
        ready.Recordable step.1.caller step.1.target output ∧
          ready.QueueContinues step.1.target step.1.turnId := by
  refine forall₂_congr fun step member => forall₃_congr fun output ready completed => ?_
  obtain ⟨unused, room⟩ := working step member
  exact delivered_iff unused completed (room output ready completed)

end ChildSessionCoordinator

/-! ### A child with two turns -/

open ChildSessionCoordinator

def sampleNames (turnId : TurnId) : Names := ⟨turnId, "message", fun _ => ("event", ⟨0⟩)⟩

/-- Nothing runs and nobody waits. -/
def idleServer (repository : SessionRepository) : ChildSessionCoordinator :=
  ⟨repository, fun _ => none, [], fun _ => none⟩

/-- A root with a child, which has a child itself. -/
def threeGenerations : SessionRepository :=
  emptyRepository.performAll [.create (sampleRoot none), .spawnChild "root" (sampleChild none),
    .spawnChild "child" { sampleChild none with childSessionId := "grandchild" }]

/-- A turn that completes with the output. -/
def sampleSubmission (target : SessionId) (other : "root" ≠ target) (turnId : TurnId)
    (queued : List ChildSessionCoordinator.Interim) (output : String) : Submission where
  caller := "root"
  target := target
  other := other
  userPrompt := "prompt"
  names := sampleNames turnId
  meanwhile := queued ++ [.record ⟨"event", target, some turnId, ⟨0⟩, .turnCompleted "stop"⟩]
  completion := ⟨.completed output, some ⟨"stop", none, false, true⟩⟩
  afterwards := []
  nextNames := sampleNames "next"

def sampleInput (target : SessionId) : List ChildSessionCoordinator.Interim :=
  [.deliver (sampleNames "queued") target ⟨"more", []⟩]

def firstTurn : Submission := sampleSubmission "child" (by decide) "turn-1" [] "first"

def secondTurn : Submission := sampleSubmission "child" (by decide) "turn-2" [] "second"

def deepTurn : Submission :=
  sampleSubmission "grandchild" (by decide) "turn" (sampleInput "grandchild") "done"

private theorem sample_completed {submission : Submission}
    (begins : (beginTurn submission sampleNames server).1 = .ok ())
    (completes : Completes submission output
      ((beginTurn submission sampleNames server).2.ended submission)) :
    Completed sampleNames submission server output
      ((beginTurn submission sampleNames server).2.ended submission) :=
  ⟨_, Prod.ext begins rfl, rfl, completes⟩

/-- The caller gets the result of the first turn of its child but not that of the second, and not
that of a turn of a deeper descendant, whose queued input stays where it is. -/
theorem second_result_lost :
    let idle := idleServer threeGenerations
    let after := (idle.submitTurn firstTurn sampleNames).2
    (idle.submitTurn firstTurn sampleNames).1 = some (.ok "first") ∧
    (∃ ready, Completed sampleNames secondTurn after "second" ready ∧
      ¬Delivered sampleNames secondTurn after "second" ready) ∧
    (∃ ready, Completed sampleNames deepTurn idle "done" ready ∧
      ¬Delivered sampleNames deepTurn idle "done" ready ∧
      ¬ready.OldestStarted (idle.submitTurn deepTurn sampleNames).2 "grandchild" "turn" "next") := by
  intro idle after
  have conflict : (after.submitTurn secondTurn sampleNames).1 = some (.error (.terminal
      (.childRelationConflict "root" "child" "completed" "completed"))) := by decide +kernel
  have missing : (idle.submitTurn deepTurn sampleNames).1 = some (.error (.terminal
      (.childRelationConflict "root" "grandchild" "completed" "missing"))) := by decide +kernel
  refine ⟨by decide +kernel, ⟨_, sample_completed (by decide +kernel) ?_, ?_⟩,
    ⟨_, sample_completed (by decide +kernel) ?_, ?_, ?_⟩⟩
  · exact ⟨rfl, ⟨_, rfl, rfl⟩, by decide +kernel⟩
  · rintro ⟨answer, -⟩
    cases conflict.symm.trans answer
  · exact ⟨rfl, ⟨_, rfl, rfl⟩, by decide +kernel⟩
  · rintro ⟨answer, -⟩
    cases missing.symm.trans answer
  · obtain ⟨model, read, waits⟩ := exists_of_any
      (show ((((beginTurn deepTurn sampleNames idle).2.ended deepTurn).repository.sessionReadModel
        "grandchild").toOption.any fun model => model.execution.pendingInputs.head?.isSome) = true by
          decide +kernel)
    obtain ⟨entry, head⟩ := Option.isSome_iff_exists.mp waits
    -- the input still waits, and no turn of the session runs
    have free : (idle.submitTurn deepTurn sampleNames).2.registry "grandchild" = none := by
      decide +kernel
    intro oldest
    obtain ⟨running, -⟩ | ⟨active, -, -, running⟩ := oldest model entry read head
    all_goals cases free.symm.trans running

/-- The first turn of a child, during which an input is queued. -/
def queuedTurn : Submission :=
  sampleSubmission "child" (by decide) "turn" (sampleInput "child") "done"

private theorem room_of_keys (fits : (server.repository.active.keys.all fun sessionId =>
      (server.repository.sessionReadModel sessionId).toOption.all
        (·.stats.lastSeq + 2 < u64Limit)) = true) : server.Room := by
  intro sessionId model read
  have member := AList.mem_keys.mp (mem_active_of_read read)
  have small := all_eq_true.mp fits sessionId member
  rw [read] at small
  exact of_decide_eq_true small

/-- The state in which the guard of the turn is drained. -/
def queuedReady : ChildSessionCoordinator :=
  (beginTurn queuedTurn sampleNames (idleServer threeGenerations)).2.ended queuedTurn

private theorem queuedReady_continues :
    (∀ output, queuedReady.Recordable "root" "child" output) ∧
      queuedReady.QueueContinues "child" "turn" := by
  obtain ⟨root, readRoot, linked⟩ := exists_of_any
    (show ((queuedReady.repository.sessionReadModel "root").toOption.any fun model =>
      (model.agentSessions.find? (·.childSessionId = "child")).any (·.status = .running)) = true by
        decide +kernel)
  obtain ⟨child, readChild, fine⟩ := exists_of_any
    (show ((queuedReady.repository.sessionReadModel "child").toOption.any fun model =>
      model.execution.pendingInputs.head?.all fun entry => entry.input.canSubmit &&
        decide (entry.input.text.utf8ByteSize ≤ maxPromptTextBytes)) = true by decide +kernel)
  obtain ⟨link, found, running⟩ := Option.any_eq_true _ _ |>.mp linked
  refine ⟨fun output => ⟨root, readRoot, link, found, .inl (of_decide_eq_true running)⟩,
    child, readChild, .inr fun entry head => ?_⟩
  have both := (Option.all_eq_true _ _).mp fine entry head
  simpa [Submittable] using both

/-- Its result is returned, and the queued input is started. -/
theorem first_result_returned :
    Completed sampleNames queuedTurn (idleServer threeGenerations) "done" queuedReady ∧
      Delivered sampleNames queuedTurn (idleServer threeGenerations) "done" queuedReady := by
  have ready : ∀ {output server}, Completed sampleNames queuedTurn (idleServer threeGenerations)
      output server → server = queuedReady := by
    rintro output server ⟨begun, began, rfl, -⟩
    rw [queuedReady, began]
  have working : ∀ step ∈ trace sampleNames [queuedTurn] (idleServer threeGenerations),
      Working sampleNames step := by
    intro step member
    obtain rfl := mem_singleton.mp member
    refine ⟨⟨fun _ member => absurd member not_mem_nil, rfl⟩, fun output server completed => ?_⟩
    obtain rfl := ready completed
    exact room_of_keys (by decide +kernel)
  have completed : Completed sampleNames queuedTurn (idleServer threeGenerations) "done" queuedReady :=
    sample_completed (by decide +kernel) ⟨rfl, ⟨_, rfl, rfl⟩, by decide +kernel⟩
  refine ⟨completed, (results_reach_callers_iff sampleNames [queuedTurn] (idleServer threeGenerations)
    working).mpr ?_ _ mem_cons_self "done" queuedReady completed⟩
  intro step member output server completes
  obtain rfl := mem_singleton.mp member
  obtain rfl := ready completes
  exact ⟨queuedReady_continues.1 output, queuedReady_continues.2⟩

end Astrcode
