import Astrcode.Properties.Completion

/-!
# The head of the queue is started

The head of an idle session's queue is in the hands of one task: the scheduled retry, and after
it the start of the turn that the retry has reserved. A read of the queue and a start that fail
schedule the next retry. An operation that cannot be begun does not: the retry returns, and nobody
looks at the queue before the next delivery, abort or repair of the session. A start that fails
once the input has become a message has no input left to start.
-/
namespace Astrcode.Delivery

open Library Library.Program

variable {turnId : TurnId} {state state' : SchedulerState} {head : PendingInput}
  {rest : List PendingInput} {s : Step} {q : QueueStep}

/-- The step starts the turn that is reserved for the head. -/
def Starts (head : PendingInput) (state : SchedulerState) (q : QueueStep) : Prop :=
  q = .scheduler (.start .started) ∧
    ∃ next, state.registry = some ⟨next, .reserved .other (some head)⟩

/-- The start of the turn that is reserved for the head fails when the head has become a
message. -/
def Consumes (head : PendingInput) (state : SchedulerState) (q : QueueStep) : Prop :=
  q = .scheduler (.start (.failed true)) ∧
    ∃ next, state.registry = some ⟨next, .reserved .other (some head)⟩

/-- The head of the queue is left to nobody. -/
def Stranded (head : PendingInput) (state : SchedulerState) : Prop :=
  state.pendingInputs.head? = some head ∧ state.registry = none ∧ state.retryScheduled = false

namespace QueueStep

/-- The step looks at the queue, whoever it was left to. -/
def Rescues : QueueStep → Prop
  | .scheduler _ => False
  | .abort outcomes children repair =>
    outcomes.begin = none ∧ children = none ∧ repair = none ∧ outcomes.reserve = none
  | .repairStale outcomes resume repair =>
    outcomes.begin = none ∧ resume = none ∧ repair = none ∧ outcomes.reserve = none

/-- An operation cannot be begun, the queue not be read, or a turn not be started. -/
def Fails : QueueStep → Prop
  | .scheduler (.queueRetry outcomes) | .abort outcomes _ _ | .repairStale outcomes _ _ =>
    outcomes.begin ≠ none ∨ outcomes.reserve ≠ none
  | .scheduler (.start outcome) => outcome ≠ .started
  | .scheduler _ => False

def IsFresh (turnId : TurnId) : QueueStep → Prop
  | .scheduler s => Fresh turnId s
  | .abort outcomes _ _ | .repairStale outcomes _ _ => outcomes.newTurnId ≠ turnId

end QueueStep

/-- A run without deliveries, in which failures come to an end. -/
structure QuietRun (turnId : TurnId) (steps : Nat → QueueStep) : Prop where
  fresh : ∀ n, (steps n).IsFresh turnId
  undelivered : ∀ n delivery input outcomes, steps n ≠ .scheduler (.deliver delivery input outcomes)
  /-- It is the session manager who reads the queue. -/
  reads : ∀ n outcomes, steps n = .scheduler (.queueRetry outcomes) →
    ∀ e ∈ outcomes.reserve, ∃ cause, e = .sessionManager cause
  failures : ∃ bound, ∀ n, bound ≤ n → ¬ (steps n).Fails
  retries : ∀ n, ∃ m outcomes, n ≤ m ∧ steps m = .scheduler (.queueRetry outcomes)
  starts : ∀ n, ∃ m outcome, n ≤ m ∧ steps m = .scheduler (.start outcome)

theorem discard_snd {α : Type} (x : DeliveryM α) (state : SchedulerState) :
    ((do let _ ← x) state).2 = (x state).2 := by
  simp only [bind]
  cases x state with
  | mk result mid => cases result <;> rfl

/-! ### What a step does to the head -/

/-- The head waits in the queue, or a turn is reserved for it. -/
structure Queued (turnId : TurnId) (head : PendingInput) (rest : List PendingInput)
    (state : SchedulerState) : Prop where
  queue : state.pendingInputs = head :: rest
  holder : state.registry = none ∨
    ∃ next, next ≠ turnId ∧ state.registry = some ⟨next, .reserved .other (some head)⟩

/-- The head stays where it is or is reserved, and only a failure takes it from who has it. -/
structure Carried (turnId : TurnId) (head : PendingInput) (rest : List PendingInput)
    (state : SchedulerState) (q : QueueStep) (state' : SchedulerState) : Prop where
  queued : Queued turnId head rest state'
  reserved : state'.registry = none → state.registry = none ∨ q.Fails
  waiting : state'.registry = none → state.retryScheduled = true →
    state'.retryScheduled = true ∨ q.Fails

section

variable (queued : Queued turnId head rest state)

include queued

/-- Neither the watchers nor the tasks of turns have a part in it. -/
theorem Queued.carried (queue : state'.pendingInputs = state.pendingInputs)
    (registry : state'.registry = state.registry)
    (retry : state'.retryScheduled = state.retryScheduled) :
    Carried turnId head rest state q state' := by
  obtain ⟨inQueue, holder⟩ := queued
  rw [← registry] at holder
  exact ⟨⟨queue.trans inQueue, holder⟩, fun free => .inl (registry ▸ free),
    fun _ scheduled => .inl (retry.trans scheduled)⟩

theorem Queued.activeTurnId_ne : state.activeTurnId ≠ some turnId := by
  obtain free | ⟨next, other, reserved⟩ := queued.holder
  · simp [SchedulerState.activeTurnId, free]
  · simp [SchedulerState.activeTurnId, reserved, other]

theorem Queued.watched (outcomes : Outcomes) (start : StartOutcome) :
    Carried turnId head rest state q (stepWatcher outcomes turnId start state) := by
  cases watcher : state.watcher with
  | retrying =>
    rw [stepWatcher_retrying outcomes turnId start watcher]
    exact queued.carried rfl rfl rfl
  | atGate =>
    have gate := stepWatcher_atGate outcomes turnId start watcher
    generalize stepWatcher outcomes turnId start state = after at gate ⊢
    -- the turn of the watcher is not the one that is reserved
    cases gate with
    | stale => exact queued.carried rfl rfl rfl
    | _ => exact absurd ‹_› queued.activeTurnId_ne
  | starting =>
    rw [stepWatcher_starting outcomes turnId start watcher]
    have others : finishStart .watcher start state = state := by
      obtain free | ⟨next, -, reserved⟩ := queued.holder
      · rw [finishStart, free]
      · rw [finishStart, reserved]
        rfl
    rw [others]
    exact queued.carried rfl rfl rfl
  | publishing =>
    rw [stepWatcher_publishing outcomes turnId start watcher]
    exact queued.carried rfl rfl rfl
  | ended =>
    rw [stepWatcher_done outcomes turnId start (.inl watcher)]
    exact queued.carried rfl rfl rfl
  | returned =>
    rw [stepWatcher_done outcomes turnId start (.inr watcher)]
    exact queued.carried rfl rfl rfl

/-- On a free registry the head is reserved, if the queue can be read. -/
theorem Queued.reserves (free : state.registry = none) (valid : Valid head.input)
    (outcomes : Outcomes) :
    outcomes.reserve ≠ none ∧ (reserveNextPending outcomes .other state).2 = state ∨
      outcomes.reserve = none ∧ reserveNextPending outcomes .other state = (.ok (some head),
        { state with registry := some ⟨outcomes.newTurnId, .reserved .other (some head)⟩ }) := by
  have first : ∀ entry, state.pendingInputs.head? = some entry → entry = head := by
    rw [queued.queue]
    exact fun entry same => (Option.some.inj same).symm
  rcases reserveNextPending_free outcomes .other free with
    ⟨unread | ⟨entry, found, bad⟩, e, failed⟩ | ⟨-, empty, -⟩ | ⟨entry, read, found, reserved⟩
  · exact .inl ⟨unread, by rw [failed]⟩
  · exact absurd (first entry found ▸ valid) bad
  · simp [queued.queue] at empty
  · refine .inr ⟨not_not.mp fun unread => read (.inl unread), ?_⟩
    rw [reserved, first entry found]

/-- What comes of a step that looks at the queue, if it gets as far as that. -/
theorem Queued.drained {outcomes : Outcomes} {reached : Prop} [Decidable reached]
    (free : state.registry = none) (valid : Valid head.input)
    (fresh : outcomes.newTurnId ≠ turnId) (drains : state' =
      if reached then (reserveNextPending outcomes .other state).2 else state) :
    Carried turnId head rest state q state' ∧
      (reached → outcomes.reserve = none → state'.registry ≠ none) := by
  subst drains
  split
  · next got =>
    rcases queued.reserves free valid outcomes with ⟨unread, same⟩ | ⟨-, reserved⟩
    · rw [same]
      exact ⟨queued.carried rfl rfl rfl, fun _ read => absurd read unread⟩
    · rw [reserved]
      exact ⟨⟨⟨queued.queue, .inr ⟨_, fresh, rfl⟩⟩, nofun, nofun⟩, by simp⟩
  · next missed => exact ⟨queued.carried rfl rfl rfl, fun got => absurd got missed⟩

omit queued in
theorem abort_free {outcomes : Outcomes} {children repair : Option TurnScheduleError}
    (free : state.registry = none) :
    (abort outcomes children repair state).2 =
      if outcomes.begin = none ∧ children = none ∧ repair = none then
        (reserveNextPending outcomes .other state).2
      else state := by
  have nothing : state.hasActive = false := by simp [free]
  cases begun : outcomes.begin <;> cases children <;> cases repair
  case none.none.none =>
    simp only [abort, begun, attempt_none_bind, read_bind, nothing]
    exact discard_snd _ state
  case none.none.some =>
    simp only [abort, begun, attempt_none_bind, read_bind, nothing]
    rfl
  all_goals
    simp only [abort, begun]
    rfl

omit queued in
theorem repairStale_free {outcomes : Outcomes} {resume repair : Option TurnScheduleError}
    (free : state.registry = none) :
    (repairStale outcomes resume repair state).2 =
      if outcomes.begin = none ∧ resume = none ∧ repair = none then
        (reserveNextPending outcomes .other state).2
      else state := by
  have nothing : state.hasActive = false := by simp [free]
  cases begun : outcomes.begin <;> cases resume <;> cases repair
  case none.none.none =>
    simp only [repairStale, begun, attempt_none_bind, read_bind, nothing]
    exact discard_snd _ state
  all_goals
    simp only [repairStale, begun, attempt_none_bind, read_bind, nothing]
    rfl

omit queued in
theorem repairStale_active {outcomes : Outcomes} {resume repair : Option TurnScheduleError}
    (active : state.registry ≠ none) : (repairStale outcomes resume repair state).2 = state := by
  have some : state.hasActive = true := Option.isSome_iff_ne_none.mpr active
  cases begun : outcomes.begin with
  | some e =>
    simp only [repairStale, begun]
    rfl
  | none =>
    simp only [repairStale, begun, attempt_none_bind, read_bind, some]
    exact (discard_snd _ state).trans (reserveNextPending_active _ _ active)

omit queued in
/-- A retry that can begin reserves the head, or schedules the next retry. -/
theorem runQueueRetry_scheduled {outcomes : Outcomes} (free : state.registry = none)
    (scheduled : state.retryScheduled = true) (begun : outcomes.begin = none)
    (queued : Queued turnId head rest { state with retryScheduled := false })
    (valid : Valid head.input)
    (reads : ∀ e ∈ outcomes.reserve, ∃ cause, e = .sessionManager cause) :
    runQueueRetry outcomes state =
      if outcomes.reserve = none then { state with
        retryScheduled := false
        registry := some ⟨outcomes.newTurnId, .reserved .other (some head)⟩ }
      else state := by
  have active : ({ state with retryScheduled := false } : SchedulerState).hasActive = false := by
    simp [free]
  simp only [runQueueRetry, scheduled, begun, active, Bool.not_true, Bool.false_eq_true, if_false,
    Option.isSome_none, Bool.or_self]
  cases unread : outcomes.reserve with
  | some e =>
    obtain ⟨cause, rfl⟩ := reads e unread
    rw [if_neg (by simp), reserveNextPending, unread]
    show ({ state with retryScheduled := true } : SchedulerState) = state
    rw [← scheduled]
  | none =>
    rw [if_pos rfl]
    obtain ⟨unread', -⟩ | ⟨-, reserved⟩ := queued.reserves free valid outcomes
    · exact absurd unread unread'
    · rw [reserved]

theorem Queued.retried {outcomes : Outcomes} (valid : Valid head.input)
    (fresh : outcomes.newTurnId ≠ turnId)
    (reads : ∀ e ∈ outcomes.reserve, ∃ cause, e = .sessionManager cause) :
    Carried turnId head rest state (.scheduler (.queueRetry outcomes))
      (runQueueRetry outcomes state) ∧
      (state.retryScheduled = true → ¬ (QueueStep.scheduler (.queueRetry outcomes)).Fails →
        (runQueueRetry outcomes state).registry ≠ none) := by
  by_cases taken : state.registry = none ∧ state.retryScheduled = true ∧ outcomes.begin = none
  · obtain ⟨free, scheduled, begun⟩ := taken
    rw [runQueueRetry_scheduled free scheduled begun ⟨queued.queue, queued.holder⟩ valid reads]
    split
    · exact ⟨⟨⟨queued.queue, .inr ⟨_, fresh, rfl⟩⟩, nofun, nofun⟩, by simp⟩
    · next unread => exact ⟨queued.carried rfl rfl rfl, fun _ calm => absurd (.inr unread) calm⟩
  · -- nobody waits, or the retry is over with nothing done
    have same : (runQueueRetry outcomes state).pendingInputs = state.pendingInputs ∧
        (runQueueRetry outcomes state).registry = state.registry := by
      rw [runQueueRetry]
      split
      · exact ⟨rfl, rfl⟩
      · next scheduled =>
        rw [if_pos]
        · exact ⟨rfl, rfl⟩
        · by_contra idle
          simp at idle scheduled
          exact taken ⟨idle.2, scheduled, idle.1⟩
    have failing (free : state.registry = none) (scheduled : state.retryScheduled = true) :
        (QueueStep.scheduler (.queueRetry outcomes)).Fails :=
      .inl fun begun => taken ⟨free, scheduled, begun⟩
    refine ⟨⟨⟨same.1.trans queued.queue, same.2 ▸ queued.holder⟩, fun free => .inl (same.2 ▸ free),
      fun free scheduled => .inr (failing (same.2 ▸ free) scheduled)⟩, ?_⟩
    exact fun scheduled calm free => calm (failing (same.2 ▸ free) scheduled)

/-- A start that fails gives the head back to a retry. -/
theorem Queued.begun {outcome : StartOutcome}
    (kept : ¬ Consumes head state (.scheduler (.start outcome)))
    (notYet : ¬ Starts head state (.scheduler (.start outcome))) :
    Carried turnId head rest state (.scheduler (.start outcome))
      (finishStart .other outcome state) := by
  obtain free | ⟨next, -, reserved⟩ := queued.holder
  · rw [finishStart, free]
    exact queued.carried rfl rfl rfl
  · rw [finishStart, reserved]
    cases outcome with
    | started => exact absurd ⟨rfl, next, reserved⟩ notYet
    | failed consumed =>
      cases consumed with
      | false => exact ⟨⟨queued.queue, .inl rfl⟩, fun _ => .inr nofun, fun _ _ => .inr nofun⟩
      | true => exact absurd ⟨rfl, next, reserved⟩ kept

theorem Queued.stepped (valid : Valid head.input) {steps : Nat → QueueStep}
    (quiet : QuietRun turnId steps) (n : Nat) (kept : ¬ Consumes head state (steps n))
    (notYet : ¬ Starts head state (steps n)) :
    Carried turnId head rest state (steps n) (queueStep turnId (steps n) state) := by
  -- a reserved turn is neither running nor finished
  have idle : state.activeExecution = none ∧ state.activeIsFinished = false ∧
      (endTask state).registry = state.registry := by
    obtain free | ⟨next, -, reserved⟩ := queued.holder
    · simp [endTask, free]
    · simp [endTask, reserved]
  have fresh := quiet.fresh n
  cases now : steps n with
  | abort outcomes children repair =>
    rw [now] at fresh
    rw [queueStep]
    split
    · exact queued.carried rfl rfl rfl
    · next settled =>
      have free : state.registry = none := by
        by_contra taken
        exact settled (by rw [idle.1]; simp [Option.isSome_iff_ne_none.mpr taken])
      exact (queued.drained free valid fresh (abort_free free)).1
  | repairStale outcomes resume repair =>
    rw [now] at fresh
    rw [queueStep]
    by_cases free : state.registry = none
    · exact (queued.drained free valid fresh (repairStale_free free)).1
    · rw [repairStale_active free]
      exact queued.carried rfl rfl rfl
  | scheduler s =>
    cases s with
    | watcher outcomes start => exact queued.watched outcomes start
    | deliver delivery input outcomes =>
      exact absurd now (quiet.undelivered n delivery input outcomes)
    | start outcome =>
      rw [now] at kept notYet
      exact queued.begun kept notYet
    | queueRetry outcomes =>
      rw [now] at fresh
      exact (queued.retried valid fresh (quiet.reads n outcomes now)).1
    | absorb entry =>
      rw [queueStep, step, idle.1]
      exact queued.carried rfl rfl rfl
    | taskEnds => exact queued.carried rfl idle.2.2 rfl
    | otherWatcher outcomes =>
      rw [queueStep, step, stepOtherWatcher, idle.2.1]
      split
      · exact queued.carried rfl rfl rfl
      · simpa using queued.carried rfl rfl rfl

/-- A step that looks at the queue reserves a head that is left to nobody. -/
theorem Queued.rescued (valid : Valid head.input) (free : state.registry = none)
    (fresh : q.IsFresh turnId) (rescues : q.Rescues) :
    (queueStep turnId q state).registry ≠ none := by
  cases q with
  | scheduler s => exact rescues.elim
  | abort outcomes children repair =>
    obtain ⟨begun, aborted, repaired, read⟩ := rescues
    rw [queueStep, if_neg (by simp [free])]
    exact (queued.drained (q := .abort outcomes children repair) free valid fresh
      (abort_free free)).2 ⟨begun, aborted, repaired⟩ read
  | repairStale outcomes resume repair =>
    obtain ⟨begun, resumed, repaired, read⟩ := rescues
    exact (queued.drained (q := .repairStale outcomes resume repair) free valid fresh
      (repairStale_free free)).2 ⟨begun, resumed, repaired⟩ read

end

/-! ### Runs -/

section

variable {initial : SchedulerState} {steps : Nat → QueueStep} (quiet : QuietRun turnId steps)
  (valid : Valid head.input)
  (rescued : ∀ n, Stranded head (queueRun turnId initial steps n) → ∃ m, n ≤ m ∧ (steps m).Rescues)

include quiet valid rescued

/-- Once nothing fails any more, a turn is reserved for the head: by the retry, or by the step
that finds it left to nobody. -/
theorem exists_reserved {bound : Nat} (calm : ∀ n, bound ≤ n → ¬ (steps n).Fails)
    (carried : ∀ n, Queued turnId head rest (queueRun turnId initial steps n) ∧
      Carried turnId head rest (queueRun turnId initial steps n) (steps n)
        (queueRun turnId initial steps (n + 1))) :
    ∃ n, bound ≤ n ∧ (queueRun turnId initial steps n).registry ≠ none := by
  by_contra never
  have free : ∀ n, bound ≤ n → (queueRun turnId initial steps n).registry = none :=
    fun n late => not_not.mp fun taken => never ⟨n, late, taken⟩
  cases scheduled : (queueRun turnId initial steps bound).retryScheduled with
  | false =>
    have left := (carried bound).1.queue
    obtain ⟨m, late, rescues⟩ := rescued bound ⟨by rw [left, List.head?_cons],
      free bound (Nat.le_refl _), scheduled⟩
    exact (carried m).1.rescued valid (free m late) (quiet.fresh m) rescues (free (m + 1) (by omega))
  | true =>
    have waiting : ∀ n, bound ≤ n → (queueRun turnId initial steps n).retryScheduled = true :=
      stable_of_step scheduled fun n late before =>
        ((carried n).2.waiting (free (n + 1) (by omega)) before).resolve_right (calm n late)
    obtain ⟨m, outcomes, late, retry⟩ := quiet.retries bound
    have fresh := quiet.fresh m
    have calmRetry := calm m late
    have after := free (m + 1) (by omega)
    rw [queueRun] at after
    rw [retry] at fresh calmRetry after
    exact ((carried m).1.retried valid fresh (quiet.reads m outcomes retry)).2 (waiting m late)
      calmRetry after

end

/-! A retry that cannot begin its operation leaves the input to nobody, although nothing fails
from then on. -/

def waitingHead : PendingInput := ⟨3, ⟨"queued", []⟩, none⟩

def waitingSession : SchedulerState := ⟨none, [waitingHead], true, .ended, []⟩

def unbegunRetry : QueueStep := .scheduler (.queueRetry
  { noFailures with begin := some (.sessionManager (.eventPublish (.io "disk"))) })

/-- Some first steps, and then starts and retries that never fail. -/
def drainSteps (first : List QueueStep) (n : Nat) : QueueStep :=
  first[n]?.getD (.scheduler (if n % 2 = 0 then .queueRetry noFailures else .start .started))

section

variable {first : List QueueStep} {n : Nat}

theorem drainSteps_late (late : first.length ≤ n) :
    drainSteps first n = .scheduler (.queueRetry noFailures) ∨
      drainSteps first n = .scheduler (.start .started) := by
  rw [drainSteps, List.getElem?_eq_none late, Option.getD_none]
  split
  · exact .inl rfl
  · exact .inr rfl

theorem drainSteps_all {P : QueueStep → Prop} (opening : ∀ q ∈ first, P q)
    (retry : P (.scheduler (.queueRetry noFailures))) (start : P (.scheduler (.start .started))) :
    P (drainSteps first n) := by
  obtain early | late := Nat.lt_or_ge n first.length
  · rw [drainSteps, List.getElem?_eq_getElem early, Option.getD_some]
    exact opening _ (List.getElem_mem early)
  · obtain now | now := drainSteps_late late <;> rw [now]
    exacts [retry, start]

theorem drainSteps_quiet (fresh : ∀ q ∈ first, q.IsFresh "turn-1")
    (undelivered : ∀ q ∈ first, ∀ delivery input outcomes,
      q ≠ .scheduler (.deliver delivery input outcomes))
    (reads : ∀ q ∈ first, ∀ outcomes, q = .scheduler (.queueRetry outcomes) →
      ∀ e ∈ outcomes.reserve, ∃ cause, e = .sessionManager cause) :
    QuietRun "turn-1" (drainSteps first) where
  fresh n := drainSteps_all (P := QueueStep.IsFresh "turn-1") fresh
    (by decide : "turn-2" ≠ "turn-1") trivial
  undelivered n := by
    refine drainSteps_all undelivered ?_ ?_ <;> simp
  reads n := by
    refine drainSteps_all reads ?_ ?_ <;> simp [noFailures]
  failures := by
    refine ⟨first.length, fun n late => ?_⟩
    obtain now | now := drainSteps_late late <;> rw [now]
    · exact fun fails => fails.elim (absurd rfl) (absurd rfl)
    · exact absurd rfl
  retries n := by
    refine ⟨2 * (n + first.length), noFailures, by omega, ?_⟩
    rw [drainSteps, List.getElem?_eq_none (by omega), Option.getD_none]
    simp
  starts n := by
    refine ⟨2 * (n + first.length) + 1, .started, by omega, ?_⟩
    rw [drainSteps, List.getElem?_eq_none (by omega), Option.getD_none]
    simp [Nat.add_mod]

/-- Where neither a retry nor a start finds anything to do, the run is over. -/
theorem queueRun_over {initial ended : SchedulerState}
    (reached : queueRun "turn-1" initial (drainSteps first) n = ended) (late : first.length ≤ n)
    (retry : runQueueRetry noFailures ended = ended)
    (start : finishStart .other .started ended = ended) :
    ∀ m, n ≤ m → queueRun "turn-1" initial (drainSteps first) m = ended := by
  refine stable_of_step reached fun m later same => ?_
  rw [queueRun, same]
  obtain now | now := drainSteps_late (Nat.le_trans late later) <;> rw [now]
  exacts [retry, start]

end

end Astrcode.Delivery
