import Astrcode.Library.Fairness
import Astrcode.Server.Delivery

/-!
# One completion per finished turn

The watcher of a turn publishes its completion after it has settled the turn itself. A queue
delivery that settles the turn first, or a failure between the settling and the start of the
next input, makes the watcher find the turn gone: it returns and publishes nothing. In every
fair run without such a step the completion is published exactly once.
-/
namespace Astrcode.Delivery

variable {state mid state' : SchedulerState} {newTurnId turnId : TurnId} {s : Step} {owner : Owner}
  {n : Nat}

open Library SchedulerState Program

/-! ### What a step can do to the registry -/

/-- Nothing but the queue and its retry differs. -/
structure Keeping (state state' : SchedulerState) : Prop where
  registry : state'.registry = state.registry
  watcher : state'.watcher = state.watcher
  completions : state'.completions = state.completions

/-- At most a free registry is reserved. -/
structure Reserving (owner : Owner) (newTurnId : TurnId) (state state' : SchedulerState) : Prop where
  registry : state'.registry = state.registry ∨ state.registry = none ∧
    ∃ entry, state'.registry = some ⟨newTurnId, .reserved owner entry⟩
  watcher : state'.watcher = state.watcher
  completions : state'.completions = state.completions

theorem Keeping.refl (state : SchedulerState) : Keeping state state := ⟨rfl, rfl, rfl⟩

theorem Keeping.trans (first : Keeping state mid) (second : Keeping mid state') :
    Keeping state state' :=
  ⟨second.registry.trans first.registry, second.watcher.trans first.watcher,
    second.completions.trans first.completions⟩

theorem Keeping.reserving (keeping : Keeping state state') :
    Reserving owner newTurnId state state' :=
  ⟨.inl keeping.registry, keeping.watcher, keeping.completions⟩

theorem Reserving.after (reserving : Reserving owner newTurnId mid state')
    (keeping : Keeping state mid) :
    Reserving owner newTurnId state state' := by
  obtain ⟨registry, watcher, completions⟩ := reserving
  rw [keeping.registry] at registry
  exact ⟨registry, watcher.trans keeping.watcher, completions.trans keeping.completions⟩

theorem Reserving.before (reserving : Reserving owner newTurnId state mid)
    (keeping : Keeping mid state') :
    Reserving owner newTurnId state state' := by
  obtain ⟨registry, watcher, completions⟩ := reserving
  rw [← keeping.registry] at registry
  exact ⟨registry, keeping.watcher.trans watcher, keeping.completions.trans completions⟩

section Programs

variable {α β : Type} {x : DeliveryM α} {f : α → DeliveryM β} {owner : Owner} {newTurnId : TurnId}

def Keeps (x : DeliveryM α) : Prop := ∀ state, Keeping state (x state).2

def Reserves (owner : Owner) (newTurnId : TurnId) (x : DeliveryM α) : Prop :=
  ∀ state, Reserving owner newTurnId state (x state).2

theorem Keeps.reserves (keeps : Keeps x) : Reserves owner newTurnId x :=
  fun state => (keeps state).reserving

theorem Keeps.of_pure (a : α) : Keeps (pure a) := fun state => .refl state

theorem Keeps.of_fail (e : TurnScheduleError) : Keeps (fail e : DeliveryM α) :=
  fun state => .refl state

theorem Keeps.bind (first : Keeps x) (rest : ∀ a, Keeps (f a)) : Keeps (x >>= f) :=
  bind_rel Keeping Keeping Keeping first rest id Keeping.trans

theorem Reserves.bind (first : Keeps x) (rest : ∀ a, Reserves owner newTurnId (f a)) :
    Reserves owner newTurnId (x >>= f) :=
  bind_rel Keeping (Reserving owner newTurnId) (Reserving owner newTurnId) first rest
    Keeping.reserving fun kept reserving => reserving.after kept

/-- Nothing after the reservation moves the registry again. -/
theorem Reserves.bind_keeps (first : Reserves owner newTurnId x) (rest : ∀ a, Keeps (f a)) :
    Reserves owner newTurnId (x >>= f) :=
  bind_rel (Reserving owner newTurnId) Keeping (Reserving owner newTurnId) first rest id
    Reserving.before

theorem Keeps.read : Keeps Program.read := fun state => .refl state

theorem Keeps.attempt (e : Option TurnScheduleError) : Keeps (Program.attempt e) := by
  cases e with
  | none => exact .of_pure ()
  | some e => exact .of_fail e

theorem Keeps.validateUserInput (input : UserInput) : Keeps (validateUserInput input) := by
  unfold Astrcode.validateUserInput
  split
  · exact .of_fail _
  · split
    · exact .of_fail _
    · exact .of_pure ()

end Programs

/-! ### The deliveries -/

section Deliveries

variable (outcomes : Outcomes) (input : UserInput)

theorem acceptInput_keeps (turnId : Option TurnId) : Keeps (acceptInput outcomes input turnId) :=
  .bind (.attempt _) fun _ _ => ⟨rfl, rfl, rfl⟩

theorem acceptPendingInput_keeps : Keeps (acceptPendingInput outcomes input) := by
  refine .bind (.attempt _) fun _ => .bind .read fun state => ?_
  split
  · exact .of_fail _
  · exact .bind (acceptInput_keeps outcomes input none) fun _ => .of_pure _

variable (owner : Owner)

private theorem reserveExecution_eq (entry : Option PendingInput) (state : SchedulerState) :
    reserveExecution outcomes owner entry state =
      if state.registry = none then
        (.ok (), { state with registry := some ⟨outcomes.newTurnId, .reserved owner entry⟩ })
      else (.error .turnAlreadyRunning, state) := by
  rw [reserveExecution, read_bind]
  by_cases free : state.registry = none
  · rw [if_pos free, if_neg (by simp [free])]
    rfl
  · rw [if_neg free,
      if_pos (by simpa [Option.isSome_iff_ne_none] using free)]
    rfl

theorem reserveExecution_reserves (entry : Option PendingInput) :
    Reserves owner outcomes.newTurnId (reserveExecution outcomes owner entry) := by
  intro state
  rw [reserveExecution_eq]
  split
  · next free => exact ⟨.inr ⟨free, entry, rfl⟩, rfl, rfl⟩
  · exact (Keeping.refl state).reserving

theorem reserveNextPending_reserves :
    Reserves owner outcomes.newTurnId (reserveNextPending outcomes owner) := by
  refine .bind (.attempt _) fun _ => .bind .read fun state => ?_
  split
  · exact (Keeps.of_pure _).reserves
  · exact .bind (.validateUserInput _) fun _ =>
      .bind_keeps (reserveExecution_reserves outcomes owner _) fun _ => .of_pure _

theorem enqueueBehindPendingAndStartHead_reserves :
    Reserves .other outcomes.newTurnId (enqueueBehindPendingAndStartHead outcomes input) :=
  .bind (acceptPendingInput_keeps outcomes input) fun _ =>
    .bind_keeps (reserveNextPending_reserves outcomes .other) fun _ => .of_pure _

theorem startDetachedInOperation_reserves :
    Reserves .other outcomes.newTurnId (startDetachedInOperation outcomes) :=
  .bind_keeps (reserveExecution_reserves outcomes .other none) fun _ => .of_pure _

theorem startBehindPending_reserves :
    Reserves .other outcomes.newTurnId (startBehindPending outcomes input) := by
  refine .bind (.attempt _) fun _ => .bind .read fun state => ?_
  split
  · exact .bind_keeps (enqueueBehindPendingAndStartHead_reserves outcomes input) fun _ => .of_pure _
  · exact startDetachedInOperation_reserves outcomes

private theorem queued_keeps :
    Keeps (do return DeliveryOutcome.queued (← acceptPendingInput outcomes input)) :=
  .bind (acceptPendingInput_keeps outcomes input) fun _ => .of_pure _

theorem injectIfRunningElseStart_reserves :
    Reserves .other outcomes.newTurnId (injectIfRunningElseStart outcomes input) := by
  refine .bind .read fun state => ?_
  split
  · exact (queued_keeps outcomes input).reserves
  · split
    · exact (Keeps.bind (acceptInput_keeps outcomes input _) fun _ => .of_pure _).reserves
    · split
      · exact (queued_keeps outcomes input).reserves
      · exact startBehindPending_reserves outcomes input

/-- The registry after a finished turn was taken off it: free, or reserved for the next one. -/
def Released (owner : Owner) (newTurnId : TurnId) (state state' : SchedulerState) : Prop :=
  Reserving owner newTurnId { state with registry := none } state'

private theorem settleFinishedExecutionLocked_eq (turnId : TurnId) (state : SchedulerState) :
    settleFinishedExecutionLocked outcomes turnId state =
      if state.activeTurnId ≠ some turnId then (.ok false, state)
      else match outcomes.settle with
        | some e => (.error e, state)
        | none => (.ok true, { state with registry := none }) := by
  rw [settleFinishedExecutionLocked, read_bind]
  split
  · rfl
  · cases outcomes.settle <;> rfl

private theorem settle_registered (registered : state.activeTurnId = some turnId) :
    settleFinishedExecutionLocked outcomes turnId state =
      match outcomes.settle with
      | some e => (.error e, state)
      | none => (.ok true, { state with registry := none }) := by
  rw [settleFinishedExecutionLocked_eq, if_neg (not_not_intro registered)]

/-- A queue delivery settles a finished turn, unless that fails, and no other. -/
theorem queueIfRunningElseStart_moves (state : SchedulerState) :
    if state.activeIsFinished = true ∧ outcomes.settle = none then
      Released .other outcomes.newTurnId state (queueIfRunningElseStart outcomes input state).2
    else Reserving .other outcomes.newTurnId state (queueIfRunningElseStart outcomes input state).2 := by
  rw [queueIfRunningElseStart, read_bind]
  cases registered : state.activeTurnId with
  | none =>
    have idle : ¬ state.activeIsFinished = true := by
      intro finished
      cases registry : state.registry with
      | none => simp [registry] at finished
      | some entry => simp [registry] at registered
    rw [if_neg fun both => idle both.1]
    exact startBehindPending_reserves outcomes input state
  | some turnId =>
    by_cases finished : state.activeIsFinished = true
    · dsimp only
      rw [if_pos finished]
      have settling := settle_registered outcomes registered
      -- a failed settle is dropped and the input only queued behind the turn
      cases failed : outcomes.settle with
      | some e =>
        rw [failed] at settling
        have skipped : (orNone (settleFinishedExecutionLocked outcomes turnId) :
            DeliveryM (Option Bool)) state = (.ok none, state) := by
          simp [orNone, settling]
        rw [bind_eq skipped, if_neg (by simp)]
        exact (queued_keeps outcomes input state).reserving
      | none =>
        rw [failed] at settling
        have settled : (orNone (settleFinishedExecutionLocked outcomes turnId) :
            DeliveryM (Option Bool)) state = (.ok (some true), { state with registry := none }) := by
          simp [orNone, settling]
        rw [bind_eq settled, if_pos ⟨finished, rfl⟩]
        exact Reserves.bind_keeps (enqueueBehindPendingAndStartHead_reserves outcomes input)
          (fun _ => .of_pure _) _
    · dsimp only
      rw [if_neg finished, if_neg fun both => finished both.1]
      exact (queued_keeps outcomes input state).reserving

/-- The input passes `validate_user_input`. -/
def Valid (input : UserInput) : Prop :=
  input.canSubmit = true ∧ input.text.utf8ByteSize ≤ maxPromptTextBytes

private theorem validateUserInput_eq (state : SchedulerState) :
    (∃ e, (validateUserInput input : DeliveryM Unit) state = (.error e, state)) ∧ ¬ Valid input ∨
      (validateUserInput input : DeliveryM Unit) state = (.ok (), state) ∧ Valid input := by
  unfold validateUserInput Valid
  cases canSubmit : input.canSubmit with
  | false => exact .inl ⟨⟨_, rfl⟩, by simp⟩
  | true =>
    by_cases long : maxPromptTextBytes < input.text.utf8ByteSize
    · rw [if_neg (by simp), if_pos long]
      exact .inl ⟨⟨_, rfl⟩, by omega⟩
    · rw [if_neg (by simp), if_neg long]
      exact .inr ⟨rfl, rfl, Nat.le_of_not_lt long⟩

/-- A delivery that takes a finished turn off the registry. -/
structure SettlesFirst (delivery : InputDelivery) (input : UserInput) : Prop where
  queues : delivery = .queueIfRunningElseStart
  begun : outcomes.begin = none
  valid : Valid input
  settles : outcomes.settle = none

open Classical in
theorem deliverInput_moves (delivery : InputDelivery) (input : UserInput) (state : SchedulerState) :
    if state.activeIsFinished = true ∧ SettlesFirst outcomes delivery input then
      Released .other outcomes.newTurnId state (deliverInput outcomes delivery input state).2
    else
      Reserving .other outcomes.newTurnId state (deliverInput outcomes delivery input state).2 := by
  cases begun : outcomes.begin with
  | some e =>
    have refused : deliverInput outcomes delivery input state = (.error e, state) := by
      unfold deliverInput
      rw [begun]
      rfl
    rw [refused, if_neg fun both => by simpa [begun] using both.2.begun]
    exact (Keeping.refl state).reserving
  | none =>
    have started : (Program.attempt outcomes.begin : DeliveryM Unit) state = (.ok (), state) := by
      rw [begun]
      rfl
    unfold deliverInput
    rw [bind_eq started]
    rcases validateUserInput_eq input state with ⟨⟨e, invalid⟩, bad⟩ | ⟨accepted, valid⟩
    · rw [bind_error invalid, if_neg fun both => bad both.2.valid]
      exact (Keeping.refl state).reserving
    · rw [bind_eq accepted]
      cases delivery with
      | startNew =>
        rw [if_neg fun both => nomatch both.2.queues]
        refine (Reserves.bind (.attempt _) fun _ => .bind .read fun state => ?_) state
        split
        · exact (Keeps.of_fail _).reserves
        · exact startDetachedInOperation_reserves outcomes
      | injectOnly =>
        rw [if_neg fun both => nomatch both.2.queues]
        refine Keeps.reserves (.bind .read fun state => ?_) state
        split
        · exact .of_fail _
        · split
          · exact .of_fail _
          · exact .bind (acceptInput_keeps outcomes input _) fun _ => .of_pure _
      | injectIfRunningElseStart =>
        rw [if_neg fun both => nomatch both.2.queues]
        exact injectIfRunningElseStart_reserves outcomes input state
      | queueIfRunningElseStart =>
        have moves := queueIfRunningElseStart_moves outcomes input state
        by_cases settles : state.activeIsFinished = true ∧ outcomes.settle = none
        · rw [if_pos settles] at moves
          rw [if_pos ⟨settles.1, rfl, begun, valid, settles.2⟩]
          exact moves
        · rw [if_neg settles] at moves
          rw [if_neg fun both => settles ⟨both.1, both.2.settles⟩]
          exact moves

end Deliveries

/-! ### Settling and reserving the next input -/

section Finish

variable (outcomes : Outcomes)

/-- The queue cannot be read, or its head is no input that could be started. -/
def ReserveFails (state : SchedulerState) : Prop :=
  outcomes.reserve ≠ none ∨ ∃ entry, state.pendingInputs.head? = some entry ∧ ¬ Valid entry.input

variable (owner : Owner)

theorem reserveNextPending_free (free : state.registry = none) :
    ReserveFails outcomes state ∧ (∃ e, reserveNextPending outcomes owner state = (.error e, state)) ∨
    ¬ ReserveFails outcomes state ∧ state.pendingInputs.head? = none ∧
      reserveNextPending outcomes owner state = (.ok none, state) ∨
    ∃ entry, ¬ ReserveFails outcomes state ∧ state.pendingInputs.head? = some entry ∧
      reserveNextPending outcomes owner state = (.ok (some entry),
        { state with registry := some ⟨outcomes.newTurnId, .reserved owner (some entry)⟩ }) := by
  cases unread : outcomes.reserve with
  | some e =>
    refine .inl ⟨.inl (by simp [unread]), e, ?_⟩
    unfold reserveNextPending
    rw [unread]
    rfl
  | none =>
    rw [reserveNextPending, unread, attempt_none_bind, read_bind]
    cases head : state.pendingInputs.head? with
    | none => exact .inr (.inl ⟨by simp [ReserveFails, unread, head], rfl, rfl⟩)
    | some entry =>
      rcases validateUserInput_eq entry.input state with ⟨⟨e, invalid⟩, bad⟩ | ⟨accepted, valid⟩
      · exact .inl ⟨.inr ⟨entry, head, bad⟩, e, bind_error invalid⟩
      · refine .inr (.inr ⟨entry, by simp [ReserveFails, unread, head, valid], rfl, ?_⟩)
        dsimp only
        rw [bind_eq accepted]
        have reserved := reserveExecution_eq outcomes owner (some entry) state
        rw [if_pos free] at reserved
        rw [bind_eq reserved]
        rfl

theorem reserveNextPending_active (active : state.registry ≠ none) :
    (reserveNextPending outcomes owner state).2 = state := by
  cases unread : outcomes.reserve with
  | some e =>
    unfold reserveNextPending
    rw [unread]
    rfl
  | none =>
    rw [reserveNextPending, unread, attempt_none_bind, read_bind]
    cases state.pendingInputs.head? with
    | none => rfl
    | some entry =>
      dsimp only
      rcases validateUserInput_eq entry.input state with ⟨⟨e, invalid⟩, -⟩ | ⟨accepted, -⟩
      · rw [bind_error invalid]
      · have refused := reserveExecution_eq outcomes owner (some entry) state
        rw [if_neg active] at refused
        rw [bind_eq accepted, bind_error refused]

private theorem finishInOperation_stale (gone : state.activeTurnId ≠ some turnId) :
    finishInOperation outcomes owner turnId state = (.ok .stale, state) := by
  have settling := settleFinishedExecutionLocked_eq outcomes turnId state
  rw [if_pos gone] at settling
  unfold finishInOperation
  rw [bind_eq settling]
  rfl

private theorem finishInOperation_registered (registered : state.activeTurnId = some turnId) :
    finishInOperation outcomes owner turnId state =
      match outcomes.settle with
      | some e => (.error e, state)
      | none => (reserveNextPending outcomes owner >>= fun next => pure (FinishOutcome.settled next))
          { state with registry := none } := by
  have settling := settle_registered outcomes registered
  unfold finishInOperation
  cases failed : outcomes.settle with
  | some e =>
    rw [failed] at settling
    exact bind_error settling
  | none =>
    rw [failed] at settling
    rw [bind_eq settling]
    rfl

/-- The watcher at the gate: it finds the turn gone, fails to settle it, or takes it off the
registry and then fails, finds no input, or reserves the next one. -/
inductive GateStep (turnId : TurnId) (state : SchedulerState) : SchedulerState → Prop where
  | stale (gone : state.activeTurnId ≠ some turnId) :
      GateStep turnId state { state with watcher := .returned }
  | unsettled (registered : state.activeTurnId = some turnId) (failed : outcomes.settle ≠ none) :
      GateStep turnId state { state with watcher := .retrying }
  | lost (registered : state.activeTurnId = some turnId) (settles : outcomes.settle = none)
      (fails : ReserveFails outcomes state) :
      GateStep turnId state { state with registry := none, watcher := .retrying }
  | last (registered : state.activeTurnId = some turnId) (settles : outcomes.settle = none)
      (able : ¬ ReserveFails outcomes state) (empty : state.pendingInputs.head? = none) :
      GateStep turnId state { state with registry := none, watcher := .publishing }
  | next (registered : state.activeTurnId = some turnId) (settles : outcomes.settle = none)
      (able : ¬ ReserveFails outcomes state) (entry : PendingInput)
      (head : state.pendingInputs.head? = some entry) :
      GateStep turnId state { state with
        registry := some ⟨outcomes.newTurnId, .reserved .watcher (some entry)⟩
        watcher := .starting }

variable (turnId : TurnId) (start : StartOutcome)

theorem stepWatcher_atGate (atGate : state.watcher = .atGate) :
    GateStep outcomes turnId state (stepWatcher outcomes turnId start state) := by
  unfold stepWatcher
  rw [atGate]
  by_cases registered : state.activeTurnId = some turnId
  · have finishing := finishInOperation_registered outcomes .watcher registered
    cases settles : outcomes.settle with
    | some e =>
      rw [settles] at finishing
      rw [finishing]
      exact .unsettled registered (by simp [settles])
    | none =>
      rw [settles] at finishing
      rw [finishing]
      have free : ({ state with registry := none } : SchedulerState).registry = none := rfl
      -- the turn is settled; how the attempt ends depends on the queue alone
      rcases reserveNextPending_free outcomes .watcher free with
        ⟨fails, e, failed⟩ | ⟨able, empty, none⟩ | ⟨entry, able, head, reserved⟩
      · rw [bind_error failed]
        exact .lost registered settles fails
      · rw [bind_eq none]
        exact .last registered settles able empty
      · rw [bind_eq reserved]
        exact .next registered settles able entry head
  · rw [finishInOperation_stale outcomes .watcher registered]
    exact .stale registered

theorem stepWatcher_retrying (retrying : state.watcher = .retrying) :
    stepWatcher outcomes turnId start state =
      { state with watcher := if outcomes.sync.isSome then .retrying else .atGate } := by
  unfold stepWatcher
  rw [retrying]
  cases outcomes.sync with
  | none => rfl
  | some e => simp [← retrying]

theorem stepWatcher_starting (starting : state.watcher = .starting) :
    stepWatcher outcomes turnId start state =
      { finishStart .watcher start state with watcher := .publishing } := by
  unfold stepWatcher
  rw [starting]

theorem stepWatcher_publishing (publishing : state.watcher = .publishing) :
    stepWatcher outcomes turnId start state =
      { state with watcher := .ended, completions := state.completions ++ [turnId] } := by
  unfold stepWatcher
  rw [publishing]

theorem stepWatcher_done (done : state.watcher = .ended ∨ state.watcher = .returned) :
    stepWatcher outcomes turnId start state = state := by
  unfold stepWatcher
  rcases done with ended | returned
  · rw [ended]
  · rw [returned]

/-- The input the watcher has reserved is started, or a retry is scheduled. -/
theorem finishStart_reserved {next : TurnId} {entry : PendingInput}
    (reserved : state.registry = some ⟨next, .reserved .watcher (some entry)⟩) :
    (finishStart .watcher start state).completions = state.completions ∧
      ((finishStart .watcher start state).registry = some ⟨next, .running false⟩ ∨
        (finishStart .watcher start state).registry = none ∧
          (finishStart .watcher start state).retryScheduled = true) := by
  unfold finishStart
  rw [reserved]
  cases start with
  | started => exact ⟨rfl, .inl rfl⟩
  | failed consumed => cases consumed <;> exact ⟨rfl, .inr ⟨rfl, rfl⟩⟩

end Finish

/-! ### What others can do -/

/-- How a step of somebody else moves the registry, the turn in question being left alone. -/
inductive RegistryMove (turnId : TurnId) : Option TurnEntry → Option TurnEntry → Prop where
  | stay (registry : Option TurnEntry) : RegistryMove turnId registry registry
  | reserve {newTurnId : TurnId} (entry : Option PendingInput) (fresh : newTurnId ≠ turnId) :
      RegistryMove turnId none (some ⟨newTurnId, .reserved .other entry⟩)
  | start (other : TurnId) (entry : Option PendingInput) :
      RegistryMove turnId (some ⟨other, .reserved .other entry⟩) (some ⟨other, .running false⟩)
  | drop (other : TurnId) (entry : Option PendingInput) :
      RegistryMove turnId (some ⟨other, .reserved .other entry⟩) none
  | finish (other : TurnId) :
      RegistryMove turnId (some ⟨other, .running false⟩) (some ⟨other, .running true⟩)
  | settle {other : TurnId} (another : other ≠ turnId) :
      RegistryMove turnId (some ⟨other, .running true⟩) none
  | settleReserve {other newTurnId : TurnId} (entry : Option PendingInput)
      (another : other ≠ turnId) (fresh : newTurnId ≠ turnId) :
      RegistryMove turnId (some ⟨other, .running true⟩) (some ⟨newTurnId, .reserved .other entry⟩)

/-- New turn ids differ from that of the turn in question. -/
def Fresh (turnId : TurnId) : Step → Prop
  | .watcher outcomes _ | .deliver _ _ outcomes | .queueRetry outcomes | .otherWatcher outcomes =>
    outcomes.newTurnId ≠ turnId
  | .start _ | .absorb _ | .taskEnds => True

def Step.isWatcher : Step → Bool
  | .watcher _ _ => true
  | _ => false

/-- The step is a queue delivery that settles the finished turn it finds. -/
def Step.SettlesFirst : Step → Prop
  | .deliver delivery input outcomes => Delivery.SettlesFirst outcomes delivery input
  | _ => False

/-- A step of somebody else as the watcher sees it. -/
structure OtherStep (turnId : TurnId) (s : Step) (state state' : SchedulerState) : Prop where
  watcher : state'.watcher = state.watcher
  completions : state'.completions = state.completions
  settled : s.SettlesFirst → state.activeIsFinished = true → state'.activeTurnId ≠ some turnId
  registry : ¬ (s.SettlesFirst ∧ state.activeIsFinished = true) →
    RegistryMove turnId state.registry state'.registry

section Others

variable {turnId newTurnId : TurnId} {state state' : SchedulerState}

private theorem Reserving.move (fresh : newTurnId ≠ turnId)
    (reserving : Reserving .other newTurnId state state') :
    RegistryMove turnId state.registry state'.registry := by
  rcases reserving.registry with same | ⟨free, entry, reserved⟩
  · rw [same]
    exact .stay _
  · rw [free, reserved]
    exact .reserve entry fresh

private theorem Released.gone (fresh : newTurnId ≠ turnId)
    (released : Released .other newTurnId state state') : state'.activeTurnId ≠ some turnId := by
  rcases released.registry with same | ⟨-, entry, reserved⟩
  · simp [same]
  · simpa [reserved] using fresh

private theorem finishStart_other (outcome : StartOutcome) :
    RegistryMove turnId state.registry (finishStart .other outcome state).registry ∧
      (finishStart .other outcome state).watcher = state.watcher ∧
      (finishStart .other outcome state).completions = state.completions := by
  unfold finishStart
  split
  · next reserved holder entry registry =>
    by_cases own : holder = .other
    · subst own
      cases outcome with
      | started =>
        have move : RegistryMove turnId state.registry (some ⟨reserved, .running false⟩) :=
          registry ▸ .start reserved entry
        cases entry <;> exact ⟨move, rfl, rfl⟩
      | failed consumed =>
        have move : RegistryMove turnId state.registry none := registry ▸ .drop reserved entry
        cases entry with
        | none => exact ⟨move, rfl, rfl⟩
        | some entry => cases consumed <;> exact ⟨move, rfl, rfl⟩
    · rw [if_neg own]
      exact ⟨.stay _, rfl, rfl⟩
  · exact ⟨.stay _, rfl, rfl⟩

private theorem runQueueRetry_other (outcomes : Outcomes) (state : SchedulerState) :
    Reserving .other outcomes.newTurnId state (runQueueRetry outcomes state) := by
  unfold runQueueRetry
  split
  · exact (Keeping.refl state).reserving
  · dsimp only
    split
    · exact Keeping.reserving ⟨rfl, rfl, rfl⟩
    · have waiting : Keeping state { state with retryScheduled := false } := ⟨rfl, rfl, rfl⟩
      have reserving := (reserveNextPending_reserves outcomes .other _).after waiting
      -- the retry that is scheduled again is all that tells the cases apart
      split
      · next reserved => rwa [reserved] at reserving
      · next failed =>
        rw [failed] at reserving
        exact reserving.before ⟨rfl, rfl, rfl⟩
      · next failed => rwa [failed] at reserving

private theorem endTask_other :
    RegistryMove turnId state.registry (endTask state).registry := by
  unfold endTask
  cases state.registry with
  | none => exact .stay _
  | some entry =>
    obtain ⟨active, entryState⟩ := entry
    cases entryState with
    | reserved owner entry => exact .stay _
    | running finished =>
      cases finished with
      | false => exact .finish active
      | true => exact .stay _

private theorem registry_of_finished {active : TurnId} (registered : state.activeTurnId = some active)
    (finished : state.activeIsFinished = true) :
    state.registry = some ⟨active, .running true⟩ := by
  cases registry : state.registry with
  | none => simp [registry] at registered
  | some entry =>
    obtain ⟨turn, entryState⟩ := entry
    simp only [activeTurnId, registry, Option.map_some, Option.some.injEq] at registered
    simp only [activeIsFinished, registry, Option.any_some, decide_eq_true_eq] at finished
    rw [registered, finished]

private theorem stepOtherWatcher_other (outcomes : Outcomes) (fresh : outcomes.newTurnId ≠ turnId) :
    RegistryMove turnId state.registry (stepOtherWatcher outcomes turnId state).registry ∧
      (stepOtherWatcher outcomes turnId state).watcher = state.watcher ∧
      (stepOtherWatcher outcomes turnId state).completions = state.completions := by
  unfold stepOtherWatcher
  cases registered : state.activeTurnId with
  | none => exact ⟨.stay _, rfl, rfl⟩
  | some active =>
    dsimp only
    split
    · next another =>
      obtain ⟨another, finished⟩ : active ≠ turnId ∧ state.activeIsFinished = true := by
        simpa using another
      have registry : state.registry = some ⟨active, .running true⟩ :=
        registry_of_finished registered finished
      have finishing := finishInOperation_registered outcomes .other registered
      cases settles : outcomes.settle with
      | some e =>
        rw [settles] at finishing
        rw [finishing]
        exact ⟨.stay _, rfl, rfl⟩
      | none =>
        rw [settles] at finishing
        rw [finishing]
        have reserving := Reserves.bind_keeps (reserveNextPending_reserves outcomes .other)
          (fun next => Keeps.of_pure (FinishOutcome.settled next)) { state with registry := none }
        refine ⟨?_, reserving.watcher, reserving.completions⟩
        rw [registry]
        rcases reserving.registry with free | ⟨-, entry, reserved⟩
        · rw [free]
          exact .settle another
        · rw [reserved]
          exact .settleReserve entry another fresh
    · exact ⟨.stay _, rfl, rfl⟩

/-- Whatever somebody else does, the watcher is where it was, and its turn is on the registry
unless a queue delivery took it off. -/
theorem step_other (fresh : Fresh turnId s) (other : s.isWatcher = false) :
    OtherStep turnId s state (step turnId s state) := by
  cases s with
  | watcher outcomes start => cases other
  | deliver delivery input outcomes =>
    have moves := deliverInput_moves outcomes delivery input state
    by_cases settles : state.activeIsFinished = true ∧ SettlesFirst outcomes delivery input
    · rw [if_pos settles] at moves
      exact ⟨moves.watcher, moves.completions, fun _ _ => moves.gone fresh,
        fun not => absurd ⟨settles.2, settles.1⟩ not⟩
    · rw [if_neg settles] at moves
      exact ⟨moves.watcher, moves.completions,
        fun first finished => absurd ⟨finished, first⟩ settles, fun _ => moves.move fresh⟩
  | start outcome =>
    obtain ⟨move, watcher, completions⟩ := finishStart_other outcome
    exact ⟨watcher, completions, fun first => first.elim, fun _ => move⟩
  | queueRetry outcomes =>
    have reserving := runQueueRetry_other outcomes state
    exact ⟨reserving.watcher, reserving.completions, fun first => first.elim,
      fun _ => reserving.move fresh⟩
  | absorb entry =>
    simp only [step]
    split <;> exact ⟨rfl, rfl, fun first => first.elim, fun _ => .stay _⟩
  | taskEnds => exact ⟨rfl, rfl, fun first => first.elim, fun _ => endTask_other⟩
  | otherWatcher outcomes =>
    obtain ⟨move, watcher, completions⟩ := stepOtherWatcher_other outcomes fresh
    exact ⟨watcher, completions, fun first => first.elim, fun _ => move⟩

end Others

/-! ### Runs -/

/-- The task of the turn has ended, and its watcher is about to settle it. -/
structure FinishedTurn (turnId : TurnId) (state : SchedulerState) : Prop where
  registered : state.registry = some ⟨turnId, .running true⟩
  watching : state.watcher = .retrying
  unpublished : state.completions.count turnId = 0

/-- The watcher gets its turn again and again, and fails only finitely often; new turns have
new ids. -/
structure FairRun (turnId : TurnId) (steps : Nat → Step) : Prop where
  fresh : ∀ n, Fresh turnId (steps n)
  fair : ∀ n, ∃ m, n ≤ m ∧ (steps m).isWatcher = true
  recovers : ∃ n, ∀ m, n ≤ m → ∀ outcomes start, steps m = .watcher outcomes start →
    outcomes.sync = none ∧ outcomes.settle = none ∧ outcomes.reserve = none ∧ start = .started

/-- The step neither settles the finished turn from a queue delivery nor, being the watcher's,
settles it and then fails to reserve the next input. -/
def Undisturbed (turnId : TurnId) (state : SchedulerState) : Step → Prop
  | .watcher outcomes _ =>
    ¬ (state.watcher = .atGate ∧ state.activeTurnId = some turnId ∧ outcomes.settle = none ∧
      ReserveFails outcomes state)
  | s => ¬ (state.registry = some ⟨turnId, .running true⟩ ∧ s.SettlesFirst)

section Runs

variable (turnId : TurnId) (states : Nat → SchedulerState)

/-- The turn goes off the registry with the given step. -/
def SettledAt (k : Nat) : Prop :=
  (states k).activeTurnId = some turnId ∧ (states (k + 1)).activeTurnId ≠ some turnId

/-- Before step `n`, the input that was at the head of the queue at step `k` was reserved by the
watcher and then started or scheduled for a retry. -/
def HeadServed (k n : Nat) : Prop :=
  ∀ entry, (states k).pendingInputs.head? = some entry →
    ∃ k' next, k < k' ∧ k' < n ∧
      (states k').registry = some ⟨next, .reserved .watcher (some entry)⟩ ∧
      ((states (k' + 1)).registry = some ⟨next, .running false⟩ ∨
        (states (k' + 1)).retryScheduled = true)

/-- Exactly one completion, the turn off the registry, and the next input under way. -/
structure CompletesOnce : Prop where
  published : ∃ n, ∀ m, n ≤ m → (states m).completions.count turnId = 1
  delisted : ∃ n, ∀ m, n ≤ m → (states m).activeTurnId ≠ some turnId
  next : ∃ k n, SettledAt turnId states k ∧ HeadServed states k n

/-- How far the watcher got in a run nothing disturbed. -/
inductive Stage (n : Nat) : Prop where
  | waiting (registered : (states n).registry = some ⟨turnId, .running true⟩)
      (watching : (states n).watcher = .retrying ∨ (states n).watcher = .atGate)
      (unpublished : (states n).completions.count turnId = 0)
  | starting {k : Nat} {next : TurnId} {entry : PendingInput} (earlier : k < n)
      (settled : SettledAt turnId states k) (head : (states k).pendingInputs.head? = some entry)
      (reserved : (states n).registry = some ⟨next, .reserved .watcher (some entry)⟩)
      (another : next ≠ turnId) (watching : (states n).watcher = .starting)
      (unpublished : (states n).completions.count turnId = 0)
  | settled {k : Nat} (settled : SettledAt turnId states k) (served : HeadServed states k n)
      (gone : (states n).activeTurnId ≠ some turnId)
      (published : (states n).watcher = .publishing ∧ (states n).completions.count turnId = 0 ∨
        (states n).watcher = .ended ∧ (states n).completions.count turnId = 1)

variable {turnId states} {state' : SchedulerState}

theorem HeadServed.later {k : Nat} (served : HeadServed states k n) :
    HeadServed states k (n + 1) := by
  intro entry head
  obtain ⟨k', next, after, before, reserved, outcome⟩ := served entry head
  exact ⟨k', next, after, Nat.lt_succ_of_lt before, reserved, outcome⟩

/-- A turn that is off the registry stays off. -/
private theorem OtherStep.gone
    (other : OtherStep turnId s state state') (gone : state.activeTurnId ≠ some turnId) :
    state'.activeTurnId ≠ some turnId := by
  -- a delivery that settles it takes it off as well; all other moves bring in fresh ids only
  by_cases first : s.SettlesFirst ∧ state.activeIsFinished = true
  · exact other.settled first.1 first.2
  · have move := other.registry first
    unfold activeTurnId at gone ⊢
    generalize state.registry = before at gone move
    generalize state'.registry = after at move ⊢
    cases move with
    | stay => exact gone
    | reserve entry fresh | settleReserve entry another fresh => simpa using fresh
    | start | finish => simpa using gone
    | drop another entry => simp
    | settle another => simp

/-- Nobody else moves a finished turn, or what the watcher has reserved. -/
private theorem OtherStep.still (other : OtherStep turnId s state state')
    (held : state.registry = some ⟨turnId, .running true⟩ ∧ ¬ s.SettlesFirst ∨
      ∃ next entry, state.registry = some ⟨next, .reserved .watcher entry⟩) :
    state'.registry = state.registry := by
  have move : RegistryMove turnId state.registry state'.registry := by
    refine other.registry ?_
    rintro ⟨first, finished⟩
    rcases held with ⟨-, not⟩ | ⟨next, entry, reserved⟩
    · exact not first
    · simp [reserved] at finished
  generalize state.registry = before at held move
  generalize state'.registry = after at move ⊢
  cases move with
  | stay => rfl
  | reserve | start | drop | finish => simp at held
  | settle another | settleReserve entry another => simp [another] at held

private theorem Stage.other (stage : Stage turnId states n)
    (calm : ¬ ((states n).registry = some ⟨turnId, .running true⟩ ∧ s.SettlesFirst))
    (other : OtherStep turnId s (states n) (states (n + 1))) : Stage turnId states (n + 1) := by
  cases stage with
  | waiting registered watching unpublished =>
    have same := other.still (.inl ⟨registered, fun first => calm ⟨registered, first⟩⟩)
    exact .waiting (same.trans registered) (by rwa [other.watcher]) (by rwa [other.completions])
  | starting earlier settled head reserved another watching unpublished =>
    have same := other.still (.inr ⟨_, _, reserved⟩)
    exact .starting (Nat.lt_succ_of_lt earlier) settled head (same.trans reserved) another
      (by rwa [other.watcher]) (by rwa [other.completions])
  | settled settled served gone published =>
    exact .settled settled served.later (other.gone gone)
      (by rwa [other.watcher, other.completions])

private theorem activeTurnId_of_registry {entry : TurnEntry}
    (registered : state.registry = some entry) : state.activeTurnId = some entry.turnId := by
  rw [activeTurnId, registered]
  rfl

/-- How many steps the watcher still needs, if none fails. -/
@[simp] def WatcherState.rank : WatcherState → Nat
  | .retrying => 4
  | .atGate => 3
  | .starting => 2
  | .publishing => 1
  | .ended | .returned => 0

/-- Once it no longer fails, each step of the watcher brings it closer to the end. -/
private theorem Stage.watcher {outcomes : Outcomes} {start : StartOutcome}
    (stage : Stage turnId states n) (fresh : outcomes.newTurnId ≠ turnId)
    (calm : Undisturbed turnId (states n) (.watcher outcomes start))
    (next : states (n + 1) = stepWatcher outcomes turnId start (states n)) :
    Stage turnId states (n + 1) ∧ (outcomes.sync = none → outcomes.settle = none →
      (states n).watcher.rank = 0 ∨
        (states (n + 1)).watcher.rank < (states n).watcher.rank) := by
  cases stage with
  | waiting registered watching unpublished =>
    have active := activeTurnId_of_registry registered
    rcases watching with retrying | atGate
    · rw [stepWatcher_retrying outcomes turnId start retrying] at next
      refine ⟨.waiting ?_ ?_ ?_, fun synced _ => .inr ?_⟩ <;> rw [next]
      · exact registered
      · cases outcomes.sync with
        | none => exact .inr rfl
        | some e => exact .inl rfl
      · exact unpublished
      · simp [synced, retrying]
    · have gate := stepWatcher_atGate outcomes turnId start atGate
      rw [← next] at gate
      generalize after : states (n + 1) = state' at gate
      rw [atGate]
      cases gate with
      | stale gone => exact absurd active gone
      | unsettled _ failed =>
        refine ⟨.waiting ?_ (.inl ?_) ?_, fun _ settles => absurd settles failed⟩ <;> rw [after]
        · exact registered
        · exact unpublished
      -- the one outcome the condition excludes
      | lost _ settles fails => exact absurd ⟨atGate, active, settles, fails⟩ calm
      | last _ settles able empty =>
        have settled : SettledAt turnId states n :=
          ⟨active, by rw [after]; simp⟩
        refine ⟨.settled settled ?_ settled.2 (.inl ?_), fun _ _ => .inr (by simp)⟩
        · intro entry head
          rw [empty] at head
          cases head
        · rw [after]
          exact ⟨rfl, unpublished⟩
      | next _ settles able entry head =>
        have settled : SettledAt turnId states n :=
          ⟨active, by rw [after]; simpa using fresh⟩
        refine ⟨.starting (Nat.lt_succ_self n) settled head ?_ fresh ?_ ?_,
          fun _ _ => .inr (by simp)⟩ <;> rw [after]
        exact unpublished
  | starting earlier settled head reserved another watching unpublished =>
    obtain ⟨completions, outcome⟩ := finishStart_reserved start reserved
    rw [stepWatcher_starting outcomes turnId start watching] at next
    refine ⟨.settled settled ?_ ?_ (.inl ?_), fun _ _ => .inr ?_⟩
    · intro entry' head'
      obtain rfl : _ = entry' := Option.some.inj (head.symm.trans head')
      refine ⟨n, _, earlier, Nat.lt_succ_self n, reserved, ?_⟩
      rw [next]
      exact outcome.imp_right And.right
    · rw [next]
      rcases outcome with started | ⟨dropped, -⟩
      · simpa [started] using another
      · simp [dropped]
    · rw [next]
      exact ⟨rfl, completions ▸ unpublished⟩
    · simp [next, watching]
  | settled settled served gone published =>
    rcases published with ⟨publishing, unpublished⟩ | ⟨ended, once⟩
    · rw [stepWatcher_publishing outcomes turnId start publishing] at next
      refine ⟨.settled settled served.later ?_ (.inr ?_), fun _ _ => .inr ?_⟩ <;> rw [next]
      · exact gone
      · exact ⟨rfl, by simp [unpublished]⟩
      · simp [publishing]
    · rw [stepWatcher_done outcomes turnId start (.inl ended)] at next
      refine ⟨.settled settled served.later ?_ (.inr ?_), fun _ _ => .inl ?_⟩
      · rwa [next]
      · rw [next]
        exact ⟨ended, once⟩
      · rw [ended]
        rfl

end Runs

/-! ### Every undisturbed run publishes -/

section Publishes

variable {n : Nat} {turnId : TurnId} {steps : Nat → Step} {states : Nat → SchedulerState}
  (runs : ∀ n, states (n + 1) = step turnId (steps n) (states n))

include runs

private theorem stage_step (fresh : Fresh turnId (steps n))
    (calm : Undisturbed turnId (states n) (steps n)) (stage : Stage turnId states n) :
    Stage turnId states (n + 1) := by
  cases now : steps n with
  | watcher outcomes start =>
    rw [now] at fresh calm
    exact (stage.watcher fresh calm (by rw [runs, now, step])).1
  | _ =>
    rw [now] at fresh calm
    refine stage.other calm ?_
    rw [runs, now]
    exact step_other fresh rfl

theorem stage_of_undisturbed (finished : FinishedTurn turnId (states 0))
    (fresh : ∀ n, Fresh turnId (steps n))
    (calm : ∀ m, m < n → Undisturbed turnId (states m) (steps m)) :
    Stage turnId states n := by
  induction n with
  | zero => exact .waiting finished.registered (.inl finished.watching) finished.unpublished
  | succ n ih =>
    exact stage_step runs (fresh n) (calm n (Nat.lt_succ_self n))
      (ih fun m before => calm m (Nat.lt_succ_of_lt before))

private theorem done_stays (fresh : Fresh turnId (steps n)) (done : (states n).watcher.rank = 0) :
    (states (n + 1)).watcher = (states n).watcher := by
  cases now : steps n with
  | watcher outcomes start =>
    have through : (states n).watcher = .ended ∨
        (states n).watcher = .returned := by
      cases state : (states n).watcher <;> simp [state] at done ⊢
    rw [runs, now, step, stepWatcher_done outcomes turnId start through]
  | _ =>
    rw [now] at fresh
    rw [runs, now]
    exact (step_other fresh rfl).watcher

omit runs in
private theorem stage_ended (stage : Stage turnId states n) (done : (states n).watcher.rank = 0) :
    (states n).watcher = .ended ∧
      (states n).completions.count turnId = 1 ∧
      (states n).activeTurnId ≠ some turnId ∧
      ∃ k, SettledAt turnId states k ∧
        HeadServed states k n := by
  cases stage with
  | waiting registered watching unpublished =>
    rcases watching with watching | watching <;> simp [watching] at done
  | starting earlier settled head reserved another watching unpublished =>
    simp [watching] at done
  | settled settled served gone published =>
    rcases published with ⟨publishing, -⟩ | ⟨ended, once⟩
    · simp [publishing] at done
    · exact ⟨ended, once, gone, _, settled, served⟩

theorem completesOnce_of_undisturbed (finished : FinishedTurn turnId (states 0))
    (fairly : FairRun turnId steps) (calm : ∀ n, Undisturbed turnId (states n) (steps n)) :
    CompletesOnce turnId states := by
  have stage : ∀ n, Stage turnId states n :=
    fun n => stage_of_undisturbed runs finished fairly.fresh fun m _ => calm m
  obtain ⟨recovered, works⟩ := fairly.recovers
  have advances : ∀ n, recovered ≤ n → (steps n).isWatcher = true →
      (states n).watcher.rank = 0 ∨
        (states (n + 1)).watcher.rank <
          (states n).watcher.rank := by
    intro n late isWatcher
    cases now : steps n with
    | watcher outcomes start =>
      obtain ⟨synced, settles, -⟩ := works n late outcomes start now
      have fresh := now ▸ fairly.fresh n
      exact ((stage n).watcher fresh (now ▸ calm n) (by rw [runs, now, step])).2 synced settles
    | _ =>
      rw [now] at isWatcher
      cases isWatcher
  -- after the last failure the rank never grows, as nobody else moves the watcher
  have shrinks : ∀ n, recovered ≤ n → (states (n + 1)).watcher.rank ≤
      (states n).watcher.rank := by
    intro n late
    cases isWatcher : (steps n).isWatcher with
    | false => exact Nat.le_of_eq (congrArg _ (runs n ▸ (step_other (fairly.fresh n) isWatcher).watcher))
    | true =>
      rcases advances n late isWatcher with done | closer
      · exact Nat.le_of_eq (congrArg _ (done_stays runs (fairly.fresh n) done))
      · exact Nat.le_of_lt closer
  -- and fairness makes it shrink
  have progress : ∀ n, recovered ≤ n → ∃ m, n ≤ m ∧
      ((states m).watcher.rank = 0 ∨
        (states (m + 1)).watcher.rank <
          (states m).watcher.rank) := by
    intro n late
    obtain ⟨m, later, isWatcher⟩ := fairly.fair n
    exact ⟨m, later, advances m (Nat.le_trans late later) isWatcher⟩
  obtain ⟨done, -, zero⟩ := exists_rank_eq_zero shrinks progress
  have forever := stable_of_step
    (P := fun n => (states n).watcher.rank = 0) zero
    fun n _ still => (congrArg _ (done_stays runs (fairly.fresh n) still)).trans still
  refine ⟨⟨done, fun m later => ?_⟩, ⟨done, fun m later => ?_⟩, ?_⟩
  · exact (stage_ended (stage m) (forever m later)).2.1
  · exact (stage_ended (stage m) (forever m later)).2.2.1
  · obtain ⟨-, -, -, k, settled, served⟩ := stage_ended (stage done) zero
    exact ⟨k, done, settled, served⟩

end Publishes

/-! ### A disturbed run never publishes -/

/-- The turn is off the registry, and the watcher has not got to know. -/
structure Lost (turnId : TurnId) (state : SchedulerState) : Prop where
  gone : state.activeTurnId ≠ some turnId
  watching : state.watcher = .retrying ∨ state.watcher = .atGate ∨ state.watcher = .returned
  unpublished : state.completions.count turnId = 0

section NeverPublishes

variable {turnId : TurnId} {initial : SchedulerState} {steps : Nat → Step}
  {states : Nat → SchedulerState}

private theorem Lost.watcher (outcomes : Outcomes) (start : StartOutcome)
    (lost : Lost turnId state) : Lost turnId (stepWatcher outcomes turnId start state) := by
  obtain ⟨gone, watching, unpublished⟩ := lost
  -- at the gate it finds the turn gone and returns; nowhere does it publish
  rcases watching with retrying | atGate | returned
  · rw [stepWatcher_retrying outcomes turnId start retrying]
    refine ⟨gone, ?_, unpublished⟩
    cases outcomes.sync with
    | none => exact .inr (.inl rfl)
    | some e => exact .inl rfl
  · have gate := stepWatcher_atGate outcomes turnId start atGate
    generalize stepWatcher outcomes turnId start state = state' at gate
    cases gate with
    | stale _ => exact ⟨gone, .inr (.inr rfl), unpublished⟩
    | unsettled registered | lost registered | last registered | next registered =>
      exact absurd registered gone
  · rw [stepWatcher_done outcomes turnId start (.inr returned)]
    exact ⟨gone, .inr (.inr returned), unpublished⟩

theorem Lost.step (fresh : Fresh turnId s)
    (lost : Lost turnId state) : Lost turnId (step turnId s state) := by
  cases isWatcher : s.isWatcher with
  | true =>
    cases s with
    | watcher outcomes start => exact lost.watcher outcomes start
    | _ => cases isWatcher
  | false =>
    have other : OtherStep turnId s state (Delivery.step turnId s state) :=
      step_other fresh isWatcher
    exact ⟨other.gone lost.gone, by rw [other.watcher]; exact lost.watching,
      by rw [other.completions]; exact lost.unpublished⟩

private theorem Stage.registered
    (stage : Stage turnId states n) (active : (states n).activeTurnId = some turnId) :
    ((states n).watcher = .retrying ∨ (states n).watcher = .atGate) ∧
      (states n).completions.count turnId = 0 := by
  cases stage with
  | waiting registered watching unpublished => exact ⟨watching, unpublished⟩
  | starting earlier settled head reserved another watching unpublished =>
    exact absurd (Option.some.inj ((activeTurnId_of_registry reserved).symm.trans active)) another
  | settled settled served gone published => exact absurd active gone

/-- A step that disturbs the turn loses it. -/
theorem lost_of_disturbed (fresh : Fresh turnId s) (stage : Stage turnId states n)
    (disturbed : ¬ Undisturbed turnId (states n) s) : Lost turnId (step turnId s (states n)) := by
  cases isWatcher : s.isWatcher with
  | true =>
    cases s with
    | watcher outcomes start =>
      obtain ⟨atGate, active, settles, fails⟩ := not_not.mp disturbed
      obtain ⟨-, unpublished⟩ := stage.registered active
      have gate := stepWatcher_atGate outcomes turnId start atGate
      rw [Delivery.step]
      generalize stepWatcher outcomes turnId start (states n) = state' at gate
      cases gate with
      | stale gone => exact absurd active gone
      | unsettled _ failed => exact absurd settles failed
      | lost _ _ _ => exact ⟨by simp, .inl rfl, unpublished⟩
      | last _ _ able | next _ _ able => exact absurd fails able
    | _ => cases isWatcher
  | false =>
    have first : (states n).registry = some ⟨turnId, .running true⟩ ∧ s.SettlesFirst := by
      cases s with
      | watcher outcomes start => cases isWatcher
      | _ => exact not_not.mp disturbed
    obtain ⟨registered, settles⟩ := first
    obtain ⟨watching, unpublished⟩ := stage.registered (activeTurnId_of_registry registered)
    have other : OtherStep turnId s (states n) (Delivery.step turnId s (states n)) :=
      step_other fresh isWatcher
    refine ⟨other.settled settles ?_, ?_, ?_⟩
    · simp [registered]
    · rw [other.watcher]
      exact watching.imp_right .inl
    · rw [other.completions]
      exact unpublished

/-- In every fair run from the end of the task on, in which the watcher fails only finitely
often, the turn's completion is published exactly once, the turn leaves the registry and the
head of the queue is started or scheduled for a retry, exactly if no step disturbs the turn. -/
theorem watcher_completesOnce_iff (finished : FinishedTurn turnId initial)
    (fairly : FairRun turnId steps) :
    CompletesOnce turnId (run turnId initial steps) ↔
      ∀ n, Undisturbed turnId (run turnId initial steps n) (steps n) := by
  constructor
  · intro once
    by_contra disturbed
    -- up to the first disturbing step the run is as described by `Stage`
    obtain ⟨n, first, before⟩ := exists_first_not disturbed
    have stage := stage_of_undisturbed (fun _ => rfl) finished fairly.fresh before
    -- from then on the watcher can only find the turn gone
    have lost : ∀ m, n + 1 ≤ m → Lost turnId (run turnId initial steps m) :=
      stable_of_step (P := fun m => Lost turnId (run turnId initial steps m))
        (lost_of_disturbed (fairly.fresh n) stage first) fun m _ lost => lost.step (fairly.fresh m)
    obtain ⟨from', published⟩ := once.published
    have none := (lost (max from' (n + 1)) (Nat.le_max_right _ _)).unpublished
    rw [published _ (Nat.le_max_left _ _)] at none
    cases none
  · exact completesOnce_of_undisturbed (fun _ => rfl) finished fairly

end NeverPublishes

/-! A queue delivery that comes between the end of the task and the watcher: it settles the
turn, starts the head of the queue, and the watcher returns without a word. -/

def noFailures : Outcomes := ⟨none, none, none, none, none, none, none, 7, "turn-2"⟩

def finishedTurn : SchedulerState :=
  ⟨some ⟨"turn-1", .running true⟩, [⟨3, ⟨"queued", []⟩, none⟩], false, .retrying, []⟩

def deliveryFirst : Nat → Step
  | 0 => .deliver .queueIfRunningElseStart ⟨"hello", []⟩ noFailures
  | 1 => .start .started
  | _ => .watcher noFailures .started

private theorem finishedTurn_finished : FinishedTurn "turn-1" finishedTurn := ⟨rfl, rfl, rfl⟩

private theorem run_stays {steps : Nat → Step} {k : Nat}
    (watches : ∀ n, k ≤ n → steps n = .watcher noFailures .started)
    (done : (run "turn-1" finishedTurn steps k).watcher = .ended ∨
      (run "turn-1" finishedTurn steps k).watcher = .returned) :
    ∀ n, k ≤ n → run "turn-1" finishedTurn steps n = run "turn-1" finishedTurn steps k :=
  stable_of_step (P := fun n => run "turn-1" finishedTurn steps n =
    run "turn-1" finishedTurn steps k) rfl fun n late same => by
      rw [run, same, watches n late, step, stepWatcher_done _ _ _ done]

private theorem noFailures_fresh : noFailures.newTurnId ≠ "turn-1" := by decide

theorem watcher_delivery_first :
    FinishedTurn "turn-1" finishedTurn ∧ FairRun "turn-1" deliveryFirst ∧
      ∀ n, (run "turn-1" finishedTurn deliveryFirst n).completions = [] := by
  have watches : ∀ n, 2 ≤ n → deliveryFirst n = .watcher noFailures .started
    | _ + 2, _ => rfl
  refine ⟨finishedTurn_finished, ⟨?_, ?_, ?_⟩, ?_⟩
  · intro n
    match n with
    | 0 => exact noFailures_fresh
    | 1 => trivial
    | _ + 2 => exact noFailures_fresh
  · intro n
    refine ⟨n + 2, Nat.le_add_right _ _, ?_⟩
    rfl
  · refine ⟨2, fun m late outcomes start now => ?_⟩
    rw [watches m late] at now
    cases now
    exact ⟨rfl, rfl, rfl, rfl⟩
  · have returned : (run "turn-1" finishedTurn deliveryFirst 4).watcher = .returned := by
      decide +kernel
    have stays := run_stays (k := 4) (fun n late => watches n (by omega)) (.inr returned)
    intro n
    by_cases late : 4 ≤ n
    · rw [stays n late]
      decide +kernel
    · have early : n = 0 ∨ n = 1 ∨ n = 2 ∨ n = 3 := by omega
      rcases early with rfl | rfl | rfl | rfl <;> decide +kernel

/-- With nobody in between, the watcher alone settles the turn and starts the queued input. -/
theorem watcher_completesOnce_alone :
    CompletesOnce "turn-1" (run "turn-1" finishedTurn fun _ => .watcher noFailures .started) := by
  have fairly : FairRun "turn-1" fun _ => .watcher noFailures .started := by
    refine ⟨fun _ => noFailures_fresh, fun n => ⟨n, Nat.le_refl n, rfl⟩, 0, ?_⟩
    intro m _ outcomes start now
    cases now
    exact ⟨rfl, rfl, rfl, rfl⟩
  refine (watcher_completesOnce_iff finishedTurn_finished fairly).mpr fun n => ?_
  have ended : (run "turn-1" finishedTurn (fun _ => .watcher noFailures .started) 4).watcher =
      .ended := by decide +kernel
  rintro ⟨atGate, -, -, fails⟩
  -- the watcher is at the gate only once, and then the head of the queue can be started
  by_cases late : 4 ≤ n
  · rw [run_stays (k := 4) (fun _ _ => rfl) (.inl ended) n late, ended] at atGate
    cases atGate
  · have early : n = 1 ∨ n ≠ 1 ∧ (n = 0 ∨ n = 2 ∨ n = 3) := by omega
    rcases early with rfl | ⟨-, rfl | rfl | rfl⟩
    · rcases fails with unread | ⟨entry, head, bad⟩
      · exact unread rfl
      · have queued : (run "turn-1" finishedTurn (fun _ => .watcher noFailures .started)
            1).pendingInputs.head? = some ⟨3, ⟨"queued", []⟩, none⟩ := by decide +kernel
        cases head
        exact bad ⟨by decide +kernel, by decide +kernel⟩
    all_goals exact absurd atGate (by decide +kernel)

end Astrcode.Delivery
