import Astrcode.Extensions.CustomEventDelivery

/-!
# How often an event is handed over

The failures of an event are counted in the stored state, and the count goes up only with a
write. So the handler is called with an event once for each failure that was counted, once more
for the call that settles it, and once for each write or read that failed in between.

All this is about a consumer that is left alone: from some point on it is not paused, no control
command is at work, and its lane is not cancelled.
-/
namespace Astrcode

open Option

/-- The pass a lane makes its attempts for. -/
@[simp] def LanePhase.attempt? : LanePhase → Option DeliveryPass
  | .preparing pass | .acquiring pass | .starting pass | .handling pass _
  | .recording pass _ _ | .sleeping pass => some pass
  | _ => none

namespace DeliverySystem

variable {store store' : EventConsumerState} {action : DeliveryAction} {revision seq : Nat}
  {outcome : RecordOutcome} {pass : DeliveryPass} {subscription : CustomEventSubscription}
  {s s' : DeliverySystem} {disposition : CustomEventDisposition}

/-- Live events that wait in the queue; each holds a permit. -/
def liveQueued (s : DeliverySystem) : Nat := s.queue.countP (·.isLive)

/-- What holds in every state the system can reach. -/
structure WellFormed (s : DeliverySystem) : Prop where
  failures : s.store.consecutiveFailures < customEventQuarantineAfter
  permits : s.freePermits + s.otherPermits + s.lane.permits + s.liveQueued = customEventConcurrency
  remaining : ∀ pass ∈ s.lane.attempt?, pass.remaining ≠ []
  stopped : s.lane = .stopped → s.queue = []

theorem wellFormed_initial (log : List DurableEvent) : WellFormed (initial log) where
  failures := (by decide : 0 < customEventQuarantineAfter)
  permits := (by decide : customEventConcurrency + 0 + 0 + 0 = customEventConcurrency)
  remaining _ isPass := nomatch isPass
  stopped _ := rfl

/-! ### Steps outside the lane -/

section

variable (wellFormed : WellFormed s)

include wellFormed

theorem WellFormed.openLane : WellFormed s.openLane := by
  rw [DeliverySystem.openLane]
  split
  · next stopped =>
    have permits := wellFormed.permits
    rw [liveQueued, wellFormed.stopped stopped, stopped] at permits
    exact ⟨wellFormed.failures, permits,
      fun pass found => absurd found (Option.not_mem_none pass), fun _ => rfl⟩
  · exact wellFormed

theorem WellFormed.signalDurable (throughSeq : Option Nat) :
    WellFormed (s.signalDurable throughSeq) := by
  have opened := wellFormed.openLane
  rw [DeliverySystem.signalDurable]
  split
  · exact opened
  · refine ⟨opened.failures, ?_, opened.remaining, fun same => absurd same openLane_present⟩
    simpa [liveQueued] using opened.permits

theorem WellFormed.withStore {base : Option Nat}
    (few : store.consecutiveFailures < customEventQuarantineAfter) :
    WellFormed { s with store, base } :=
  ⟨few, wellFormed.permits, wellFormed.remaining, wellFormed.stopped⟩

theorem WellFormed.writePaused (paused : Bool) (result : WriteResult) :
    WellFormed (s.writePaused paused result) := by
  rcases result with _ | _ | _
  · exact wellFormed.withStore wellFormed.failures
  · exact wellFormed
  · exact wellFormed.withStore wellFormed.failures

theorem WellFormed.writeReset (reset : EventConsumerCheckpointReset) (result : WriteResult) :
    WellFormed (s.writeReset reset result) := by
  have resets : ∀ store, resetEventConsumerCheckpoint s.log.length reset s.store = .ok store →
      WellFormed { s with store, base := store.checkpoint } := by
    intro store edited
    obtain ⟨-, -, -, failures⟩ := resetEventConsumerCheckpoint_ok edited
    exact wellFormed.withStore (failures ▸ (by decide : 0 < customEventQuarantineAfter))
  rcases result with _ | _ | _ <;>
    cases edited : resetEventConsumerCheckpoint s.log.length reset s.store <;>
    simp [DeliverySystem.writeReset, edited]
  case ok.ok store | failed.true.ok store => exact resets store edited
  all_goals exact wellFormed

theorem WellFormed.observeLive {event : CustomEventData} (observed : s.observeLive event = some s') :
    WellFormed s' := by
  have opened := wellFormed.openLane
  have permits := opened.permits
  rw [DeliverySystem.observeLive] at observed
  split at observed
  · cases observed
  · dsimp only at observed
    split at observed
    · cases observed
      exact opened
    · next free =>
      cases observed
      refine ⟨opened.failures, ?_, opened.remaining, fun same => absurd same openLane_present⟩
      have counted : (CustomEventLaneCommand.live event).isLive = true := rfl
      simp only [liveQueued, List.countP_append, List.countP_singleton, counted, if_true] at permits ⊢
      omega

theorem WellFormed.otherStep (other : ∀ input, action ≠ .lane input)
    (stepped : s.step subscription action = some s') : WellFormed s' := by
  cases action with
  | lane input => exact absurd rfl (other input)
  | append event | control action =>
    cases stepped
    exact ⟨wellFormed.failures, wellFormed.permits, wellFormed.remaining, wellFormed.stopped⟩
  | signal throughSeq =>
    cases stepped
    exact wellFormed.signalDurable throughSeq
  | live event =>
    rw [step] at stepped
    split at stepped
    · exact wellFormed.observeLive stepped
    · cases stepped
      exact wellFormed
  | otherAcquire | otherRelease =>
    have permits := wellFormed.permits
    simp only [step, Bool.and_eq_true, decide_eq_true_eq] at stepped
    split at stepped <;> cases stepped
    refine ⟨wellFormed.failures, ?_, wellFormed.remaining, wellFormed.stopped⟩
    simp only [liveQueued] at permits ⊢
    omega
  | controlStep index input =>
    simp only [step, controlStep, bind_eq_bind, bind_eq_some_iff, pure_def,
      some.injEq, Prod.exists] at stepped
    obtain ⟨task, -, next, task', advanced, rfl⟩ := stepped
    have written : WellFormed next := by
      rcases advanceTask_effect advanced with rfl | rfl | ⟨paused, result, rfl⟩ |
        ⟨reset, result, rfl⟩
      · exact wellFormed
      · exact wellFormed.signalDurable none
      · exact wellFormed.writePaused paused result
      · exact wellFormed.writeReset reset result
    exact ⟨written.failures, written.permits, written.remaining, written.stopped⟩

end

/-! ### Steps of the lane -/

theorem nextPhase_cases (pass : DeliveryPass) :
    (pass.remaining ≠ [] ∧ pass.nextPhase = .preparing pass) ∨
      (pass.remaining = [] ∧ ∃ head, pass.replayHead = some head ∧
        pass.nextPhase = .checkpointing pass head) ∨
      (pass.remaining = [] ∧ pass.replayHead = none ∧ pass.nextPhase = .idle) := by
  rw [DeliveryPass.nextPhase.eq_def]
  split
  · next stored rest remaining => exact Or.inl ⟨by simp [remaining], rfl⟩
  · next head remaining isHead => exact Or.inr (Or.inl ⟨remaining, head, isHead, rfl⟩)
  · next remaining noHead => exact Or.inr (Or.inr ⟨remaining, noHead, rfl⟩)

/-- After an event of a pass the lane holds no permit and has another event or none to attempt. -/
theorem nextPhase_shape (pass : DeliveryPass) :
    pass.nextPhase.permits = 0 ∧ (∀ next ∈ pass.nextPhase.attempt?, next.remaining ≠ []) ∧
      pass.nextPhase ≠ .stopped := by
  rcases nextPhase_cases pass with ⟨more, next⟩ | ⟨-, head, -, next⟩ | ⟨-, -, next⟩ <;> rw [next]
  · refine ⟨rfl, fun next isNext => ?_, by simp⟩
    cases isNext
    exact more
  all_goals exact ⟨rfl, by simp, by simp⟩

/-- The count after a write stays below the limit. -/
theorem Edits.failures (edit : s.Edits revision seq outcome store)
    (few : s.store.consecutiveFailures < customEventQuarantineAfter) :
    store.consecutiveFailures < customEventQuarantineAfter := by
  cases edit with
  | stale | reached => exact few
  | counted _ _ fewer => exact fewer
  | moved _ _ _ _ _ failures => exact failures ▸ (by decide : 0 < customEventQuarantineAfter)

theorem checkpointed_failures {eventCount seq : Nat} {outcome : EventConsumerCheckpointOutcome}
    (edited : checkpointEventConsumer eventCount revision seq store = .ok (outcome, store'))
    (few : store.consecutiveFailures < customEventQuarantineAfter) :
    store'.consecutiveFailures < customEventQuarantineAfter := by
  obtain ⟨-, edit⟩ := checkpointEventConsumer_cases edited
  rcases edit with ⟨-, -, rfl⟩ | ⟨-, -, -, rfl⟩ | ⟨-, -, -, rfl⟩
  · exact few
  · exact few
  · exact (by decide : 0 < customEventQuarantineAfter)

/-- The ways in which the lane can go on. -/
inductive LaneMove (subscription : CustomEventSubscription) (s : DeliverySystem) :
    DeliverySystem → Prop
  | takesLive {event : CustomEventData} {queue : List CustomEventLaneCommand}
      (lane : s.lane = .idle) (isQueue : s.queue = .live event :: queue) :
      LaneMove subscription s { s with queue, lane := .preparingLive event }
  | takesDurable {throughSeq : Option Nat} {queue : List CustomEventLaneCommand}
      (lane : s.lane = .idle) (isQueue : s.queue = .reconcileDurable throughSeq :: queue)
      (fullReconciliationQueued : Bool) :
      LaneMove subscription s
        { s with queue, lane := .readingState throughSeq, fullReconciliationQueued }
  | readsState {throughSeq : Option Nat} (lane : s.lane = .readingState throughSeq) :
      LaneMove subscription s { s with lane := .replaying throughSeq s.store }
  | replays {throughSeq : Option Nat} {state : EventConsumerState}
      (lane : s.lane = .replaying throughSeq state) :
      LaneMove subscription s
        { s with lane := (passFrom subscription s throughSeq state).nextPhase }
  | waits {pass : DeliveryPass} (lane : s.lane = .preparing pass ∨ s.lane = .sleeping pass) :
      LaneMove subscription s { s with lane := .acquiring pass }
  | acquires {pass : DeliveryPass} (lane : s.lane = .acquiring pass) (free : 0 < s.freePermits) :
      LaneMove subscription s { s with freePermits := s.freePermits - 1, lane := .starting pass }
  | hands {pass : DeliveryPass} {stored : StoredEvent} {rest : List StoredEvent}
      (lane : s.lane = .starting pass) (remaining : pass.remaining = stored :: rest)
      (behind : s.store.reached stored.seq = false) :
      LaneMove subscription s
        { s with lane := .handling pass s.store.revision, handed := s.handed ++ [stored.seq] }
  | passesOver {pass : DeliveryPass} {stored : StoredEvent} {rest : List StoredEvent}
      (lane : s.lane = .starting pass) (remaining : pass.remaining = stored :: rest)
      (reached : s.store.reached stored.seq = true) :
      LaneMove subscription s { s.release with lane := pass.consumeFirst.nextPhase }
  | returns {pass : DeliveryPass} {revision : Nat} (lane : s.lane = .handling pass revision)
      (disposition : CustomEventDisposition) :
      LaneMove subscription s { s with lane := .recording pass revision disposition }
  | records {pass : DeliveryPass} {stored : StoredEvent} {rest : List StoredEvent} {revision : Nat}
      {disposition : CustomEventDisposition} {outcome : RecordOutcome} {store : EventConsumerState}
      (lane : s.lane = .recording pass revision disposition)
      (remaining : pass.remaining = stored :: rest) (edit : s.Edits revision stored.seq outcome store) :
      LaneMove subscription s
        { (s.applyEdit revision stored.seq outcome store).release with
          lane := if outcome = .again then .sleeping pass else pass.consumeFirst.nextPhase }
  | recordsAndFails {pass : DeliveryPass} {stored : StoredEvent} {rest : List StoredEvent}
      {revision : Nat} {disposition : CustomEventDisposition} {outcome : RecordOutcome}
      {store : EventConsumerState} (lane : s.lane = .recording pass revision disposition)
      (remaining : pass.remaining = stored :: rest) (edit : s.Edits revision stored.seq outcome store) :
      LaneMove subscription s
        { (s.applyEdit revision stored.seq outcome store).release.fail with lane := .sleeping pass }
  | attemptFails {pass : DeliveryPass} (lane : s.lane = .starting pass ∨
      ∃ revision disposition, s.lane = .recording pass revision disposition) :
      LaneMove subscription s { s.release.fail with lane := .sleeping pass }
  | checkpoints {pass : DeliveryPass} {head : Nat} {store : EventConsumerState}
      (lane : s.lane = .checkpointing pass head)
      (edited : checkpointEventConsumer s.log.length pass.revision head s.store =
        .ok (.accepted, store)) :
      LaneMove subscription s { s with store, lane := .idle }
  | checkpointsAndFails {pass : DeliveryPass} {head : Nat}
      {outcome : EventConsumerCheckpointOutcome} {store : EventConsumerState}
      (lane : s.lane = .checkpointing pass head)
      (edited : checkpointEventConsumer s.log.length pass.revision head s.store =
        .ok (outcome, store)) :
      LaneMove subscription s { s.fail with store, lane := .backingOff pass.throughSeq }
  | checkpointIsStale {pass : DeliveryPass} {head : Nat} (lane : s.lane = .checkpointing pass head)
      (stale : s.store.revision ≠ pass.revision) :
      LaneMove subscription s { s with lane := .backingOff pass.throughSeq }
  | passFails {throughSeq : Option Nat} (lane : s.lane = .readingState throughSeq ∨
      (∃ state, s.lane = .replaying throughSeq state) ∨
      ∃ pass, throughSeq = pass.throughSeq ∧
        (s.lane = .preparing pass ∨ ∃ head, s.lane = .checkpointing pass head)) :
      LaneMove subscription s { s.fail with lane := .backingOff throughSeq }
  | startsAgain {throughSeq : Option Nat} (lane : s.lane = .backingOff throughSeq) :
      LaneMove subscription s { s with lane := .readingState throughSeq }
  | preparesLive {event : CustomEventData} (lane : s.lane = .preparingLive event) :
      LaneMove subscription s { s with lane := .startingLive event }
  | handsLive {event : CustomEventData} (lane : s.lane = .startingLive event) :
      LaneMove subscription s { s with lane := .handlingLive event }
  | endsLive {event : CustomEventData} (lane : s.lane = .preparingLive event ∨
      s.lane = .startingLive event ∨ s.lane = .handlingLive event) :
      LaneMove subscription s { s.release with lane := .idle }
  /-- The consumer is paused. -/
  | givesUp (paused : s.store.paused = true) (lane : (∃ throughSeq, s.lane = .readingState throughSeq)) :
      LaneMove subscription s { s with lane := .idle }
  | givesUpAttempt {pass : DeliveryPass} (paused : s.store.paused = true)
      (lane : s.lane = .starting pass) : LaneMove subscription s { s.release with lane := .idle }

theorem laneMove_startStep (lane : s.lane = .starting pass) (some_left : pass.remaining ≠ []) :
    LaneMove subscription s (s.startStep pass) := by
  obtain ⟨stored, rest, remaining⟩ := List.exists_cons_of_ne_nil some_left
  simp only [startStep, remaining]
  split
  · next paused => exact .givesUpAttempt paused lane
  · split
    · next reached => exact .passesOver lane remaining reached
    · next behind => exact .hands lane remaining (Bool.eq_false_iff.mpr behind)

theorem laneMove_recordStep
    (lane : s.lane = .recording pass revision disposition) (some_left : pass.remaining ≠ [])
    (result : WriteResult) :
    LaneMove subscription s (s.recordStep pass revision disposition result) := by
  obtain ⟨stored, rest, remaining⟩ := List.exists_cons_of_ne_nil some_left
  rw [recordStep.eq_def, remaining]
  dsimp only
  split
  · next outcome store edited =>
    exact .records lane remaining (edits_of_recordEdit edited).2
  · next outcome store edited =>
    exact .recordsAndFails lane remaining (edits_of_recordEdit edited).2
  · exact .attemptFails (Or.inr ⟨revision, disposition, lane⟩)

theorem laneMove_checkpointStep {head : Nat} (lane : s.lane = .checkpointing pass head)
    (result : WriteResult) :
    LaneMove subscription s (s.checkpointStep pass head result) := by
  rw [checkpointStep.eq_def]
  split
  · next edited => exact .checkpoints lane edited
  · next edited =>
    obtain ⟨-, edit⟩ := checkpointEventConsumer_cases edited
    rcases edit with ⟨-, stale, -⟩ | ⟨accepted, -⟩ | ⟨accepted, -⟩
    · exact .checkpointIsStale lane stale
    all_goals cases accepted
  · next edited => exact .checkpointsAndFails lane edited
  · exact .passFails (Or.inr (Or.inr ⟨pass, rfl, Or.inr ⟨head, lane⟩⟩))

section

variable (wellFormed : WellFormed s)

include wellFormed

/-- Every step of the lane is one of these, unless the lane is cancelled. -/
theorem laneMove_of_laneStep {input : LaneInput} (stepped : s.laneStep subscription input = some s') :
    LaneMove subscription s s' ∨ (input = .cancel ∧ s.lane.permits = 0 ∧ s' = s.stop) := by
  have remaining := wellFormed.remaining
  rw [DeliverySystem.laneStep.eq_def] at stepped
  generalize lane : s.lane = phase at stepped remaining
  split at stepped
  case h_1 =>
    rw [takeCommand.eq_def] at stepped
    split at stepped <;> cases stepped
    · next isQueue => exact Or.inl (.takesLive lane isQueue)
    · next isQueue => exact Or.inl (.takesDurable lane isQueue _)
  case h_2 throughSeq =>
    cases stepped
    split
    · next paused => exact Or.inl (.givesUp paused ⟨throughSeq, lane⟩)
    · exact Or.inl (.readsState lane)
  case h_3 => exact Or.inl (some.inj stepped ▸ .passFails (Or.inl lane))
  case h_4 => exact Or.inl (some.inj stepped ▸ .replays lane)
  case h_5 state => exact Or.inl (some.inj stepped ▸ .passFails (Or.inr (Or.inl ⟨state, lane⟩)))
  case h_6 => exact Or.inl (some.inj stepped ▸ .waits (Or.inl lane))
  case h_7 pass =>
    exact Or.inl (some.inj stepped ▸
      .passFails (Or.inr (Or.inr ⟨pass, rfl, Or.inl lane⟩)))
  case h_8 =>
    split at stepped
    · next free => exact Or.inl (some.inj stepped ▸ .acquires lane free)
    · cases stepped
  case h_9 =>
    exact Or.inl (some.inj stepped ▸ laneMove_startStep lane (remaining _ rfl))
  case h_10 => exact Or.inl (some.inj stepped ▸ .attemptFails (Or.inl lane))
  case h_11 => exact Or.inl (some.inj stepped ▸ .returns lane _)
  case h_12 =>
    exact Or.inl (some.inj stepped ▸ laneMove_recordStep lane (remaining _ rfl) _)
  case h_13 => exact Or.inl (some.inj stepped ▸ .waits (Or.inr lane))
  case h_14 => exact Or.inl (some.inj stepped ▸ laneMove_checkpointStep lane _)
  case h_15 => exact Or.inl (some.inj stepped ▸ .startsAgain lane)
  case h_16 => exact Or.inl (some.inj stepped ▸ .preparesLive lane)
  case h_17 => exact Or.inl (some.inj stepped ▸ .endsLive (Or.inl lane))
  case h_18 =>
    cases stepped
    split
    · exact Or.inl (.endsLive (Or.inr (Or.inl lane)))
    · exact Or.inl (.handsLive lane)
  case h_19 => exact Or.inl (some.inj stepped ▸ .endsLive (Or.inr (Or.inl lane)))
  case h_20 => exact Or.inl (some.inj stepped ▸ .endsLive (Or.inr (Or.inr lane)))
  case h_25 => cases stepped
  all_goals exact Or.inr ⟨rfl, rfl, (some.inj stepped).symm⟩

theorem WellFormed.moved (few : s'.store.consecutiveFailures < customEventQuarantineAfter)
    (permits : s'.freePermits + s'.lane.permits + s'.liveQueued =
      s.freePermits + s.lane.permits + s.liveQueued) (others : s'.otherPermits = s.otherPermits)
    (phase : (∀ pass ∈ s'.lane.attempt?, pass.remaining ≠ []) ∧ s'.lane ≠ .stopped) :
    WellFormed s' := by
  refine ⟨few, ?_, phase.1, fun stopped => absurd stopped phase.2⟩
  have before := wellFormed.permits
  omega

theorem WellFormed.laneMove (move : LaneMove subscription s s') : WellFormed s' := by
  have few := wellFormed.failures
  have left := wellFormed.remaining
  have shape := nextPhase_shape
  cases move with
  | takesLive lane isQueue =>
    refine wellFormed.moved few ?_ rfl (by simp)
    simp only [liveQueued, isQueue, lane, List.countP_cons, LanePhase.permits,
      CustomEventLaneCommand.isLive, if_true]
    omega
  | takesDurable lane isQueue =>
    refine wellFormed.moved few ?_ rfl (by simp)
    simp [liveQueued, isQueue, lane]
  | readsState lane | startsAgain lane | checkpointIsStale lane | preparesLive lane
  | handsLive lane =>
    exact wellFormed.moved few (by rw [lane]; rfl) rfl (by simp)
  | replays lane =>
    exact wellFormed.moved few (by rw [lane, (shape _).1]; rfl) rfl (shape _).2
  | waits lane =>
    rcases lane with lane | lane
    all_goals
      exact wellFormed.moved few (by rw [lane]; rfl) rfl
        (by simpa [lane] using left)
  | acquires lane free =>
    refine wellFormed.moved few ?_ rfl (by simpa [lane] using left)
    simp only [lane, LanePhase.permits, liveQueued]
    omega
  | hands lane | returns lane =>
    exact wellFormed.moved few (by rw [lane]; rfl) rfl
      (by simpa [lane] using left)
  | passesOver lane remaining reached =>
    exact wellFormed.moved few (by rw [lane, (shape _).1]; rfl) rfl (shape _).2
  | records lane remaining edit =>
    refine wellFormed.moved (edit.failures few) ?_ rfl ?_ <;> dsimp only <;> split
    · rw [lane]
      rfl
    · rw [lane, (shape _).1]
      rfl
    · simpa [lane] using left
    · exact (shape _).2
  | recordsAndFails lane remaining edit =>
    exact wellFormed.moved (edit.failures few)
      (by simp only [lane, LanePhase.permits, release, fail, applyEdit, liveQueued]) rfl
      (by simpa [lane] using left)
  | attemptFails lane =>
    rcases lane with lane | ⟨revision, disposition, lane⟩
    all_goals
      exact wellFormed.moved few
        (by simp only [lane, LanePhase.permits, release, fail, liveQueued]) rfl
        (by simpa [lane] using left)
  | checkpoints lane edited | checkpointsAndFails lane edited =>
    exact wellFormed.moved (checkpointed_failures edited few) (by rw [lane]; rfl) rfl
      (by simp)
  | passFails lane =>
    refine wellFormed.moved few ?_ rfl (by simp)
    rcases lane with lane | ⟨state, lane⟩ | ⟨pass, -, lane | ⟨head, lane⟩⟩ <;> rw [lane] <;> rfl
  | endsLive lane =>
    refine wellFormed.moved few ?_ rfl (by simp)
    rcases lane with lane | lane | lane <;> rw [lane] <;> rfl
  | givesUp paused lane =>
    obtain ⟨throughSeq, lane⟩ := lane
    exact wellFormed.moved few (by rw [lane]; rfl) rfl (by simp)
  | givesUpAttempt paused lane =>
    exact wellFormed.moved few (by rw [lane]; rfl) rfl (by simp)

theorem WellFormed.step (stepped : s.step subscription action = some s') : WellFormed s' := by
  cases action with
  | lane input =>
    rcases laneMove_of_laneStep wellFormed stepped with move | ⟨-, permits, rfl⟩
    · exact wellFormed.laneMove move
    · refine ⟨wellFormed.failures, ?_, fun _ isPass => (nomatch isPass), fun _ => rfl⟩
      have before := wellFormed.permits
      rw [permits] at before
      simp only [stop, LanePhase.permits, liveQueued, List.countP_nil] at before ⊢
      omega
  | _ => exact wellFormed.otherStep (by intro input same; cases same) stepped

/-! ### The checkpoint only moves on -/

omit wellFormed in
theorem Edits.keepsReached (edit : s.Edits revision seq outcome store) {earlier : Nat}
    (reached : s.store.reached earlier = true) : store.reached earlier = true := by
  cases edit with
  | stale | reached | counted => exact reached
  | moved _ behind checkpoint =>
    exact EventConsumerState.reached_of_moved behind checkpoint reached

omit wellFormed in
theorem checkpointed_reached {eventCount seq : Nat} {outcome : EventConsumerCheckpointOutcome}
    (edited : checkpointEventConsumer eventCount revision seq store = .ok (outcome, store')) :
    (∀ earlier, store.reached earlier = true → store'.reached earlier = true) ∧
      (outcome = .accepted → store'.reached seq = true) := by
  obtain ⟨-, edit⟩ := checkpointEventConsumer_cases edited
  rcases edit with ⟨rfl, -, rfl⟩ | ⟨-, -, reached, rfl⟩ | ⟨-, -, behind, rfl⟩
  · exact ⟨fun _ => id, fun same => nomatch same⟩
  · exact ⟨fun _ => id, fun _ => reached⟩
  · exact ⟨fun _ => EventConsumerState.reached_of_moved behind rfl,
      fun _ => EventConsumerState.reached_iff.mpr ⟨seq, rfl, le_rfl⟩⟩

omit wellFormed in
theorem LaneMove.keepsReached (move : LaneMove subscription s s')
    (reached : s.store.reached seq = true) : s'.store.reached seq = true := by
  cases move with
  | records _ _ edit | recordsAndFails _ _ edit => exact edit.keepsReached reached
  | checkpoints _ edited | checkpointsAndFails _ edited =>
    exact (checkpointed_reached edited).1 seq reached
  | _ => exact reached

/-! ### Calls and what pays for them -/

/-- The event a pass makes its attempts at. -/
def firstOf (pass : DeliveryPass) : Option Nat :=
  pass.remaining.head?.map (·.seq)

/-- The calls with an event that its counted failures pay for, with the one in hand. A call
under an earlier revision will not be counted. -/
@[simp] def phaseCredit (seq : Nat) (store : EventConsumerState) : LanePhase → Nat
  | .acquiring pass | .starting pass | .sleeping pass =>
    if firstOf pass = some seq then store.consecutiveFailures else 0
  | .handling pass revision | .recording pass revision _ =>
    if firstOf pass = some seq then
      store.consecutiveFailures + if revision = store.revision then 1 else 0
    else 0
  | _ => 0

/-- The calls that are paid for: all there can be once the checkpoint has reached the event. -/
def credit (seq : Nat) (s : DeliverySystem) : Nat :=
  if s.store.reached seq then customEventQuarantineAfter else phaseCredit seq s.store s.lane

theorem phaseCredit_le (seq : Nat) :
    phaseCredit seq s.store s.lane ≤ customEventQuarantineAfter := by
  have few := wellFormed.failures
  rw [phaseCredit.eq_def]
  repeat' split
  all_goals omega

theorem credit_le (seq : Nat) : credit seq s ≤ customEventQuarantineAfter := by
  rw [credit]
  split
  · exact le_rfl
  · exact phaseCredit_le wellFormed seq

omit wellFormed in
theorem phaseCredit_of_first {seq other : Nat} (phase : LanePhase)
    (isPass : phase.attempt? = some pass) (first : firstOf pass = some other)
    (differs : other ≠ seq) : phaseCredit seq store phase = 0 := by
  have no_match : firstOf pass ≠ some seq := fun same => differs (some.inj (first ▸ same))
  cases phase <;> cases isPass <;> simp [no_match]

theorem credit_mono (keeps : s.store.reached seq = true → s'.store.reached seq = true)
    (failures : s.storageFailures ≤ s'.storageFailures) (phase : s'.store.reached seq = false →
      phaseCredit seq s.store s.lane + s.storageFailures ≤
        phaseCredit seq s'.store s'.lane + s'.storageFailures) :
    credit seq s + s.storageFailures ≤ credit seq s' + s'.storageFailures := by
  have most := credit_le wellFormed seq
  rw [credit.eq_def seq s']
  split
  · omega
  · next behind =>
    have behind := Bool.eq_false_iff.mpr behind
    have before : s.store.reached seq = false := by
      by_contra reached
      rw [keeps (Bool.not_eq_false _ ▸ reached)] at behind
      cases behind
    rw [credit, before]
    exact phase behind

omit wellFormed in
/-- What the write after an attempt leaves to be paid. -/
theorem Edits.phaseCredit {stored : StoredEvent} {rest : List StoredEvent}
    (edit : s.Edits revision stored.seq outcome store)
    (remaining : pass.remaining = stored :: rest) (behind : store.reached seq = false) :
    phaseCredit seq s.store (.recording pass revision disposition) ≤
      DeliverySystem.phaseCredit seq store (.sleeping pass) ∧
    (outcome ≠ .again → phaseCredit seq s.store (.recording pass revision disposition) = 0) := by
  have first : firstOf pass = some stored.seq := by rw [firstOf, remaining]; rfl
  by_cases same : stored.seq = seq
  · subst same
    cases edit with
    | stale revision_ne =>
      simp [first, Ne.symm revision_ne]
    | reached _ _ reached => exact absurd (reached.symm.trans behind) (by decide)
    | counted revision_eq => simp [first, revision_eq]
    | moved _ _ checkpoint =>
      have reached := EventConsumerState.reached_iff.mpr ⟨_, checkpoint, le_rfl⟩
      exact absurd (reached.symm.trans behind) (by decide)
  · rw [phaseCredit_of_first (.recording pass revision disposition) rfl first same]
    exact ⟨Nat.zero_le _, fun _ => rfl⟩

/-- A call pays with credit, or with a failure of storage. -/
theorem LaneMove.paid (running : s.store.paused = false) (move : LaneMove subscription s s')
    (seq : Nat) :
    s'.handed.count seq + credit seq s + s.storageFailures ≤
      s.handed.count seq + credit seq s' + s'.storageFailures := by
  have keeps : s.store.reached seq = true → s'.store.reached seq = true := move.keepsReached
  -- what a move does to the credit, for all but the one that calls the handler
  have silent : s'.handed = s.handed → s.storageFailures ≤ s'.storageFailures →
      (s'.store.reached seq = false → phaseCredit seq s.store s.lane + s.storageFailures ≤
        phaseCredit seq s'.store s'.lane + s'.storageFailures) →
      s'.handed.count seq + credit seq s + s.storageFailures ≤
        s.handed.count seq + credit seq s' + s'.storageFailures := by
    intro handed failures phase
    have mono := credit_mono wellFormed keeps failures phase
    rw [handed]
    omega
  have unpaid : ∀ {phase : LanePhase} {left : Nat}, s.lane = phase →
      phaseCredit seq s.store phase = 0 →
      phaseCredit seq s.store s.lane + s.storageFailures ≤ left + s.storageFailures := by
    intro phase left lane none
    rw [lane, none]
    omega
  cases move with
  | @hands pass stored rest lane remaining behind =>
    have first : firstOf pass = some stored.seq := by rw [firstOf, remaining, List.head?_cons]; rfl
    by_cases same : stored.seq = seq
    · subst same
      simp [credit, behind, lane, first]
      omega
    · have mono := credit_mono wellFormed keeps le_rfl fun _ =>
        unpaid lane (phaseCredit_of_first (.starting pass) rfl first same)
      have counted : (s.handed ++ [stored.seq]).count seq = s.handed.count seq := by
        simp [List.count_append, same]
      dsimp only at mono ⊢
      omega
  | takesLive lane | takesDurable lane | readsState lane | replays lane | startsAgain lane
  | preparesLive lane | handsLive lane | checkpoints lane | checkpointIsStale lane =>
    exact silent rfl le_rfl fun _ => unpaid lane rfl
  | waits lane =>
    refine silent rfl le_rfl fun _ => ?_
    rcases lane with lane | lane
    · exact unpaid lane rfl
    · rw [lane]
      exact le_rfl
  | acquires lane | returns lane =>
    refine silent rfl le_rfl fun _ => ?_
    rw [lane]
    exact le_rfl
  | @passesOver pass stored rest lane remaining reached =>
    refine silent rfl le_rfl fun behind => unpaid lane ?_
    have first : firstOf pass = some stored.seq := by rw [firstOf, remaining, List.head?_cons]; rfl
    refine phaseCredit_of_first (.starting pass) rfl first ?_
    rintro rfl
    exact absurd (reached.symm.trans behind) (by decide)
  | records lane remaining edit =>
    refine silent rfl le_rfl fun behind => ?_
    obtain ⟨kept, settled⟩ := edit.phaseCredit remaining behind
    rw [lane]
    split
    · exact Nat.add_le_add_right kept _
    · next notAgain =>
      rw [settled notAgain]
      exact Nat.add_le_add_right (Nat.zero_le _) _
  | recordsAndFails lane remaining edit =>
    refine silent rfl (Nat.le_succ _) fun behind => ?_
    rw [lane]
    exact Nat.add_le_add (edit.phaseCredit remaining behind).1 (Nat.le_succ _)
  | attemptFails lane =>
    refine silent rfl (Nat.le_succ _) fun _ => ?_
    rcases lane with lane | ⟨revision, disposition, lane⟩
    all_goals
      rw [lane]
      simp only [phaseCredit, release, fail]
      repeat' split
      all_goals omega
  | checkpointsAndFails lane =>
    refine silent rfl (Nat.le_succ _) fun _ => ?_
    rw [lane]
    exact Nat.le_succ _
  | passFails lane =>
    refine silent rfl (Nat.le_succ _) fun _ => ?_
    rcases lane with lane | ⟨state, lane⟩ | ⟨pass, -, lane | ⟨head, lane⟩⟩
    all_goals
      rw [lane]
      exact Nat.le_succ _
  | endsLive lane =>
    rcases lane with lane | lane | lane
    all_goals exact silent rfl le_rfl fun _ => unpaid lane rfl
  | givesUp paused | givesUpAttempt paused => exact absurd (running.symm.trans paused) (by decide)

end

/-! ### A consumer that is left alone -/

/-- Actions that neither cancel the lane nor belong to a control command. -/
def leavesAlone : DeliveryAction → Bool
  | .control _ | .controlStep .. | .lane .cancel => false
  | _ => true

/-- The consumer is not paused and its lane is there. -/
structure Alone (s : DeliverySystem) : Prop where
  wellFormed : WellFormed s
  running : s.store.paused = false
  present : s.lane ≠ .stopped

/-- A step outside the lane: commands and events may come in, and permits may change hands. -/
structure Waits (s s' : DeliverySystem) : Prop where
  lane : s'.lane = s.lane
  store : s'.store = s.store
  log : s.log <+: s'.log
  queue : s.queue <+: s'.queue
  handed : s'.handed = s.handed
  storageFailures : s'.storageFailures = s.storageFailures

theorem Waits.refl (s : DeliverySystem) : Waits s s :=
  ⟨rfl, rfl, List.prefix_rfl, List.prefix_rfl, rfl, rfl⟩

theorem Waits.trans {s'' : DeliverySystem} (first : Waits s s') (second : Waits s' s'') :
    Waits s s'' where
  lane := second.lane.trans first.lane
  store := second.store.trans first.store
  log := first.log.trans second.log
  queue := first.queue.trans second.queue
  handed := second.handed.trans first.handed
  storageFailures := second.storageFailures.trans first.storageFailures

theorem signalDurable_waits (present : s.lane ≠ .stopped) (throughSeq : Option Nat) :
    Waits s (s.signalDurable throughSeq) := by
  rw [signalDurable, openLane_eq present]
  split
  · exact .refl s
  · exact ⟨rfl, rfl, List.prefix_rfl, List.prefix_append _ _, rfl, rfl⟩

theorem waits_of_step (present : s.lane ≠ .stopped) (leaves : leavesAlone action = true)
    (other : ∀ input, action ≠ .lane input) (stepped : s.step subscription action = some s') :
    Waits s s' := by
  cases action with
  | lane input => exact absurd rfl (other input)
  | append event =>
    cases stepped
    exact ⟨rfl, rfl, List.prefix_append _ _, List.prefix_rfl, rfl, rfl⟩
  | signal throughSeq =>
    cases stepped
    exact signalDurable_waits present throughSeq
  | live event =>
    simp only [step, observeLive, openLane_eq present] at stepped
    split at stepped
    · split at stepped
      · cases stepped
      · split at stepped <;> cases stepped
        · exact .refl s
        · exact ⟨rfl, rfl, List.prefix_rfl, List.prefix_append _ _, rfl, rfl⟩
    · cases stepped
      exact .refl s
  | otherAcquire | otherRelease =>
    simp only [step] at stepped
    split at stepped <;> cases stepped
    exact ⟨rfl, rfl, List.prefix_rfl, List.prefix_rfl, rfl, rfl⟩
  | control action | controlStep index input => cases leaves

/-- Only a command pauses the consumer or makes a new revision. -/
theorem LaneMove.keepsMarks (move : LaneMove subscription s s') :
    s'.store.paused = s.store.paused ∧ s'.store.revision = s.store.revision := by
  have checkpointed : ∀ {revision seq outcome store}, checkpointEventConsumer s.log.length revision
      seq s.store = .ok (outcome, store) →
      store.paused = s.store.paused ∧ store.revision = s.store.revision := by
    intro revision seq outcome store edited
    obtain ⟨-, edit⟩ := checkpointEventConsumer_cases edited
    rcases edit with ⟨-, -, rfl⟩ | ⟨-, -, -, rfl⟩ | ⟨-, -, -, rfl⟩ <;> exact ⟨rfl, rfl⟩
  have recorded : ∀ {revision seq outcome store}, s.Edits revision seq outcome store →
      store.paused = s.store.paused ∧ store.revision = s.store.revision := by
    intro revision seq outcome store edit
    cases edit with
    | moved _ _ _ sameRevision samePaused => exact ⟨samePaused, sameRevision⟩
    | _ => exact ⟨rfl, rfl⟩
  cases move with
  | records _ _ edit | recordsAndFails _ _ edit => exact recorded edit
  | checkpoints _ edited | checkpointsAndFails _ edited => exact checkpointed edited
  | _ => exact ⟨rfl, rfl⟩

theorem LaneMove.present (move : LaneMove subscription s s') : s'.lane ≠ .stopped := by
  cases move with
  | replays | passesOver => exact (nextPhase_shape _).2.2
  | records =>
    split
    · exact fun same => nomatch same
    · exact (nextPhase_shape _).2.2
  | _ => exact fun same => nomatch same

/-- A step of a consumer that is left alone is a move of its lane, or the lane waits. -/
theorem Alone.step_cases (alone : Alone s) (leaves : leavesAlone action = true)
    (stepped : s.step subscription action = some s') :
    ((∃ input, action = .lane input) ∧ LaneMove subscription s s') ∨
      ((∀ input, action ≠ .lane input) ∧ Waits s s') := by
  by_cases isLane : ∃ input, action = .lane input
  · obtain ⟨input, rfl⟩ := isLane
    rcases laneMove_of_laneStep alone.wellFormed stepped with move | ⟨rfl, -⟩
    · exact Or.inl ⟨⟨input, rfl⟩, move⟩
    · cases leaves
  · have other : ∀ input, action ≠ .lane input := fun input same => isLane ⟨input, same⟩
    exact Or.inr ⟨other, waits_of_step alone.present leaves other stepped⟩

theorem Alone.step (alone : Alone s) (leaves : leavesAlone action = true)
    (stepped : s.step subscription action = some s') :
    Alone s' := by
  have wellFormed := alone.wellFormed.step stepped
  rcases alone.step_cases leaves stepped with ⟨-, move⟩ | ⟨-, waits⟩
  · exact ⟨wellFormed, move.keepsMarks.1.trans alone.running, move.present⟩
  · exact ⟨wellFormed, waits.store ▸ alone.running, waits.lane ▸ alone.present⟩

theorem Alone.paid (alone : Alone s) (leaves : leavesAlone action = true)
    (stepped : s.step subscription action = some s') (seq : Nat) :
    s'.handed.count seq + credit seq s + s.storageFailures ≤
      s.handed.count seq + credit seq s' + s'.storageFailures := by
  rcases alone.step_cases leaves stepped with ⟨-, move⟩ | ⟨-, waits⟩
  · exact move.paid alone.wellFormed alone.running seq
  · rw [credit, credit, waits.store, waits.lane, waits.handed, waits.storageFailures]

end DeliverySystem

end Astrcode
