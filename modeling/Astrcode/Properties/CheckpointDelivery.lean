import Astrcode.Extensions.CustomEventDelivery
import Astrcode.Properties.StreamCursor

/-!
# What a consumer checkpoint stands for

The checkpoint of a durable consumer should mean that every matching event up to it, after
where the last reset has put it, was acknowledged or put aside under the stored revision. A
lane keeps to that as long as it goes through one list of events under one revision. It reads
the revision again for each event, though, but not the list: when a reset comes between two
attempts, the next one is made under the new revision and may move the checkpoint past events
that were never handed over under it.

A delivery is therefore *fresh* if the stored revision is still the one the list was read
under, or if there is nothing between the stored checkpoint and the event.
-/
namespace Astrcode

open List

namespace DeliverySystem

variable {action : DeliveryAction} {seq revision : Nat} {stored : StoredEvent}
  {rest : List StoredEvent} {store state : EventConsumerState}
  {subscription : CustomEventSubscription} {s s' : DeliverySystem} {pass : DeliveryPass}
  {outcome : RecordOutcome}

/-! ### The statement -/

/-- The log has a matching event at this place. -/
def Delivers (subscription : CustomEventSubscription) (s : DeliverySystem) (seq : Nat) : Prop :=
  ∃ event, s.log[seq]? = some event ∧ isDelivered subscription event = true

/-- Every matching event below `limit` and after the last reset was acknowledged or put aside
under the stored revision. -/
def SettledBelow (subscription : CustomEventSubscription) (s : DeliverySystem) (limit : Nat) :
    Prop :=
  ∀ seq < limit, Delivers subscription s seq → (∀ base ∈ s.base, base < seq) →
    (s.store.revision, seq) ∈ s.consumed

/-- The checkpoint has skipped nothing. -/
def CheckpointComplete (subscription : CustomEventSubscription) (s : DeliverySystem) : Prop :=
  ∀ checkpoint ∈ s.store.checkpoint, SettledBelow subscription s (checkpoint + 1)

/-- The pass and the event of a step that calls the handler with a stored event. -/
def handing (s : DeliverySystem) : DeliveryAction → Option (DeliveryPass × StoredEvent)
  | .lane (.read true) =>
    match s.lane with
    | .starting pass =>
      pass.remaining.head?.bind fun stored =>
        if s.store.paused || s.store.reached stored.seq then none else some (pass, stored)
    | _ => none
  | _ => none

/-- No event is handed over before the earlier ones are settled. -/
def HandsInOrder (subscription : CustomEventSubscription) (s : DeliverySystem)
    (action : DeliveryAction) : Prop :=
  ∀ handed ∈ s.handing action, SettledBelow subscription s handed.2.seq

/-- An event is handed over under the revision its list was read under, or it is the next
matching one after the stored checkpoint. -/
def FreshStep (subscription : CustomEventSubscription) (s : DeliverySystem)
    (action : DeliveryAction) : Prop :=
  ∀ handed ∈ s.handing action, handed.1.revision = s.store.revision ∨
    ∀ seq < handed.2.seq, Delivers subscription s seq → s.store.reached seq = true

/-- A property of every step of a run. -/
def EveryStep (subscription : CustomEventSubscription)
    (P : DeliverySystem → DeliveryAction → Prop) : DeliverySystem → List DeliveryAction → Prop
  | _, [] => True
  | s, action :: actions =>
    P s action ∧ ∀ s', s.step subscription action = some s' → EveryStep subscription P s' actions

instance (seq : Nat) : Decidable (Delivers subscription s seq) :=
  decidable_of_iff ((s.log[seq]?).any (isDelivered subscription) = true)
    (by simp [Delivers, Option.any_eq_true])

instance (limit : Nat) : Decidable (SettledBelow subscription s limit) :=
  have (seq : Nat) (_ : seq < limit) : Decidable (Delivers subscription s seq →
      (∀ base ∈ s.base, base < seq) → (s.store.revision, seq) ∈ s.consumed) := inferInstance
  Nat.decidableBallLT limit _

instance : Decidable (CheckpointComplete subscription s) :=
  inferInstanceAs (Decidable (∀ checkpoint ∈ s.store.checkpoint,
    SettledBelow subscription s (checkpoint + 1)))

instance (action : DeliveryAction) : Decidable (FreshStep subscription s action) :=
  inferInstanceAs (Decidable (∀ handed ∈ s.handing action, handed.1.revision = s.store.revision ∨
    ∀ seq < handed.2.seq, Delivers subscription s seq → s.store.reached seq = true))

instance everyStepDecidable {P : DeliverySystem → DeliveryAction → Prop}
    [∀ s action, Decidable (P s action)] :
    ∀ (s : DeliverySystem) (actions : List DeliveryAction),
      Decidable (EveryStep subscription P s actions)
  | _, [] => isTrue trivial
  | s, action :: actions =>
    have (s' : DeliverySystem) : Decidable (EveryStep subscription P s' actions) :=
      everyStepDecidable s' actions
    inferInstanceAs (Decidable (P s action ∧ ∀ s' ∈ s.step subscription action,
      EveryStep subscription P s' actions))

/-! ### Steps of the others -/

/-- What any step does that is not a reset: the log and what is settled only grow. -/
structure Grows (s s' : DeliverySystem) : Prop where
  log : s.log <+: s'.log
  revision : s'.store.revision = s.store.revision
  base : s'.base = s.base
  consumed : s.consumed ⊆ s'.consumed

/-- A step that also leaves the checkpoint where it is. -/
structure Extends (s s' : DeliverySystem) : Prop extends Grows s s' where
  checkpoint : s'.store.checkpoint = s.store.checkpoint

/-- What a reset does. -/
structure Resets (s s' : DeliverySystem) : Prop where
  log : s'.log = s.log
  revision : s'.store.revision = s.store.revision + 1
  position : s'.store.checkpoint = none ∨
    0 < s.log.length ∧ s'.store.checkpoint = some (s.log.length - 1)
  base : s'.base = s'.store.checkpoint

theorem Grows.of_eq (log : s'.log = s.log := by rfl)
    (revision : s'.store.revision = s.store.revision := by rfl) (base : s'.base = s.base := by rfl)
    (consumed : s'.consumed = s.consumed := by rfl) : Grows s s' :=
  ⟨log ▸ prefix_rfl, revision, base, consumed ▸ List.Subset.refl _⟩

theorem Extends.of_eq (log : s'.log = s.log := by rfl)
    (revision : s'.store.revision = s.store.revision := by rfl)
    (checkpoint : s'.store.checkpoint = s.store.checkpoint := by rfl)
    (base : s'.base = s.base := by rfl) (consumed : s'.consumed = s.consumed := by rfl) :
    Extends s s' :=
  ⟨.of_eq log revision base consumed, checkpoint⟩

variable (s)

theorem Extends.refl : Extends s s :=
  .of_eq

theorem signalDurable_extends (throughSeq : Option Nat) :
    Extends s (s.signalDurable throughSeq) ∧
      ((s.signalDurable throughSeq).lane = s.lane ∨ (s.signalDurable throughSeq).lane = .idle) := by
  rw [signalDurable]
  rcases s.openLane_cases with opened | opened <;> rw [opened]
  · split <;> exact ⟨.of_eq, Or.inl rfl⟩
  · split <;> exact ⟨.of_eq, Or.inr rfl⟩

theorem writePaused_extends (paused : Bool) (result : WriteResult) :
    Extends s (s.writePaused paused result) ∧ (s.writePaused paused result).lane = s.lane := by
  cases result with
  | ok => exact ⟨.of_eq, rfl⟩
  | failed applied => cases applied <;> exact ⟨.of_eq, rfl⟩

theorem writeReset_cases (reset : EventConsumerCheckpointReset) (result : WriteResult) :
    (s.writeReset reset result).lane = s.lane ∧
      (Extends s (s.writeReset reset result) ∨ Resets s (s.writeReset reset result)) := by
  have resets : ∀ store, resetEventConsumerCheckpoint s.log.length reset s.store = .ok store →
      Resets s { s with store, base := store.checkpoint } := by
    intro store edited
    obtain ⟨revision, -, checkpoint, -⟩ := resetEventConsumerCheckpoint_ok edited
    refine ⟨rfl, revision, ?_, rfl⟩
    rw [checkpoint]
    cases reset with
    | beginning => exact Or.inl rfl
    | streamHead =>
      rw [EventConsumerCheckpointReset.position]
      split
      · next some_event => exact Or.inr ⟨some_event, rfl⟩
      · exact Or.inl rfl
  rcases result with _ | _ | _ <;>
    cases edited : resetEventConsumerCheckpoint s.log.length reset s.store <;>
    simp [writeReset, edited]
  case ok.ok store | failed.true.ok store => exact Or.inr (resets store edited)
  all_goals exact Or.inl (.refl s)

variable {s}

/-- A step that is not one of the lane extends what there is or resets the checkpoint. -/
theorem otherStep_cases (other : ∀ input, action ≠ .lane input)
    (stepped : s.step subscription action = some s') :
    (s'.lane = s.lane ∨ s'.lane = .idle) ∧ (Extends s s' ∨ Resets s s') := by
  cases action with
  | lane input => exact absurd rfl (other input)
  | append event =>
    cases stepped
    exact ⟨Or.inl rfl, Or.inl ⟨⟨prefix_append _ _, rfl, rfl, List.Subset.refl _⟩, rfl⟩⟩
  | signal throughSeq =>
    cases stepped
    obtain ⟨extends_, lane⟩ := signalDurable_extends s throughSeq
    exact ⟨lane, Or.inl extends_⟩
  | live event =>
    simp only [step, observeLive] at stepped
    split at stepped
    · split at stepped
      · cases stepped
      · rcases s.openLane_cases with opened | opened <;> rw [opened] at stepped
        · split at stepped <;> cases stepped <;> exact ⟨Or.inl rfl, Or.inl .of_eq⟩
        · split at stepped <;> cases stepped <;> exact ⟨Or.inr rfl, Or.inl .of_eq⟩
    · cases stepped
      exact ⟨Or.inl rfl, Or.inl (.refl s)⟩
  | otherAcquire | otherRelease =>
    simp only [step] at stepped
    split at stepped <;> cases stepped
    exact ⟨Or.inl rfl, Or.inl .of_eq⟩
  | control action =>
    cases stepped
    exact ⟨Or.inl rfl, Or.inl .of_eq⟩
  | controlStep index input =>
    simp only [step, controlStep, Option.bind_eq_bind, Option.bind_eq_some_iff, Option.pure_def,
      Option.some.injEq, Prod.exists] at stepped
    obtain ⟨task, -, next, task', advanced, rfl⟩ := stepped
    -- the list of commands plays no part
    have lifted : ∀ tasks, Extends s next ∨ Resets s next →
        Extends s { next with tasks } ∨ Resets s { next with tasks } := by
      rintro tasks (⟨⟨log, revision, base, consumed⟩, checkpoint⟩ | ⟨log, revision, position, base⟩)
      · exact Or.inl ⟨⟨log, revision, base, consumed⟩, checkpoint⟩
      · exact Or.inr ⟨log, revision, position, base⟩
    rcases advanceTask_effect advanced with rfl | rfl | ⟨paused, result, rfl⟩ | ⟨reset, result, rfl⟩
    · exact ⟨Or.inl rfl, lifted _ (Or.inl (.refl _))⟩
    · obtain ⟨extends_, lane⟩ := signalDurable_extends s none
      exact ⟨lane, lifted _ (Or.inl extends_)⟩
    · obtain ⟨extends_, lane⟩ := writePaused_extends s paused result
      exact ⟨Or.inl lane, lifted _ (Or.inl extends_)⟩
    · obtain ⟨lane, effect⟩ := writeReset_cases s reset result
      exact ⟨Or.inl lane, lifted _ effect⟩

/-! ### What holds between the steps -/

/-- The checkpoint lies within the log. -/
def CheckpointStored (s : DeliverySystem) : Prop :=
  ∀ checkpoint ∈ s.store.checkpoint, checkpoint < s.log.length

/-- What the lane knows of its pass: the list is in order, and under the revision it was read
under nothing is missing from it. -/
structure PassSound (subscription : CustomEventSubscription) (s : DeliverySystem)
    (pass : DeliveryPass) : Prop where
  revision_le : pass.revision ≤ s.store.revision
  sorted : pass.remaining.Pairwise (·.seq < ·.seq)
  upToHead : ∀ stored ∈ pass.remaining, ∃ head ∈ pass.replayHead, stored.seq ≤ head
  head_lt : ∀ head ∈ pass.replayHead, head < s.log.length
  covered : pass.revision = s.store.revision → ∀ head ∈ pass.replayHead, ∀ seq ≤ head,
    Delivers subscription s seq → (∀ base ∈ s.base, base < seq) →
    (s.store.revision, seq) ∈ s.consumed ∨ seq ∈ pass.remaining.map (·.seq)

/-- Under the revision that was read, everything before the event in hand is settled. -/
structure HandSound (subscription : CustomEventSubscription) (s : DeliverySystem)
    (pass : DeliveryPass) (revision : Nat) : Prop where
  toPass : PassSound subscription s pass
  revision_le : revision ≤ s.store.revision
  settled : revision = s.store.revision →
    ∀ stored ∈ pass.remaining.head?, SettledBelow subscription s stored.seq

/-- A consumer state that was read and may be out of date. -/
structure StateSound (subscription : CustomEventSubscription) (s : DeliverySystem)
    (state : EventConsumerState) : Prop where
  revision_le : state.revision ≤ s.store.revision
  stored : ∀ checkpoint ∈ state.checkpoint, checkpoint < s.log.length
  settled : state.revision = s.store.revision →
    ∀ checkpoint ∈ state.checkpoint, SettledBelow subscription s (checkpoint + 1)

def LaneSound (subscription : CustomEventSubscription) (s : DeliverySystem) : LanePhase → Prop
  | .replaying _ state => StateSound subscription s state
  | .preparing pass | .acquiring pass | .starting pass | .sleeping pass =>
    PassSound subscription s pass
  | .handling pass revision | .recording pass revision _ => HandSound subscription s pass revision
  | .checkpointing pass replayHead =>
    PassSound subscription s pass ∧ pass.remaining = [] ∧ pass.replayHead = some replayHead
  | _ => True

structure Sound (subscription : CustomEventSubscription) (s : DeliverySystem) : Prop where
  complete : CheckpointComplete subscription s
  stored : CheckpointStored s
  lane : LaneSound subscription s s.lane

theorem sound_initial (log : List DurableEvent) : Sound subscription (initial log) where
  complete _ checkpoint := nomatch checkpoint
  stored _ checkpoint := nomatch checkpoint
  lane := trivial

/-! ### The log and what is settled grow -/

theorem Grows.delivers (grows : Grows s s') (bound : seq < s.log.length)
    (delivers : Delivers subscription s' seq) : Delivers subscription s seq := by
  obtain ⟨event, stored, matching⟩ := delivers
  obtain ⟨rest, log⟩ := grows.log
  rw [← log, getElem?_append_left bound] at stored
  exact ⟨event, stored, matching⟩

theorem SettledBelow.grows {limit : Nat} (settled : SettledBelow subscription s limit)
    (grows : Grows s s') (bound : limit ≤ s.log.length) : SettledBelow subscription s' limit := by
  intro seq below delivers above
  rw [grows.base] at above
  rw [grows.revision]
  exact grows.consumed (settled seq below (grows.delivers (by omega) delivers) above)

/-- What any step does to a revision that was read before: it is out of date after a reset, and
otherwise the log and what is settled only grow. -/
structure Follows (s s' : DeliverySystem) : Prop where
  log : s.log <+: s'.log
  revision_le : s.store.revision ≤ s'.store.revision
  grows : s'.store.revision = s.store.revision → Grows s s'

theorem Grows.follows (grows : Grows s s') : Follows s s' :=
  ⟨grows.log, grows.revision.ge, fun _ => grows⟩

theorem Resets.follows (resets : Resets s s') : Follows s s' where
  log := resets.log ▸ prefix_rfl
  revision_le := resets.revision ▸ Nat.le_succ _
  grows same := absurd (resets.revision.symm.trans same) (Nat.succ_ne_self _)

/-- A revision that was read is still the stored one only if there was no reset. -/
theorem Follows.grows_of_read (follows : Follows s s') (read : revision ≤ s.store.revision)
    (same : revision = s'.store.revision) : Grows s s' :=
  follows.grows (le_antisymm (same ▸ read) follows.revision_le)

theorem PassSound.follows (sound : PassSound subscription s pass)
    (follows : Follows s s') : PassSound subscription s' pass where
  revision_le := sound.revision_le.trans follows.revision_le
  sorted := sound.sorted
  upToHead := sound.upToHead
  head_lt head isHead := (sound.head_lt head isHead).trans_le follows.log.length_le
  covered same head isHead seq within delivers above := by
    have grows := follows.grows_of_read sound.revision_le same
    have bound := sound.head_lt head isHead
    rw [grows.revision] at same ⊢
    rw [grows.base] at above
    exact (sound.covered same head isHead seq within (grows.delivers (by omega) delivers) above).imp
      (grows.consumed ·) id

/-- The first event of a pass lies within the log. -/
theorem PassSound.first_lt (sound : PassSound subscription s pass)
    (first : stored ∈ pass.remaining.head?) :
    stored.seq < s.log.length := by
  obtain ⟨head, isHead, within⟩ := sound.upToHead stored (mem_of_mem_head? first)
  have bound := sound.head_lt head isHead
  omega

theorem HandSound.follows (sound : HandSound subscription s pass revision)
    (follows : Follows s s') :
    HandSound subscription s' pass revision where
  toPass := sound.toPass.follows follows
  revision_le := sound.revision_le.trans follows.revision_le
  settled same stored first := by
    have grows := follows.grows_of_read sound.revision_le same
    rw [grows.revision] at same
    exact (sound.settled same stored first).grows grows (sound.toPass.first_lt first).le

theorem StateSound.follows (sound : StateSound subscription s state)
    (follows : Follows s s') : StateSound subscription s' state where
  revision_le := sound.revision_le.trans follows.revision_le
  stored checkpoint isCheckpoint :=
    (sound.stored checkpoint isCheckpoint).trans_le follows.log.length_le
  settled same checkpoint isCheckpoint := by
    have grows := follows.grows_of_read sound.revision_le same
    rw [grows.revision] at same
    exact (sound.settled same checkpoint isCheckpoint).grows grows
      (sound.stored checkpoint isCheckpoint)

theorem LaneSound.follows {phase : LanePhase} (sound : LaneSound subscription s phase)
    (follows : Follows s s') : LaneSound subscription s' phase := by
  cases phase with
  | replaying throughSeq state => exact StateSound.follows sound follows
  | preparing pass | acquiring pass | starting pass | sleeping pass =>
    exact PassSound.follows sound follows
  | handling pass revision | recording pass revision disposition =>
    exact HandSound.follows sound follows
  | checkpointing pass replayHead => exact ⟨sound.1.follows follows, sound.2⟩
  | _ => trivial

theorem Sound.withLane (sound : Sound subscription s) (extends_ : Extends s s')
    (lane : LaneSound subscription s s'.lane) : Sound subscription s' where
  complete checkpoint isCheckpoint := by
    rw [extends_.checkpoint] at isCheckpoint
    exact (sound.complete checkpoint isCheckpoint).grows extends_.toGrows
      (sound.stored checkpoint isCheckpoint)
  stored checkpoint isCheckpoint := by
    rw [extends_.checkpoint] at isCheckpoint
    exact (sound.stored checkpoint isCheckpoint).trans_le extends_.log.length_le
  lane := lane.follows extends_.follows

/-- Steps outside the lane keep what holds between the steps. -/
theorem Sound.otherStep (sound : Sound subscription s) (other : ∀ input, action ≠ .lane input)
    (stepped : s.step subscription action = some s') :
    Sound subscription s' := by
  obtain ⟨lane, effect⟩ := otherStep_cases other stepped
  have laneSound : LaneSound subscription s s'.lane := by
    rcases lane with lane | lane <;> rw [lane]
    · exact sound.lane
    · trivial
  rcases effect with extends_ | resets
  · exact sound.withLane extends_ laneSound
  · refine ⟨?_, ?_, laneSound.follows resets.follows⟩
    · -- nothing lies after the reset and up to the checkpoint
      intro checkpoint isCheckpoint seq below _ above
      have := above checkpoint (resets.base ▸ isCheckpoint)
      omega
    · intro checkpoint isCheckpoint
      rw [resets.log]
      rcases resets.position with none | ⟨some_event, last⟩
      · cases none ▸ isCheckpoint
      · cases last ▸ isCheckpoint
        omega

/-! ### Steps of the lane -/

theorem mem_eventsToDeliver {log : List DurableEvent} {checkpoint throughSeq : Option Nat} :
    stored ∈ eventsToDeliver log checkpoint throughSeq ↔
      log[stored.seq]? = some stored.event ∧ (∀ reached ∈ checkpoint, reached < stored.seq) ∧
        ∀ through ∈ throughSeq, stored.seq ≤ through := by
  have ordered : ((numberFrom 0 log).filter fun stored => checkpoint.all (· < stored.seq)).Pairwise
      fun a b => throughSeq.all (b.seq ≤ ·) = true → throughSeq.all (a.seq ≤ ·) = true := by
    refine ((numberFrom_sorted 0 log).filter _).imp fun {a b} less within => ?_
    simp only [Option.all_eq_true, decide_eq_true_eq] at within ⊢
    exact fun through isThrough => less.le.trans (within through isThrough)
  rw [eventsToDeliver, ← Library.filter_eq_takeWhile ordered]
  simp only [mem_filter, mem_numberFrom, Nat.zero_le, Nat.sub_zero, true_and,
    Option.all_eq_true, decide_eq_true_eq, and_assoc, Option.mem_def]

theorem eventsToDeliver_sorted (log : List DurableEvent) (checkpoint throughSeq : Option Nat) :
    (eventsToDeliver log checkpoint throughSeq).Pairwise (·.seq < ·.seq) :=
  ((numberFrom_sorted 0 log).filter _).sublist (takeWhile_sublist _)

/-- A list that is read under a state holds everything after its checkpoint. -/
theorem StateSound.passSound (sound : StateSound subscription s state) (throughSeq : Option Nat) :
    PassSound subscription s
      { throughSeq
        revision := state.revision
        replayHead := (eventsToDeliver s.log state.checkpoint throughSeq).getLast?.map (·.seq)
        remaining := (eventsToDeliver s.log state.checkpoint throughSeq).filter
          (isDelivered subscription ·.event) } where
  revision_le := sound.revision_le
  sorted := (eventsToDeliver_sorted ..).filter _
  upToHead stored member := by
    have member := mem_of_mem_filter member
    have last := getLast?_eq_some_getLast (ne_nil_of_mem member)
    refine ⟨_, by rw [last, Option.map_some]; exact rfl, ?_⟩
    exact ((eventsToDeliver_sorted ..).imp Nat.le_of_lt).rel_getLast_of_rel_getLast_getLast
      member le_rfl
  head_lt head isHead := by
    obtain ⟨last, isLast, rfl⟩ := Option.map_eq_some_iff.mp isHead
    have stored := (mem_eventsToDeliver.mp (mem_of_getLast? isLast)).1
    exact (List.getElem?_eq_some_iff.mp stored).1
  covered same head isHead seq within delivers above := by
    obtain ⟨last, isLast, rfl⟩ := Option.map_eq_some_iff.mp isHead
    obtain ⟨-, after, through⟩ := mem_eventsToDeliver.mp (mem_of_getLast? isLast)
    obtain ⟨event, stored, matching⟩ := delivers
    by_cases reached : ∃ checkpoint ∈ state.checkpoint, seq ≤ checkpoint
    · obtain ⟨checkpoint, isCheckpoint, below⟩ := reached
      exact Or.inl (sound.settled same checkpoint isCheckpoint seq (Nat.lt_succ_of_le below)
        ⟨event, stored, matching⟩ above)
    · push Not at reached
      refine Or.inr (mem_map.mpr ⟨⟨seq, event⟩, mem_filter.mpr ⟨?_, matching⟩, rfl⟩)
      exact mem_eventsToDeliver.mpr ⟨stored, reached,
        fun limit isLimit => within.trans (through limit isLimit)⟩

section

variable (sound : PassSound subscription s pass)

include sound

/-- Under its own revision a pass has settled everything before its first event. -/
theorem PassSound.settledBelow (same : pass.revision = s.store.revision)
    (remaining : pass.remaining = stored :: rest) : SettledBelow subscription s stored.seq := by
  intro seq below delivers above
  obtain ⟨head, isHead, within⟩ :=
    sound.upToHead stored (remaining ▸ mem_cons_self)
  refine (sound.covered same head isHead seq (below.le.trans within) delivers above).resolve_right ?_
  intro listed
  obtain ⟨other, member, rfl⟩ := mem_map.mp listed
  have sorted := sound.sorted
  rw [remaining] at sorted member
  rcases mem_cons.mp member with rfl | later
  · omega
  · have := rel_of_pairwise_cons sorted later
    omega

/-- A pass goes on to its next event once the first one is settled. -/
theorem PassSound.consumeFirst (remaining : pass.remaining = stored :: rest)
    (settled : pass.revision = s.store.revision → SettledBelow subscription s (stored.seq + 1)) :
    PassSound subscription s pass.consumeFirst where
  revision_le := sound.revision_le
  sorted := sound.sorted.tail
  upToHead later member := sound.upToHead later (mem_of_mem_tail member)
  head_lt := sound.head_lt
  covered same head isHead seq within delivers above := by
    rcases sound.covered same head isHead seq within delivers above with consumed | listed
    · exact Or.inl consumed
    · rw [remaining, map_cons, mem_cons] at listed
      rcases listed with rfl | listed
      · exact Or.inl (settled same _ (Nat.lt_succ_self _) delivers above)
      · rw [DeliveryPass.consumeFirst, remaining]
        exact Or.inr listed

theorem PassSound.nextPhase : LaneSound subscription s pass.nextPhase := by
  rw [DeliveryPass.nextPhase.eq_def]
  split
  · exact sound
  · next remaining isHead => exact ⟨sound, remaining, isHead⟩
  · trivial

end

/-- Everything up to an event the checkpoint has reached is settled. -/
theorem CheckpointComplete.settledBelow (complete : CheckpointComplete subscription s)
    (reached : s.store.reached seq = true) : SettledBelow subscription s (seq + 1) := by
  rw [EventConsumerState.reached, Option.any_eq_true] at reached
  obtain ⟨checkpoint, isCheckpoint, within⟩ := reached
  intro earlier below
  exact complete checkpoint isCheckpoint earlier
    (below.trans_le (Nat.succ_le_succ (of_decide_eq_true within)))

/-- The pass and the event in hand when the handler is called. -/
theorem of_mem_handing (handing : (pass, stored) ∈ s.handing action) :
    s.lane = .starting pass ∧ ∃ rest, pass.remaining = stored :: rest := by
  rw [DeliverySystem.handing.eq_def] at handing
  split at handing
  · split at handing
    · next lane =>
      obtain ⟨first, isFirst, given⟩ := Option.bind_eq_some_iff.mp handing
      split at given <;> cases given
      exact ⟨lane, _, (cons_head?_tail isFirst).symm⟩
    · cases handing
  · cases handing

/-- A fresh delivery is made after all the earlier ones. -/
theorem Sound.handsInOrder (sound : Sound subscription s) (fresh : FreshStep subscription s action) :
    HandsInOrder subscription s action := by
  rintro ⟨pass, stored⟩ handing
  rcases fresh _ handing with same | reached
  · obtain ⟨lane, rest, remaining⟩ := of_mem_handing handing
    have laneSound := sound.lane
    rw [lane] at laneSound
    exact PassSound.settledBelow laneSound same remaining
  · intro seq below delivers above
    exact sound.complete.settledBelow (reached seq below delivers) seq (Nat.lt_succ_self _)
      delivers above

theorem Sound.startStep (sound : Sound subscription s) (lane : s.lane = .starting pass)
    (fresh : FreshStep subscription s (.lane (.read true))) :
    Sound subscription (s.startStep pass) := by
  have passSound : PassSound subscription s pass := by
    have laneSound := sound.lane
    rw [lane] at laneSound
    exact laneSound
  rw [DeliverySystem.startStep]
  split
  · exact sound
  · next stored rest remaining =>
    split
    · exact sound.withLane .of_eq trivial
    · next running =>
      split
      · next reached =>
        have settled := sound.complete.settledBelow reached
        exact sound.withLane .of_eq
          (passSound.consumeFirst remaining fun _ => settled).nextPhase
      · next behind =>
        refine sound.withLane .of_eq ⟨passSound, le_rfl, ?_⟩
        intro _ first isFirst
        rw [remaining] at isFirst
        cases isFirst
        have handing : (pass, stored) ∈ s.handing (.lane (.read true)) := by
          simp [DeliverySystem.handing, lane, remaining, running, behind]
        exact sound.handsInOrder fresh _ handing

theorem applyEdit_grows (edit : s.Edits revision seq outcome store) :
    Grows s (s.applyEdit revision seq outcome store) where
  log := prefix_rfl
  revision := by
    cases edit with
    | moved _ _ _ sameRevision => exact sameRevision
    | _ => rfl
  base := rfl
  consumed := by
    rw [applyEdit]
    split
    · exact subset_append_left _ _
    · exact List.Subset.refl _

/-- The checkpoint moves to an event only when all the earlier ones are settled. -/
theorem SettledBelow.moved (settled : SettledBelow subscription s seq) (bound : seq < s.log.length)
    (edit : s.Edits s.store.revision seq .settled store) :
    SettledBelow subscription (s.applyEdit s.store.revision seq .settled store) (seq + 1) := by
  have grows := applyEdit_grows edit
  intro earlier below delivers above
  rcases Nat.lt_succ_iff_lt_or_eq.mp below with below | rfl
  · exact settled.grows grows bound.le earlier below delivers above
  · rw [grows.revision]
    exact mem_append_right _ (mem_singleton_self _)

section

variable (sound : Sound subscription s)

include sound

/-- After the write of a delivery nothing has been skipped, and the event is settled unless it
is to be handed over again. -/
theorem Sound.applyEdit
    (hand : HandSound subscription s pass revision) (remaining : pass.remaining = stored :: rest)
    (bound : stored.seq < s.log.length) (edit : s.Edits revision stored.seq outcome store) :
    let s' := s.applyEdit revision stored.seq outcome store
    CheckpointComplete subscription s' ∧ CheckpointStored s' ∧
      (outcome ≠ .again → SettledBelow subscription s' (stored.seq + 1)) := by
  have grows := applyEdit_grows edit
  have unmoved : store.checkpoint = s.store.checkpoint →
      CheckpointComplete subscription (s.applyEdit revision stored.seq outcome store) ∧
        CheckpointStored (s.applyEdit revision stored.seq outcome store) := by
    intro same
    refine ⟨fun checkpoint isCheckpoint => ?_, fun checkpoint isCheckpoint => ?_⟩
    all_goals have isCheckpoint : checkpoint ∈ s.store.checkpoint := same ▸ isCheckpoint
    · exact (sound.complete checkpoint isCheckpoint).grows grows
        (sound.stored checkpoint isCheckpoint)
    · exact sound.stored checkpoint isCheckpoint
  cases edit with
  | stale | counted =>
    obtain ⟨complete, inLog⟩ := unmoved rfl
    exact ⟨complete, inLog, fun settled => absurd rfl settled⟩
  | reached _ _ reached =>
    obtain ⟨complete, inLog⟩ := unmoved rfl
    exact ⟨complete, inLog, fun _ =>
      (sound.complete.settledBelow reached).grows grows bound⟩
  | moved current behind checkpoint sameRevision samePaused failures =>
    subst current
    have below := hand.settled rfl stored (remaining ▸ rfl)
    have settled := below.moved bound
      (.moved rfl behind checkpoint sameRevision samePaused failures)
    refine ⟨fun moved isMoved => ?_, fun moved isMoved => ?_, fun _ => settled⟩
    all_goals
      cases checkpoint ▸ isMoved
    · exact settled
    · exact bound

theorem Sound.recordStep {disposition : CustomEventDisposition}
    (hand : HandSound subscription s pass revision) (result : WriteResult) :
    Sound subscription (s.recordStep pass revision disposition result) := by
  rw [DeliverySystem.recordStep]
  split
  · exact sound
  · next stored rest remaining =>
    split
    · next outcome store edited =>
      obtain ⟨bound, edit⟩ := edits_of_recordEdit edited
      obtain ⟨complete, inLog, settled⟩ := sound.applyEdit hand remaining bound edit
      have passSound := hand.toPass.follows (applyEdit_grows edit).follows
      refine ⟨complete, inLog, LaneSound.follows
        (s := s.applyEdit revision stored.seq outcome store) ?_ (Grows.of_eq).follows⟩
      split
      · exact passSound
      · next notAgain => exact (passSound.consumeFirst remaining fun _ => settled notAgain).nextPhase
    · next outcome store edited =>
      obtain ⟨bound, edit⟩ := edits_of_recordEdit edited
      obtain ⟨complete, inLog, -⟩ := sound.applyEdit hand remaining bound edit
      have passSound := hand.toPass.follows (applyEdit_grows edit).follows
      exact ⟨complete, inLog, passSound.follows (Grows.of_eq).follows⟩
    · exact sound.withLane .of_eq hand.toPass

/-- The write at the end of a pass moves the checkpoint to the last event the pass has seen. -/
theorem Sound.checkpointed {replayHead : Nat}
    {outcome : EventConsumerCheckpointOutcome} (passSound : PassSound subscription s pass)
    (ended : pass.remaining = []) (isHead : pass.replayHead = some replayHead)
    (edited : checkpointEventConsumer s.log.length pass.revision replayHead s.store =
      .ok (outcome, store)) :
    CheckpointComplete subscription { s with store } ∧ CheckpointStored { s with store } := by
  obtain ⟨bound, edit⟩ := checkpointEventConsumer_cases edited
  rcases edit with ⟨-, -, rfl⟩ | ⟨-, -, -, rfl⟩ | ⟨-, current, -, rfl⟩
  · exact ⟨sound.complete, sound.stored⟩
  · exact ⟨sound.complete, sound.stored⟩
  · refine ⟨fun moved isMoved seq below delivers above => ?_, fun moved isMoved => ?_⟩
    all_goals cases isMoved
    · have covered := passSound.covered current.symm replayHead isHead seq
        (Nat.le_of_lt_succ below) delivers above
      rw [ended] at covered
      exact covered.resolve_right (not_mem_nil)
    · exact bound

theorem Sound.checkpointStep {replayHead : Nat}
    (passSound : PassSound subscription s pass) (ended : pass.remaining = [])
    (isHead : pass.replayHead = some replayHead) (result : WriteResult) :
    Sound subscription (s.checkpointStep pass replayHead result) := by
  rw [DeliverySystem.checkpointStep.eq_def]
  split
  · next store edited =>
    obtain ⟨complete, inLog⟩ := sound.checkpointed passSound ended isHead edited
    exact ⟨complete, inLog, trivial⟩
  · exact sound.withLane .of_eq trivial
  · next store edited =>
    obtain ⟨complete, inLog⟩ := sound.checkpointed passSound ended isHead edited
    exact ⟨complete, inLog, trivial⟩
  · exact sound.withLane .of_eq trivial

theorem Sound.laneStep {input : LaneInput} (fresh : FreshStep subscription s (.lane input))
    (stepped : s.laneStep subscription input = some s') : Sound subscription s' := by
  have laneSound := sound.lane
  rw [DeliverySystem.laneStep.eq_def] at stepped
  generalize isPhase : s.lane = phase at laneSound stepped
  split at stepped
  case h_1 =>
    rw [takeCommand.eq_def] at stepped
    split at stepped <;> cases stepped
    all_goals exact sound.withLane .of_eq trivial
  case h_2 =>
    cases stepped
    refine sound.withLane .of_eq ?_
    split
    · trivial
    · exact ⟨le_rfl, sound.stored, fun _ => sound.complete⟩
  case h_4 throughSeq state =>
    cases stepped
    exact sound.withLane .of_eq (laneSound.passSound throughSeq).nextPhase
  case h_8 =>
    split at stepped <;> cases stepped
    exact sound.withLane .of_eq laneSound
  case h_9 =>
    cases stepped
    exact sound.startStep isPhase fresh
  case h_12 =>
    cases stepped
    exact sound.recordStep laneSound _
  case h_14 =>
    cases stepped
    exact sound.checkpointStep laneSound.1 laneSound.2.1 laneSound.2.2 _
  case h_18 =>
    cases stepped
    split <;> exact sound.withLane .of_eq trivial
  all_goals cases stepped
  -- the other steps change the phase only, and the pass goes along
  all_goals first
    | exact sound.withLane .of_eq trivial
    | exact sound.withLane .of_eq laneSound

theorem Sound.step (fresh : FreshStep subscription s action)
    (stepped : s.step subscription action = some s') : Sound subscription s' := by
  cases action with
  | lane input => exact sound.laneStep fresh stepped
  | _ => exact sound.otherStep (by intro input same; cases same) stepped

/-- Along a run of fresh deliveries. -/
theorem Sound.run {actions : List DeliveryAction}
    (fresh : EveryStep subscription (FreshStep subscription) s actions) :
    EveryStep subscription (HandsInOrder subscription) s actions ∧
      ∀ s', s.run subscription actions = some s' → CheckpointComplete subscription s' := by
  induction actions generalizing s with
  | nil =>
    refine ⟨trivial, fun s' ran => ?_⟩
    cases ran
    exact sound.complete
  | cons action actions ih =>
    obtain ⟨first, later⟩ := fresh
    refine ⟨⟨sound.handsInOrder first, fun next stepped => ?_⟩, fun s' ran => ?_⟩
    · exact (ih (sound.step first stepped) (later next stepped)).1
    · obtain ⟨next, stepped, rest⟩ := Option.bind_eq_some_iff.mp ran
      exact (ih (sound.step first stepped) (later next stepped)).2 s' rest

end

/-- In a run of fresh deliveries the checkpoint skips nothing, and every event is handed over
after the earlier ones. -/
theorem checkpoint_complete_of_fresh (subscription : CustomEventSubscription)
    (log : List DurableEvent) (actions : List DeliveryAction)
    (fresh : EveryStep subscription (FreshStep subscription) (initial log) actions) :
    EveryStep subscription (HandsInOrder subscription) (initial log) actions ∧
      ∀ s, run subscription (initial log) actions = some s → CheckpointComplete subscription s :=
  (sound_initial log).run fresh

def jobs : CustomEventSubscription := ⟨"job", 1, "job", .any⟩

def job : DurableEvent :=
  ⟨"event", "session", none, ⟨0⟩, .customEvent ⟨"producer", "job", 1, .session, none, 0, .null⟩⟩

/-- One attempt at the first event of a pass, up to its write. -/
def attempt (disposition : CustomEventDisposition) : List DeliveryAction :=
  [.lane .acquire, .lane (.read true), .lane (.handled (.ok disposition)), .lane (.write .ok)]

/-- The lane takes the command and reads the events up to the second. -/
private def passStarted : List DeliveryAction :=
  [.append job, .append job, .signal (some 1), .lane .next, .lane (.read true), .lane (.read true),
    .lane (.read true)]

/-- The checkpoint goes back to the beginning without a delivery in flight. -/
private def replayed : List DeliveryAction :=
  [.control .replayFromBeginning, .controlStep 0 (.read true), .controlStep 0 (.write .ok),
    .controlStep 0 .idle, .controlStep 0 (.write .ok), .controlStep 0 (.write .ok)]

/-- The consumer is reset while the lane sleeps after a first attempt at the second event. The
next attempt is acknowledged under the new revision, under which the first event was never
handed over. -/
theorem replay_during_sleep_skips :
    ¬ ∀ s ∈ run jobs (initial []) (passStarted ++ attempt .ack ++ [.lane (.read true)] ++
        attempt (.retry "busy") ++ replayed ++ [.lane .wake] ++ attempt .ack),
      CheckpointComplete jobs s := by
  decide +kernel

private def retried : List DeliveryAction :=
  passStarted ++ attempt .ack ++ [.lane (.read true)] ++ attempt (.retry "busy") ++ [.lane .wake] ++
    attempt .ack

/-- Without the reset the same deliveries leave nothing out. -/
theorem retry_skips_nothing :
    EveryStep jobs (HandsInOrder jobs) (initial []) retried ∧
      ∃ s, run jobs (initial []) retried = some s ∧ CheckpointComplete jobs s := by
  obtain ⟨inOrder, complete⟩ := checkpoint_complete_of_fresh jobs [] retried (by decide +kernel)
  obtain ⟨s, ran⟩ : ∃ s, run jobs (initial []) retried = some s :=
    Option.isSome_iff_exists.mp (by decide +kernel)
  exact ⟨inOrder, s, ran, complete s ran⟩

end DeliverySystem

end Astrcode
