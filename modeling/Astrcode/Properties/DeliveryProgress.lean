import Astrcode.Library.Fairness
import Astrcode.Properties.CheckpointDelivery
import Astrcode.Properties.DeliveryAttempts
import Mathlib.Data.Prod.Lex

/-!
# Durable delivery makes progress

A consumer that is left alone reaches every event it was signalled, if its lane is scheduled,
its handler calls return, storage fails finitely often, and the lane is never kept waiting for a
permit. The last is not guaranteed: a live event holds its permit while it waits in the queue of
the lane, so that a lane which sleeps between two attempts can find all permits with the events
queued behind it.

The rank that shrinks with every move of the lane is made of the storage failures to come, the
commands before the one in question, the passes to be started again, and the attempts left.
-/
namespace Astrcode

open List

namespace DeliverySystem

variable {pass : DeliveryPass} {store : EventConsumerState} {subscription : CustomEventSubscription}
  {s s' : DeliverySystem} {seq : Nat} {actions : List DeliveryAction}

/-! ### The command and the pass that serve a signal -/

/-- A pass that ends with a checkpoint at the event. -/
def passServes (seq revision : Nat) (pass : DeliveryPass) : Prop :=
  pass.throughSeq = some seq ∧ pass.replayHead = some seq ∧ pass.revision = revision

/-- The lane is at work on the signal for an event. -/
def Serves (seq : Nat) (s : DeliverySystem) : Prop :=
  match s.lane with
  | .readingState throughSeq | .backingOff throughSeq => throughSeq = some seq
  | .replaying throughSeq state =>
    throughSeq = some seq ∧ state.checkpoint = s.store.checkpoint ∧
      state.revision = s.store.revision
  | .preparing pass | .acquiring pass | .starting pass | .handling pass _ | .recording pass _ _
  | .sleeping pass => passServes seq s.store.revision pass
  | .checkpointing pass head =>
    pass.throughSeq = some seq ∧ head = seq ∧ pass.revision = s.store.revision
  | _ => False

/-- The signal is being served, or will be. -/
def Pending (seq : Nat) (s : DeliverySystem) : Prop :=
  Serves seq s ∨ .reconcileDurable (some seq) ∈ s.queue

theorem serves_iff_of_eq (seq : Nat) (lane : s'.lane = s.lane) (store : s'.store = s.store) :
    Serves seq s' ↔ Serves seq s := by
  rw [Serves, Serves, lane, store]

theorem passServes.nextPhase (lane : s'.lane = pass.nextPhase)
    (serves : passServes seq s'.store.revision pass) : Serves seq s' := by
  obtain ⟨through, isHead, revision⟩ := serves
  rcases nextPhase_cases pass with ⟨-, next⟩ | ⟨-, head, head_eq, next⟩ | ⟨-, none, -⟩
  · rw [Serves, lane, next]
    exact ⟨through, isHead, revision⟩
  · rw [Serves, lane, next]
    exact ⟨through, Option.some.inj (head_eq.symm.trans isHead), revision⟩
  · cases none.symm.trans isHead

/-- The list for an event that is stored and not yet reached ends with it. -/
theorem passFrom_serves (subscription : CustomEventSubscription) {state : EventConsumerState}
    (stored : seq < s.log.length) (checkpoint : state.checkpoint = s.store.checkpoint)
    (behind : s.store.reached seq = false) :
    passServes seq state.revision (passFrom subscription s (some seq) state) := by
  refine ⟨rfl, ?_, rfl⟩
  have member : ⟨seq, s.log.get ⟨seq, stored⟩⟩ ∈
      eventsToDeliver s.log state.checkpoint (some seq) := by
    refine mem_eventsToDeliver.mpr ⟨getElem?_eq_getElem stored, ?_, ?_⟩
    · intro reached isReached
      by_contra within
      have : s.store.reached seq = true :=
        EventConsumerState.reached_iff.mpr ⟨reached, checkpoint ▸ isReached, by simpa using within⟩
      exact absurd (this.symm.trans behind) (by decide)
    · rintro through isThrough
      cases isThrough
      exact le_rfl
  have last := getLast?_eq_some_getLast (ne_nil_of_mem member)
  have upTo := (mem_eventsToDeliver.mp (mem_of_getLast? last)).2.2 seq rfl
  have atLeast := ((eventsToDeliver_sorted s.log state.checkpoint (some seq)).imp
    Nat.le_of_lt).rel_getLast_of_rel_getLast_getLast member le_rfl
  show Option.map _ _ = _
  rw [last, Option.map_some]
  exact congrArg some (le_antisymm upTo atLeast)

/-- Once the lane is at work on a signal, it stays so until the checkpoint has reached it. -/
theorem LaneMove.keepsServing (move : LaneMove subscription s s')
    (running : s.store.paused = false) (stored : seq < s.log.length)
    (behind : s'.store.reached seq = false) (serves : Serves seq s) : Serves seq s' := by
  have sameRevision := move.keepsMarks.2
  -- an attempt goes on with the same pass
  have same : ∀ {pass}, s'.lane.attempt? = some pass → passServes seq s.store.revision pass →
      Serves seq s' := by
    intro pass isPass served
    rw [← sameRevision] at served
    rw [Serves]
    cases lane : s'.lane <;> rw [lane] at isPass <;> cases isPass <;> exact served
  rw [Serves] at serves
  cases move with
  | takesLive lane | takesDurable lane | preparesLive lane | handsLive lane =>
    rw [lane] at serves
    exact serves.elim
  | readsState lane =>
    rw [lane] at serves
    exact ⟨serves, rfl, rfl⟩
  | replays lane =>
    rw [lane] at serves
    obtain ⟨rfl, checkpoint, current⟩ := serves
    have served := passFrom_serves subscription stored checkpoint behind
    rw [current] at served
    exact served.nextPhase rfl
  | waits lane =>
    rcases lane with lane | lane
    all_goals
      rw [lane] at serves
      exact same rfl serves
  | acquires lane | hands lane | returns lane | recordsAndFails lane =>
    rw [lane] at serves
    exact same rfl serves
  | passesOver lane =>
    rw [lane] at serves
    exact passServes.nextPhase rfl serves
  | @records pass stored rest revision disposition outcome store lane remaining edit =>
    rw [lane] at serves
    by_cases again : outcome = .again
    · exact same (by rw [if_pos again]; rfl) serves
    · rw [← sameRevision] at serves
      exact passServes.nextPhase (if_neg again) serves
  | attemptFails lane =>
    rcases lane with lane | ⟨_, _, lane⟩
    all_goals
      rw [lane] at serves
      exact same rfl serves
  | checkpoints lane edited =>
    rw [lane] at serves
    obtain ⟨-, rfl, -⟩ := serves
    have reached := (checkpointed_reached edited).2 rfl
    exact absurd (reached.symm.trans behind) (by decide)
  | checkpointsAndFails lane | checkpointIsStale lane =>
    rw [lane] at serves
    exact serves.1
  | passFails lane =>
    rcases lane with lane | ⟨state, lane⟩ | ⟨pass, rfl, lane | ⟨head, lane⟩⟩
    all_goals rw [lane] at serves
    · exact serves
    all_goals exact serves.1
  | startsAgain lane =>
    rw [lane] at serves
    exact serves
  | endsLive lane =>
    rcases lane with lane | lane | lane
    all_goals
      rw [lane] at serves
      exact serves.elim
  | givesUp paused | givesUpAttempt paused => exact absurd (running.symm.trans paused) (by decide)

/-! ### The rank of a phase -/

/-- The attempts a pass can still make, six steps each, after those of a pass that was read under
an earlier revision and has to be started again. -/
def passRank (store : EventConsumerState) (pass : DeliveryPass) (steps : Nat) : Nat ×ₗ Nat :=
  toLex (if pass.revision = store.revision then 0 else 2,
    6 * (customEventQuarantineAfter * pass.remaining.length - store.consecutiveFailures) + steps)

/-- How far the lane is from the end of its command. A call under an earlier revision is made
again without being counted, which costs one more round. -/
def phaseRank (store : EventConsumerState) : LanePhase → Nat ×ₗ Nat
  | .idle | .stopped => toLex (0, 0)
  | .backingOff _ => toLex (1, 3)
  | .readingState _ => toLex (1, 2)
  | .replaying _ state => if state.revision = store.revision then toLex (1, 1) else toLex (3, 0)
  | .preparing pass | .sleeping pass => passRank store pass 5
  | .acquiring pass => passRank store pass 4
  | .starting pass => passRank store pass 3
  | .handling pass revision => passRank store pass (if revision = store.revision then 2 else 8)
  | .recording pass revision _ => passRank store pass (if revision = store.revision then 1 else 7)
  | .checkpointing pass _ => toLex (if pass.revision = store.revision then 0 else 2, 1)
  | .preparingLive _ => toLex (0, 3)
  | .startingLive _ => toLex (0, 2)
  | .handlingLive _ => toLex (0, 1)

theorem toLex_lt_of_left {a b c d : Nat} (less : a < c) : toLex (a, b) < toLex (c, d) :=
  Prod.Lex.toLex_lt_toLex.mpr (Or.inl less)

theorem toLex_lt_of_right {a b d : Nat} (less : b < d) : toLex (a, b) < toLex (a, d) :=
  Prod.Lex.toLex_lt_toLex.mpr (Or.inr ⟨rfl, less⟩)

theorem passRank_lt {steps steps' : Nat} (fewer : steps' < steps) :
    passRank store pass steps' < passRank store pass steps :=
  toLex_lt_of_right (Nat.add_lt_add_left fewer _)

/-- The phase after an event ranks no higher than the next event of the pass. -/
theorem phaseRank_nextPhase_le (store : EventConsumerState) (pass : DeliveryPass) :
    phaseRank store pass.nextPhase ≤ passRank store pass 5 := by
  rcases nextPhase_cases pass with ⟨-, next⟩ | ⟨-, head, -, next⟩ | ⟨-, -, next⟩ <;> rw [next]
  · exact le_rfl
  · exact (toLex_lt_of_right (by omega)).le
  · refine Prod.Lex.toLex_le_toLex.mpr ?_
    omega

/-- A settled event takes all its attempts with it. -/
theorem consumeFirst_rank_lt {store' : EventConsumerState} {steps : Nat}
    (some_left : pass.remaining ≠ []) (sameRevision : store'.revision = store.revision)
    (few : store.consecutiveFailures < customEventQuarantineAfter) :
    phaseRank store' pass.consumeFirst.nextPhase < passRank store pass steps := by
  refine (phaseRank_nextPhase_le store' pass.consumeFirst).trans_lt ?_
  obtain ⟨stored, rest, remaining⟩ := exists_cons_of_ne_nil some_left
  simp only [passRank, DeliveryPass.consumeFirst, remaining, tail_cons, length_cons,
    sameRevision]
  apply toLex_lt_of_right
  simp only [customEventQuarantineAfter] at few ⊢
  omega

/-- An attempt that is to be made again was counted, or was made under an earlier revision. -/
theorem Edits.rank_lt {stored : StoredEvent} {rest : List StoredEvent} {revision : Nat}
    {disposition : CustomEventDisposition} (edit : s.Edits revision stored.seq .again store)
    (remaining : pass.remaining = stored :: rest)
    (few : s.store.consecutiveFailures < customEventQuarantineAfter) :
    phaseRank store (.sleeping pass) <
      phaseRank s.store (.recording pass revision disposition) := by
  cases edit with
  | stale revision_ne =>
    rw [phaseRank, phaseRank, if_neg (Ne.symm revision_ne)]
    exact passRank_lt (by decide)
  | reached notAgain => exact absurd rfl notAgain
  | counted revision_eq behind few' =>
    rw [phaseRank, phaseRank, if_pos revision_eq.symm]
    simp only [passRank, remaining, length_cons]
    apply toLex_lt_of_right
    simp only [customEventQuarantineAfter] at few ⊢
    omega

/-- Every move of a lane that has a command brings it nearer to the end of it, unless storage
fails. -/
theorem LaneMove.phaseRank_lt (move : LaneMove subscription s s') (alone : Alone s)
    (busy : s.lane ≠ .idle) (noFailure : s'.storageFailures = s.storageFailures) :
    phaseRank s'.store s'.lane < phaseRank s.store s.lane := by
  have few := alone.wellFormed.failures
  have left : ∀ {pass}, s.lane.attempt? = some pass → pass.remaining ≠ [] :=
    fun isPass => alone.wellFormed.remaining _ isPass
  cases move with
  | takesLive lane | takesDurable lane => exact absurd lane busy
  | readsState lane =>
    simp only [lane, phaseRank, if_true]
    exact toLex_lt_of_right (by decide)
  | @replays throughSeq state lane =>
    refine (phaseRank_nextPhase_le _ _).trans_lt ?_
    rw [lane, phaseRank]
    by_cases current : state.revision = s.store.revision
    all_goals
      simp only [passRank, passFrom, current, if_true, if_false]
      exact toLex_lt_of_left (by decide)
  | waits lane =>
    rcases lane with lane | lane
    all_goals
      rw [lane]
      exact passRank_lt (by decide)
  | acquires lane =>
    rw [lane]
    exact passRank_lt (by decide)
  | hands lane =>
    simp only [lane, phaseRank, if_true]
    exact passRank_lt (by decide)
  | passesOver lane =>
    rw [lane]
    exact consumeFirst_rank_lt (left (by rw [lane]; rfl)) rfl few
  | returns lane =>
    rw [lane, phaseRank, phaseRank]
    split
    all_goals exact passRank_lt (by decide)
  | @records pass stored rest revision disposition outcome store lane remaining edit =>
    rw [lane]
    by_cases again : outcome = .again
    · subst again
      exact edit.rank_lt remaining few
    · rw [if_neg again]
      exact consumeFirst_rank_lt (left (by rw [lane]; rfl)) (applyEdit_grows edit).revision few
  | recordsAndFails | attemptFails | checkpointsAndFails | passFails =>
    exact absurd noFailure (Nat.succ_ne_self _)
  | checkpoints lane =>
    rw [lane, phaseRank, phaseRank]
    refine Prod.Lex.toLex_lt_toLex.mpr ?_
    omega
  | checkpointIsStale lane stale =>
    rw [lane, phaseRank, phaseRank, if_neg (Ne.symm stale)]
    exact toLex_lt_of_left (by decide)
  | startsAgain lane | preparesLive lane | handsLive lane =>
    rw [lane]
    exact toLex_lt_of_right (by decide)
  | endsLive lane =>
    rcases lane with lane | lane | lane
    all_goals
      rw [lane]
      exact toLex_lt_of_right (by decide)
  | givesUp paused | givesUpAttempt paused =>
    exact absurd (alone.running.symm.trans paused) (by decide)

/-! ### The rank of a state -/

open Classical in
/-- The commands up to the one that serves the signal. -/
noncomputable def position (seq : Nat) (s : DeliverySystem) : Nat :=
  if Serves seq s then 0 else s.queue.idxOf (.reconcileDurable (some seq)) + 1

/-- Storage failures to come, commands to come, and what is left of the command at work. -/
noncomputable def rank (bound seq : Nat) (s : DeliverySystem) : Nat ×ₗ Nat ×ₗ Nat ×ₗ Nat :=
  toLex (bound - s.storageFailures, toLex (position seq s, phaseRank s.store s.lane))

section

variable (move : LaneMove subscription s s')

include move

theorem LaneMove.failures :
    s'.storageFailures = s.storageFailures ∨ s'.storageFailures = s.storageFailures + 1 := by
  cases move with
  | recordsAndFails | attemptFails | checkpointsAndFails | passFails => exact Or.inr rfl
  | _ => exact Or.inl rfl

theorem LaneMove.queue_eq (busy : s.lane ≠ .idle) : s'.queue = s.queue := by
  cases move with
  | takesLive lane | takesDurable lane => exact absurd lane busy
  | _ => rfl

/-- A lane without a command takes the first of its queue. -/
theorem LaneMove.takes (idle : s.lane = .idle) :
    s'.storageFailures = s.storageFailures ∧ ∃ command, s.queue = command :: s'.queue ∧
      ∀ throughSeq, command = .reconcileDurable throughSeq → s'.lane = .readingState throughSeq := by
  cases move with
  | takesLive lane isQueue => exact ⟨rfl, _, isQueue, fun throughSeq same => nomatch same⟩
  | takesDurable lane isQueue =>
    refine ⟨rfl, _, isQueue, fun throughSeq same => ?_⟩
    cases same
    rfl
  | _ => simp_all -- every other move starts in another phase

omit move in
theorem position_of_serves (serves : Serves seq s) : position seq s = 0 := by
  rw [position, if_pos serves]

omit move in
theorem position_of_not_serves (notYet : ¬ Serves seq s) :
    position seq s = s.queue.idxOf (.reconcileDurable (some seq)) + 1 := by
  rw [position, if_neg notYet]

omit move in
theorem position_le (seq : Nat) (s : DeliverySystem) :
    position seq s ≤ s.queue.idxOf (.reconcileDurable (some seq)) + 1 := by
  rw [position]
  split
  · exact Nat.zero_le _
  · exact le_rfl

/-- Taking a command brings the lane nearer to the one that serves the signal. -/
theorem LaneMove.progress_of_idle (idle : s.lane = .idle) (pending : Pending seq s) :
    Pending seq s' ∧ position seq s' < position seq s := by
  have notYet : ¬ Serves seq s := by
    rw [Serves, idle]
    exact id
  have waiting := pending.resolve_left notYet
  have before := position_of_not_serves notYet
  obtain ⟨-, command, isQueue, taken⟩ := move.takes idle
  by_cases same : command = .reconcileDurable (some seq)
  · have serves : Serves seq s' := by
      rw [Serves, taken _ same]
    rw [position_of_serves serves, before]
    exact ⟨Or.inl serves, Nat.succ_pos _⟩
  · rw [isQueue] at waiting before
    rw [idxOf_cons_ne _ same] at before
    have atMost := position_le seq s'
    exact ⟨Or.inr (mem_of_ne_of_mem (Ne.symm same) waiting), by omega⟩

theorem LaneMove.progress_of_busy (alone : Alone s) (stored : seq < s.log.length)
    (behind : s'.store.reached seq = false) (busy : s.lane ≠ .idle) (pending : Pending seq s) :
    Pending seq s' ∧ position seq s' ≤ position seq s := by
  by_cases serves : Serves seq s
  · have serves' := move.keepsServing alone.running stored behind serves
    rw [position_of_serves serves']
    exact ⟨Or.inl serves', Nat.zero_le _⟩
  · have queue := move.queue_eq busy
    have atMost := position_le seq s'
    rw [position_of_not_serves serves, ← queue]
    exact ⟨Or.inr (queue ▸ pending.resolve_left serves), atMost⟩

/-- Every move of the lane makes the rank smaller, until the signal is served. -/
theorem LaneMove.rank_lt {bound : Nat} (alone : Alone s) (stored : seq < s.log.length)
    (behind : s'.store.reached seq = false) (bounded : s'.storageFailures ≤ bound)
    (pending : Pending seq s) : Pending seq s' ∧ rank bound seq s' < rank bound seq s := by
  by_cases idle : s.lane = .idle
  · obtain ⟨pending', nearer⟩ := move.progress_of_idle idle pending
    refine ⟨pending', ?_⟩
    rw [rank, rank, (move.takes idle).1]
    exact Prod.Lex.toLex_lt_toLex.mpr (Or.inr ⟨rfl, Prod.Lex.toLex_lt_toLex.mpr (Or.inl nearer)⟩)
  · obtain ⟨pending', atMost⟩ := move.progress_of_busy alone stored behind idle pending
    refine ⟨pending', Prod.Lex.toLex_lt_toLex.mpr ?_⟩
    rcases move.failures with noFailure | failure
    · have fewer := move.phaseRank_lt alone idle noFailure
      rw [noFailure]
      refine Or.inr ⟨rfl, Prod.Lex.toLex_lt_toLex.mpr ?_⟩
      rcases Nat.lt_or_eq_of_le atMost with nearer | same
      · exact Or.inl nearer
      · exact Or.inr ⟨same, fewer⟩
    · left
      omega

/-! ### Executions -/

/-- An infinite execution of the system. -/
structure Execution (subscription : CustomEventSubscription) (log : List DurableEvent) where
  state : Nat → DeliverySystem
  action : Nat → DeliveryAction
  start : state 0 = initial log
  steps : ∀ n, (state n).step subscription (action n) = some (state (n + 1))

/-- The lane could go on without being cancelled. -/
def CanMove (subscription : CustomEventSubscription) (s : DeliverySystem) : Prop :=
  ∃ input, input ≠ .cancel ∧ (s.laneStep subscription input).isSome

/-- The consumer is left alone from a point on, with a lane that is scheduled and handler calls
that return, storage that fails finitely often, and other lanes that give their permits back. -/
structure Execution.FairFrom {log : List DurableEvent} (execution : Execution subscription log)
    (start : Nat) : Prop where
  running : (execution.state start).store.paused = false
  alone : ∀ n, start ≤ n → leavesAlone (execution.action n) = true
  failures : ∃ bound, ∀ n, (execution.state n).storageFailures ≤ bound
  scheduled : ∀ n, start ≤ n → CanMove subscription (execution.state n) →
    ∃ m, n ≤ m ∧ ∃ input, execution.action m = .lane input
  returned : ∀ n, start ≤ n → (execution.state n).lane.isAcquiring = true →
    0 < (execution.state n).otherPermits → ∃ m, n ≤ m ∧ execution.action m = .otherRelease

/-- Whenever the lane waits for a permit, the live events in its queue do not hold them all. -/
def Execution.HasRoomFrom {log : List DurableEvent} (execution : Execution subscription log)
    (start : Nat) : Prop :=
  ∀ n, start ≤ n → (execution.state n).lane.isAcquiring = true →
    (execution.state n).liveQueued < customEventConcurrency

omit move in
theorem canMove_of_phase (present : s.lane ≠ .stopped) (queued : s.lane = .idle → s.queue ≠ [])
    (free : s.lane.isAcquiring = true → 0 < s.freePermits) : CanMove subscription s := by
  cases lane : s.lane with
  | stopped => exact absurd lane present
  | idle =>
    obtain ⟨command, queue, isQueue⟩ := exists_cons_of_ne_nil (queued lane)
    refine ⟨.next, by simp, ?_⟩
    cases command <;> simp [laneStep, lane, takeCommand, isQueue]
  | acquiring pass =>
    have free := free (by rw [lane]; rfl)
    exact ⟨.acquire, by simp, by simp [laneStep, lane, free]⟩
  | readingState | replaying | preparing | starting | preparingLive | startingLive =>
    exact ⟨.read true, by simp, by simp [laneStep, lane]⟩
  | handling | handlingLive => exact ⟨.handled (.ok .ack), by simp, by simp [laneStep, lane]⟩
  | recording | checkpointing => exact ⟨.write .ok, by simp, by simp [laneStep, lane]⟩
  | sleeping | backingOff => exact ⟨.wake, by simp, by simp [laneStep, lane]⟩

theorem LaneMove.log_eq : s'.log = s.log := by
  cases move <;> rfl

end

/-- While the lane waits, the signal stays pending and the rank the same. -/
theorem Waits.pending (waits : Waits s s') (pending : Pending seq s) : Pending seq s' :=
  pending.imp (serves_iff_of_eq seq waits.lane waits.store).mpr (waits.queue.subset ·)

theorem Waits.rank_eq {bound : Nat} (waits : Waits s s') (pending : Pending seq s) :
    rank bound seq s' = rank bound seq s := by
  have serves := serves_iff_of_eq seq waits.lane waits.store
  have same : position seq s' = position seq s := by
    by_cases served : Serves seq s
    · rw [position_of_serves served, position_of_serves (serves.mpr served)]
    · have waiting := pending.resolve_left served
      obtain ⟨later, queue⟩ := waits.queue
      rw [position_of_not_serves served, position_of_not_serves (mt serves.mp served), ← queue,
        idxOf_append_of_mem waiting]
  rw [rank, rank, same, waits.storageFailures, waits.store, waits.lane]

namespace Execution

variable {log : List DurableEvent} (execution : Execution subscription log) {start n m : Nat}

theorem wellFormed (n : Nat) : WellFormed (execution.state n) := by
  induction n with
  | zero => exact execution.start ▸ wellFormed_initial log
  | succ n ih => exact ih.step (execution.steps n)

theorem waits_between (alone : ∀ n, start ≤ n → Alone (execution.state n))
    (leaves : ∀ n, start ≤ n → leavesAlone (execution.action n) = true) (late : start ≤ n)
    (later : n ≤ m) (others : ∀ k, n ≤ k → k < m → ∀ input, execution.action k ≠ .lane input) :
    Waits (execution.state n) (execution.state m) := by
  induction later with
  | refl => exact .refl _
  | @step m between ih =>
    refine (ih fun k from_ before => others k from_ (Nat.lt_succ_of_lt before)).trans ?_
    exact waits_of_step (alone m (late.trans between)).present (leaves m (late.trans between))
      (others m between (Nat.lt_succ_self m)) (execution.steps m)

variable {execution} {final : DeliverySystem} {rest : DeliveryAction}

section

variable (fair : execution.FairFrom start)

include fair

/-- Up to the next action of the lane nothing about it changes. -/
theorem FairFrom.next_move (alone : ∀ n, start ≤ n → Alone (execution.state n)) (late : start ≤ n)
    (acts : ∃ m, n ≤ m ∧ ∃ input, execution.action m = .lane input) :
    ∃ m, n ≤ m ∧ Waits (execution.state n) (execution.state m) ∧
      LaneMove subscription (execution.state m) (execution.state (m + 1)) := by
  obtain ⟨m, later, moves, before⟩ := Library.exists_first_from acts
  have waits := execution.waits_between alone fair.alone late later
    fun k from_ less input same => before k from_ less ⟨input, same⟩
  refine ⟨m, later, waits, ?_⟩
  have leaves := fair.alone m (late.trans later)
  rcases (alone m (late.trans later)).step_cases leaves (execution.steps m) with
    ⟨-, move⟩ | ⟨other, -⟩
  · exact move
  · obtain ⟨input, same⟩ := moves
    exact absurd same (other input)

/-- A lane that waits for a permit is given one, as some permit is not with its own queue. -/
theorem FairFrom.next_move_of_acquiring (room : execution.HasRoomFrom start)
    (alone : ∀ n, start ≤ n → Alone (execution.state n)) (late : start ≤ n)
    (acquiring : (execution.state n).lane.isAcquiring = true) :
    ∃ m, n ≤ m ∧ Waits (execution.state n) (execution.state m) ∧
      LaneMove subscription (execution.state m) (execution.state (m + 1)) := by
  have able : ∀ {k}, start ≤ k → (execution.state k).lane.isAcquiring = true →
      0 < (execution.state k).freePermits → CanMove subscription (execution.state k) := by
    intro k lateK acquiringK free
    refine canMove_of_phase (alone k lateK).present (fun idle => ?_) fun _ => free
    rw [idle] at acquiringK
    cases acquiringK
  by_cases free : 0 < (execution.state n).freePermits
  · exact fair.next_move alone late (fair.scheduled n late (able late acquiring free))
  · have held : 0 < (execution.state n).otherPermits := by
      have permits := (execution.wellFormed n).permits
      have none : (execution.state n).lane.permits = 0 := by
        cases lane : (execution.state n).lane <;> rw [lane] at acquiring <;> cases acquiring
        rfl
      have queued := room n late acquiring
      omega
    obtain ⟨m, later, returned⟩ := fair.returned n late acquiring held
    by_cases acts : ∃ k, n ≤ k ∧ ∃ input, execution.action k = .lane input
    · exact fair.next_move alone late acts
    · -- otherwise it still waits when the permit comes back
      have waits := execution.waits_between alone fair.alone late (later.trans (Nat.le_succ m))
        fun k from_ _ input same => acts ⟨k, from_, input, same⟩
      have freed : 0 < (execution.state (m + 1)).freePermits := by
        have stepped := execution.steps m
        rw [returned, step] at stepped
        split at stepped
        · rw [← Option.some.inj stepped]
          exact Nat.succ_pos _
        · cases stepped
      have lateM := late.trans (later.trans (Nat.le_succ m))
      obtain ⟨k, laterK, acts'⟩ :=
        fair.scheduled (m + 1) lateM (able lateM (waits.lane ▸ acquiring) freed)
      exact absurd ⟨k, later.trans ((Nat.le_succ m).trans laterK), acts'⟩ acts

/-- After a signal the consumer is alone and the signal pending. -/
theorem FairFrom.signalled (signal : execution.action start = .signal (some seq)) :
    Alone (execution.state (start + 1)) ∧ Pending seq (execution.state (start + 1)) ∧
      (execution.state (start + 1)).log = (execution.state start).log ∧
      (execution.state (start + 1)).handed = (execution.state start).handed ∧
      (execution.state (start + 1)).storageFailures = (execution.state start).storageFailures := by
  have wellFormed := execution.wellFormed (start + 1)
  have stepped := execution.steps start
  rw [signal, step, Option.some.injEq] at stepped
  have running := fair.running
  rw [← stepped] at wellFormed ⊢
  have queued : Pending seq ((execution.state start).signalDurable (some seq)) :=
    Or.inr (mem_append_right _ (mem_singleton_self _))
  refine ⟨⟨wellFormed, ?_, openLane_present⟩, queued, ?_⟩
  all_goals
    rw [signalDurable]
    rcases (execution.state start).openLane_cases with opened | opened <;> rw [opened]
  · exact running
  · exact running
  · exact ⟨rfl, rfl, rfl⟩
  · exact ⟨rfl, rfl, rfl⟩

theorem FairFrom.next (alone : Alone (execution.state (start + 1))) :
    execution.FairFrom (start + 1) where
  running := alone.running
  alone n late := fair.alone n (Nat.le_of_succ_le late)
  failures := fair.failures
  scheduled n late := fair.scheduled n (Nat.le_of_succ_le late)
  returned n late := fair.returned n (Nat.le_of_succ_le late)

theorem FairFrom.alone_from (alone : Alone (execution.state start)) :
    ∀ n, start ≤ n → Alone (execution.state n) :=
  Library.stable_of_step alone
    fun n late alone => alone.step (fair.alone n late) (execution.steps n)

/-- A signal for a stored event stays pending until the checkpoint has reached the event. -/
theorem FairFrom.pending_from (alone : ∀ n, start ≤ n → Alone (execution.state n))
    (stored : seq < (execution.state start).log.length)
    (pending : Pending seq (execution.state start)) :
    ∀ n, start ≤ n → seq < (execution.state n).log.length ∧
      ((execution.state n).store.reached seq = true ∨ Pending seq (execution.state n)) := by
  refine Library.stable_of_step ⟨stored, Or.inr pending⟩ fun n late ⟨stored, waiting⟩ => ?_
  rcases (alone n late).step_cases (fair.alone n late) (execution.steps n) with
    ⟨-, move⟩ | ⟨-, waits⟩
  · refine ⟨move.log_eq ▸ stored, ?_⟩
    rcases waiting with reached | pending
    · exact Or.inl (move.keepsReached reached)
    · by_cases reached : (execution.state (n + 1)).store.reached seq = true
      · exact Or.inl reached
      · have behind := Bool.eq_false_iff.mpr reached
        exact Or.inr (move.rank_lt (alone n late) stored behind le_rfl pending).1
  · refine ⟨stored.trans_le waits.log.length_le, ?_⟩
    rw [waits.store]
    exact waiting.imp_right waits.pending

/-- The rank shrinks again and again. -/
theorem FairFrom.reaches (room : execution.HasRoomFrom start)
    (alone : Alone (execution.state start)) (stored : seq < (execution.state start).log.length)
    (pending : Pending seq (execution.state start)) :
    ∃ n, start ≤ n ∧ (execution.state n).store.reached seq = true := by
  have alone := fair.alone_from alone
  have pending := fair.pending_from alone stored pending
  obtain ⟨bound, bounded⟩ := fair.failures
  refine Library.exists_of_rank (fun n => rank bound seq (execution.state n))
    fun n late => ?_
  rcases (pending n late).2 with reached | waiting
  · exact ⟨n, le_rfl, Or.inl reached⟩
  obtain ⟨m, later, waits, move⟩ : ∃ m, n ≤ m ∧ Waits (execution.state n) (execution.state m) ∧
      LaneMove subscription (execution.state m) (execution.state (m + 1)) := by
    by_cases acquiring : (execution.state n).lane.isAcquiring = true
    · exact fair.next_move_of_acquiring room alone late acquiring
    · refine fair.next_move alone late (fair.scheduled n late ?_)
      refine canMove_of_phase (alone n late).present ?_ fun same => absurd same acquiring
      intro idle
      -- an idle lane is not at work on the signal, so the command is in the queue
      rw [Pending, Serves, idle] at waiting
      exact ne_nil_of_mem (waiting.resolve_left id)
  refine ⟨m + 1, later.trans (Nat.le_succ m), ?_⟩
  by_cases reached : (execution.state (m + 1)).store.reached seq = true
  · exact Or.inl reached
  · have behind := Bool.eq_false_iff.mpr reached
    have lateM := late.trans later
    have less := (move.rank_lt (alone m lateM) (pending m lateM).1 behind (bounded (m + 1))
      (waits.pending waiting)).2
    rw [waits.rank_eq waiting] at less
    exact Or.inr less

/-- Calls are bounded by the limit of failures and the failures of storage. -/
theorem FairFrom.calls_le (alone : Alone (execution.state start)) (event : Nat) (late : start ≤ n) :
    (execution.state n).handed.count event + (execution.state start).storageFailures ≤
      (execution.state start).handed.count event + customEventQuarantineAfter +
        (execution.state n).storageFailures := by
  have alone := fair.alone_from alone
  have paid : ∀ n, start ≤ n →
      (execution.state n).handed.count event + credit event (execution.state start) +
          (execution.state start).storageFailures ≤
        (execution.state start).handed.count event + credit event (execution.state n) +
          (execution.state n).storageFailures := by
    refine Library.stable_of_step le_rfl fun n late before => ?_
    have step := (alone n late).paid (fair.alone n late) (execution.steps n) event
    omega
  have most := credit_le (execution.wellFormed n) event
  have total := paid n late
  omega

end

/-- A consumer that is left alone reaches every event it was signalled, if the live events in the
queue of its lane never hold all the permits it waits for. -/
theorem signalled_event_reached (execution : Execution subscription log)
    (fair : execution.FairFrom start) (room : execution.HasRoomFrom start)
    (signal : execution.action start = .signal (some seq))
    (stored : seq < (execution.state start).log.length) :
    (∃ n, start ≤ n ∧ (execution.state n).store.reached seq = true) ∧
      ∀ n, start ≤ n → ∀ event,
        (execution.state n).handed.count event + (execution.state start).storageFailures ≤
          (execution.state start).handed.count event + customEventQuarantineAfter +
            (execution.state n).storageFailures := by
  obtain ⟨alone, pending, sameLog, sameHanded, sameFailures⟩ := fair.signalled signal
  have fair' := fair.next alone
  constructor
  · have room' : execution.HasRoomFrom (start + 1) :=
      fun n late => room n (Nat.le_of_succ_le late)
    obtain ⟨n, late, reached⟩ := fair'.reaches room' alone (sameLog ▸ stored) pending
    exact ⟨n, Nat.le_of_succ_le late, reached⟩
  · intro n late event
    rcases Nat.eq_or_lt_of_le late with rfl | late
    · omega
    · have calls := fair'.calls_le alone event late
      rw [sameHanded, sameFailures] at calls
      exact calls

/-! ### An execution that comes to rest -/

theorem run_append (subscription : CustomEventSubscription) (s : DeliverySystem)
    (first second : List DeliveryAction) :
    s.run subscription (first ++ second) =
      (s.run subscription first).bind (run subscription · second) := by
  induction first generalizing s with
  | nil => rfl
  | cons action first ih =>
    rw [cons_append, run, run, Option.bind_assoc]
    congr 1
    funext next
    exact ih next

/-- A run followed by an action that changes nothing, again and again. -/
def comesToRest {final : DeliverySystem} (actions : List DeliveryAction) (rest : DeliveryAction)
    (ran : run subscription (initial log) actions = some final)
    (rests : final.step subscription rest = some final) : Execution subscription log where
  state n := (run subscription (initial log) (actions.take n)).getD final
  action n := actions.getD n rest
  start := rfl
  steps n := by
    rcases Nat.lt_or_ge n actions.length with inside | past
    · have next : actions.take (n + 1) = actions.take n ++ [actions.get ⟨n, inside⟩] :=
        take_succ_eq_append_getElem inside
      -- every start of the run succeeds, since the run does
      have split := run_append subscription (initial log) (actions.take (n + 1))
        (actions.drop (n + 1))
      rw [take_append_drop, ran] at split
      obtain ⟨after, ranAfter, -⟩ := Option.bind_eq_some_iff.mp split.symm
      have ranNext := ranAfter
      rw [next, run_append] at ranNext
      obtain ⟨before, ranBefore, stepped⟩ := Option.bind_eq_some_iff.mp ranNext
      rw [ranBefore, ranAfter, getD_eq_getElem?_getD, getElem?_eq_getElem inside]
      simpa [run] using stepped
    · rw [take_of_length_le past, take_of_length_le (past.trans (Nat.le_succ n)), ran,
        getD_eq_getElem?_getD, getElem?_eq_none past]
      exact rests

variable (ran : run subscription (initial log) actions = some final)
  (rests : final.step subscription rest = some final)

theorem comesToRest_past (past : actions.length ≤ n) :
    (comesToRest actions rest ran rests).state n = final := by
  show Option.getD _ _ = final
  rw [take_of_length_le past, ran]
  rfl

/-- What holds at every point of a run, and of its last state, holds throughout. -/
theorem comesToRest_state (P : DeliverySystem → Prop)
    (along : ∀ n < actions.length, ∀ s ∈ run subscription (initial log) (actions.take n), P s)
    (last : P final) (n : Nat) : P ((comesToRest actions rest ran rests).state n) := by
  rcases Nat.lt_or_ge n actions.length with inside | past
  · show P (Option.getD _ _)
    cases reached : run subscription (initial log) (actions.take n) with
    | none => exact last
    | some s => exact along n inside s reached
  · rw [comesToRest_past ran rests past]
    exact last

end Execution

/-- A live event of the same kind. -/
private def liveJob : DeliveryAction := .live ⟨"producer", "job", 1, .session, none, 0, .null⟩

/-- A live event on its way through the lane. -/
private def liveDelivery : List DeliveryAction :=
  [.lane .next, .lane (.read true), .lane (.read true), .lane (.handled (.ok .ack))]

/-- The event is signalled and handed over twice, while live events come in. -/
private def acknowledgedRun : List DeliveryAction :=
  [.signal (some 0), liveJob, .lane .next, .lane (.read true), .lane (.read true),
      .lane (.read true)] ++ attempt (.retry "busy") ++ [liveJob, .lane .wake] ++ attempt .ack ++
    [.lane (.write .ok)] ++ liveDelivery ++ liveDelivery

private theorem acknowledgedRun_isSome : (run jobs (initial [job]) acknowledgedRun).isSome := by
  decide +kernel

private def acknowledgedState : DeliverySystem :=
  (run jobs (initial [job]) acknowledgedRun).get acknowledgedRun_isSome

/-- A live event nobody has subscribed to. -/
private def unrelated : DeliveryAction :=
  .live ⟨"producer", "other", 1, .session, none, 0, .null⟩

private def acknowledged : Execution jobs [job] :=
  .comesToRest acknowledgedRun unrelated (Option.some_get acknowledgedRun_isSome).symm rfl

private theorem acknowledged_state (P : DeliverySystem → Prop)
    (along : ∀ n < acknowledgedRun.length,
      ∀ s ∈ run jobs (initial [job]) (acknowledgedRun.take n), P s)
    (last : P acknowledgedState) (n : Nat) : P (acknowledged.state n) :=
  Execution.comesToRest_state _ _ P along last n

theorem not_canMove_of_idle (idle : s.lane = .idle) (empty : s.queue = []) :
    ¬ CanMove subscription s := by
  rintro ⟨input, notCancel, moves⟩
  cases input <;> simp [laneStep, idle, takeCommand, empty] at moves notCancel

private theorem acknowledged_fair : acknowledged.FairFrom 0 where
  running := rfl
  alone n _ := by
    show leavesAlone (acknowledgedRun.getD n unrelated) = true
    rcases Nat.lt_or_ge n acknowledgedRun.length with inside | past
    · exact (by decide : ∀ n < acknowledgedRun.length,
        leavesAlone (acknowledgedRun.getD n unrelated) = true) n inside
    · rw [getD_eq_getElem?_getD, getElem?_eq_none past]
      rfl
  failures := ⟨0, acknowledged_state (·.storageFailures ≤ 0) (by decide +kernel) (by decide +kernel)⟩
  scheduled n _ able := by
    rcases Nat.lt_or_ge n acknowledgedRun.length with inside | past
    · exact ⟨acknowledgedRun.length - 1, by omega, .handled (.ok .ack), rfl⟩
    · rw [show acknowledged.state n = acknowledgedState from Execution.comesToRest_past _ _ past]
        at able
      exact absurd able (not_canMove_of_idle (by decide +kernel) (by decide +kernel))
  returned n _ _ held := by
    have none := acknowledged_state (·.otherPermits = 0) (by decide +kernel) (by decide +kernel) n
    omega

/-- The second call is acknowledged, with two live events in the queue of the lane. -/
theorem acknowledged_event_reached :
    ∃ n, (acknowledged.state n).store.reached 0 = true := by
  have room : acknowledged.HasRoomFrom 0 := fun n _ _ =>
    acknowledged_state (·.liveQueued < customEventConcurrency) (by decide +kernel)
      (by decide +kernel) n
  obtain ⟨⟨n, -, reached⟩, -⟩ := acknowledged.signalled_event_reached acknowledged_fair room rfl
    (by decide)
  exact ⟨n, reached⟩

/-- The lane waits for a permit, and nobody will give one back. -/
def Blocked (s : DeliverySystem) : Prop :=
  s.lane.isAcquiring = true ∧ s.freePermits = 0 ∧ s.otherPermits = 0

theorem Blocked.step {action : DeliveryAction} (blocked : Blocked s)
    (leaves : leavesAlone action = true) (stepped : s.step subscription action = some s') :
    Blocked s' ∧ s'.store = s.store := by
  obtain ⟨acquiring, free, others⟩ := blocked
  obtain ⟨pass, lane⟩ : ∃ pass, s.lane = .acquiring pass := by
    cases lane : s.lane <;> rw [lane] at acquiring <;> cases acquiring
    exact ⟨_, rfl⟩
  cases action with
  | lane input =>
    cases input with
    | cancel => cases leaves
    | _ => simp [DeliverySystem.step, laneStep, lane, free] at stepped
  | append event =>
    cases stepped
    exact ⟨⟨acquiring, free, others⟩, rfl⟩
  | signal throughSeq =>
    cases stepped
    rw [signalDurable, openLane_eq (by simp [lane])]
    split
    all_goals exact ⟨⟨acquiring, free, others⟩, rfl⟩
  | live event =>
    have present : s.lane ≠ .stopped := by simp [lane]
    simp only [DeliverySystem.step, observeLive, openLane_eq present, free, lt_irrefl, decide_false,
      Bool.and_false, if_true, Bool.false_eq_true, if_false, ite_self, Option.some.injEq] at stepped
    subst stepped
    exact ⟨⟨acquiring, free, others⟩, rfl⟩
  | otherAcquire | otherRelease => simp [DeliverySystem.step, free, others] at stepped
  | control action | controlStep index input => cases leaves

theorem Blocked.run (blocked : Blocked s) (leaves : ∀ action ∈ actions, leavesAlone action = true)
    (ran : s.run subscription actions = some s') : s'.store = s.store := by
  induction actions generalizing s with
  | nil =>
    cases ran
    rfl
  | cons action actions ih =>
    obtain ⟨next, stepped, rest⟩ := Option.bind_eq_some_iff.mp ran
    obtain ⟨blocked', same⟩ := blocked.step (leaves action mem_cons_self) stepped
    exact (ih blocked' (forall_mem_cons.mp leaves).2 rest).trans same

/-- One attempt fails, and 64 live events come in while the lane sleeps. -/
private def blockedRun : List DeliveryAction :=
  [.signal (some 0), .lane .next, .lane (.read true), .lane (.read true), .lane (.read true)] ++
    attempt (.retry "busy") ++ replicate 64 liveJob ++ [.lane .wake]

instance : Decidable (Blocked s) :=
  inferInstanceAs (Decidable (_ ∧ _))

/-- The event is never reached: all permits are with the live events queued behind it. -/
theorem live_events_block_delivery :
    ∃ s, run jobs (initial [job]) blockedRun = some s ∧ ∀ actions s',
      (∀ action ∈ actions, leavesAlone action = true) → run jobs s actions = some s' →
      s'.store.reached 0 = false := by
  have ends : (run jobs (initial [job]) blockedRun).any
      (fun s => decide (Blocked s) && !s.store.reached 0) = true := by
    decide +kernel
  rw [Option.any_eq_true] at ends
  obtain ⟨s, ran, state⟩ := ends
  simp only [Bool.and_eq_true, decide_eq_true_eq, Bool.not_eq_true'] at state
  refine ⟨s, ran, fun actions s' leaves continued => ?_⟩
  rw [state.1.run leaves continued]
  exact state.2

end DeliverySystem

end Astrcode
