import Astrcode.Library.Runs
import Mathlib.Data.List.Nodup

/-!
# Cancelled requests

`CancelledRequests` of `astrcode-s5r-runtime/src/peer_runtime.rs`: the ids of cancelled requests
whose results may still come. An id that is removed stays in the queue, and the queue gets shorter
only when there are too many ids. So it outgrows the capacity once it is full and an id in it has
been removed.
-/
namespace Astrcode.Wire

open Library List

def cancelledRequestCapacity : Nat := 256

/-- The set is a list here. -/
structure CancelledRequests where
  ids : List String := []
  order : List String := []

namespace CancelledRequests

/-- The loop of `insert`. Every id is in the queue, so that it ends before the queue is empty. -/
def evict (ids : List String) : List String → CancelledRequests
  | [] => ⟨ids, []⟩
  | oldest :: order =>
    if cancelledRequestCapacity < ids.length then evict (ids.erase oldest) order
    else ⟨ids, oldest :: order⟩

variable (requests : CancelledRequests)

def insert (id : String) : CancelledRequests :=
  if id ∈ requests.ids then requests
  else evict (requests.ids ++ [id]) (requests.order ++ [id])

def remove (id : String) : CancelledRequests := { requests with ids := requests.ids.erase id }

inductive Operation where
  | insert (id : String)
  | remove (id : String)

def step : Operation → CancelledRequests
  | .insert id => requests.insert id
  | .remove id => requests.remove id

def insertedIds : List Operation → List String
  | [] => []
  | .insert id :: operations => id :: insertedIds operations
  | .remove _ :: operations => insertedIds operations

def Bounded : Prop :=
  requests.ids.length ≤ cancelledRequestCapacity ∧ requests.order.length ≤ cancelledRequestCapacity

/-- An id that comes to a full queue finds all others in it remembered. -/
def FullQueueRemembered : Operation → Prop
  | .insert _ => requests.ids = requests.order ∨ requests.order.length < cancelledRequestCapacity
  | .remove _ => True

/-- An id that is not removed is remembered until capacity many newer ones have come. -/
def Remembers (operations : List Operation) : Prop :=
  ∀ before id after, operations = before ++ .insert id :: after → .remove id ∉ after →
    (insertedIds after).length < cancelledRequestCapacity →
    id ∈ (operations.foldl step {}).ids

/-- The ids to come are new. -/
structure Sound (operations : List Operation) : Prop where
  queued : requests.ids <+ requests.order
  few : requests.ids.length ≤ cancelledRequestCapacity
  fresh : (requests.order ++ insertedIds operations).Nodup

variable {requests} {id : String} {ids order front back : List String} {operation : Operation}
  {operations : List Operation}

theorem evict_spec (queued : ids <+ order) :
    (evict ids order).ids <+ (evict ids order).order ∧ (evict ids order).order <:+ order ∧
      (evict ids order).ids.length ≤ cancelledRequestCapacity := by
  induction order generalizing ids with
  | nil => simp [evict, sublist_nil.mp queued]
  | cons oldest order ih =>
    rw [evict]
    split
    · obtain ⟨inside, tail, few⟩ := ih (by simpa using queued.erase oldest)
      exact ⟨inside, tail.trans (suffix_cons _ _), few⟩
    · next room => exact ⟨queued, suffix_rfl, Nat.not_lt.mp room⟩

theorem evict_of_le (room : ids.length ≤ cancelledRequestCapacity) :
    evict ids order = ⟨ids, order⟩ := by
  cases order with
  | nil => rfl
  | cons => rw [evict, if_neg (Nat.not_lt.mpr room)]

/-- What is dropped has capacity many ids behind it. -/
theorem mem_evict (queued : ids <+ front ++ id :: back) (member : id ∈ ids)
    (few : back.length < cancelledRequestCapacity) (once : id ∉ front) :
    id ∈ (evict ids (front ++ id :: back)).ids ∧
      ∃ rest, (evict ids (front ++ id :: back)).order = rest ++ id :: back ∧ id ∉ rest := by
  induction front generalizing ids with
  | nil =>
    rw [evict_of_le (Nat.le_trans queued.length_le few)]
    exact ⟨member, [], rfl, once⟩
  | cons oldest front ih =>
    rw [cons_append, evict]
    split
    · obtain ⟨different, once⟩ := not_or.mp (mem_cons.not.mp once)
      refine ih (by simpa using queued.erase oldest) ?_ once
      exact (mem_erase_of_ne different).mpr member
    · exact ⟨member, _, rfl, once⟩

namespace Sound

theorem new (sound : requests.Sound (.insert id :: operations)) : id ∉ requests.order :=
  fun member => (nodup_append.mp sound.fresh).2.2 id member id mem_cons_self rfl

theorem insert_eq (sound : requests.Sound (.insert id :: operations)) :
    requests.step (.insert id) = evict (requests.ids ++ [id]) (requests.order ++ [id]) :=
  if_neg fun member => sound.new (sound.queued.subset member)

theorem step (sound : requests.Sound (operation :: operations)) :
    (requests.step operation).Sound operations := by
  cases operation with
  | remove id =>
    exact ⟨erase_sublist.trans sound.queued, Nat.le_trans erase_sublist.length_le sound.few,
      sound.fresh⟩
  | insert id =>
    rw [sound.insert_eq]
    obtain ⟨inside, tail, few⟩ := evict_spec (sound.queued.append (Sublist.refl [id]))
    refine ⟨inside, few, sound.fresh.sublist ?_⟩
    simpa [insertedIds] using tail.sublist.append_right (insertedIds operations)

theorem run {before : List Operation} (sound : requests.Sound (before ++ operations)) :
    (before.foldl CancelledRequests.step requests).Sound operations := by
  induction before generalizing requests with
  | nil => exact sound
  | cons operation before ih => exact ih sound.step

theorem remembered (sound : requests.Sound operations) (member : id ∈ requests.ids)
    (place : requests.order = front ++ id :: back) (once : id ∉ front)
    (kept : .remove id ∉ operations)
    (few : back.length + (insertedIds operations).length < cancelledRequestCapacity) :
    id ∈ (operations.foldl CancelledRequests.step requests).ids := by
  induction operations generalizing requests front back with
  | nil => exact member
  | cons operation operations ih =>
    obtain ⟨other, later⟩ := not_or.mp (mem_cons.not.mp kept)
    cases operation with
    | remove old =>
      have different : id ≠ old := fun same => other (congrArg _ same)
      exact ih sound.step ((mem_erase_of_ne different).mpr member) place once later few
    | insert latest =>
      have few' : _ + ((insertedIds operations).length + 1) < cancelledRequestCapacity := few
      have queued := sound.queued.append (Sublist.refl [latest])
      rw [place, append_assoc, cons_append] at queued
      obtain ⟨stays, rest, order, once⟩ := mem_evict queued (mem_append_left _ member)
        (by simp; omega) once
      have next := sound.step
      rw [foldl_cons]
      rw [sound.insert_eq, place, append_assoc, cons_append] at next ⊢
      exact ih next stays order once later (by simp; omega)

theorem bounded_step_iff (sound : requests.Sound (operation :: operations))
    (short : requests.order.length ≤ cancelledRequestCapacity) :
    (requests.step operation).Bounded ↔ requests.FullQueueRemembered operation := by
  cases operation with
  | remove id => exact iff_of_true ⟨sound.step.few, short⟩ trivial
  | insert id =>
    rw [Bounded, and_iff_right sound.step.few, sound.insert_eq, FullQueueRemembered]
    by_cases room : requests.ids.length < cancelledRequestCapacity
    · rw [evict_of_le (by rwa [length_append]), length_append]
      constructor
      · exact .inr
      · rintro (same | shorter)
        · rwa [← same]
        · exact shorter
    · -- the set is as full as the queue, so that the two are the same
      have full : requests.ids = requests.order :=
        sound.queued.eq_of_length_le (Nat.le_trans short (Nat.not_lt.mp room))
      refine iff_of_true ?_ (.inl full)
      rw [full] at room ⊢
      cases isOrder : requests.order with
      | nil => simp [isOrder, cancelledRequestCapacity] at room
      | cons oldest rest =>
        rw [isOrder] at room short
        rw [cons_append, evict, if_pos (by simp at room ⊢; omega), erase_cons_head, evict_of_le]
        all_goals simpa using short

theorem along_bounded_iff (sound : requests.Sound operations)
    (short : requests.order.length ≤ cancelledRequestCapacity) :
    Along CancelledRequests.step (fun requests operation => (requests.step operation).Bounded)
        requests operations ↔
      Along CancelledRequests.step FullQueueRemembered requests operations := by
  induction operations generalizing requests with
  | nil => exact Iff.rfl
  | cons operation operations ih =>
    simp only [Along]
    rw [← sound.bounded_step_iff short]
    exact and_congr_right fun bounded => ih sound.step bounded.2

end Sound

/-- Both collections stay within the capacity, and ids are forgotten in their order, exactly if
no id comes to a full queue that has a forgotten id in it. -/
theorem cancelled_bounded_iff (operations : List Operation)
    (unique : (insertedIds operations).Nodup) :
    Along step (fun requests operation => (requests.step operation).Bounded) {} operations ∧
        Remembers operations ↔
      Along step FullQueueRemembered {} operations := by
  have sound : Sound {} operations := ⟨Sublist.refl [], Nat.zero_le _, unique⟩
  have remembers : Remembers operations := by
    rintro before id after rfl kept few
    have inserting := sound.run
    obtain ⟨stays, rest, order, once⟩ := mem_evict
      (inserting.queued.append (Sublist.refl [id])) (by simp) (by decide) inserting.new
    rw [← inserting.insert_eq] at stays order
    rw [foldl_append, foldl_cons]
    exact inserting.step.remembered stays order once kept (by simpa using few)
  rw [and_iff_left remembers]
  exact sound.along_bounded_iff (Nat.zero_le _)

theorem cancelled_bounded_iff_removed :
    Along step (fun requests operation => (requests.step operation).Bounded) {}
      [.insert "1", .insert "2", .remove "1", .insert "3"] ∧ Remembers
      [.insert "1", .insert "2", .remove "1", .insert "3"] :=
  (cancelled_bounded_iff _ (by decide)).mpr
    ⟨.inl rfl, .inr (by decide), trivial, .inr (by decide), trivial⟩

def requestId (n : Nat) : String := String.ofList (replicate n 'x')

/-- Every cancelled request gets its result in the end. -/
def answered : List Operation :=
  (range 257).flatMap fun n => [.insert (requestId n), .remove (requestId n)]

theorem answered_outgrows :
    (insertedIds answered).Nodup ∧
      cancelledRequestCapacity < (answered.foldl step {}).order.length := by
  have ids : insertedIds answered = (range 257).map requestId := by decide +kernel
  refine ⟨?_, by decide +kernel⟩
  rw [ids]
  exact nodup_range.map fun m n same => by simpa [requestId] using congrArg String.length same

end CancelledRequests

end Astrcode.Wire
