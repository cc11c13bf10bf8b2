import Mathlib.Data.Nat.Find
import Mathlib.Order.WellFounded

/-!
# Progress under fairness

Along an infinite run a rank that never grows, and that shrinks again and again as long as
it is positive, comes to zero. A rank in any well-founded order may grow in between, as long as
it is below its old value again and again.
-/
namespace Astrcode.Library

variable {start : Nat} {P : Nat → Prop}

theorem exists_first_not (fails : ¬ ∀ n, P n) :
    ∃ n, ¬ P n ∧ ∀ m, m < n → P m := by
  classical
  have some := not_forall.mp fails
  exact ⟨Nat.find some, Nat.find_spec some, fun m before => not_not.mp (Nat.find_min some before)⟩

/-- What a step keeps, once it holds, holds from then on. -/
theorem stable_of_step (held : P start)
    (step : ∀ n, start ≤ n → P n → P (n + 1)) : ∀ n, start ≤ n → P n := by
  intro n late
  induction late with
  | refl => exact held
  | step between ih => exact step _ between ih

/-- A rank in a well-founded order that shrinks again and again leads to the goal. -/
theorem exists_of_rank {α : Type} [LT α] [WellFoundedLT α] (rank : Nat → α) {goal : Nat → Prop}
    (progress : ∀ n, start ≤ n → ∃ m, n ≤ m ∧ (goal m ∨ rank m < rank n)) :
    ∃ n, start ≤ n ∧ goal n := by
  have reach : ∀ value n, start ≤ n → rank n = value → ∃ m, start ≤ m ∧ goal m := by
    intro value
    induction value using WellFoundedLT.induction with
    | ind value ih =>
      rintro n late rfl
      obtain ⟨m, later, reached | smaller⟩ := progress n late
      · exact ⟨m, Nat.le_trans late later, reached⟩
      · exact ih (rank m) smaller m (Nat.le_trans late later) rfl
  exact reach (rank start) start (Nat.le_refl _) rfl

theorem exists_rank_eq_zero {rank : Nat → Nat} (shrinks : ∀ n, start ≤ n → rank (n + 1) ≤ rank n)
    (progress : ∀ n, start ≤ n → ∃ m, n ≤ m ∧ (rank m = 0 ∨ rank (m + 1) < rank m)) :
    ∃ n, start ≤ n ∧ rank n = 0 := by
  refine exists_of_rank rank fun n late => ?_
  have below : ∀ m, n ≤ m → rank m ≤ rank n := stable_of_step (Nat.le_refl _)
    fun m between => Nat.le_trans (shrinks m (Nat.le_trans late between))
  obtain ⟨m, later, zero | smaller⟩ := progress n late
  · exact ⟨m, later, .inl zero⟩
  · exact ⟨m + 1, Nat.le_succ_of_le later, .inr (Nat.lt_of_lt_of_le smaller (below m later))⟩

/-- The first time something happens from a point on. -/
theorem exists_first_from (happens : ∃ n, start ≤ n ∧ P n) :
    ∃ n, start ≤ n ∧ P n ∧ ∀ m, start ≤ m → m < n → ¬ P m := by
  classical
  refine ⟨Nat.find happens, (Nat.find_spec happens).1, (Nat.find_spec happens).2, ?_⟩
  intro m late before holds
  exact Nat.find_min happens before ⟨late, holds⟩

end Astrcode.Library
