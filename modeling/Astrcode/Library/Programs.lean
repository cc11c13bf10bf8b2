import Mathlib.Logic.Basic

/-!
# Fallible programs over a state

A program that fails keeps the state it had reached: what was written before the
failure stays written. Successful runs compose by `bind_ok_iff`; what holds of all runs,
failed ones included, composes by `bind_rel`.
-/
namespace Astrcode.Library

def Program (ε σ α : Type) := σ → Except ε α × σ

namespace Program

variable {ε δ σ α β : Type} {x : Program ε σ α} {f : α → Program ε σ β} {a : α}

instance : Monad (Program ε σ) where
  pure a := fun s => (.ok a, s)
  bind x f := fun s => match x s with
    | (.ok a, s) => f a s
    | (.error e, s) => (.error e, s)

def read : Program ε σ σ := fun s => (.ok s, s)

def fail (e : ε) : Program ε σ α := fun s => (.error e, s)

def modify (f : σ → σ) : Program ε σ Unit := fun s => (.ok (), f s)

/-- Fails with the given error, if there is one. -/
def attempt : Option ε → Program ε σ Unit
  | some e => fail e
  | none => pure ()

/-- Drops the error of a program, not what it has written. -/
def orNone (x : Program ε σ α) : Program δ σ (Option α) := fun s =>
  match x s with
  | (.ok a, s) => (.ok (some a), s)
  | (.error _, s) => (.ok none, s)

/-- Runs the program only if the condition holds. -/
def when (condition : Bool) (x : Program ε σ Unit) : Program ε σ Unit :=
  if condition then x else pure ()

def mapError (f : ε → δ) (x : Program ε σ α) : Program δ σ α := fun s =>
  match x s with
  | (.ok a, s) => (.ok a, s)
  | (.error e, s) => (.error (f e), s)

/-- Runs the body for each element, up to the first failure. -/
def forEach (body : α → Program ε σ Unit) : List α → Program ε σ Unit
  | [] => pure ()
  | a :: as => do
    body a
    forEach body as

/-! ### Successful runs -/

theorem pure_ok_iff {b : α} {s s' : σ} :
    (pure a : Program ε σ α) s = (.ok b, s') ↔ b = a ∧ s' = s := by
  simp [pure, eq_comm]

theorem bind_ok_iff {b : β} {s s' : σ} :
    (x >>= f) s = (.ok b, s') ↔ ∃ a mid, x s = (.ok a, mid) ∧ f a mid = (.ok b, s') := by
  simp only [bind]
  cases step : x s with
  | mk result mid =>
    cases result with
    | error e => simp
    | ok a =>
      simp only [Prod.mk.injEq, Except.ok.injEq]
      constructor
      · intro rest
        exact ⟨a, mid, ⟨rfl, rfl⟩, rest⟩
      · rintro ⟨_, _, ⟨rfl, rfl⟩, rest⟩
        exact rest

theorem read_bind (f : σ → Program ε σ β) (s : σ) : (read >>= f) s = f s s := rfl

theorem attempt_none_bind (f : Unit → Program ε σ β) (s : σ) :
    (attempt none >>= f) s = f () s := rfl

theorem bind_assoc {γ : Type} (x : Program ε σ α) (f : α → Program ε σ β) (g : β → Program ε σ γ)
    (s : σ) : ((x >>= f) >>= g) s = (x >>= fun a => f a >>= g) s := by
  simp only [bind]
  cases x s with
  | mk result mid => cases result <;> rfl

theorem mapError_ok_iff {f : ε → δ} {s s' : σ} :
    (x.mapError f) s = (.ok a, s') ↔ x s = (.ok a, s') := by
  simp only [mapError]
  cases step : x s with
  | mk result mid => cases result <;> simp

theorem mapError_snd (f : ε → δ) (x : Program ε σ α) (s : σ) : (x.mapError f s).2 = (x s).2 := by
  simp only [mapError]
  cases x s with
  | mk result mid => cases result <;> rfl

theorem mapError_error {f : ε → δ} {e : ε} {s s' : σ}
    (run : x s = (.error e, s')) : (x.mapError f) s = (.error (f e), s') := by
  simp [mapError, run]

theorem orNone_ok {s s' : σ} (run : x s = (.ok a, s')) :
    (x.orNone : Program δ σ (Option α)) s = (.ok (some a), s') := by
  simp [orNone, run]

theorem orNone_snd (x : Program ε σ α) (s : σ) :
    ((x.orNone : Program δ σ (Option α)) s).2 = (x s).2 := by
  simp only [orNone]
  cases x s with
  | mk result mid => cases result <;> rfl

theorem bind_error {e : ε} {s mid : σ}
    (step : x s = (.error e, mid)) : (x >>= f) s = (.error e, mid) := by
  simp [bind, step]

theorem bind_eq {s t : σ} (step : x s = (.ok a, t)) : (x >>= f) s = f a t := by
  simp [bind, step]

/-! ### All runs

What relates the state before a run to the one after it, also where the run fails. -/

/-- A sequence is related as its first part is where that fails, else as both parts together. -/
theorem bind_rel (first second whole : σ → σ → Prop)
    (head : ∀ s, first s (x s).2) (tail : ∀ a s, second s (f a s).2)
    (failed : ∀ {s s'}, first s s' → whole s s')
    (both : ∀ {s mid s'}, first s mid → second mid s' → whole s s') (s : σ) :
    whole s ((x >>= f) s).2 := by
  have begun := head s
  cases step : x s with
  | mk result mid =>
    rw [step] at begun
    cases result with
    | error e =>
      rw [bind_error step]
      exact failed begun
    | ok a =>
      rw [bind_eq step]
      exact both begun (tail a mid)

end Program

end Astrcode.Library
