import Mathlib.Data.List.Basic

/-!
# Transducers that hold back input

A transducer reads one symbol after the other and puts out what is complete; of its input it
keeps the part that may still become something. Input may come in pieces: what was kept and the
next piece, read from the beginning, give the same as going on.
-/
namespace Astrcode.Library

variable {α β : Type} (emit : List α → α → List β × List α)

/-- The output for an input, and what is kept of it, after `begun` was kept before. -/
def transduce (begun : List α) : List α → List β × List α
  | [] => ([], begun)
  | x :: xs =>
    let (out, begun) := emit begun x
    let (more, rest) := transduce begun xs
    (out ++ more, rest)

theorem transduce_append (begun xs ys : List α) :
    transduce emit begun (xs ++ ys) =
      ((transduce emit begun xs).1 ++ (transduce emit (transduce emit begun xs).2 ys).1,
        (transduce emit (transduce emit begun xs).2 ys).2) := by
  induction xs generalizing begun with
  | nil => simp [transduce]
  | cons x xs ih => simp [transduce, ih]

/-- What is kept is complete in no part: read again, it is kept again. -/
def Held (begun : List α) : Prop := transduce emit [] begun = ([], begun)

variable {emit} {begun : List α}

theorem held_nil : Held emit [] := rfl

theorem Held.resume (held : Held emit begun) (xs : List α) :
    transduce emit [] (begun ++ xs) = transduce emit begun xs := by
  rw [transduce_append, held]
  rfl

/-- A symbol that completes nothing is kept. -/
theorem Held.snoc {x : α} (held : Held emit begun) (keeps : emit begun x = ([], begun ++ [x])) :
    Held emit (begun ++ [x]) := by
  rw [Held, held.resume]
  simp [transduce, keeps]

theorem Held.transduce (steps : ∀ begun x, Held emit begun → Held emit (emit begun x).2)
    (held : Held emit begun) (xs : List α) : Held emit (transduce emit begun xs).2 := by
  induction xs generalizing begun with
  | nil => exact held
  | cons x xs ih => exact ih (steps begun x held)

end Astrcode.Library
