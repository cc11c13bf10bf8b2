import Mathlib.Data.List.Infix

/-!
# What holds at each element of a list

A property of an element and of what comes before it, at every place of a list: what a log,
a trace or an output promises each time it grows by one element. Lists are put together from
batches, so the property is taken apart along `++` and `flatMap`.
-/
namespace Astrcode.Library

variable {α β : Type} {P : List α → α → Prop} {l : List α} {p : α → Bool}

/-- `P` holds of every element with what stands before it. -/
def AtEach (P : List α → α → Prop) (l : List α) : Prop :=
  ∀ before x after, l = before ++ x :: after → P before x

@[simp] theorem atEach_nil : AtEach P [] := by
  intro before x after split
  simp at split

theorem atEach_congr {P Q : List α → α → Prop}
    (same : ∀ before, ∀ x ∈ l, P before x ↔ Q before x) : AtEach P l ↔ AtEach Q l := by
  constructor
  all_goals
    intro each before x after split
    have member : x ∈ l := by simp [split]
  · exact (same before x member).mp (each before x after split)
  · exact (same before x member).mpr (each before x after split)

theorem AtEach.of_isPrefix {m : List α} (each : AtEach P m) (start : l <+: m) : AtEach P l := by
  obtain ⟨rest, rfl⟩ := start
  rintro before x after rfl
  apply each before x (after ++ rest)
  simp

theorem atEach_cons {x : α} :
    AtEach P (x :: l) ↔ P [] x ∧ AtEach (fun before y => P (x :: before) y) l := by
  constructor
  · intro each
    refine ⟨each [] x l rfl, ?_⟩
    rintro before y after rfl
    exact each (x :: before) y after rfl
  · rintro ⟨first, rest⟩ before y after split
    cases before with
    | nil =>
      obtain ⟨rfl, -⟩ := List.cons.inj split
      exact first
    | cons z before =>
      obtain ⟨rfl, tails⟩ := List.cons.inj split
      exact rest before y after tails

theorem atEach_append {m : List α} :
    AtEach P (l ++ m) ↔ AtEach P l ∧ AtEach (fun before x => P (l ++ before) x) m := by
  induction l generalizing P with
  | nil => simp
  | cons x l ih => simp [atEach_cons, ih, and_assoc]

/-- At each element of batches put together: in every batch, after the batches before it. -/
theorem atEach_flatMap {f : β → List α} {l : List β} :
    AtEach P (l.flatMap f) ↔
      AtEach (fun before b => AtEach (fun sent x => P (before.flatMap f ++ sent) x) (f b)) l := by
  induction l generalizing P with
  | nil => simp
  | cons b l ih =>
    rw [List.flatMap_cons, atEach_append, ih, atEach_cons]
    simp

/-- A batch whose property only depends on the batch as a whole holds it at each element as
soon as at its first. -/
theorem atEach_cons_of_persists {x : α}
    (persists : P [] x → ∀ before y, y ∈ l → P (x :: before) y) :
    AtEach P (x :: l) ↔ P [] x := by
  rw [atEach_cons]
  constructor
  · exact And.left
  · intro first
    refine ⟨first, ?_⟩
    rintro before y after rfl
    exact persists first before y (by simp)

/-- Where nothing that is left out precedes something that is kept, filtering is cutting. -/
theorem filter_eq_takeWhile {xs : List α}
    (ordered : xs.Pairwise fun a b => p b = true → p a = true) : xs.filter p = xs.takeWhile p := by
  induction xs with
  | nil => rfl
  | cons x xs ih =>
    obtain ⟨first, later⟩ := List.pairwise_cons.mp ordered
    by_cases kept : p x = true
    · simp [kept, ih later]
    · have none : xs.filter p = [] := by
        apply List.filter_eq_nil_iff.mpr
        exact fun y member high => kept (first y member high)
      simp [kept, none]

theorem filter_append_filter_not {xs : List α}
    (ordered : xs.Pairwise fun a b => p b = true → p a = true) :
    xs.filter p ++ xs.filter (fun x => !p x) = xs := by
  induction xs with
  | nil => rfl
  | cons x xs ih =>
    by_cases kept : p x = true
    · simp [kept, ih (List.pairwise_cons.mp ordered).2]
    · -- nothing behind is kept either
      have none : ∀ y ∈ xs, p y = false := by simpa [kept] using filter_eq_takeWhile ordered
      have all : xs.filter (fun x => !p x) = xs := List.filter_eq_self.mpr (by simpa using none)
      simpa [kept, all] using none

end Astrcode.Library
