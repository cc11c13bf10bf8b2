import Mathlib.Data.List.Basic

/-!
# Terminated records

A stream of records, each ended by a terminator that does not occur inside it. A
forward reader cuts the stream behind every terminator; a backward reader looks for
the last one and splits what lies before it. Both see the same records, whatever the
size of the chunks the stream is read in, and agree on where the last complete record
ends.
-/
namespace Astrcode.Library

open List

variable {α : Type} [DecidableEq α] {t : α} {records : List (List α)} {tail xs : List α}

/-- The records one after the other, each with its terminator. -/
def frame (t : α) (records : List (List α)) : List α := records.flatMap fun r => r ++ [t]

omit [DecidableEq α] in
@[simp] theorem frame_nil (t : α) : frame t [] = [] := rfl

omit [DecidableEq α] in
theorem frame_cons (t : α) (r : List α) (records : List (List α)) :
    frame t (r :: records) = r ++ t :: frame t records := by
  simp [frame]

omit [DecidableEq α] in
theorem frame_append (t : α) (xs ys : List (List α)) : frame t (xs ++ ys) = frame t xs ++ frame t ys := by
  simp [frame]

/-! ### Cut streams -/

omit [DecidableEq α] in
/-- A stream cut anywhere holds its first records and an incomplete one. -/
theorem frame_take (clean : ∀ r ∈ records, t ∉ r) (k : Nat) :
    ∃ n tail, (frame t records).take k = frame t (records.take n) ++ tail ∧ t ∉ tail := by
  induction records generalizing k with
  | nil => exact ⟨0, [], by simp, by simp⟩
  | cons r records ih =>
    by_cases inside : k ≤ r.length
    · -- the cut lies in the first record, or just before its terminator
      refine ⟨0, r.take k, ?_, fun member => clean r (by simp) (mem_of_mem_take member)⟩
      rw [frame_cons, take_append_of_le_length inside]
      rfl
    · obtain ⟨n, tail, cut, absent⟩ :=
        ih (forall_mem_cons.mp clean).2 (k - r.length - 1)
      refine ⟨n + 1, tail, ?_, absent⟩
      obtain ⟨j, rfl⟩ : ∃ j, k = r.length + (j + 1) := ⟨k - r.length - 1, by omega⟩
      rw [show r.length + (j + 1) - r.length - 1 = j by omega] at cut
      rw [frame_cons, take_length_add_append, take_succ_cons, cut, take_succ_cons,
        frame_cons, append_assoc, cons_append]

omit [DecidableEq α] in
/-- Behind the first `n` records and an incomplete one, exactly those records are complete. -/
theorem frame_take_prefix_iff {n i : Nat} (absent : t ∉ tail) (inside : i < records.length) :
    frame t (records.take (i + 1)) <+: frame t (records.take n) ++ tail ↔ i < n := by
  constructor
  · intro complete
    by_contra late
    -- record `i` would have to end within the incomplete rest
    obtain ⟨more, taken⟩ : records.take n <+: records.take i :=
      take_prefix_take_left (by omega)
    have ended : frame t (records.take (i + 1)) =
        frame t (records.take n) ++ (frame t more ++ (records[i] ++ [t])) := by
      rw [take_succ_eq_append_getElem inside, ← taken, frame_append, frame_append,
        append_assoc]
      simp [frame]
    rw [ended, prefix_append_right_inj] at complete
    exact absent (complete.subset (by simp))
  · intro early
    have shorter : frame t (records.take (i + 1)) <+: frame t (records.take n) := by
      obtain ⟨more, taken⟩ := take_prefix_take_left (l := records) (by omega : i + 1 ≤ n)
      rw [← taken, frame_append]
      exact prefix_append ..
    exact shorter.trans (prefix_append ..)

/-! ### Reading forward -/

/-- Cuts behind every terminator; what follows the last one is the final piece. -/
@[simp] def splitInclusive (t : α) : List α → List (List α)
  | [] => []
  | x :: xs =>
    if x = t then [x] :: splitInclusive t xs
    else match splitInclusive t xs with
      | [] => [[x]]
      | piece :: pieces => (x :: piece) :: pieces

theorem splitInclusive_record {t : α} {r : List α} (clean : t ∉ r) (rest : List α) :
    splitInclusive t (r ++ t :: rest) = (r ++ [t]) :: splitInclusive t rest := by
  induction r with
  | nil => simp
  | cons x r ih =>
    have other : x ≠ t := by
      rintro rfl
      simp at clean
    simp [other, ih fun member => clean (by simp [member])]

theorem splitInclusive_tail {t : α} {tail : List α} (clean : t ∉ tail) (nonempty : tail ≠ []) :
    splitInclusive t tail = [tail] := by
  induction tail with
  | nil => contradiction
  | cons x tail ih =>
    have other : x ≠ t := by
      rintro rfl
      simp at clean
    cases tail with
    | nil => simp [other]
    | cons y tail =>
      rw [splitInclusive, if_neg other, ih (fun member => clean (by simp [member])) (by simp)]

/-! ### The last terminator -/

/-- One past the position of the last terminator. -/
def lastEnd (t : α) : List α → Option Nat
  | [] => none
  | x :: xs =>
    match lastEnd t xs with
    | some n => some (n + 1)
    | none => if x = t then some 1 else none

theorem lastEnd_append (t : α) (xs ys : List α) :
    lastEnd t (xs ++ ys) = match lastEnd t ys with
      | some n => some (xs.length + n)
      | none => lastEnd t xs := by
  induction xs with
  | nil => cases h : lastEnd t ys <;> simp [h, lastEnd]
  | cons x xs ih =>
    simp only [cons_append, lastEnd, ih]
    cases lastEnd t ys with
    | some n => simp only [length_cons, Option.some.injEq]; omega
    | none => rfl

theorem lastEnd_clean {t : α} (clean : t ∉ xs) : lastEnd t xs = none := by
  induction xs with
  | nil => rfl
  | cons x xs ih =>
    have other : x ≠ t := by
      rintro rfl
      simp at clean
    simp [lastEnd, ih fun member => clean (by simp [member]), other]

/-- The last terminator of a stream ends its last record, whatever incomplete tail follows. -/
theorem lastEnd_frame {t : α} {records : List (List α)} {tail : List α} (nonempty : records ≠ [])
    (clean : t ∉ tail) : lastEnd t (frame t records ++ tail) = some (frame t records).length := by
  obtain ⟨front, last, rfl⟩ : ∃ front last, records = front ++ [last] :=
    ⟨_, _, (dropLast_append_getLast nonempty).symm⟩
  have whole : frame t (front ++ [last]) = frame t front ++ last ++ [t] := by simp [frame]
  rw [lastEnd_append, lastEnd_clean clean, whole, lastEnd_append]
  simp [lastEnd]
  omega

/-! ### Reading backward -/

/-- The pieces between terminators; a stream that ends with one has an empty last piece. -/
@[simp] def pieces (t : α) : List α → List (List α)
  | [] => [[]]
  | x :: xs =>
    if x = t then [] :: pieces t xs
    else match pieces t xs with
      | [] => [[x]]
      | piece :: rest => (x :: piece) :: rest

theorem pieces_ne_nil (t : α) (xs : List α) : pieces t xs ≠ [] := by
  cases xs with
  | nil => simp
  | cons x xs =>
    rw [pieces]
    split
    · simp
    · split <;> simp

/-- A terminator separates: the pieces before it and the pieces behind it. -/
theorem pieces_append (t : α) (xs ys : List α) :
    pieces t (xs ++ t :: ys) = pieces t xs ++ pieces t ys := by
  induction xs with
  | nil => simp
  | cons x xs ih =>
    simp only [cons_append, pieces, ih]
    split
    · simp
    · cases found : pieces t xs with
      | nil => exact absurd found (pieces_ne_nil t xs)
      | cons piece rest => simp

theorem pieces_clean {t : α} (clean : t ∉ xs) : pieces t xs = [xs] := by
  induction xs with
  | nil => rfl
  | cons x xs ih =>
    have other : x ≠ t := by
      rintro rfl
      simp at clean
    simp [other, ih fun member => clean (by simp [member])]

theorem pieces_frame {t : α} {records : List (List α)} (clean : ∀ r ∈ records, t ∉ r) :
    pieces t (frame t records) = records ++ [[]] := by
  induction records with
  | nil => rfl
  | cons r records ih =>
    rw [frame_cons, pieces_append, pieces_clean (clean r (by simp)),
      ih (forall_mem_cons.mp clean).2]
    rfl

/-- Cuts at the first terminator: what lies before it and what lies behind it. -/
def cutFirst (t : α) : List α → Option (List α × List α)
  | [] => none
  | x :: xs => if x = t then some ([], xs) else (cutFirst t xs).map fun (a, b) => (x :: a, b)

theorem cutFirst_some {t : α} {a b : List α} (cut : cutFirst t xs = some (a, b)) :
    xs = a ++ t :: b := by
  induction xs generalizing a with
  | nil => cases cut
  | cons x xs ih =>
    rw [cutFirst] at cut
    split at cut
    · next same => cases cut; simp [same]
    · obtain ⟨⟨a', b'⟩, inner, equal⟩ := Option.map_eq_some_iff.mp cut
      cases equal
      simp [ih inner]

end Astrcode.Library
