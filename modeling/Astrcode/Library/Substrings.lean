import Mathlib.Data.List.Infix

/-!
# Cutting a list at the occurrences of another

Occurrences of a pattern are looked for from the left, each after the end of the one before, so
they never overlap. `splitAt` is the scan and `CutAt` says what its pieces are; `occurrences`
counts every place at which the pattern begins.
-/
namespace Astrcode.Library.Substrings

open List

variable {α : Type} {pattern : List α}

/-- The pieces between the occurrences of a pattern. The first `skip` elements belong to an
occurrence that has been found. -/
def splitAt [DecidableEq α] (pattern : List α) : Nat → List α → List (List α)
  | _, [] => [[]]
  | skip + 1, _ :: rest => splitAt pattern skip rest
  | 0, x :: rest =>
    if pattern.isPrefixOf (x :: rest) then [] :: splitAt pattern (pattern.length - 1) rest
    else (splitAt pattern 0 rest).modifyHead (x :: ·)

/-- The pieces of a list around the occurrences of a pattern: before the end of an occurrence
the pattern does not occur in full, and it does not occur in the last piece. -/
inductive CutAt (pattern : List α) : List α → List (List α) → Prop
  | last {text : List α} (absent : ¬ pattern <:+: text) : CutAt pattern text [text]
  | next {before after : List α} {pieces : List (List α)}
      (first : ¬ pattern <:+: before ++ pattern.dropLast) (rest : CutAt pattern after pieces) :
      CutAt pattern (before ++ pattern ++ after) (before :: pieces)

private theorem dropLast_part (before after : List α) :
    before ++ pattern.dropLast <+: before ++ pattern ++ after := by
  have part : pattern.dropLast <+: pattern := dropLast_prefix pattern
  rw [append_assoc]
  exact (prefix_append_right_inj before).mpr (part.trans (prefix_append _ _))

theorem CutAt.cons {text : List α} {pieces : List (List α)} {x : α}
    (cut : CutAt pattern text pieces) (here : ¬ pattern <+: x :: text) :
    CutAt pattern (x :: text) (pieces.modifyHead (x :: ·)) := by
  cases cut with
  | last absent => exact .last (by simp [infix_cons_iff, here, absent])
  | @next before after pieces first rest =>
    apply @CutAt.next α pattern (x :: before) after pieces _ rest
    rw [cons_append, infix_cons_iff]
    rintro (start | later)
    · -- the pattern would already begin at `x`, inside the text
      exact here (start.trans ((prefix_cons_inj x).mpr (dropLast_part before after)))
    · exact first later

theorem cut_splitAt [DecidableEq α] (nonempty : pattern ≠ []) (skip : Nat) (text : List α) :
    CutAt pattern (text.drop skip) (splitAt pattern skip text) := by
  induction text generalizing skip with
  | nil => simpa [splitAt] using CutAt.last (by simpa using nonempty)
  | cons x rest ih =>
    cases skip with
    | succ skip => simpa [splitAt] using ih skip
    | zero =>
      rw [splitAt]
      split
      · next found =>
        obtain ⟨after, whole⟩ := isPrefixOf_iff_prefix.mp found
        -- the scan goes on after the occurrence
        have later : rest.drop (pattern.length - 1) = after := by
          have longer : pattern.length = pattern.length - 1 + 1 := by
            have := length_pos_iff.mpr nonempty
            omega
          have dropped := congrArg (drop pattern.length) whole
          rw [drop_left, longer, drop_succ_cons] at dropped
          exact dropped.symm
        rw [drop_zero, ← whole]
        apply @CutAt.next α pattern [] after _ _ (later ▸ ih _)
        intro inside
        have := inside.length_le
        have := length_pos_iff.mpr nonempty
        simp at *
        omega
      · next missed => exact (ih 0).cons fun start =>
          missed <| isPrefixOf_iff_prefix.mpr start

/-! ### Overlapping occurrences -/

/-- The number of places at which a pattern begins. -/
def occurrences [DecidableEq α] (pattern text : List α) : Nat :=
  text.tails.countP (pattern.isPrefixOf ·)

variable [DecidableEq α]

theorem occurrences_cons (pattern : List α) (x : α) (text : List α) :
    occurrences pattern (x :: text) =
      occurrences pattern text + if pattern <+: x :: text then 1 else 0 := by
  simp [occurrences, countP_cons]

theorem occurrences_eq_zero_iff (pattern text : List α) :
    occurrences pattern text = 0 ↔ ¬ pattern <:+: text := by
  simp [occurrences, infix_iff_prefix_suffix, imp.swap]

/-- Behind the first occurrence of a pattern every other one begins after its first element. -/
theorem occurrences_around (nonempty : pattern ≠ []) {before : List α} (after : List α)
    (first : ¬ pattern <:+: before ++ pattern.dropLast) :
    occurrences pattern (before ++ pattern ++ after) =
      occurrences pattern (pattern.tail ++ after) + 1 := by
  induction before with
  | nil =>
    obtain ⟨x, rest, rfl⟩ := exists_cons_of_ne_nil nonempty
    simp [occurrences_cons]
  | cons y before ih =>
    have later : ¬ pattern <:+: before ++ pattern.dropLast := fun inside =>
      first (inside.trans (suffix_cons y _).isInfix)
    have here : ¬ pattern <+: y :: (before ++ pattern ++ after) := by
      intro start
      have short : y :: before ++ pattern.dropLast <+: y :: (before ++ pattern ++ after) :=
        dropLast_part (y :: before) after
      refine first (prefix_of_prefix_length_le start short ?_).isInfix
      simp only [cons_append, length_cons, length_append, length_dropLast]
      omega
    rw [cons_append, cons_append, occurrences_cons, if_neg here, ih later]

end Astrcode.Library.Substrings
