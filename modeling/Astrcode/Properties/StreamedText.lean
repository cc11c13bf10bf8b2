import Astrcode.Ai.Streaming

/-!
# Streamed text

What arrives in pieces is passed on whole. The accumulator of text deltas cannot tell a fragment
that repeats the beginning of the text from an old snapshot: it drops the second fragment when
that is a prefix of the first. Every other stream of fragments, and every chain of snapshots, is
reproduced.
-/
namespace Astrcode

open List

namespace TextDeltaAccumulator

variable {state : TextDeltaAccumulator} {first second : List Char}

/-- What is passed on is never longer than what was received. -/
private theorem deltas_length_le (state : TextDeltaAccumulator) (fragments : List (List Char)) :
    (state.deltas fragments).flatten.length ≤ fragments.flatten.length := by
  induction fragments generalizing state with
  | nil => simp [deltas]
  | cons fragment rest ih =>
    have delta : (state.push fragment).1.toList.flatten.length ≤ fragment.length := by
      unfold push
      split_ifs <;> simp
    have later := ih (state.push fragment).2
    simp only [deltas, flatten_append, flatten_cons, length_append]
    omega

/-- Once a true increment was seen, every fragment is passed on as it is. -/
private theorem deltas_confirmed (confirmed : state.incrementalConfirmed = true)
    (fragments : List (List Char)) :
    (state.deltas fragments).flatten = fragments.flatten := by
  induction fragments generalizing state with
  | nil => rfl
  | cons fragment rest ih =>
    by_cases empty : fragment = []
    · simp [deltas, push, empty, ih confirmed]
    · simp [deltas, push, empty, confirmed, ih]

private theorem push_first (visible : first ≠ []) : push {} first = (some first, ⟨first, false⟩) := by
  simp [push, visible]

/-- A snapshot passes on what it has beyond the one before it. -/
private theorem push_snapshot (grown : first <+: second ∧ first.length < second.length) :
    push ⟨first, false⟩ second = (some (second.drop first.length), ⟨second, false⟩) := by
  have visible : second ≠ [] := ne_nil_of_length_pos (by omega)
  by_cases empty : first = []
  · simp [push, visible, empty]
  · simp [push, visible, empty, grown.1, not_le.mpr grown.2]

private theorem deltas_snapshots {snapshots : List (List Char)}
    (chain : (first :: snapshots).IsChain fun a b => a <+: b ∧ a.length < b.length) :
    some (first ++ (deltas ⟨first, false⟩ snapshots).flatten) =
      (first :: snapshots).getLast? := by
  induction snapshots generalizing first with
  | nil => simp [deltas]
  | cons second rest ih =>
    obtain ⟨grown, chain⟩ := isChain_cons_cons.mp chain
    obtain ⟨more, rfl⟩ := grown.1
    have later := ih chain
    simpa [deltas, push_snapshot grown] using later

/-- No fragment behind the first starts with all the text before it and goes on beyond it, so that
none can be a longer snapshot. -/
abbrev Incremental (fragments : List (List Char)) : Prop :=
  ∀ i : Fin fragments.length, 0 < i.val → ¬((fragments.take i).flatten <+: fragments[i] ∧
    (fragments.take i).flatten.length < fragments[i].length)

private theorem fragments_reproduced_iff {fragments : List (List Char)} (visible : [] ∉ fragments)
    (incremental : Incremental fragments) :
    (deltas {} fragments).flatten = fragments.flatten ↔
      ∀ first second rest, fragments = first :: second :: rest → ¬second <+: first := by
  rcases fragments with _ | ⟨first, _ | ⟨second, rest⟩⟩
  · simp [deltas]
  · simp_all [deltas, push_first]
  · simp only [mem_cons, not_or] at visible
    obtain ⟨firstVisible, secondVisible, -⟩ := visible
    by_cases stale : second <+: first
    · -- the second fragment is dropped, and nothing makes up for it
      have dropped : push ⟨first, false⟩ second = (none, ⟨first, false⟩) := by
        grind [push]
      have short := deltas_length_le ⟨first, false⟩ rest
      have positive := length_pos_of_ne_nil (Ne.symm secondVisible)
      refine iff_of_false (fun same => ?_) fun fresh => fresh first second rest rfl stale
      have lengths := congrArg length same
      simp [deltas, push_first (Ne.symm firstVisible), dropped] at lengths short
      omega
    · have noSnapshot : ¬first <+: second := by
        intro start
        have short := incremental ⟨1, by simp⟩ (by simp)
        have same := start.eq_of_length_le (by simpa [start] using short)
        exact stale (same ▸ prefix_rfl)
      have confirmed : push ⟨first, false⟩ second = (some second, ⟨first ++ second, true⟩) := by
        grind [push]
      refine iff_of_true ?_ fun a b c same => ?_
      · simp [deltas, push_first (Ne.symm firstVisible), confirmed, deltas_confirmed]
      · cases same
        exact stale

private theorem snapshots_reproduced {snapshots : List (List Char)}
    (chain : snapshots.IsChain fun a b => a <+: b ∧ a.length < b.length) :
    (deltas {} snapshots).flatten = snapshots.getLast?.getD [] := by
  cases snapshots with
  | nil => rfl
  | cons first rest =>
    have later := deltas_snapshots chain
    by_cases empty : first = []
    · subst empty
      simp [deltas, push, ← later]
    · simp [deltas, push_first empty, ← later]

/-- Fragments none of which can be a longer snapshot are reproduced exactly when the second one is
no prefix of the first; growing snapshots are always reproduced. -/
theorem text_reproduced_iff (fragments snapshots : List (List Char)) :
    ([] ∉ fragments → Incremental fragments →
      ((deltas {} fragments).flatten = fragments.flatten ↔
        ∀ first second rest, fragments = first :: second :: rest → ¬second <+: first)) ∧
    ((snapshots.IsChain fun a b => a <+: b ∧ a.length < b.length) →
      (deltas {} snapshots).flatten = snapshots.getLast?.getD []) :=
  ⟨fragments_reproduced_iff, snapshots_reproduced⟩

theorem greeting_reproduced :
    (deltas {} [['h', 'a'], ['l', 'l', 'o']]).flatten = ['h', 'a', 'l', 'l', 'o'] ∧
      (deltas {} [['h'], ['h', 'i']]).flatten = ['h', 'i'] := by
  obtain ⟨fragments, snapshots⟩ :=
    text_reproduced_iff [['h', 'a'], ['l', 'l', 'o']] [['h'], ['h', 'i']]
  refine ⟨(fragments (by decide) (by decide)).mpr fun first second rest same => ?_,
    snapshots (by decide)⟩
  cases same
  decide

/-- The text `haha!`. -/
private def laughter : List (List Char) := [['h', 'a'], ['h', 'a'], ['!']]

theorem repeated_fragment_lost :
    [] ∉ laughter ∧ Incremental laughter ∧
      (deltas {} laughter).flatten = ['h', 'a', '!'] := by
  decide

end TextDeltaAccumulator

end Astrcode
