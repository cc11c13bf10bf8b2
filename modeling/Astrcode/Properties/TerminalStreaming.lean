import Astrcode.Cli.StreamController
import Mathlib.Data.List.Basic

/-!
# Deltas and the lines of the terminal

Wrapping distributes over the cuts at line ends, so that it should not matter in which deltas a
text arrives. It does matter for an empty line: a delta that completes nothing else loses it.
-/
namespace Astrcode

open List

/-! ### Cuts at the last line end -/

/-- The lines of a text that are complete, and the one that is not. -/
def cutLines (text : List Char) : List Char × List Char :=
  (['\n'].intercalate (text.splitOn '\n').dropLast, (text.splitOn '\n').getLastD [])

private theorem splitOn_clean {text : List Char} (clean : '\n' ∉ text) :
    text.splitOn '\n' = [text] := by
  refine splitOnP_eq_singleton fun c member => ?_
  simpa using fun same : c = '\n' => clean (same ▸ member)

private theorem cutLines_clean {text : List Char} (clean : '\n' ∉ text) :
    cutLines text = ([], text) := by
  simp [cutLines, splitOn_clean clean]

private theorem cutLines_append {complete last : List Char} (clean : '\n' ∉ last) :
    cutLines (complete ++ '\n' :: last) = (complete, last) := by
  simp [cutLines, splitOn_append_cons_self, splitOn_clean clean, intercalate_splitOn]

/-- Every text with a line end has a last one. -/
private theorem exists_cut {text : List Char} (ends : '\n' ∈ text) :
    ∃ complete last, text = complete ++ '\n' :: last ∧ '\n' ∉ last := by
  obtain ⟨later, before, whole, clean⟩ := eq_append_cons_of_mem (mem_reverse.mpr ends)
  refine ⟨before.reverse, later.reverse, ?_, by simpa using clean⟩
  rw [← reverse_reverse text, whole]
  simp

private theorem joined_lines (complete next rest : List Char) :
    complete ++ '\n' :: (next ++ '\n' :: rest) = (complete ++ '\n' :: next) ++ '\n' :: rest := by
  simp

private theorem cutLines_snd_clean (text : List Char) : '\n' ∉ (cutLines text).2 := by
  by_cases ends : '\n' ∈ text
  · obtain ⟨complete, last, rfl, clean⟩ := exists_cut ends
    rwa [cutLines_append clean]
  · rwa [cutLines_clean ends]

/-! ### Wrapping -/

section Wrapping

variable (charWidth : CharWidth) (width : Nat)

private theorem layoutFrom_append (current : List Char) (used : Nat) (first second : List Char) :
    layoutFrom charWidth width current used (first ++ '\n' :: second) =
      layoutFrom charWidth width current used first ++ layoutFrom charWidth width [] 0 second := by
  induction first generalizing current used with
  | nil => simp [layoutFrom]
  | cons ch first ih =>
    simp only [cons_append, layoutFrom, ih]
    split_ifs <;> rfl

private theorem visualLines_append (first second : List Char) :
    visualLines charWidth width (first ++ '\n' :: second) =
      visualLines charWidth width first ++ visualLines charWidth width second := by
  unfold visualLines
  split
  · rfl
  · exact layoutFrom_append charWidth width [] 0 first second

/-! ### Streams -/

/-- The last lines of a stream. -/
private def finalLines (text : List Char) : List (List Char) :=
  if trimChars text = [] then [] else visualLines charWidth width text

private def committed (complete : List Char) : List (List Char) :=
  if complete = [] then [] else visualLines charWidth width complete

/-- The lines of a stream after some text, for pending text without a line end. -/
private def emitted (pending : List Char) : List (List Char) → List (List Char)
  | [] => finalLines charWidth width pending
  | delta :: later =>
    let (complete, last) := cutLines (pending ++ delta)
    committed charWidth width complete ++ emitted last later

/-- The lines of a text that loses none. -/
private def allLines (text : List Char) : List (List Char) :=
  (if '\n' ∈ text then visualLines charWidth width (cutLines text).1 else []) ++
    finalLines charWidth width (cutLines text).2

/-- How many deltas complete an empty line and nothing else, after some text without a line
end. -/
def blankCommits (pending : List Char) : List (List Char) → Nat
  | [] => 0
  | delta :: later =>
    let (complete, last) := cutLines (pending ++ delta)
    (if '\n' ∈ delta ∧ complete = [] then 1 else 0) + blankCommits last later

end Wrapping

variable {charWidth : CharWidth} {width : Nat}

private theorem allLines_append (complete last : List Char) :
    allLines charWidth width (complete ++ '\n' :: last) =
      visualLines charWidth width complete ++ allLines charWidth width last := by
  by_cases later : '\n' ∈ last
  · obtain ⟨next, rest, rfl, clean⟩ := exists_cut later
    rw [joined_lines, allLines, allLines, cutLines_append clean, cutLines_append clean,
      visualLines_append]
    simp
  · simp [allLines, cutLines_append later, cutLines_clean later, later]

/-- Only the empty lines that were completed alone are missing. -/
private theorem emitted_lines (positive : width ≠ 0) {pending : List Char} (clean : '\n' ∉ pending)
    (deltas : List (List Char)) :
    (emitted charWidth width pending deltas).length + blankCommits pending deltas =
        (allLines charWidth width (pending ++ deltas.flatten)).length ∧
      (blankCommits pending deltas = 0 →
        emitted charWidth width pending deltas =
          allLines charWidth width (pending ++ deltas.flatten)) := by
  induction deltas generalizing pending with
  | nil => simp [emitted, blankCommits, allLines, cutLines_clean clean, clean]
  | cons delta deltas ih =>
    by_cases ends : '\n' ∈ delta
    · obtain ⟨complete, last, whole, tail⟩ := exists_cut (mem_append_right pending ends)
      obtain ⟨lengths, same⟩ := ih tail
      have lines : allLines charWidth width (pending ++ (delta :: deltas).flatten) =
          visualLines charWidth width complete ++
            allLines charWidth width (last ++ deltas.flatten) := by
        rw [← allLines_append, flatten_cons, ← append_assoc, whole, append_assoc, cons_append]
      simp only [emitted, blankCommits, whole, cutLines_append tail, lines, ends, true_and]
      by_cases blank : complete = []
      · -- the line is in the text and was never queued
        simp only [blank, committed, visualLines, layoutFrom, positive, if_true, if_false,
          nil_append, length_append, length_singleton]
        exact ⟨by omega, by omega⟩
      · simp only [blank, committed, if_false, Nat.zero_add, length_append, append_cancel_left_eq]
        exact ⟨by omega, same⟩
    · have plain : '\n' ∉ pending ++ delta := by simp [clean, ends]
      simpa [emitted, blankCommits, cutLines_clean plain, committed, ends] using ih plain

private theorem emitted_single {pending : List Char} (clean : '\n' ∉ pending)
    {deltas : List (List Char)} (few : deltas.flatten.count '\n' ≤ 1) :
    emitted charWidth width pending deltas =
      emitted charWidth width pending [deltas.flatten] := by
  induction deltas generalizing pending with
  | nil => simp [emitted, cutLines_clean clean, committed]
  | cons delta deltas ih =>
    rw [flatten_cons, count_append] at few
    by_cases ends : '\n' ∈ delta
    · have rest : '\n' ∉ deltas.flatten := by
        have := count_pos_iff.mpr ends
        exact count_eq_zero.mp (by omega)
      obtain ⟨complete, last, whole, tail⟩ := exists_cut (mem_append_right pending ends)
      have after : '\n' ∉ last ++ deltas.flatten := by simp [tail, rest]
      rw [emitted, whole, cutLines_append tail]
      simp only [ih tail (by omega), emitted, flatten_cons, ← append_assoc, whole]
      rw [append_assoc complete, cons_append, cutLines_append after, cutLines_clean after]
      simp [committed]
    · have plain : '\n' ∉ pending ++ delta := by simp [clean, ends]
      rw [emitted, cutLines_clean plain]
      simp [ih plain (by omega), emitted, committed]

namespace StreamController

variable {controller : StreamController}

private theorem pushDelta_snd (clean : '\n' ∉ controller.pending) (delta : List Char) :
    (controller.pushDelta charWidth delta).2 =
      let (complete, last) := cutLines (controller.pending ++ delta)
      ⟨⟨controller.state.queuedLines ++ committed charWidth (controller.width.getD 120) complete,
        controller.state.hasSeenDelta || !delta.isEmpty⟩, last, controller.width⟩ := by
  by_cases empty : delta = []
  · simp [pushDelta, empty, cutLines_clean clean, committed]
  by_cases ends : '\n' ∈ delta
  · simp only [pushDelta, empty, if_false, ends, if_true, commitCompleteLines, committed, cutLines,
      renderText, StreamState.enqueue]
    split_ifs <;> simp_all
  · simp [pushDelta, empty, ends, cutLines_clean, clean, committed]

private theorem streamed_eq (clean : '\n' ∉ controller.pending) (completedText : List Char)
    (deltas : List (List Char × Nat)) :
    controller.streamed charWidth completedText deltas = controller.state.queuedLines ++
      if controller.state.hasSeenDelta = true ∨ (deltas.map Prod.fst).flatten ≠ [] then
        emitted charWidth (controller.width.getD 120) controller.pending (deltas.map Prod.fst)
      else finalLines charWidth (controller.width.getD 120)
        (controller.pending ++ completedText) := by
  induction deltas generalizing controller with
  | nil =>
    simp only [streamed, finalize, map_nil, emitted, finalLines, renderText, StreamState.enqueue]
    split_ifs <;> simp_all
  | cons first later ih =>
    obtain ⟨delta, maxLines⟩ := first
    -- what is drained now is not drained later
    simp only [streamed, pushDelta_snd clean, StreamState.drainN]
    rw [ih (cutLines_snd_clean _), ← append_assoc, take_append_drop, append_assoc]
    rcases eq_or_ne delta [] with rfl | visible
    · simp only [map_cons, emitted, append_nil, cutLines_clean clean, committed, if_true, nil_append]
      exact congrArg _ (if_congr (by simp) rfl rfl)
    · simp [emitted, visible]

/-- The deltas of a text make no difference to its lines exactly if the text has at most one line
end or no delta completes an empty line alone. -/
theorem streamed_same_iff (charWidth : CharWidth) {width : Option Nat} (positive : width ≠ some 0)
    (completedText : List Char) (deltas : List (List Char × Nat)) (maxLines : Nat) :
    streamed charWidth { width } completedText deltas =
        streamed charWidth { width } completedText
          [((deltas.map Prod.fst).flatten, maxLines)] ↔
      (deltas.map Prod.fst).flatten.count '\n' ≤ 1 ∨
        blankCommits [] (deltas.map Prod.fst) = 0 := by
  have wide : width.getD 120 ≠ 0 := by cases width <;> simp_all
  rw [streamed_eq not_mem_nil, streamed_eq not_mem_nil]
  generalize deltas.map Prod.fst = texts
  simp only [map_cons, map_nil, flatten_cons, flatten_nil, append_nil, nil_append]
  by_cases empty : texts.flatten = []
  · simp [empty]
  rw [if_pos (.inr empty), if_pos (.inr empty)]
  by_cases few : texts.flatten.count '\n' ≤ 1
  · exact iff_of_true (emitted_single not_mem_nil few) (.inl few)
  -- with two line ends or more the single delta completes more than an empty line
  obtain ⟨complete, last, whole, tail⟩ :=
    exists_cut (count_pos_iff.mp (by omega) : '\n' ∈ texts.flatten)
  have full : blankCommits [] [texts.flatten] = 0 := by
    rw [whole, count_append, count_cons_self, count_eq_zero.mpr tail] at few
    have lines : complete ≠ [] := by
      rintro rfl
      simp at few
    rw [blankCommits, nil_append, whole, cutLines_append tail]
    simp [lines, blankCommits]
  have single := (@emitted_lines charWidth _ wide [] not_mem_nil [texts.flatten]).2 full
  obtain ⟨lengths, same⟩ := @emitted_lines charWidth _ wide [] not_mem_nil texts
  simp only [flatten_cons, flatten_nil, append_nil, nil_append] at single lengths same
  rw [single]
  refine ⟨fun equal => .inr ?_, fun alone => same (alone.resolve_left few)⟩
  rw [equal] at lengths
  omega

/-- A line in two deltas, the first of which ends the line before it. -/
theorem streamed_same_line :
    streamed (fun _ => some 1) { width := some 2 } [] [("a\nb".toList, 1), ("cd\n".toList, 0)] =
      streamed (fun _ => some 1) { width := some 2 } [] [("a\nbcd\n".toList, 0)] :=
  (streamed_same_iff (fun _ => some 1) (by simp) [] [("a\nb".toList, 1), ("cd\n".toList, 0)] 0).mpr
    (.inr (by decide))

/-- The second delta ends an empty line, which is lost. -/
theorem streamed_loses_blank_line :
    streamed (fun _ => some 1) { width := none } [] [("x\n".toList, 0), ("\ny".toList, 0)] =
        [['x'], ['y']] ∧
      streamed (fun _ => some 1) { width := none } [] [("x\n\ny".toList, 0)] =
        [['x'], [], ['y']] := by
  decide +kernel

end StreamController

end Astrcode
