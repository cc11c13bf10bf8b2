import Astrcode.Properties.PatchHunks

/-!
# What a patch leaves alone

A file is taken apart into lines and put together again with one line ending, a carriage return
with a newline if there is one anywhere in the file. A line that no hunk touches keeps its text.
It keeps its own ending as well where all lines have the same one.
-/
namespace Astrcode

open List

variable {ending : LineEnding} {current line : Line} {content : List Char} {lines : List Line}

/-- Every line that is ended has this ending. -/
def OneEnding (ending : LineEnding) (text : List Char) : Prop :=
  ∀ before after, text = before ++ '\n' :: after →
    (before.getLast? = some '\r' ↔ ending = .crlf)

private theorem linesFrom_eq_nil_iff :
    linesFrom current content = [] ↔ current = [] ∧ content = [] := by
  induction content generalizing current with
  | nil => simp
  | cons c cs ih => by_cases newline : c = '\n' <;> simp [newline, ih]

private theorem renderDocument_cons (trailingNewline : Bool) (more : lines ≠ []) :
    renderDocument (line :: lines) ending trailingNewline =
      line ++ ending.asStr ++ renderDocument lines ending trailingNewline := by
  obtain ⟨next, rest, rfl⟩ := exists_cons_of_ne_nil more
  cases trailingNewline <;> simp [intercalate_cons_cons]

/-- Taking a text with one line ending apart loses nothing. -/
private theorem renderDocument_linesFrom (uniform : OneEnding ending (current ++ content)) :
    renderDocument (linesFrom current content) ending (content.getLast? = some '\n') =
      current ++ content := by
  induction content generalizing current with
  | nil => by_cases empty : current = [] <;> simp [intercalate, empty]
  | cons c cs ih =>
    by_cases newline : c = '\n'
    · subst newline
      have here := uniform current cs rfl
      have ended : (if current.getLast? = some '\r' then current.dropLast else current) ++
          ending.asStr = current ++ ['\n'] := by
        cases ending with
        | lf => rw [if_neg (by simp [here])]; rfl
        | crlf =>
          have last := here.mpr rfl
          rw [if_pos last]
          conv_rhs => rw [← dropLast_append_getLast? '\r' last]
          simp [LineEnding.asStr]
      have below : OneEnding ending ([] ++ cs) := by
        intro before after split
        have there := uniform (current ++ '\n' :: before) after (by simp [← split])
        -- an ending right behind another one is that of an empty line
        rw [← there]
        cases before <;> simp [getLast?_append]
      by_cases last : cs = []
      · subst last
        simpa [intercalate] using ended
      · have more : linesFrom [] cs ≠ [] := by simp [linesFrom_eq_nil_iff, last]
        rw [linesFrom, if_pos rfl, renderDocument_cons _ more, ended,
          getLast?_cons_of_ne_nil last, ih below]
        simp
    · have same : (c :: cs).getLast? = some '\n' ↔ cs.getLast? = some '\n' := by
        cases cs <;> simp [newline]
      have rest := @ih (current ++ [c]) (by simpa using uniform)
      simpa [newline, same] using rest

/-- Without an ending of its own, the last line ends as the text does. -/
private theorem linesFrom_getLast? (unended : content.getLast? ≠ some '\n')
    (nonempty : current ++ content ≠ []) :
    ∃ line, (linesFrom current content).getLast? = some line ∧
      line.getLast? = (current ++ content).getLast? := by
  induction content generalizing current with
  | nil => exact ⟨current, by simp_all [linesFrom], by simp⟩
  | cons c cs ih =>
    by_cases newline : c = '\n'
    · have more : cs ≠ [] := by
        rintro rfl
        exact unended (by rw [newline]; rfl)
      obtain ⟨line, last, same⟩ :=
        @ih [] (by rwa [getLast?_cons_of_ne_nil more] at unended) (by simpa)
      refine ⟨line, ?_, ?_⟩
      · rw [linesFrom, if_pos newline, getLast?_cons_of_ne_nil, last]
        simp [linesFrom_eq_nil_iff, more]
      · rw [same, getLast?_append_of_ne_nil _ (cons_ne_nil _ _), getLast?_cons_of_ne_nil more,
          nil_append]
    · obtain ⟨line, last, same⟩ := @ih (current ++ [c])
        (by cases cs <;> simp_all) (by simp)
      exact ⟨line, by rwa [linesFrom, if_neg newline], by simpa using same⟩

private theorem renderDocument_getLast? (last : lines.getLast? = some line) (nonempty : line ≠ []) :
    (renderDocument lines ending false).getLast? = line.getLast? := by
  induction lines with
  | nil => cases last
  | cons first rest ih =>
    by_cases more : rest = []
    · subst more
      cases last
      simp [intercalate]
    · rw [getLast?_cons_of_ne_nil more] at last
      rw [renderDocument_cons _ more, getLast?_append, ih last]
      cases found : line.getLast? with
      | none => exact absurd (getLast?_eq_none_iff.mp found) nonempty
      | some c => rfl

/-- A file with the same last line ends with a newline as before. -/
private theorem renderDocument_newline_iff (original : List Char)
    (same : lines.getLast? = (parseDocument original).lines.getLast?) :
    (renderDocument lines (parseDocument original).lineEnding
      (parseDocument original).hasTrailingNewline).getLast? = some '\n' ↔
        original.getLast? = some '\n' := by
  by_cases empty : original = []
  · subst empty
    obtain rfl : lines = [] := getLast?_eq_none_iff.mp same
    simp [intercalate]
  by_cases newline : original.getLast? = some '\n'
  · have more : lines ≠ [] := by
      rintro rfl
      exact empty (linesFrom_eq_nil_iff.mp (getLast?_eq_none_iff.mp same.symm)).2
    have last : ∀ ending : LineEnding, ending.asStr.getLast? = some '\n' := by
      rintro (_ | _) <;> rfl
    simp [parseDocument, newline, more, getLast?_append, last]
  · obtain ⟨line, last, ends⟩ := @linesFrom_getLast? [] original newline (by simpa)
    have nonempty : line ≠ [] := by
      rintro rfl
      exact empty (getLast?_eq_none_iff.mp ends.symm)
    have unended : (parseDocument original).hasTrailingNewline = false := by
      simp [parseDocument, newline]
    rw [unended, renderDocument_getLast? (same.trans last) nonempty, ends, nil_append]

/-- A patch for an existing file replaces lines by their text alone, and writes all of them with
one ending. A file whose lines all have this ending is written in the same way itself, so that
every line that is kept keeps its bytes. Whether there is a newline at the end of the file changes
only with its last line. -/
theorem patchContent_frame {patch : FilePatch} {original written : List Char}
    (patched : patchContent patch (some original) = .ok (some written)) :
    let document := parseDocument original
    ∃ found lines, found.map (·.2) = patch.hunks ∧ Replaced 0 document.lines found lines ∧
      written = renderDocument lines document.lineEnding document.hasTrailingNewline ∧
      (OneEnding document.lineEnding original →
        original = renderDocument document.lines document.lineEnding document.hasTrailingNewline) ∧
      (lines.getLast? = document.lines.getLast? →
        (written.getLast? = some '\n' ↔ original.getLast? = some '\n')) := by
  intro document
  obtain ⟨lines, applied, rest⟩ := Library.bind_ok_iff.mp patched
  obtain ⟨found, same, replaced⟩ := applyHunksFrom_replaced applied
  have rendered : written = renderDocument lines document.lineEnding document.hasTrailingNewline := by
    split at rest
    · split at rest <;> cases rest
    · cases rest
      rfl
  refine ⟨found, lines, same, replaced, rendered, fun uniform => ?_, fun last => ?_⟩
  · exact (@renderDocument_linesFrom _ [] _ uniform).symm
  · rw [rendered]
    exact renderDocument_newline_iff original last

def deletesSecond : FilePatch := ⟨some "file", some "file", [⟨2, [.delete ['b']]⟩]⟩

/-- The first line is not in the patch, and is written with the ending of the second. -/
theorem kept_line_ends_anew :
    patchContent deletesSecond (some "a\nb\r\n".toList) = .ok (some "a\r\n".toList) := by
  decide +kernel

theorem deletesSecond_frame :
    ∃ found lines, found.map (·.2) = deletesSecond.hunks ∧
      Replaced 0 [['a'], ['b']] found lines ∧ "a\r\n".toList = renderDocument lines .crlf true := by
  obtain ⟨found, lines, same, replaced, rendered, -⟩ :=
    @patchContent_frame deletesSecond "a\nb\r\n".toList "a\r\n".toList (by decide +kernel)
  exact ⟨found, lines, same, replaced, rendered⟩

end Astrcode
