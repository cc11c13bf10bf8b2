import Astrcode.Extensions.Patch

/-!
# A patch touches only what its plan declared

The analysis of paths skips every line that is no file header; the parser of the host
stops at every such header, also inside a hunk. Whatever the lines between two headers
hold, both scanners therefore find the same headers, in the same order.
-/
namespace Astrcode

open Library (bind_ok_iff)

/-! ### Lines between headers -/

private theorem stripPrefix_none_iff {start line : List Char} :
    stripPrefix start line = none ↔ start.isPrefixOf line = false := by
  unfold stripPrefix
  cases start.isPrefixOf line <;> simp

/-- The analysis passes over every line that is no header. -/
private theorem analyzeLines_other {line : Line} (rest : List Line)
    (other : stripPrefix "--- ".toList line = none) :
    analyzeLines (line :: rest) = analyzeLines rest := by
  rw [analyzeLines]
  split
  · rfl
  · rw [other]

/-- Whatever the parser takes as the body of a section names no file for the analysis. -/
private theorem analyzeLines_body {current : Option Hunk} {input remaining : List Line}
    {hunks : List Hunk} (parsed : parseHunks current input = .ok (hunks, remaining)) :
    analyzeLines input = analyzeLines remaining := by
  induction input generalizing current hunks with
  | nil =>
    cases parsed
    rfl
  | cons line input ih =>
    unfold parseHunks at parsed
    by_cases ends : endsSection line = true
    · rw [if_pos ends] at parsed
      cases parsed
      rfl
    · rw [if_neg ends] at parsed
      have other : stripPrefix "--- ".toList line = none := by
        rw [stripPrefix_none_iff]
        simp only [endsSection, Bool.or_eq_true, not_or, Bool.not_eq_true] at ends
        exact ends.1
      rw [analyzeLines_other input other]
      split at parsed
      · obtain ⟨start, -, parsed⟩ := bind_ok_iff.mp parsed
        obtain ⟨⟨inner, rest⟩, body, done⟩ := bind_ok_iff.mp parsed
        cases done
        exact ih body
      · exact ih parsed

/-! ### Whole patches -/

/-- A section the host accepts is a header for the analysis, and nothing more. -/
private theorem analyzeLines_header {line : Line} {oldPath : List Char} {rest remaining : List Line}
    {patch : FilePatch} {paths : List WorkspacePatchPaths} (read : ¬ skippedLine line = true)
    (header : stripPrefix "--- ".toList line = some oldPath)
    (parsed : parseFileSection oldPath rest = .ok (patch, remaining))
    (named : patch.oldPath.isSome ∨ patch.newPath.isSome)
    (others : analyzeLines remaining = .ok paths) :
    analyzeLines (line :: rest) = .ok (patch.paths :: paths) := by
  obtain ⟨next, body, newPath, old, new, hunks, rfl, newHeader, oldOk, newOk, parsed', rfl⟩ :=
    parseFileSection_ok parsed
  have real : ¬ ((realPath old).isNone && (realPath new).isNone) = true := by
    rw [Bool.and_eq_true, not_and_or]
    simpa only [Bool.not_eq_true, Option.isNone_eq_false_iff] using named
  rw [analyzeLines, if_neg read, header]
  simp only [newHeader]
  refine bind_ok_iff.mpr ⟨old, oldOk, bind_ok_iff.mpr ⟨new, newOk, ?_⟩⟩
  rw [if_neg real, analyzeLines_body parsed', others]
  rfl

private theorem analyzeLines_sections (input : List Line) {patches : List FilePatch}
    (parsed : parseFileSections input = .ok patches)
    (named : ∀ patch ∈ patches, patch.oldPath.isSome ∨ patch.newPath.isSome) :
    analyzeLines input = .ok (patches.map FilePatch.paths) := by
  fun_induction parseFileSections input generalizing patches with
  | case1 =>
    cases parsed
    rfl
  | case2 line rest skipped ih =>
    rw [analyzeLines, if_pos skipped]
    exact ih parsed named
  | case3 | case4 => cases parsed
  | case5 line rest read oldPath header patch remaining accepted ih =>
    obtain ⟨others, othersOk, done⟩ := bind_ok_iff.mp parsed
    cases done
    have rest' := ih othersOk (List.forall_mem_cons.mp named).2
    exact analyzeLines_header read header accepted (named patch List.mem_cons_self) rest'

/-- For every patch the host accepts, the analysis finds the files of its sections: the same
pairs of paths in the same order. -/
theorem analyze_finds_host_sections {patch : String} {sections : List FilePatch}
    (accepted : parsePatch patch = .ok sections)
    (named : ∀ part ∈ sections, part.oldPath.isSome ∨ part.newPath.isSome) :
    analyzeUnifiedDiffPaths patch = .ok (sections.map FilePatch.paths) := by
  unfold parsePatch at accepted
  unfold analyzeUnifiedDiffPaths
  split at accepted
  · cases accepted
  · next visible =>
    obtain ⟨patches, parsed, accepted⟩ := bind_ok_iff.mp accepted
    split at accepted
    · cases accepted
    · next some =>
      cases accepted
      rw [if_neg visible]
      refine bind_ok_iff.mpr ⟨_, analyzeLines_sections _ parsed named, ?_⟩
      rw [List.isEmpty_map, if_neg some]

/-! A patch with metadata, a note about the final newline, and a header that ends a hunk. -/

def samplePatch : String :=
  "diff --git a/x b/x\nindex 1..2\n--- a/x\n+++ b/x\n@@ -1 +1 @@\n-old\n+new\n\\ No newline\n" ++
  "--- /dev/null\n+++ b/y\n@@ -0,0 +1 @@\n+++ z\n"

theorem samplePatch_analyzed :
    parsePatch samplePatch = .ok
      [⟨some "x", some "x", [⟨1, [.delete "old".toList, .add "new".toList]⟩]⟩,
        ⟨none, some "y", [⟨0, [.add "++ z".toList]⟩]⟩] ∧
    analyzeUnifiedDiffPaths samplePatch = .ok [⟨some "x", some "x"⟩, ⟨none, some "y"⟩] := by
  have parsed : parsePatch samplePatch = .ok
      [⟨some "x", some "x", [⟨1, [.delete "old".toList, .add "new".toList]⟩]⟩,
        ⟨none, some "y", [⟨0, [.add "++ z".toList]⟩]⟩] := by
    decide +kernel
  exact ⟨parsed, analyze_finds_host_sections parsed (by decide)⟩

end Astrcode
