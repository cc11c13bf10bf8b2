import Astrcode.Extensions.Patch

/-!
# Where the hunks of a patch act

Every hunk is looked for in the text that the hunks before it have left, upwards as well as
downwards. The lines it is found at are therefore lines of that text, and lines of the document
only as long as no hunk is found above the end of what the one before it has written.
-/
namespace Astrcode

open List

/-- The lines that a hunk leaves in the place of those it expects. -/
def Hunk.replacement (hunk : Hunk) : List Line :=
  hunk.lines.filterMap fun
    | .context text | .add text => some text
    | .delete _ => none

/-- Hunk after hunk, each at the position where it is found in the text left by those before it. -/
inductive Replaced : Int → List Line → List (Nat × Hunk) → List Line → Prop where
  | done (delta : Int) (text : List Line) : Replaced delta text [] text
  | next {delta : Int} {before after text result : List Line} {hunk : Hunk}
      {found : List (Nat × Hunk)} (split : text = before ++ hunk.expected ++ after)
      (position : findMatch text hunk (hunkAnchor hunk delta text.length) = some before.length)
      (rest : Replaced (delta + ((hunkCounts hunk).1 - (hunkCounts hunk).2))
        (before ++ hunk.replacement ++ after) found result) :
      Replaced delta text ((before.length, hunk) :: found) result

/-- Each hunk replaces a range of the document, the ranges disjoint and in ascending order. -/
inductive ReplacedInOrder : List Line → List Hunk → List Line → Prop where
  | done (text : List Line) : ReplacedInOrder text [] text
  | next (before : List Line) {after result : List Line} {hunk : Hunk} {hunks : List Hunk}
      (rest : ReplacedInOrder after hunks result) :
      ReplacedInOrder (before ++ hunk.expected ++ after) (hunk :: hunks)
        (before ++ hunk.replacement ++ result)

/-- No hunk is found above the end of what the hunk before it has written. -/
def Forwards : Nat → List (Nat × Hunk) → Prop
  | _, [] => True
  | floor, (position, hunk) :: found =>
    floor ≤ position ∧ Forwards (position + hunk.replacement.length) found

private theorem matchesAt_split {content expected : List Line} {position : Nat}
    (found : matchesAt content expected position = true) :
    ∃ before after, content = before ++ expected ++ after ∧ before.length = position := by
  simp only [matchesAt, Bool.and_eq_true, decide_eq_true_eq, isPrefixOf_iff_prefix] at found
  obtain ⟨inside, after, rest⟩ := found
  refine ⟨content.take position, after, ?_, length_take_of_le (by omega)⟩
  rw [append_assoc, rest, take_append_drop]

private theorem findMatch_split {content : List Line} {hunk : Hunk} {anchor position : Nat}
    (found : findMatch content hunk anchor = some position) :
    ∃ before after, content = before ++ hunk.expected ++ after ∧ before.length = position := by
  simp only [findMatch] at found
  split at found
  · next empty =>
    cases found
    refine ⟨content.take (min anchor content.length), content.drop (min anchor content.length), ?_,
      by simp⟩
    simp [isEmpty_iff.mp empty]
  · split at found
    · next here =>
      cases found
      exact matchesAt_split here
    · exact matchesAt_split (find?_some found)

/-- Where its lines stand, a hunk is applied without an error. -/
private theorem replaceLines_ok (start : Nat) {lines : List HunkLine} {text after : List Line}
    {source : Nat} (here : text.drop source = (Hunk.mk start lines).expected ++ after) :
    replaceLines text source lines =
      .ok ((Hunk.mk start lines).replacement, source + (Hunk.mk start lines).expected.length) := by
  induction lines generalizing source with
  | nil => rfl
  | cons line lines ih =>
    cases line with
    | context expected | delete expected =>
      have first : text[source]? = some expected := by
        rw [← head?_drop, here]
        rfl
      have rest := @ih (source + 1) (by rw [← tail_drop, here]; rfl)
      simp only [replaceLines, first, checkLine, rest, ne_eq, not_true_eq_false, if_false]
      simp [Hunk.expected, Hunk.replacement]
      omega
    | add added =>
      simp only [replaceLines, ih here]
      rfl

theorem applyHunksFrom_replaced {index : Nat} {delta : Int} {text result : List Line}
    {hunks : List Hunk} (applied : applyHunksFrom index delta text hunks = .ok result) :
    ∃ found, found.map (·.2) = hunks ∧ Replaced delta text found result := by
  induction hunks generalizing index delta text with
  | nil =>
    cases applied
    exact ⟨[], rfl, .done _ _⟩
  | cons hunk hunks ih =>
    rw [applyHunksFrom] at applied
    split at applied
    · cases applied
    · next position place =>
      obtain ⟨before, after, split, rfl⟩ := findMatch_split place
      have here : text.drop before.length = hunk.expected ++ after := by
        simp [split, append_assoc]
      have behind : text.drop (before.length + hunk.expected.length) = after := by
        simp [split, append_assoc]
      have above : text.take before.length = before := by simp [split, append_assoc]
      rw [replaceLines_ok hunk.oldStart here] at applied
      obtain ⟨found, rfl, rest⟩ := ih applied
      rw [behind, above] at rest
      exact ⟨(before.length, hunk) :: found, rfl, .next split place rest⟩

/-- Lines above the first hunk stay, and the rest is replaced in order. -/
private theorem Replaced.inOrder {delta : Int} {text result : List Line}
    {found : List (Nat × Hunk)} (replaced : Replaced delta text found result)
    {fixed rest : List Line} (split : text = fixed ++ rest)
    (forwards : Forwards fixed.length found) :
    ∃ new, result = fixed ++ new ∧ ReplacedInOrder rest (found.map (·.2)) new := by
  induction replaced generalizing fixed rest with
  | done delta text => exact ⟨rest, split, .done rest⟩
  | @next delta before after text result hunk found here position later ih =>
    obtain ⟨above, forwards⟩ := forwards
    -- the hunk stands below what is fixed, and fixes everything up to its own end
    have prior : fixed <+: before :=
      prefix_of_prefix_length_le (split ▸ prefix_append fixed rest)
        (here ▸ append_assoc before hunk.expected after ▸ prefix_append before _) above
    obtain ⟨between, rfl⟩ := prior
    obtain ⟨new, rfl, inOrder⟩ := ih rfl (by rwa [length_append])
    have same : rest = between ++ hunk.expected ++ after := by
      simpa [append_assoc] using split.symm.trans here
    exact ⟨between ++ hunk.replacement ++ new, by simp [append_assoc], same ▸ .next between inOrder⟩

/-- A patch that applies replaces, hunk after hunk, lines that are exactly the context and the
deleted lines of the hunk in the text at that time. As long as no hunk is found above the end of
what the one before it has written, these are disjoint ranges of the document, in order. -/
theorem applyHunks_replaced {content result : List Line} {hunks : List Hunk}
    (applied : applyHunks content hunks = .ok result) :
    ∃ found, found.map (·.2) = hunks ∧ Replaced 0 content found result ∧
      (Forwards 0 found → ReplacedInOrder content hunks result) := by
  obtain ⟨found, rfl, replaced⟩ := applyHunksFrom_replaced applied
  refine ⟨found, rfl, replaced, fun forwards => ?_⟩
  obtain ⟨_, rfl, inOrder⟩ := @Replaced.inOrder _ _ _ _ replaced [] content rfl forwards
  exact inOrder

def insertAndDelete : List Hunk :=
  [⟨1, [.context ['a'], .add ['x']]⟩, ⟨2, [.delete ['x']]⟩]

private theorem ReplacedInOrder.expected_mem {text result : List Line} {hunks : List Hunk}
    (inOrder : ReplacedInOrder text hunks result) {hunk : Hunk} (member : hunk ∈ hunks) {line : Line}
    (expected : line ∈ hunk.expected) : line ∈ text := by
  induction inOrder with
  | done text => cases member
  | next before rest ih =>
    rcases mem_cons.mp member with rfl | later
    · simp [expected]
    · simp [ih later]

/-- The second hunk deletes the line that the first one has inserted. -/
theorem hunk_deletes_inserted_line :
    applyHunks [['a']] insertAndDelete = .ok [['a']] ∧
      ¬ ReplacedInOrder [['a']] insertAndDelete [['a']] := by
  refine ⟨by decide +kernel, fun inOrder => ?_⟩
  have last : (⟨2, [.delete ['x']]⟩ : Hunk) ∈ insertAndDelete := by decide
  have inserted : ['x'] ∈ [['a']] := inOrder.expected_mem last (by decide)
  simp at inserted

theorem insertAndDelete_replaced :
    ∃ found, found.map (·.2) = insertAndDelete ∧ Replaced 0 [['a']] found [['a']] ∧
      (Forwards 0 found → ReplacedInOrder [['a']] insertAndDelete [['a']]) :=
  applyHunks_replaced (by decide +kernel)

end Astrcode
