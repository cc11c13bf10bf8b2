import Astrcode.Session.RetainedContext
import Mathlib.Data.List.Forall2

/-!
# The budget for retained context

Each contribution that is kept fits into what is left of the budget, label and body together, so
the loop never spends more than it has. A body is cut between two characters, and the marker
that says so takes the place of at least as much text.
-/
namespace Astrcode

open List CompactRetainedContext

/-- A body that was cut: its first characters and the marker, without getting longer. -/
structure Cut (body kept : String) : Prop where
  firsts : ∃ n, kept = String.ofList (body.toList.take n) ++ truncationMarker
  chars : kept.length ≤ body.length
  bytes : kept.utf8ByteSize ≤ body.utf8ByteSize

/-- A contribution as it was offered, or with its body cut. -/
structure Retains (kept offered : CompactRetainedContext) : Prop where
  kind : kept.isFile = offered.isFile
  label : kept.label = offered.label
  body : kept.body = offered.body ∨ Cut offered.body kept.body

theorem estimateTextTokens_le_iff {text : String} {tokens : Nat} :
    estimateTextTokens text ≤ tokens ↔ text.length ≤ 4 * tokens ∧ 0 < tokens := by
  simp only [estimateTextTokens, estimateCharTokens, divCeil, charsPerToken]
  omega

theorem length_le_utf8ByteSize (text : List Char) :
    text.length ≤ (String.ofList text).utf8ByteSize := by
  induction text with
  | nil => exact Nat.zero_le _
  | cons c rest ih =>
    have split : String.ofList (c :: rest) = String.singleton c ++ String.ofList rest :=
      String.ofList_cons
    rw [split, String.utf8ByteSize_append, String.utf8ByteSize_singleton, length_cons]
    have one := c.utf8Size_pos
    omega

/-- Cutting a body that is too long leaves one that is not, if the marker is not. -/
theorem truncateTextToTokens_spec {content : String} {maxTokens : Nat}
    (long : ¬ estimateTextTokens content ≤ maxTokens)
    (marked : estimateTextTokens truncationMarker ≤ maxTokens) :
    estimateTextTokens (truncateTextToTokens content maxTokens truncationMarker) ≤ maxTokens ∧
      Cut content (truncateTextToTokens content maxTokens truncationMarker) := by
  rw [truncateTextToTokens, if_neg long]
  dsimp only
  generalize taken : estimateCharBudget maxTokens - truncationMarker.length = n
  have bound : estimateCharBudget maxTokens ≤ maxTokens * 4 := min_le_left _ _
  rw [estimateTextTokens_le_iff] at long marked ⊢
  have length : (String.ofList (content.toList.take n) ++ truncationMarker).length =
      min n content.length + truncationMarker.length := by
    rw [String.length_append, String.length_ofList, length_take, String.length_toList]
  refine ⟨by omega, ⟨n, rfl⟩, by omega, ?_⟩
  -- what is dropped has at least one byte for each character of the marker
  have dropped := length_le_utf8ByteSize (content.toList.drop n)
  have ascii : truncationMarker.utf8ByteSize = truncationMarker.length := by decide
  have whole : content =
      String.ofList (content.toList.take n) ++ String.ofList (content.toList.drop n) := by
    rw [← String.ofList_append, take_append_drop, String.ofList_toList]
  have bytes := congrArg String.utf8ByteSize whole
  rw [String.utf8ByteSize_append] at bytes
  rw [length_drop, String.length_toList] at dropped
  rw [String.utf8ByteSize_append, ascii]
  omega

theorem budgetBody_spec {content kept : String} {maxTokens : Nat}
    (found : budgetBody content maxTokens = some kept) :
    estimateTextTokens kept ≤ maxTokens ∧ (kept = content ∨ Cut content kept) := by
  rw [budgetBody] at found
  split at found
  · cases found
  · split at found
    · next fits =>
      cases found
      exact ⟨fits, .inl rfl⟩
    · next long =>
      split at found
      · cases found
      · next marked =>
        cases found
        have spec := truncateTextToTokens_spec long (by omega)
        exact ⟨spec.1, .inr spec.2⟩

section Loop

variable {settings : ContextSettings} {remaining files : Nat}

theorem estimatedTokens_le {context : CompactRetainedContext}
    (fits : estimateTextTokens context.body ≤ remaining - estimateTextTokens context.label) :
    context.estimatedTokens ≤ remaining := by
  have both : context.estimatedTokens ≤
      estimateTextTokens context.label + estimateTextTokens context.body := min_le_left _ _
  have some : 0 < estimateTextTokens context.body := (estimateTextTokens_le_iff.mp le_rfl).2
  omega

/-- What is kept of a contribution fits, and a file is one more file. -/
theorem budgetContribution_spec {offered kept : CompactRetainedContext}
    (found : budgetContribution settings remaining files offered = some kept) :
    Retains kept offered ∧ kept.estimatedTokens ≤ remaining ∧
      (kept.isFile = true → files < settings.postCompactMaxFiles ∧
        estimateTextTokens kept.body ≤ settings.postCompactMaxTokensPerFile) := by
  cases offered with
  | file path content =>
    rw [budgetContribution] at found
    split at found
    · cases found
    · next allowed =>
      obtain ⟨body, budgeted, rfl⟩ := Option.map_eq_some_iff.mp found
      obtain ⟨fits, retained⟩ := budgetBody_spec budgeted
      rw [Nat.le_min] at fits
      exact ⟨⟨rfl, rfl, retained⟩, estimatedTokens_le fits.1,
        fun _ => ⟨by omega, fits.2⟩⟩
  | note title content =>
    rw [budgetContribution] at found
    split at found
    · cases found
    · obtain ⟨body, budgeted, rfl⟩ := Option.map_eq_some_iff.mp found
      obtain ⟨fits, retained⟩ := budgetBody_spec budgeted
      exact ⟨⟨rfl, rfl, retained⟩, estimatedTokens_le fits, nofun⟩

variable (settings) in
theorem budgetFrom_spec (remaining files : Nat) (offered : List CompactRetainedContext) :
    SublistForall₂ Retains (budgetFrom settings remaining files offered) offered ∧
      ((budgetFrom settings remaining files offered).map estimatedTokens).sum ≤ remaining ∧
      files + ((budgetFrom settings remaining files offered).filter isFile).length ≤
        max files settings.postCompactMaxFiles ∧
      ∀ kept ∈ budgetFrom settings remaining files offered, kept.isFile = true →
        estimateTextTokens kept.body ≤ settings.postCompactMaxTokensPerFile := by
  induction offered generalizing remaining files with
  | nil => exact ⟨.nil, Nat.zero_le _, le_max_left _ _, nofun⟩
  | cons contribution rest ih =>
    rw [budgetFrom]
    split
    · exact ⟨.nil, Nat.zero_le _, le_max_left _ _, nofun⟩
    · split
      · obtain ⟨retains, others⟩ := ih remaining files
        exact ⟨.cons_right retains, others⟩
      · next kept found =>
        obtain ⟨retains, fits, isOneMore⟩ := budgetContribution_spec found
        obtain ⟨later, spent, counted, capped⟩ := ih (remaining - kept.estimatedTokens)
          (if kept.isFile then files + 1 else files)
        refine ⟨.cons retains later, ?_, ?_, ?_⟩
        · rw [map_cons, sum_cons]
          omega
        · cases kind : kept.isFile with
          | false =>
            rw [filter_cons_of_neg (by simp [kind])]
            simpa [kind] using counted
          | true =>
            have allowed := (isOneMore kind).1
            rw [filter_cons_of_pos kind, length_cons]
            simp only [kind, if_true] at counted ⊢
            omega
        · exact forall_mem_cons.mpr ⟨fun isFile => (isOneMore isFile).2, capped⟩

end Loop

/-- The contributions that are kept stand in the order they were offered, some of them cut. All
together they stay within the budget, and files within their number and size. -/
theorem budgetContributions_within_budget (contributions : List CompactRetainedContext)
    (settings : ContextSettings) :
    SublistForall₂ Retains (budgetContributions contributions settings) contributions ∧
      ((budgetContributions contributions settings).map estimatedTokens).sum ≤
        settings.postCompactTokenBudget ∧
      ((budgetContributions contributions settings).filter isFile).length ≤
        settings.postCompactMaxFiles ∧
      ∀ kept ∈ budgetContributions contributions settings, kept.isFile = true →
        estimateTextTokens kept.body ≤ settings.postCompactMaxTokensPerFile := by
  obtain ⟨retains, spent, counted, capped⟩ := budgetFrom_spec settings
    settings.postCompactTokenBudget 0 contributions
  rw [Nat.zero_add, Nat.zero_max] at counted
  exact ⟨retains, spent, counted, capped⟩

end Astrcode
