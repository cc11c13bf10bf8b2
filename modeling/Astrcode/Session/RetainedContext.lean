import Astrcode.Session.TokenEstimate

/-!
# Context retained after compaction

`budget_contributions` of `astrcode-context/src/compaction/post_compact.rs` with
`truncate_text_to_tokens`: what extensions want to keep visible next to a compact summary is
taken in order while the token budget lasts. Rendering the result is left out.
-/
namespace Astrcode

inductive CompactRetainedContext where
  | file (path content : String)
  | note (title body : String)
  deriving DecidableEq

namespace CompactRetainedContext

def label : CompactRetainedContext → String
  | file path _ => path
  | note title _ => title

def body : CompactRetainedContext → String
  | file _ content => content
  | note _ body => body

def isFile : CompactRetainedContext → Bool
  | file .. => true
  | note .. => false

def estimatedTokens (context : CompactRetainedContext) : Nat :=
  saturatingAdd (estimateTextTokens context.label) (estimateTextTokens context.body)

end CompactRetainedContext

/-- The settings that are read here. -/
structure ContextSettings where
  postCompactMaxFiles : Nat
  postCompactTokenBudget : Nat
  postCompactMaxTokensPerFile : Nat

def truncationMarker : String := "\n\n[... retained context truncated after compaction]"

def estimateCharBudget (tokens : Nat) : Nat := saturatingMul tokens charsPerToken

def truncateTextToTokens (content : String) (maxTokens : Nat) (marker : String) : String :=
  if estimateTextTokens content ≤ maxTokens then content
  else
    let contentBudget := estimateCharBudget maxTokens - marker.length
    String.ofList (content.toList.take contentBudget) ++ marker

def budgetBody (content : String) (maxTokens : Nat) : Option String :=
  if isBlank content then none
  else if estimateTextTokens content ≤ maxTokens then some content
  else if maxTokens < estimateTextTokens truncationMarker then none
  else some (truncateTextToTokens content maxTokens truncationMarker)

/-- One contribution, given what is left of the budget and how many files were retained. -/
def budgetContribution (settings : ContextSettings) (remainingTokens retainedFiles : Nat) :
    CompactRetainedContext → Option CompactRetainedContext
  | .file path content =>
    if retainedFiles ≥ settings.postCompactMaxFiles ∨ isBlank path = true then none
    else
      let contentBudget :=
        min (remainingTokens - estimateTextTokens path) settings.postCompactMaxTokensPerFile
      (budgetBody content contentBudget).map (.file path)
  | .note title body =>
    if isBlank title then none
    else (budgetBody body (remainingTokens - estimateTextTokens title)).map (.note title)

/-- The loop of `budget_contributions`. -/
def budgetFrom (settings : ContextSettings) (remainingTokens retainedFiles : Nat) :
    List CompactRetainedContext → List CompactRetainedContext
  | [] => []
  | contribution :: rest =>
    if remainingTokens = 0 then []
    else match budgetContribution settings remainingTokens retainedFiles contribution with
      | none => budgetFrom settings remainingTokens retainedFiles rest
      | some kept =>
        kept :: budgetFrom settings (remainingTokens - kept.estimatedTokens)
          (if kept.isFile then retainedFiles + 1 else retainedFiles) rest

def budgetContributions (contributions : List CompactRetainedContext)
    (settings : ContextSettings) : List CompactRetainedContext :=
  budgetFrom settings settings.postCompactTokenBudget 0 contributions

end Astrcode
