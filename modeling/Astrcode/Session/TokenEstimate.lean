import Astrcode.Session.Compaction
import Mathlib.Algebra.Ring.Nat

/-!
# Estimating the input of a provider request

`astrcode-context/src/token_estimate.rs`, the estimates of a `ContextSnapshot` in
`context.rs`, and how the rendered system prompt is split into system messages
(`prompt_engine/provider_messages.rs`). Four characters count as one token, and the sum
is padded by a third. Once a provider has reported how large the context was, the
snapshot carries that number as an anchor, and only the messages behind the prefix it
covers are estimated.

`usize` has 64 bits. Only the operations that saturate mention the bound.
-/
namespace Astrcode

/-! ### Single messages -/

/-- `usize::div_ceil`. -/
def divCeil (a b : Nat) : Nat := (a + b - 1) / b

def saturatingMul (a b : Nat) : Nat := min (a * b) u64Max

def messageBaseTokens : Nat := 6

def toolCallBaseTokens : Nat := 12

def charsPerToken : Nat := 4

def requestPaddingNumerator : Nat := 4

def requestPaddingDenominator : Nat := 3

def estimateCharTokens (chars : Nat) : Nat := divCeil chars charsPerToken

def estimateTextTokens (text : String) : Nat := max (estimateCharTokens text.length) 1

def estimateContentTokens : LlmContent → Nat
  | .text text => estimateTextTokens text
  -- the length in bytes: base64 is ASCII
  | .image base64 _ _ => max (estimateCharTokens base64.utf8ByteSize) 1
  | .toolCall callId name arguments rawArguments =>
    toolCallBaseTokens + estimateTextTokens callId + estimateTextTokens name +
      match rawArguments with
      | some raw => estimateTextTokens raw
      | none => estimateTextTokens arguments.text
  | .toolResult toolCallId content _ => estimateTextTokens toolCallId + estimateTextTokens content

def estimateMessageTokens (m : LlmMessage) : Nat :=
  messageBaseTokens + (m.content.map estimateContentTokens).sum

def applyRequestPadding (rawTotal : Nat) : Nat :=
  divCeil (saturatingMul rawTotal requestPaddingNumerator) requestPaddingDenominator

def estimateProviderMessageTokens (messages : List LlmMessage) : Nat :=
  applyRequestPadding (messages.map estimateMessageTokens).sum

/-! ### The system prompt -/

inductive PromptSectionOrder where
  | identity
  | system
  | taskGuidelines
  | communication
  | environment
  | userRules
  | projectRules
  | toolSummary
  | systemPromptInstruction
  | skills
  | agents
  | additionalInstructions
  deriving DecidableEq

namespace PromptSectionOrder

def all : List (PromptSectionOrder × String) :=
  [(identity, "Identity"), (system, "System"), (taskGuidelines, "Task Guidelines"),
    (communication, "Communication"), (environment, "Environment"), (userRules, "User Rules"),
    (projectRules, "Project Rules"), (toolSummary, "Tool Summary"),
    (systemPromptInstruction, "SystemPromptInstruction"), (skills, "Skills"), (agents, "Agents"),
    (additionalInstructions, "Additional Instructions")]

def fromTitle (title : String) : Option PromptSectionOrder :=
  (all.find? fun entry => entry.2 = title).map (·.1)

def isStable : PromptSectionOrder → Bool
  | identity | system | taskGuidelines | communication => true
  | _ => false

end PromptSectionOrder

structure ParsedSection where
  title : String
  rendered : String
  deriving DecidableEq

/-- Cuts the text before every `[` that follows an empty line. `current` is the piece the
scan is in. -/
def splitSections (current : List Char) : List Char → List (List Char)
  | '\n' :: '\n' :: '[' :: rest => (current ++ ['\n', '\n']) :: splitSections ['['] rest
  | c :: rest => splitSections (current ++ [c]) rest
  | [] => [current]

def parseSection (piece : List Char) : Option ParsedSection :=
  let rendered := trimChars piece
  match rendered.dropWhile (· ≠ ']') with
  | ']' :: remainder =>
    let title := trimChars ((rendered.takeWhile (· ≠ ']')).drop 1)
    -- a heading on a line of its own, and something below it
    if title.isEmpty || remainder.head? ≠ some '\n' || (trimChars remainder).isEmpty then none
    else some ⟨String.ofList title, String.ofList rendered⟩
  | _ => none

def parseSections (text : String) : Option (List ParsedSection) :=
  let text := trimChars text.toList
  if text.head? ≠ some '[' then none
  else (splitSections [] text).mapM parseSection

def sectionGroup (title : String) : Bool :=
  (PromptSectionOrder.fromTitle title).any PromptSectionOrder.isStable

def groupSection (grouped : List (Bool × String)) (parsed : ParsedSection) : List (Bool × String) :=
  let stable := sectionGroup parsed.title
  match grouped.getLast? with
  | some last =>
    if last.1 = stable then
      grouped.dropLast ++ [(last.1, last.2 ++ "\n\n" ++ parsed.rendered)]
    else grouped ++ [(stable, parsed.rendered)]
  | none => grouped ++ [(stable, parsed.rendered)]

def LlmMessage.system (text : String) : LlmMessage := ⟨.system, [.text text], none, none⟩

def systemMessagesFromPrompt (text : String) : List LlmMessage :=
  if isBlank text then []
  else match parseSections text with
    -- a prompt that is no sequence of sections is kept whole
    | none => [.system text]
    | some sections => (sections.foldl groupSection []).map fun group => .system group.2

/-! ### The estimates of a snapshot -/

namespace ContextSnapshot

variable (snapshot : ContextSnapshot)

def requestMessages (messages : List LlmMessage) : List LlmMessage :=
  -- the last boundary before a provider: the request is normalised whatever it is made of
  providerVisibleMessages (systemMessagesFromPrompt snapshot.systemPrompt ++ messages)

def estimateOwnInputTokens (toolsTokens modelContextWindow : Nat) :
    Nat :=
  let fullEstimate := saturatingAdd
    (estimateProviderMessageTokens
      (systemMessagesFromPrompt snapshot.systemPrompt ++ snapshot.messages)) toolsTokens
  match snapshot.inputTokenAnchor with
  | none => fullEstimate
  | some anchor =>
    if anchor.modelContextWindow ≠ modelContextWindow then fullEstimate
    else if snapshot.messages.length < anchor.coveredMessageCount then fullEstimate
    else
      let trailing := snapshot.messages.drop anchor.coveredMessageCount
      saturatingAdd
        (saturatingAdd anchor.contextTokens (estimateProviderMessageTokens trailing)) toolsTokens

def estimateInputTokens (requestMessages : List LlmMessage)
    (toolsTokens modelContextWindow : Nat) : Nat :=
  let fullEstimate := saturatingAdd (estimateProviderMessageTokens requestMessages) toolsTokens
  match snapshot.inputTokenAnchor with
  | none => fullEstimate
  | some anchor =>
    if anchor.modelContextWindow ≠ modelContextWindow then fullEstimate
    else
      let systemMessages := systemMessagesFromPrompt snapshot.systemPrompt
      if snapshot.messages.length < anchor.coveredMessageCount then fullEstimate
      else
        let covered := snapshot.messages.take anchor.coveredMessageCount
        let prefixLength := systemMessages.length + covered.length
        -- a hook may have changed the request: the anchor counts only for the same prefix
        if requestMessages.take prefixLength ≠ systemMessages ++ covered then fullEstimate
        else
          saturatingAdd
            (saturatingAdd anchor.contextTokens
              (estimateProviderMessageTokens (requestMessages.drop prefixLength)))
            toolsTokens

/-- How many messages the anchor stands for in a request to a model with the given window. -/
def coveredCount (modelContextWindow : Nat) : Nat :=
  match snapshot.inputTokenAnchor with
  | none => 0
  | some anchor =>
    if anchor.modelContextWindow = modelContextWindow then anchor.coveredMessageCount else 0

/-- The request a snapshot makes of its own messages always passes the check of the prefix,
so the shortcut without a request gives the same estimate. -/
theorem estimateInputTokens_own (toolsTokens modelContextWindow : Nat) :
    snapshot.estimateInputTokens
        (systemMessagesFromPrompt snapshot.systemPrompt ++ snapshot.messages)
        toolsTokens modelContextWindow =
      snapshot.estimateOwnInputTokens toolsTokens modelContextWindow := by
  unfold estimateInputTokens estimateOwnInputTokens
  cases snapshot.inputTokenAnchor with
  | none => rfl
  | some anchor =>
    by_cases window : anchor.modelContextWindow = modelContextWindow
    · by_cases short : snapshot.messages.length < anchor.coveredMessageCount
      · simp [window, short]
      · have inside : (snapshot.messages.take anchor.coveredMessageCount).length =
            anchor.coveredMessageCount := by
          rw [List.length_take]
          omega
        simp [window, short, inside, List.take_length_add_append, List.drop_length_add_append]
    · simp [window]

end ContextSnapshot

end Astrcode
