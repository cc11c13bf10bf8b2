import Astrcode.Properties.NormalForm
import Astrcode.Session.TokenEstimate

/-!
# The two estimates of a request

`estimate_own_input_tokens` does not build the request that `estimate_input_tokens` is
given. But the request is normalised once more at the boundary, and what one
normalisation returns another may still change. The two agree, whatever the anchor,
exactly when the messages they are made of are in the form a normalisation leaves alone.
-/
namespace Astrcode

open List

namespace ContextSnapshot

/-- The messages a request of the snapshot's own is made of. -/
def ownMessages (snapshot : ContextSnapshot) : List LlmMessage :=
  systemMessagesFromPrompt snapshot.systemPrompt ++ snapshot.messages

variable (snapshot : ContextSnapshot)

/-- An anchor that covers every message is the whole estimate without a request, while a
request that is not the snapshot's own is estimated anew. -/
theorem estimates_of_covered (contextTokens : Nat) (changed : ¬ NormalForm snapshot.ownMessages) :
    let anchored := snapshot.withInputTokenAnchor contextTokens 0 snapshot.messages.length
    anchored.estimateOwnInputTokens 0 0 = min contextTokens u64Max ∧
      anchored.estimateInputTokens (anchored.requestMessages anchored.messages) 0 0 =
        min (estimateProviderMessageTokens (snapshot.requestMessages snapshot.messages)) u64Max := by
  have short := providerVisibleMessages_length snapshot.ownMessages
  have differs := (providerVisibleMessages_eq_self_iff snapshot.ownMessages).not.mpr changed
  unfold ownMessages at short differs
  rw [length_append] at short
  simp only [withInputTokenAnchor, le_refl, if_true]
  constructor
  · simp [estimateOwnInputTokens, saturatingAdd,
      show estimateProviderMessageTokens [] = 0 by decide]
  · simp only [estimateInputTokens, requestMessages, take_length]
    rw [take_of_length_le short]
    simp [differs, saturatingAdd]

/-- With every anchor, for every count of tool tokens and every window, the estimate without a
request is the estimate of the request the snapshot makes of its own messages: exactly
when another normalisation leaves these messages alone, with the system messages in front. -/
theorem estimates_agree_iff :
    (∀ contextTokens anchorWindow covered toolsTokens modelContextWindow : Nat,
      let anchored := snapshot.withInputTokenAnchor contextTokens anchorWindow covered
      anchored.estimateOwnInputTokens toolsTokens modelContextWindow =
        anchored.estimateInputTokens (anchored.requestMessages anchored.messages) toolsTokens
          modelContextWindow) ↔
      NormalForm snapshot.ownMessages := by
  constructor
  · intro agree
    by_contra changed
    -- the anchor reports another number than the request is estimated at
    let tokens := estimateProviderMessageTokens (snapshot.requestMessages snapshot.messages)
    let reported := if tokens = 0 then 1 else 0
    obtain ⟨own, request⟩ := estimates_of_covered snapshot reported changed
    have same : min reported u64Max = min tokens u64Max :=
      own.symm.trans ((agree reported 0 snapshot.messages.length 0 0).trans request)
    have room : 1 ≤ u64Max := by decide
    by_cases zero : tokens = 0
    · rw [show reported = 1 from if_pos zero] at same
      omega
    · rw [show reported = 0 from if_neg zero] at same
      omega
  · intro normal contextTokens anchorWindow covered toolsTokens modelContextWindow anchored
    have kept : anchored.ownMessages = snapshot.ownMessages := by
      simp only [anchored, withInputTokenAnchor]
      split <;> rfl
    have same := (providerVisibleMessages_eq_self_iff anchored.ownMessages).mpr (kept ▸ normal)
    rw [← estimateInputTokens_own]
    exact congrArg (anchored.estimateInputTokens · _ _) same.symm

/-- An assistant text that arrives inside a round is put behind its result, and the second
normalisation merges the next call into it. -/
theorem estimates_differ :
    let snapshot := fromSharedTranscript 0 "" ([shellCall "a",
      .assistant "still running", .tool "shell" "a" "done" false, shellCall "b",
      .tool "shell" "b" "done" false].map TranscriptMessage.plain)
    snapshot.estimateOwnInputTokens 0 0 = 94 ∧
      snapshot.estimateInputTokens (snapshot.requestMessages snapshot.messages) 0 0 = 86 := by
  decide +kernel

end ContextSnapshot

end Astrcode
