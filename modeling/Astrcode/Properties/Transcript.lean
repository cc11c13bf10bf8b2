import Astrcode.Core.Llm

/-!
# Normalisation does not look at origins

The writer of a rewrite normalises entries that carry an origin, the reducer
normalises bare messages. Both run the same generic code, which reads an entry only
through its message, so the messages that come out agree.
-/
namespace Astrcode

open ProviderVisibleEntry List

variable {E : Type} [ProviderVisibleEntry E]

private theorem merge_message (merged : List E) (entry : E) :
    (mergeToolCallEntry merged entry).map message =
      mergeToolCallEntry (merged.map message) (message entry) := by
  unfold mergeToolCallEntry
  rw [getLast?_map]
  cases merged.getLast? with
  | none => simp
  | some last =>
    simp only [Option.map_some, message_self]
    split
    · simp [message_absorb, absorbAssistant, map_dropLast]
    · simp

variable (entries : List E)

private theorem normalize_message :
    (normalizeToolCallEntries entries).map message =
      normalizeToolCallEntries (entries.map message) := by
  -- from any list merged so far, for the induction
  have along : ∀ (entries merged : List E), (entries.foldl mergeToolCallEntry merged).map message =
      (entries.map message).foldl mergeToolCallEntry (merged.map message) := by
    intro entries
    induction entries with
    | nil => intro merged; rfl
    | cons entry entries ih =>
      intro merged
      rw [foldl_cons, ih, merge_message]
      rfl
  exact along entries []

variable (s : TruncateState E)

/-- The loop state with every entry reduced to its message. -/
@[simp] def TruncateState.messages : TruncateState LlmMessage :=
  ⟨s.out.map message, s.pending, s.buffered.map message⟩

theorem truncateStep_message (entry : E) :
    truncateStep s.messages (message entry) =
      match truncateStep s entry with
      | .ok s => .ok s.messages
      | .error out => .error (out.map message) := by
  obtain ⟨out, pending, buffered⟩ := s
  -- the branches test the role and the ids of the message only
  cases pending with
  | none =>
    by_cases isTool : (message entry).role = .tool
    · simp [isTool]
    · simp only [truncateStep, TruncateState.messages, message_self, isTool, if_false,
        Option.isSome_none, Bool.false_eq_true]
      split <;> simp
  | some round =>
    by_cases isTool : (message entry).role = .tool
    · simp only [truncateStep, TruncateState.messages, message_self, isTool, if_true]
      split
      · split <;> simp
      · simp
    · simp [isTool]

private theorem truncateLoop_message :
    truncateLoop s.messages (entries.map message) = (truncateLoop s entries).map message := by
  induction entries generalizing s with
  | nil =>
    obtain ⟨out, pending, buffered⟩ := s
    cases pending <;> simp
  | cons entry entries ih =>
    rw [map_cons, truncateLoop, truncateStep_message, truncateLoop]
    cases truncateStep s entry with
    | error out => rfl
    | ok s => exact ih s

theorem providerVisibleEntries_message :
    (providerVisibleEntries entries).map message = providerVisibleEntries (entries.map message) := by
  have loop := truncateLoop_message
    (normalizeToolCallEntries
      (entries.filter fun entry => (message entry).hasProviderVisibleContent)) ⟨[], none, []⟩
  rw [normalize_message] at loop
  simp only [providerVisibleEntries, truncateIncompleteToolEntries]
  rw [← loop, filter_map]
  rfl

/-- What any kind of entry leaves after the system messages are taken out. -/
theorem providerVisibleEntries_transcript :
    ((providerVisibleEntries entries).filter fun entry => (message entry).role ≠ .system).map message =
      (providerVisibleEntries (entries.map message)).filter fun m => m.role ≠ .system := by
  rw [← providerVisibleEntries_message, filter_map]
  rfl

theorem providerTranscript_eq (messages : List LlmMessage) :
    providerTranscript messages =
      (providerVisibleEntries messages).filter fun m => m.role ≠ .system := by
  have plain := providerVisibleEntries_transcript (messages.map TranscriptMessage.plain)
  have bare : (messages.map TranscriptMessage.plain).map message = messages := by
    rw [map_map]
    exact map_id messages
  rw [bare] at plain
  exact plain

/-- Transcript entries normalise to the transcript of their messages. -/
theorem providerTranscript_message (entries : List TranscriptMessage) :
    (providerTranscriptSharedMessages entries).map (·.message) =
      providerTranscript (entries.map (·.message)) := by
  rw [providerTranscript_eq]
  exact providerVisibleEntries_transcript entries

end Astrcode
