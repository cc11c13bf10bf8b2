import Astrcode.Properties.Normalisation
import Astrcode.Properties.ToolProtocol

/-!
# What a second normalisation changes

The output of a normalisation need not be in the form that a normalisation leaves
alone: a message let out behind a round may carry calls that nobody answers, or be an
assistant message into which the next call is merged. First the form itself, then
when the output is in it.
-/
namespace Astrcode

open ProviderVisibleEntry List

variable {callIds answered : List String} {seg : List LlmMessage} {m : LlmMessage}

/-! ### The form a normalisation leaves alone -/

/-- Every call is followed at once by the results that settle its round. -/
inductive AnsweredInPlace : List LlmMessage → Prop where
  | nil : AnsweredInPlace []
  | plain {m : LlmMessage} {rest : List LlmMessage} (notTool : m.role ≠ .tool)
      (noCalls : m.hasToolCalls = false) (later : AnsweredInPlace rest) :
      AnsweredInPlace (m :: rest)
  | round {m : LlmMessage} {results rest : List LlmMessage} (calls : m.hasToolCalls = true)
      (tools : ∀ x ∈ results, x.role = .tool) (settling : Settling m.toolCallIds [] results)
      (later : AnsweredInPlace rest) : AnsweredInPlace (m :: (results ++ rest))

structure NormalForm (messages : List LlmMessage) : Prop where
  visible : ∀ m ∈ messages, m.hasProviderVisibleContent = true
  unmerged : messages.IsChain Unmerged
  answered : AnsweredInPlace messages

theorem AnsweredInPlace.loop {E : Type} [ProviderVisibleEntry E] {messages : List LlmMessage}
    (answered : AnsweredInPlace messages) (entries : List E)
    (same : entries.map message = messages) (out : List E) :
    truncateLoop ⟨out, none, []⟩ entries = out ++ entries := by
  induction answered generalizing entries out with
  | nil =>
    rw [map_eq_nil_iff.mp same]
    simp
  | plain notTool noCalls _ ih =>
    obtain ⟨entry, rest, rfl, rfl, behind⟩ := map_eq_cons_iff.mp same
    rw [truncateLoop_ok (truncateStep_plain entry notTool noCalls out), ih rest behind]
    simp
  | @round m results others calls tools settling _ ih =>
    obtain ⟨entry, rest, rfl, rfl, behind⟩ := map_eq_cons_iff.mp same
    obtain ⟨block, rest, rfl, rfl, rfl⟩ := map_eq_append_iff.mp behind
    have closes : settleRound _ [] (block.map message ++ rest.map message) = _ :=
      settleRound_iff.mpr ⟨rfl, settling⟩
    have taken : ∀ e ∈ block, (message e).role = .tool := by simpa using tools
    rw [truncateLoop_ok (truncateStep_open entry calls out),
      truncateLoop_pending _ _ _ _ _ _ (by simp), map_append, closes]
    simp only [length_map, take_left, drop_left]
    rw [filter_eq_self.mpr (by simpa using taken), filter_eq_nil_iff.mpr (by simpa using taken),
      ih rest rfl]
    simp

theorem Settling.ends (settling : Settling callIds answered seg) :
    ∃ last ∈ seg.getLast?, last.role = .tool := by
  induction settling with
  | last isTool => exact ⟨_, rfl, isTool⟩
  | result _ _ _ _ ih | between _ _ ih =>
    obtain ⟨last, ends, isTool⟩ := ih
    exact ⟨last, by simp_all [getLast?_cons], isTool⟩

theorem settleRound_filter (p : LlmMessage → Bool) (keeps : ∀ m, m.role = .tool → p m = true)
    (answered : List String) (rest : List LlmMessage) :
    settleRound callIds answered (rest.filter p) =
      (settleRound callIds answered rest).map fun (seg, after) =>
        (seg.filter p, after.filter p) := by
  induction rest generalizing answered with
  | nil => rfl
  | cons m rest ih =>
    by_cases isTool : m.role = .tool
    · rw [filter_cons_of_pos (keeps m isTool)]
      simp only [settleRound, isTool, if_true, ih]
      split
      · split <;> simp [keeps m isTool, Option.map_map, Function.comp_def]
      · rfl
    · by_cases kept : p m = true
      · rw [filter_cons_of_pos kept]
        simp [isTool, ih, kept, Option.map_map, Function.comp_def]
      · rw [filter_cons_of_neg kept]
        simp [isTool, ih, kept, Option.map_map, Function.comp_def]

theorem Settling.results (settling : Settling callIds answered seg) :
    Settling callIds answered (seg.filter (·.role = .tool)) := by
  have closes : settleRound callIds answered seg = some (seg, []) :=
    settleRound_iff.mpr ⟨by simp, settling⟩
  have filtered := @settleRound_filter callIds (·.role = .tool) (by simp) answered seg
  rw [closes] at filtered
  exact (settleRound_iff.mp filtered).2

theorem answeredInPlace_plain_iff (m : LlmMessage) (rest : List LlmMessage)
    (notTool : m.role ≠ .tool) (startsPlain : StartsPlain rest) :
    AnsweredInPlace (m :: rest) ↔ m.hasToolCalls = false ∧ AnsweredInPlace rest := by
  constructor
  · intro answered
    cases answered with
    | plain _ noCalls later => exact ⟨noCalls, later⟩
    | @round _ results others calls tools settling later =>
      -- a round has a result, which would have to come next
      cases results with
      | nil => cases settling
      | cons first results => exact absurd (tools first (by simp)) (startsPlain _ _ rfl)
  · rintro ⟨noCalls, later⟩
    exact .plain notTool noCalls later

variable (messages : List LlmMessage)

theorem truncate_eq_self_iff :
    truncateIncompleteToolEntries messages = messages ↔ AnsweredInPlace messages := by
  refine ⟨fun same => ?_, fun answered => answered.loop messages (map_id _) []⟩
  induction messages using rounds_induction with
  | nil => exact .nil
  | stray m rest isTool =>
    rw [truncate_stray isTool] at same
    cases same
  | plain m rest notTool noCalls ih =>
    rw [truncate_plain notTool noCalls] at same
    exact .plain notTool noCalls (ih (cons.inj same).2)
  | unsettled m rest calls stays =>
    rw [truncate_unsettled calls stays] at same
    cases same
  | settled m rest seg after calls closes ih =>
    obtain ⟨rfl, settling⟩ := settleRound_iff.mp closes
    rw [truncate_settled calls closes, ← append_assoc] at same
    have size : (seg.filter (·.role = .tool) ++ seg.filter (·.role ≠ .tool)).length =
        seg.length := by
      simpa using (seg.length_eq_length_filter_add (·.role = .tool)).symm
    obtain ⟨sorted, later⟩ := append_inj (cons.inj same).2 size
    refine .round calls (fun x member => ?_) settling (ih later)
    -- a message held back would stand behind the result that settles the round
    by_contra notTool
    have held : x ∈ seg.filter (·.role ≠ .tool) := by simp [member, notTool]
    obtain ⟨last, ends, isTool⟩ := settling.ends
    rw [← sorted, getLast?_append_of_ne_nil _ (ne_nil_of_mem held)] at ends
    simpa [isTool] using mem_filter.mp (mem_of_getLast? ends)

theorem answeredInPlace_round_iff {rest : List LlmMessage}
    (calls : m.hasToolCalls = true) (settling : Settling m.toolCallIds [] seg) :
    AnsweredInPlace (m :: (seg.filter (·.role = .tool) ++ rest)) ↔ AnsweredInPlace rest := by
  have closes : settleRound _ [] (seg.filter (·.role = .tool) ++ rest) = _ :=
    settleRound_iff.mpr ⟨rfl, settling.results⟩
  rw [← truncate_eq_self_iff, ← truncate_eq_self_iff, truncate_settled calls closes]
  simp

theorem normalize_length : (normalizeToolCallEntries messages).length ≤ messages.length := by
  have fewer := @foldl_merge_countP _ _ (fun _ => true) (fun _ _ _ => rfl) messages []
  simpa [normalizeToolCallEntries] using fewer

theorem truncate_length : (truncateIncompleteToolEntries messages).length ≤ messages.length := by
  have fewer := truncateLoop_countP (fun _ => true) messages _ TruncateState.sound_start
  simpa [truncateIncompleteToolEntries] using fewer

theorem providerVisibleMessages_length :
    (providerVisibleMessages messages).length ≤ messages.length :=
  (truncate_length _).trans ((normalize_length _).trans (length_filter_le _ _))

/-- Each of the three passes may only lose messages, so all three leave a list alone that comes
out whole. -/
theorem providerVisibleMessages_eq_self_iff :
    providerVisibleMessages messages = messages ↔ NormalForm messages := by
  constructor
  · intro same
    let shown := messages.filter LlmMessage.hasProviderVisibleContent
    have cut : messages.length ≤ (normalizeToolCallEntries shown).length :=
      (congrArg length same).ge.trans (truncate_length _)
    have all : shown = messages := filter_sublist.eq_of_length_le (cut.trans (normalize_length _))
    rw [all] at cut
    have chain : messages.IsChain Unmerged :=
      @chain_of_count _ _ (fun _ => true) _ (fun _ _ _ => rfl) (by simpa using cut)
    refine ⟨filter_eq_self.mp all, chain, (truncate_eq_self_iff _).mp ?_⟩
    calc truncateIncompleteToolEntries messages
        = truncateIncompleteToolEntries (normalizeToolCallEntries shown) := by
          rw [all, normalize_of_chain chain]
      _ = messages := same
  · rintro ⟨visible, chain, answered⟩
    change truncateIncompleteToolEntries (normalizeToolCallEntries
      (messages.filter LlmMessage.hasProviderVisibleContent)) = messages
    rw [filter_eq_self.mpr visible, normalize_of_chain chain, (truncate_eq_self_iff _).mpr answered]

/-! ### When the output is in that form -/

/-- In the visible and merged conversation nothing that a settled round holds back carries
calls, and no such round begins right behind an assistant message. `front` is the message that
is let out last before the conversation, if it is of interest. -/
inductive RoundsApart : Option LlmMessage → List LlmMessage → Prop where
  | nil {front : Option LlmMessage} : RoundsApart front []
  | stray {front : Option LlmMessage} {m : LlmMessage} {rest : List LlmMessage}
      (isTool : m.role = .tool) : RoundsApart front (m :: rest)
  | plain {front : Option LlmMessage} {m : LlmMessage} {rest : List LlmMessage}
      (notTool : m.role ≠ .tool) (noCalls : m.hasToolCalls = false)
      (later : RoundsApart (some m) rest) : RoundsApart front (m :: rest)
  | unsettled {front : Option LlmMessage} {m : LlmMessage} {rest : List LlmMessage}
      (calls : m.hasToolCalls = true) (stays : settleRound m.toolCallIds [] rest = none) :
      RoundsApart front (m :: rest)
  | settled {front : Option LlmMessage} {m : LlmMessage} {seg after : List LlmMessage}
      (calls : m.hasToolCalls = true) (settling : Settling m.toolCallIds [] seg)
      (begins : ∀ last ∈ front, last.role ≠ .assistant)
      (noCalls : ∀ x ∈ seg, x.hasToolCalls = false)
      (later : RoundsApart (seg.filter (·.role ≠ .tool)).getLast? after) :
      RoundsApart front (m :: (seg ++ after))

theorem unmerged_of_noCalls {next : LlmMessage} (noCalls : next.hasToolCalls = false) :
    Unmerged m next := by
  simp [Unmerged, noCalls]

theorem chain_of_noCalls {messages : List LlmMessage}
    (noCalls : ∀ m ∈ messages, m.hasToolCalls = false) (m : LlmMessage) :
    (m :: messages).IsChain Unmerged := by
  induction messages generalizing m with
  | nil => exact .singleton _
  | cons next messages ih =>
    refine isChain_cons_cons.mpr ⟨unmerged_of_noCalls (noCalls next mem_cons_self), ?_⟩
    exact ih (forall_mem_cons.mp noCalls).2 next

/-- Of what is let out before, only the last message counts. -/
theorem chain_append_iff {held rest : List LlmMessage} (chain : held.IsChain Unmerged) :
    (held ++ rest).IsChain Unmerged ↔ (held.getLast?.toList ++ rest).IsChain Unmerged := by
  have same : held.getLast?.toList.getLast? = held.getLast? := by cases held.getLast? <;> rfl
  have alone : held.getLast?.toList.IsChain Unmerged := by cases held.getLast? <;> simp
  rw [isChain_append, isChain_append, same]
  simp [chain, alone]

/-- The messages stay as they are behind `front`. -/
def Stays (front : Option LlmMessage) (messages : List LlmMessage) : Prop :=
  (front.toList ++ messages).IsChain Unmerged ∧ AnsweredInPlace messages

variable {front : Option LlmMessage} {m : LlmMessage} {rest : List LlmMessage}

theorem stays_nil (front : Option LlmMessage) : Stays front [] :=
  ⟨by cases front <;> simp, .nil⟩

theorem stays_plain_iff (notTool : m.role ≠ .tool) (noCalls : m.hasToolCalls = false)
    (startsPlain : StartsPlain rest) : Stays front (m :: rest) ↔ Stays (some m) rest := by
  have chain : (front.toList ++ [m]).IsChain Unmerged := by
    cases front with
    | none => exact .singleton _
    | some last => exact chain_of_noCalls (by simpa using noCalls) last
  have cut := @chain_append_iff _ rest chain
  rw [append_assoc, getLast?_concat] at cut
  unfold Stays
  rw [answeredInPlace_plain_iff _ _ notTool startsPlain, ← cut]
  simp [noCalls]

theorem stays_round_iff (calls : m.hasToolCalls = true) (settling : Settling m.toolCallIds [] seg)
    (startsPlain : StartsPlain rest) :
    Stays front (m :: (seg.filter (·.role = .tool) ++ (seg.filter (·.role ≠ .tool) ++ rest))) ↔
      (∀ last ∈ front, last.role ≠ .assistant) ∧ (∀ x ∈ seg, x.hasToolCalls = false) ∧
        Stays (seg.filter (·.role ≠ .tool)).getLast? rest := by
  set results := seg.filter (·.role = .tool) with results_eq
  set held := seg.filter (·.role ≠ .tool) with held_eq
  have quiet : ∀ x : LlmMessage, x.role = .tool → x.hasToolCalls = false := by
    intro x isTool
    simp [hasToolCalls_eq, isTool]
  have noCalls : (∀ x ∈ seg, x.hasToolCalls = false) ↔ ∀ x ∈ held, x.hasToolCalls = false := by
    refine ⟨fun all x member => all x (mem_of_mem_filter member), fun all x member => ?_⟩
    by_cases isTool : x.role = .tool
    · exact quiet x isTool
    · exact all x (by simp [held_eq, member, isTool])
  have behind : (m :: (results ++ (held ++ rest))).IsChain Unmerged ↔
      (held ++ rest).IsChain Unmerged := by
    obtain ⟨last, ends, isTool⟩ := settling.results.ends
    have ends : (m :: results).getLast? = some last := by simp_all [getLast?_cons]
    have inner : (m :: results).IsChain Unmerged :=
      chain_of_noCalls (fun x member => quiet x (by simpa using (mem_filter.mp member).2)) m
    rw [← cons_append, isChain_append, ends]
    simp [inner, Unmerged, isTool]
  have begins : (front.toList ++ m :: (results ++ (held ++ rest))).IsChain Unmerged ↔
      (∀ last ∈ front, last.role ≠ .assistant) ∧ (held ++ rest).IsChain Unmerged := by
    rw [← behind]
    cases front with
    | none => simp
    | some last => simp [isChain_cons_cons, Unmerged, calls]
  unfold Stays
  rw [answeredInPlace_round_iff calls settling, begins, noCalls,
    append_iff_of_cons_iff answeredInPlace_plain_iff (by simp [held_eq]) startsPlain]
  -- the messages held back are merged with nothing among themselves
  have apart : (∀ x ∈ held, x.hasToolCalls = false) → held.IsChain Unmerged := by
    intro all
    exact (chain_of_noCalls all m).tail
  constructor
  · rintro ⟨⟨first, chain⟩, all, answered⟩
    exact ⟨first, all, (chain_append_iff (apart all)).mp chain, answered⟩
  · rintro ⟨first, all, chain, answered⟩
    exact ⟨⟨first, (chain_append_iff (apart all)).mpr chain⟩, all, answered⟩

theorem stays_truncate_iff (front : Option LlmMessage) :
    Stays front (truncateIncompleteToolEntries messages) ↔ RoundsApart front messages := by
  induction messages using rounds_induction generalizing front with
  | nil => exact ⟨fun _ => .nil, fun _ => stays_nil front⟩
  | stray m rest isTool =>
    rw [truncate_stray isTool]
    exact ⟨fun _ => .stray isTool, fun _ => stays_nil front⟩
  | plain m rest notTool noCalls ih =>
    rw [truncate_plain notTool noCalls, stays_plain_iff notTool noCalls (truncate_startsPlain rest),
      ih]
    refine ⟨.plain notTool noCalls, fun apart => ?_⟩
    cases apart with
    | stray isTool => exact absurd isTool notTool
    | plain _ _ later => exact later
    | unsettled calls | settled calls => simp [noCalls] at calls
  | unsettled m rest calls stays =>
    rw [truncate_unsettled calls stays]
    exact ⟨fun _ => .unsettled calls stays, fun _ => stays_nil front⟩
  | settled m rest seg after calls closes ih =>
    obtain ⟨rfl, settling⟩ := settleRound_iff.mp closes
    rw [truncate_settled calls closes, stays_round_iff calls settling (truncate_startsPlain after),
      ih]
    constructor
    · rintro ⟨begins, noCalls, later⟩
      exact .settled calls settling begins noCalls later
    · intro apart
      generalize split : seg ++ after = tail at apart
      cases apart with
      | stray isTool => exact absurd isTool (hasToolCalls_notTool calls)
      | plain _ noCalls => simp [calls] at noCalls
      | unsettled _ stays => simp [← split, closes] at stays
      | settled _ settling' begins noCalls later =>
        have again := settleRound_iff.mpr ⟨split, settling'⟩
        rw [closes] at again
        cases again
        exact ⟨begins, noCalls, later⟩

theorem providerVisibleMessages_visible :
    ∀ m ∈ providerVisibleMessages messages, m.hasProviderVisibleContent = true := by
  let shown := messages.filter LlmMessage.hasProviderVisibleContent
  let hidden : LlmMessage → Bool := fun m => !m.hasProviderVisibleContent
  -- a merged message has what made its first part visible
  have absorbed : ∀ last entry, hidden (absorbAssistant last entry) = true → hidden last = true := by
    intro last entry both
    cases reasoning : last.reasoningContent <;>
      simp_all [hidden, absorbAssistant, LlmMessage.append, LlmMessage.hasProviderVisibleContent]
  have cut := truncateLoop_countP hidden (normalizeToolCallEntries shown) _
    TruncateState.sound_start
  have merged := foldl_merge_countP absorbed shown []
  have none : shown.countP hidden = 0 := by
    simp [countP_eq_zero, shown, hidden]
  have all : (providerVisibleMessages messages).countP hidden = 0 :=
    Nat.le_zero.mp (none ▸ cut.trans merged)
  simpa [countP_eq_zero, hidden] using all

/-- What the truncation is given. -/
def mergedMessages (messages : List LlmMessage) : List LlmMessage :=
  normalizeToolCallEntries (messages.filter LlmMessage.hasProviderVisibleContent)

theorem normalForm_truncate_iff {messages : List LlmMessage}
    (visible : ∀ m ∈ truncateIncompleteToolEntries messages, m.hasProviderVisibleContent = true) :
    NormalForm (truncateIncompleteToolEntries messages) ↔ RoundsApart none messages := by
  rw [← stays_truncate_iff]
  refine ⟨fun normal => ⟨normal.unmerged, normal.answered⟩, ?_⟩
  rintro ⟨chain, answered⟩
  exact ⟨visible, chain, answered⟩

/-! ### Without the system messages -/

/-- The truncation looks at calls and results only. -/
theorem truncate_filter (p : LlmMessage → Bool) (tools : ∀ m, m.role = .tool → p m = true)
    (rounds : ∀ m, m.hasToolCalls = true → p m = true) (messages : List LlmMessage) :
    truncateIncompleteToolEntries (messages.filter p) =
      (truncateIncompleteToolEntries messages).filter p := by
  induction messages using rounds_induction with
  | nil => rfl
  | stray m rest isTool => simp [truncate_stray isTool, tools m isTool]
  | plain m rest notTool noCalls ih =>
    by_cases kept : p m = true
    all_goals simp [truncate_plain notTool noCalls, kept, ih]
  | unsettled m rest calls stays =>
    rw [filter_cons_of_pos (rounds m calls), truncate_unsettled calls stays,
      truncate_unsettled calls (by rw [settleRound_filter p tools, stays]; rfl)]
    rfl
  | settled m rest seg after calls closes ih =>
    rw [filter_cons_of_pos (rounds m calls), truncate_settled calls closes,
      truncate_settled calls (by rw [settleRound_filter p tools, closes]; rfl), ih]
    simp [rounds m calls, filter_filter, Bool.and_comm]

theorem notSystem_of_calls (calls : m.hasToolCalls = true) :
    decide (m.role ≠ .system) = true := by
  simp [hasToolCalls_role calls]

theorem providerTranscript_truncate :
    providerTranscript messages =
      truncateIncompleteToolEntries ((mergedMessages messages).filter (·.role ≠ .system)) := by
  rw [providerTranscript_eq, truncate_filter _ (by simp_all) fun m => notSystem_of_calls]
  rfl

theorem providerTranscript_eq_self_iff {messages : List LlmMessage}
    (plain : ∀ m ∈ messages, m.role ≠ .system) :
    providerTranscript messages = messages ↔ NormalForm messages := by
  rw [providerTranscript_eq, ← providerVisibleMessages_eq_self_iff]
  constructor
  · intro shown
    have part : messages <+ providerVisibleMessages messages := by
      nth_rewrite 1 [← shown]
      exact filter_sublist
    exact (part.eq_of_length_le (providerVisibleMessages_length _)).symm
  · intro same
    rw [show providerVisibleEntries messages = messages from same]
    exact filter_eq_self.mpr (by simpa using plain)

/-- A transcript stays as it is when its messages do. -/
theorem providerTranscriptMessages_eq_self_iff {entries : List TranscriptMessage}
    (plain : ∀ m ∈ entries.map message, m.role ≠ .system) :
    providerTranscriptMessages entries = entries ↔ NormalForm (entries.map message) := by
  constructor
  · intro same
    rw [← providerTranscript_eq_self_iff plain]
    exact (providerTranscript_message entries).symm.trans (congrArg (map message) same)
  · rintro ⟨visible, chain, answered⟩
    have all : entries.filter (fun entry => (message entry).hasProviderVisibleContent) = entries :=
      filter_eq_self.mpr fun entry member => visible _ (mem_map_of_mem member)
    have apart : entries.IsChain Unmerged := (isChain_map message).mp chain
    have kept : providerVisibleEntries entries = entries := by
      rw [providerVisibleEntries, all, normalize_of_chain apart, truncateIncompleteToolEntries,
        answered.loop entries rfl, nil_append]
    rw [providerTranscriptMessages, kept]
    exact filter_eq_self.mpr (by simpa [message] using plain)

/-- Normalising twice is normalising once exactly when the rounds of the merged conversation
stay apart; for a transcript, of the conversation without its system messages. -/
theorem normalisation_idempotent_iff (messages : List LlmMessage)
    (entries : List TranscriptMessage) :
    (providerVisibleMessages (providerVisibleMessages messages) =
        providerVisibleMessages messages ↔ RoundsApart none (mergedMessages messages)) ∧
    (providerTranscript (providerTranscript messages) = providerTranscript messages ↔
      RoundsApart none ((mergedMessages messages).filter (·.role ≠ .system))) ∧
    (providerTranscriptMessages (providerTranscriptMessages entries) =
        providerTranscriptMessages entries ↔
      RoundsApart none ((mergedMessages (entries.map message)).filter (·.role ≠ .system))) := by
  have transcript (messages : List LlmMessage) : NormalForm (providerTranscript messages) ↔
      RoundsApart none ((mergedMessages messages).filter (·.role ≠ .system)) := by
    rw [providerTranscript_truncate]
    apply normalForm_truncate_iff
    rw [← providerTranscript_truncate, providerTranscript_eq]
    intro m member
    exact providerVisibleMessages_visible _ m (mem_of_mem_filter member)
  have plain (messages : List LlmMessage) : ∀ m ∈ providerTranscript messages, m.role ≠ .system := by
    rw [providerTranscript_eq]
    simp
  refine ⟨?_, ?_, ?_⟩
  · rw [providerVisibleMessages_eq_self_iff]
    exact normalForm_truncate_iff (providerVisibleMessages_visible messages)
  · rw [providerTranscript_eq_self_iff (plain messages), transcript]
  · have same : (providerTranscriptMessages entries).map message =
        providerTranscript (entries.map message) := providerTranscript_message entries
    rw [providerTranscriptMessages_eq_self_iff (same ▸ plain _), same, transcript]

/-- A text that arrives inside a round is put in front of the next call, and so is one that only
a system message has kept from it. -/
theorem normalisation_not_idempotent :
    let messages := [shellCall "a", .assistant "still running", .tool "shell" "a" "done" false,
      shellCall "b", .tool "shell" "b" "done" false]
    let entries := [.assistant "I will look", ⟨.system, [.text "be brief"], none, none⟩,
      shellCall "a", .tool "shell" "a" "done" false].map TranscriptMessage.plain
    providerVisibleMessages (providerVisibleMessages messages) ≠
        providerVisibleMessages messages ∧
      providerTranscriptMessages (providerTranscriptMessages entries) ≠
        providerTranscriptMessages entries := by
  decide

end Astrcode
