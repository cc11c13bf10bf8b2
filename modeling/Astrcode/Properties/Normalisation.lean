import Astrcode.Library.Runs
import Astrcode.Properties.Transcript
import Mathlib.Data.List.Chain

/-!
# How normalisation moves entries

The entries behind a position of the provider transcript, for any kind of entry: what
the merging of tool calls leaves alone, and what one iteration of the loop that cuts
open rounds does with its output and with the entries it holds back. A whole run
follows step by step.
-/
namespace Astrcode

open ProviderVisibleEntry List

/-! ### Cutting open rounds -/

section Truncation

variable {E : Type} [ProviderVisibleEntry E] {s : TruncateState E}

/-- All that one iteration of the loop can do with an entry. -/
inductive TruncateMove (s : TruncateState E) (entry : E) :
    Except (List E) (TruncateState E) → Prop where
  | stray (closed : s.pending = none) : TruncateMove s entry (.error s.out)
  | pass (closed : s.pending = none) (pending : Option PendingRound)
      (starts : ∀ round, pending = some round → round.start = s.out.length) :
      TruncateMove s entry (.ok ⟨s.out ++ [entry], pending, s.buffered⟩)
  | wait (round : PendingRound) (opened : s.pending = some round) :
      TruncateMove s entry (.ok ⟨s.out, some round, s.buffered ++ [entry]⟩)
  | cut (round : PendingRound) (opened : s.pending = some round) :
      TruncateMove s entry (.error (s.out.take round.start))
  | answer (round next : PendingRound) (opened : s.pending = some round)
      (same : next.start = round.start) (isTool : (message entry).role = .tool) :
      TruncateMove s entry (.ok ⟨s.out ++ [entry], some next, s.buffered⟩)
  | settle (round : PendingRound) (opened : s.pending = some round)
      (isTool : (message entry).role = .tool) :
      TruncateMove s entry (.ok ⟨s.out ++ [entry] ++ s.buffered, none, []⟩)

theorem truncateStep_move (s : TruncateState E) (entry : E) :
    TruncateMove s entry (truncateStep s entry) := by
  obtain ⟨out, pending, buffered⟩ := s
  cases pending with
  | none =>
    by_cases isTool : (message entry).role = .tool
    · simp only [truncateStep, isTool, if_true]
      exact .stray rfl
    · simp only [truncateStep, isTool, if_false, Option.isSome_none, Bool.false_eq_true]
      split
      · exact .pass rfl _ (by rintro round ⟨⟩; rfl)
      · exact .pass rfl _ (by rintro round ⟨⟩)
  | some round =>
    by_cases isTool : (message entry).role = .tool
    · simp only [truncateStep, isTool, if_true]
      split
      · split
        · exact .settle round rfl isTool
        · exact .answer round _ rfl rfl isTool
      · exact .cut round rfl
    · simp only [truncateStep, isTool, if_false, Option.isSome_some, if_true]
      exact .wait round rfl

/-- Nothing waits unless a round is open, and an open round starts inside the output. -/
structure TruncateState.Sound (s : TruncateState E) : Prop where
  waits : s.pending = none → s.buffered = []
  inside : ∀ round, s.pending = some round → round.start < s.out.length

omit [ProviderVisibleEntry E] in
theorem TruncateState.sound_start : (⟨[], none, []⟩ : TruncateState E).Sound :=
  ⟨fun _ => rfl, by rintro round ⟨⟩⟩

theorem TruncateMove.sound {s s' : TruncateState E} {entry : E} (sound : s.Sound)
    (move : TruncateMove s entry (.ok s')) : s'.Sound := by
  cases move with
  | pass closed pending starts =>
    refine ⟨fun _ => sound.waits closed, ?_⟩
    intro round found
    simp [starts round found]
  | wait round opened =>
    refine ⟨by rintro ⟨⟩, ?_⟩
    rintro _ ⟨⟩
    exact sound.inside round opened
  | answer round next opened same isTool =>
    refine ⟨by rintro ⟨⟩, ?_⟩
    rintro _ ⟨⟩
    have inside := sound.inside round opened
    simp only [length_append, length_singleton]
    omega
  | settle round opened isTool => exact ⟨fun _ => rfl, by rintro round ⟨⟩⟩

/-- An iteration that goes on keeps every entry. -/
theorem TruncateMove.perm {s s' : TruncateState E} {entry : E} (sound : s.Sound)
    (move : TruncateMove s entry (.ok s')) :
    (s'.out ++ s'.buffered).Perm (s.out ++ s.buffered ++ [entry]) := by
  cases move with
  | pass closed pending starts => simp [sound.waits closed]
  | wait round opened => simp
  | answer round next opened same isTool =>
    simp only [append_assoc]
    exact List.Perm.append_left _ perm_append_comm
  | settle round opened isTool =>
    simp only [append_nil, append_assoc]
    exact List.Perm.append_left _ perm_append_comm

/-- An early return loses at least the entry it stops at. -/
theorem TruncateMove.error_sublist {entry : E} {out : List E}
    (move : TruncateMove s entry (.error out)) : out.Sublist s.out := by
  cases move with
  | stray closed => exact List.Sublist.refl _
  | cut round opened => exact take_sublist _ _

/-! #### Whole runs of the loop -/

/-- The loop over a list, unless it returns early. -/
def truncateRun (s : TruncateState E) : List E → Except (List E) (TruncateState E)
  | [] => .ok s
  | entry :: rest => truncateStep s entry >>= fun s => truncateRun s rest

theorem truncateLoop_ok {s s' : TruncateState E} {entry : E} (step : truncateStep s entry = .ok s')
    (rest : List E) : truncateLoop s (entry :: rest) = truncateLoop s' rest := by
  rw [truncateLoop, step]

theorem truncateLoop_error {entry : E} {out : List E}
    (step : truncateStep s entry = .error out) (rest : List E) :
    truncateLoop s (entry :: rest) = out := by
  rw [truncateLoop, step]

theorem truncateLoop_append (s : TruncateState E) (front rest : List E) :
    truncateLoop s (front ++ rest) =
      match truncateRun s front with
      | .ok s' => truncateLoop s' rest
      | .error out => out := by
  induction front generalizing s with
  | nil => rfl
  | cons entry front ih =>
    rw [cons_append, truncateLoop, truncateRun]
    cases truncateStep s entry with
    | error early => rfl
    | ok mid => exact ih mid

variable (entries : List E)

/-- A run that goes on keeps every entry, and one that returns early loses some. -/
theorem truncateRun_spec (sound : s.Sound) :
    match truncateRun s entries with
    | .ok s' => s'.Sound ∧ (s'.out ++ s'.buffered).Perm (s.out ++ s.buffered ++ entries)
    | .error out => out.length < s.out.length + s.buffered.length + entries.length := by
  induction entries generalizing s with
  | nil => exact ⟨sound, by simp⟩
  | cons entry entries ih =>
    have move := truncateStep_move s entry
    rw [truncateRun]
    cases step : truncateStep s entry with
    | error early =>
      rw [step] at move
      have shorter := move.error_sublist.length_le
      simp only [bind, Except.bind, length_cons]
      omega
    | ok mid =>
      rw [step] at move
      have later := ih (move.sound sound)
      have kept := move.perm sound
      have size := kept.length_eq
      simp only [bind, Except.bind]
      cases run : truncateRun mid entries with
      | error out =>
        rw [run] at later
        simp only [length_append, length_cons, length_nil] at size ⊢
        omega
      | ok s' =>
        rw [run] at later
        exact ⟨later.1, later.2.trans (by simpa using kept.append_right entries)⟩

/-- What the loop has let out stays at the front of the result. Only an open round may
still be taken back; where it is not, the next entry let out is one of its results. -/
theorem truncateLoop_keeps_out (s : TruncateState E) (sound : s.Sound) :
    (s.pending = none → s.out <+: truncateLoop s entries) ∧
      ∀ round, s.pending = some round →
        truncateLoop s entries = s.out.take round.start ∨
          ∃ result ∈ entries, (message result).role = .tool ∧
            s.out ++ [result] <+: truncateLoop s entries := by
  induction entries generalizing s with
  | nil =>
    constructor
    · intro closed
      simp [closed]
    · intro round found
      simp [found]
  | cons entry entries ih =>
    have move := truncateStep_move s entry
    cases step : truncateStep s entry with
    | error early =>
      rw [step] at move
      rw [truncateLoop_error step]
      cases move with
      | stray closed => simp [closed]
      | cut round found => simp [found]
    | ok mid =>
      rw [step] at move
      rw [truncateLoop_ok step]
      have next := ih mid (move.sound sound)
      cases move with
      | pass closed pending starts =>
        refine ⟨fun _ => ?_, by simp [closed]⟩
        cases pending with
        | none => exact (prefix_append _ _).trans (next.1 rfl)
        | some round =>
          obtain taken | ⟨result, -, -, front⟩ := next.2 round rfl
          · rw [taken, starts round rfl]
            simp
          · exact ((prefix_append _ _).trans (prefix_append _ _)).trans front
      | wait round found =>
        refine ⟨by simp [found], fun other same => ?_⟩
        obtain taken | ⟨result, member, isTool, front⟩ := next.2 round rfl
        · rw [found] at same
          cases same
          exact Or.inl taken
        · exact Or.inr ⟨result, mem_cons_of_mem _ member, isTool, front⟩
      | answer round later found start isTool =>
        refine ⟨by simp [found], fun other same => ?_⟩
        rw [found] at same
        cases same
        have inside := sound.inside round found
        obtain taken | ⟨result, -, -, front⟩ := next.2 later rfl
        · left
          rw [taken, start, take_append_of_le_length (by omega)]
        · exact Or.inr ⟨entry, mem_cons_self, isTool, (prefix_append _ _).trans front⟩
      | settle round found isTool =>
        refine ⟨by simp [found], fun _ _ => Or.inr ⟨entry, mem_cons_self, isTool, ?_⟩⟩
        exact (prefix_append _ _).trans (next.1 rfl)

/-- The loop only drops entries. -/
theorem truncateLoop_countP (p : E → Bool) (entries : List E) (s : TruncateState E)
    (sound : s.Sound) :
    (truncateLoop s entries).countP p ≤ (s.out ++ s.buffered ++ entries).countP p := by
  induction entries generalizing s with
  | nil =>
    have kept : (truncateLoop s []).Sublist s.out := by
      rw [truncateLoop]
      split
      · exact take_sublist _ _
      · exact List.Sublist.refl _
    have fewer : (truncateLoop s []).countP p ≤ s.out.countP p := kept.countP_le
    simp only [countP_append]
    omega
  | cons entry entries ih =>
    have move := truncateStep_move s entry
    cases step : truncateStep s entry with
    | error early =>
      rw [step] at move
      rw [truncateLoop_error step]
      calc early.countP p ≤ s.out.countP p := move.error_sublist.countP_le
        _ ≤ (s.out ++ s.buffered ++ entry :: entries).countP p := by
          simp only [countP_append]
          omega
    | ok mid =>
      rw [step] at move
      rw [truncateLoop_ok step]
      calc (truncateLoop mid entries).countP p
          ≤ (mid.out ++ mid.buffered ++ entries).countP p := ih mid (move.sound sound)
        _ = (s.out ++ s.buffered ++ entry :: entries).countP p := by
          rw [((move.perm sound).append_right entries).countP_eq]
          simp

theorem truncateRun_message (s : TruncateState E) (entries : List E) :
    truncateRun s.messages (entries.map message) =
      match truncateRun s entries with
      | .ok s' => .ok s'.messages
      | .error out => .error (out.map message) := by
  induction entries generalizing s with
  | nil => rfl
  | cons entry entries ih =>
    rw [map_cons, truncateRun, truncateStep_message, truncateRun]
    cases truncateStep s entry with
    | error early => rfl
    | ok mid => exact ih mid

/-- Whether anything is held back after a run depends on the messages only. -/
theorem truncateRun_released_iff :
    (∀ s, truncateRun ⟨[], none, []⟩ (entries.map message) = .ok s → s.buffered = []) ↔
      ∀ s, truncateRun ⟨[], none, []⟩ entries = .ok s → s.buffered = [] := by
  have same : truncateRun ⟨[], none, []⟩ (entries.map message) = _ :=
    truncateRun_message ⟨[], none, []⟩ entries
  rw [same]
  cases truncateRun ⟨[], none, []⟩ entries with
  | error out => simp
  | ok s => simp

end Truncation

/-! ### Merging tool calls -/

section Merging

variable {E : Type} [ProviderVisibleEntry E] {p : E → Bool} {entries merged : List E}

/-- The second of two neighbours is not merged into the first. -/
def Unmerged (entry next : E) : Prop :=
  ¬ ((message entry).role = .assistant ∧ (message next).hasToolCalls = true)

instance (entry next : E) : Decidable (Unmerged entry next) :=
  inferInstanceAs (Decidable (¬ _))

theorem merge_of_unmerged {entry : E} (apart : ∀ last ∈ merged.getLast?, Unmerged last entry) :
    mergeToolCallEntry merged entry = merged ++ [entry] := by
  unfold mergeToolCallEntry
  cases found : merged.getLast? with
  | none => rfl
  | some last =>
    simp only []
    rw [if_neg]
    simp only [Bool.and_eq_true, decide_eq_true_eq]
    tauto

theorem merge_of_merged {front : List E} {last entry : E} (joined : ¬ Unmerged last entry) :
    mergeToolCallEntry (front ++ [last]) entry = front ++ [absorbAssistant last entry] := by
  unfold Unmerged at joined
  unfold mergeToolCallEntry
  simp only [getLast?_append, getLast?_singleton, Option.some_or, dropLast_concat]
  rw [if_pos]
  simp only [Bool.and_eq_true, decide_eq_true_eq]
  tauto

/-- Merging looks at the last entry only. -/
theorem merge_append (front : List E) (entry : E) (nonempty : merged ≠ []) :
    mergeToolCallEntry (front ++ merged) entry = front ++ mergeToolCallEntry merged entry := by
  obtain ⟨init, last, rfl⟩ := eq_nil_or_concat merged |>.resolve_left nonempty
  rw [concat_eq_append, ← append_assoc]
  by_cases apart : Unmerged last entry
  · rw [merge_of_unmerged (by simpa using apart), merge_of_unmerged (by simpa using apart)]
    simp
  · rw [merge_of_merged apart, merge_of_merged apart]
    simp

theorem merge_ne_nil (merged : List E) (entry : E) : mergeToolCallEntry merged entry ≠ [] := by
  unfold mergeToolCallEntry
  split
  · split <;> simp
  · simp

theorem foldl_merge_append (front : List E) (rest merged : List E) (nonempty : merged ≠ []) :
    rest.foldl mergeToolCallEntry (front ++ merged) =
      front ++ rest.foldl mergeToolCallEntry merged := by
  induction rest generalizing merged with
  | nil => rfl
  | cons entry rest ih =>
    rw [foldl_cons, foldl_cons, merge_append front entry nonempty,
      ih _ (merge_ne_nil merged entry)]

/-- Merging makes no entry with a property that a merged entry has from its first part. -/
theorem merge_countP
    (absorbed : ∀ last entry, p (absorbAssistant last entry) = true → p last = true)
    (merged : List E) (entry : E) :
    (mergeToolCallEntry merged entry).countP p ≤ (merged ++ [entry]).countP p := by
  cases merged using reverseRecOn with
  | nil => simp [mergeToolCallEntry]
  | append_singleton init last =>
    by_cases apart : Unmerged last entry
    · rw [merge_of_unmerged (by simpa using apart)]
    · rw [merge_of_merged apart]
      have weaker := absorbed last entry
      simp only [countP_append, countP_singleton]
      by_cases merged : p (absorbAssistant last entry) = true
      · rw [if_pos merged, if_pos (weaker merged)]
        omega
      · rw [if_neg merged]
        omega

theorem foldl_merge_countP
    (absorbed : ∀ last entry, p (absorbAssistant last entry) = true → p last = true)
    (rest merged : List E) :
    (rest.foldl mergeToolCallEntry merged).countP p ≤ (merged ++ rest).countP p := by
  induction rest generalizing merged with
  | nil => simp
  | cons entry rest ih =>
    have first := merge_countP absorbed merged entry
    have others := ih (mergeToolCallEntry merged entry)
    simp only [foldl_cons, countP_append, countP_cons, countP_nil] at *
    omega

theorem normalize_of_chain (chain : entries.IsChain Unmerged) :
    normalizeToolCallEntries entries = entries := by
  induction entries using reverseRecOn with
  | nil => rfl
  | append_singleton entries entry ih =>
    obtain ⟨front, -, apart⟩ := isChain_append.mp chain
    have merged := ih front
    unfold normalizeToolCallEntries at merged ⊢
    rw [foldl_append, merged, foldl_cons, foldl_nil]
    exact merge_of_unmerged fun last found => apart last found entry (by simp)

/-- Entries none of which is lost are merged nowhere. -/
theorem chain_of_count
    (absorbed : ∀ last entry, p (absorbAssistant last entry) = true → p last = true)
    (all : entries.length ≤ (normalizeToolCallEntries entries).countP p) :
    entries.IsChain Unmerged := by
  induction entries using reverseRecOn with
  | nil => exact .nil
  | append_singleton front entry ih =>
    unfold normalizeToolCallEntries at all
    rw [foldl_append, foldl_cons, foldl_nil] at all
    have step := merge_countP absorbed (front.foldl mergeToolCallEntry []) entry
    have chain : front.IsChain Unmerged := by
      apply ih
      unfold normalizeToolCallEntries
      simp only [countP_append, countP_singleton, length_append, length_singleton] at step all
      split at step <;> omega
    have kept := normalize_of_chain chain
    unfold normalizeToolCallEntries at kept
    rw [kept] at all
    refine isChain_append.mpr ⟨chain, .singleton _, ?_⟩
    intro last found next same
    cases Option.mem_some_iff.mp same
    by_contra joined
    obtain ⟨init, rfl⟩ := getLast?_eq_some_iff.mp found
    rw [merge_of_merged joined] at all
    have most := countP_le_length (p := p) (l := init ++ [absorbAssistant last entry])
    simp only [length_append, length_singleton] at all most
    omega

/-- A front that is merged neither inside nor with what follows stays as it is. -/
theorem normalize_append_of_chain {front rest : List E}
    (chain : (front ++ rest.take 1).IsChain Unmerged) :
    normalizeToolCallEntries (front ++ rest) = front ++ normalizeToolCallEntries rest := by
  obtain ⟨inner, -, apart⟩ := isChain_append.mp chain
  have kept := normalize_of_chain inner
  unfold normalizeToolCallEntries at kept ⊢
  rw [foldl_append, kept]
  cases rest with
  | nil => simp
  | cons entry rest =>
    rw [foldl_cons, foldl_cons, merge_of_unmerged fun last found => apart last found entry
      (by simp), foldl_merge_append front rest [entry] (by simp)]
    rfl

end Merging
end Astrcode
