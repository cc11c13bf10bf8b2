import Astrcode.Core.Llm

/-!
# The tool-call protocol at the provider boundary

A provider accepts a conversation in which every assistant message with tool calls
is followed at once by the Tool messages that answer exactly those calls. The
normalisation establishes this for a round whose results arrive undisturbed. Two
things it lets through break it: an assistant message with calls of its own that
arrives inside an open round is buffered and put back unanswered, and a Tool
message may answer one call twice. `RoundsUndisturbed` says that neither happens in
a round that gets settled; that is exactly when the output follows the protocol.
-/
namespace Astrcode

variable {m : LlmMessage} {callIds answered : List String} {rest seg after : List LlmMessage}

open ProviderVisibleEntry List

/-- The protocol as a grammar: plain messages, and rounds of an assistant message
with the block of Tool messages that answers each of its calls once. -/
inductive ProtocolValid : List LlmMessage → Prop where
  | nil : ProtocolValid []
  | plain {m : LlmMessage} {rest : List LlmMessage} (notTool : m.role ≠ .tool)
      (noCalls : m.hasToolCalls = false) (valid : ProtocolValid rest) :
      ProtocolValid (m :: rest)
  | round {m : LlmMessage} {block rest : List LlmMessage} (calls : m.hasToolCalls = true)
      (tools : ∀ t ∈ block, t.role = .tool)
      (once : (block.flatMap LlmMessage.toolResultIds).Nodup)
      (answers : ∀ id, id ∈ block.flatMap LlmMessage.toolResultIds ↔ id ∈ m.toolCallIds)
      (valid : ProtocolValid rest) :
      ProtocolValid (m :: (block ++ rest))

/-- Splits the messages after an assistant message behind the result that settles
its round. `none` when the round stays open: a result that answers none of its open
calls comes first, or the messages end. -/
@[simp] def settleRound (callIds : List String) :
    List String → List LlmMessage → Option (List LlmMessage × List LlmMessage)
  | _, [] => none
  | answered, m :: rest =>
    if m.role = .tool then
      if PendingRound.accepts ⟨0, callIds, answered⟩ m.toolResultIds then
        if PendingRound.settled ⟨0, callIds, answered ++ m.toolResultIds⟩ then some ([m], rest)
        else (settleRound callIds (answered ++ m.toolResultIds) rest).map fun (seg, after) =>
          (m :: seg, after)
      else none
    else (settleRound callIds answered rest).map fun (seg, after) => (m :: seg, after)

/-- A message that leaves the round it arrives in intact. -/
def Undisturbing (m : LlmMessage) : Prop :=
  m.hasToolCalls = false ∧ (m.role = .tool → m.toolResultIds.Nodup)

/-- Every round that gets settled is free of nested calls and of doubled results.
Nothing is asked of what follows a round that stays open or a stray result: the
normalisation cuts the conversation there. -/
inductive RoundsUndisturbed : List LlmMessage → Prop where
  | nil : RoundsUndisturbed []
  | stray {m : LlmMessage} {rest : List LlmMessage} (isTool : m.role = .tool) :
      RoundsUndisturbed (m :: rest)
  | plain {m : LlmMessage} {rest : List LlmMessage} (notTool : m.role ≠ .tool)
      (noCalls : m.hasToolCalls = false) (undisturbed : RoundsUndisturbed rest) :
      RoundsUndisturbed (m :: rest)
  | unsettled {m : LlmMessage} {rest : List LlmMessage} (calls : m.hasToolCalls = true)
      (stays : settleRound m.toolCallIds [] rest = none) : RoundsUndisturbed (m :: rest)
  | settled {m : LlmMessage} {rest seg after : List LlmMessage} (calls : m.hasToolCalls = true)
      (closes : settleRound m.toolCallIds [] rest = some (seg, after))
      (intact : ∀ x ∈ seg, Undisturbing x) (undisturbed : RoundsUndisturbed after) :
      RoundsUndisturbed (m :: rest)

/-! ### Messages -/

private theorem toolCall_any_iff (content : List LlmContent) :
    (content.any fun c => c.toolCallId?.isSome) = !(content.filterMap LlmContent.toolCallId?).isEmpty := by
  induction content with
  | nil => rfl
  | cons c cs ih => cases h : c.toolCallId? <;> simp [h, ih]

theorem hasToolCalls_eq (m : LlmMessage) :
    m.hasToolCalls = (decide (m.role = .assistant) && !m.toolCallIds.isEmpty) := by
  rw [LlmMessage.hasToolCalls, toolCall_any_iff, LlmMessage.toolCallIds]

section

variable (calls : m.hasToolCalls = true)

include calls

theorem hasToolCalls_role : m.role = .assistant := by
  simp only [hasToolCalls_eq, Bool.and_eq_true, decide_eq_true_eq] at calls
  exact calls.1

private theorem hasToolCalls_ids : m.toolCallIds ≠ [] := by
  simp only [hasToolCalls_eq, Bool.and_eq_true, Bool.not_eq_true', isEmpty_eq_false_iff] at calls
  exact calls.2

theorem hasToolCalls_notTool : m.role ≠ .tool := by
  rw [hasToolCalls_role calls]
  decide

end

/-! ### What the truncation returns -/

section Loop

variable {E : Type} [ProviderVisibleEntry E] {entry : E}

theorem truncateStep_open (entry : E) (calls : (message entry).hasToolCalls = true) (out : List E) :
    truncateStep ⟨out, none, []⟩ entry =
      .ok ⟨out ++ [entry], some ⟨out.length, (message entry).toolCallIds, []⟩, []⟩ := by
  simp [hasToolCalls_role calls, hasToolCalls_ids calls]

theorem truncateStep_plain (entry : E) (notTool : (message entry).role ≠ .tool)
    (noCalls : (message entry).hasToolCalls = false) (out : List E) :
    truncateStep ⟨out, none, []⟩ entry = .ok ⟨out ++ [entry], none, []⟩ := by
  rw [hasToolCalls_eq] at noCalls
  simp [notTool, noCalls]

/-- From inside a round the loop either cuts the round off or runs on behind it, with
the results first and the messages that arrived in between after them. -/
theorem truncateLoop_pending (rest : List E) :
    ∀ (out buffered : List E) (start : Nat) (callIds answered : List String),
      start ≤ out.length →
      truncateLoop ⟨out, some ⟨start, callIds, answered⟩, buffered⟩ rest =
        match settleRound callIds answered (rest.map message) with
        | none => out.take start
        | some (seg, _) =>
          let round := rest.take seg.length
          truncateLoop ⟨out ++ round.filter (fun e => (message e).role = .tool) ++ buffered ++
            round.filter (fun e => (message e).role ≠ .tool), none, []⟩ (rest.drop seg.length) := by
  induction rest with
  | nil =>
    intro out buffered start callIds answered inside
    rfl
  | cons m rest ih =>
    intro out buffered start callIds answered inside
    have inside' : start ≤ (out ++ [m]).length := by simp; omega
    by_cases isTool : (message m).role = .tool
    · -- what a round accepts does not depend on where it began
      have accepts : ∀ ids, PendingRound.accepts ⟨start, callIds, answered⟩ ids =
          PendingRound.accepts ⟨0, callIds, answered⟩ ids := fun _ => rfl
      have settled : ∀ answered, PendingRound.settled ⟨start, callIds, answered⟩ =
          PendingRound.settled ⟨0, callIds, answered⟩ := fun _ => rfl
      simp only [truncateLoop, truncateStep, map_cons, settleRound, isTool, if_true, accepts, settled]
      by_cases accepted : PendingRound.accepts ⟨0, callIds, answered⟩ (message m).toolResultIds
      · by_cases done : PendingRound.settled ⟨0, callIds, answered ++ (message m).toolResultIds⟩
        -- settled: the loop goes on with an empty buffer, as the right side says
        · simp [accepted, done, isTool]
        · simp only [accepted, done, if_true, Bool.false_eq_true, if_false]
          rw [ih _ _ _ _ _ inside', take_append_of_le_length inside]
          cases settleRound callIds (answered ++ (message m).toolResultIds) (rest.map message) with
          | none => rfl
          | some split => simp [isTool]
      · simp [accepted]
    · simp only [truncateLoop, truncateStep, map_cons, settleRound, isTool, if_false,
        Option.isSome_some, if_true]
      rw [ih _ _ _ _ _ inside]
      cases settleRound callIds answered (rest.map message) with
      | none => rfl
      | some split => simp [isTool]

end Loop

/-- The messages behind a call up to the result that settles its round. -/
inductive Settling (callIds : List String) : List String → List LlmMessage → Prop where
  | last {answered : List String} {m : LlmMessage} (isTool : m.role = .tool)
      (accepted : PendingRound.accepts ⟨0, callIds, answered⟩ m.toolResultIds = true)
      (done : PendingRound.settled ⟨0, callIds, answered ++ m.toolResultIds⟩ = true) :
      Settling callIds answered [m]
  | result {answered : List String} {m : LlmMessage} {seg : List LlmMessage}
      (isTool : m.role = .tool)
      (accepted : PendingRound.accepts ⟨0, callIds, answered⟩ m.toolResultIds = true)
      (waits : ¬ PendingRound.settled ⟨0, callIds, answered ++ m.toolResultIds⟩ = true)
      (later : Settling callIds (answered ++ m.toolResultIds) seg) :
      Settling callIds answered (m :: seg)
  | between {answered : List String} {m : LlmMessage} {seg : List LlmMessage}
      (notTool : m.role ≠ .tool) (later : Settling callIds answered seg) :
      Settling callIds answered (m :: seg)

theorem settleRound_iff :
    settleRound callIds answered rest = some (seg, after) ↔
      rest = seg ++ after ∧ Settling callIds answered seg := by
  constructor
  · intro closes
    induction rest generalizing answered seg with
    | nil => simp at closes
    | cons m rest ih =>
      simp only [settleRound] at closes
      split at closes
      · next isTool =>
        split at closes
        · next accepted =>
          split at closes
          · next done =>
            cases closes
            exact ⟨rfl, .last isTool accepted done⟩
          · next waits =>
            obtain ⟨⟨seg', after'⟩, inner, equal⟩ := Option.map_eq_some_iff.mp closes
            cases equal
            obtain ⟨rfl, later⟩ := ih inner
            exact ⟨rfl, .result isTool accepted waits later⟩
        · cases closes
      · next notTool =>
        obtain ⟨⟨seg', after'⟩, inner, equal⟩ := Option.map_eq_some_iff.mp closes
        cases equal
        obtain ⟨rfl, later⟩ := ih inner
        exact ⟨rfl, .between notTool later⟩
  · rintro ⟨rfl, settling⟩
    induction settling with
    | last isTool accepted done => simp [isTool, accepted, done]
    | result isTool accepted waits _ ih => simp [isTool, accepted, waits, ih]
    | between notTool _ ih => simp [notTool, ih]

/-- Induction along the rounds: a settled round is left for what follows it. -/
@[elab_as_elim]
theorem rounds_induction {motive : List LlmMessage → Prop} (messages : List LlmMessage)
    (nil : motive []) (stray : ∀ m rest, m.role = .tool → motive (m :: rest))
    (plain : ∀ m rest, m.role ≠ .tool → m.hasToolCalls = false → motive rest → motive (m :: rest))
    (unsettled : ∀ m rest, m.hasToolCalls = true → settleRound m.toolCallIds [] rest = none →
      motive (m :: rest)) (settled : ∀ m rest seg after, m.hasToolCalls = true →
      settleRound m.toolCallIds [] rest = some (seg, after) → motive after → motive (m :: rest)) :
    motive messages := by
  induction size : messages.length using Nat.strongRecOn generalizing messages with
  | _ n ih =>
    subst size
    cases messages with
    | nil => exact nil
    | cons m rest =>
      by_cases isTool : m.role = .tool
      · exact stray m rest isTool
      cases calls : m.hasToolCalls with
      | false => exact plain m rest isTool calls (ih _ (by simp) rest rfl)
      | true =>
        cases closes : settleRound m.toolCallIds [] rest with
        | none => exact unsettled m rest calls closes
        | some split =>
          refine settled m rest split.1 split.2 calls closes (ih _ ?_ _ rfl)
          rw [(settleRound_iff.mp closes).1, length_cons, length_append]
          omega

/-- The truncation behind a call that starts a round, in the same way. -/
private theorem truncateLoop_settled (out : List LlmMessage) (start : Nat) (inside : start ≤ out.length)
    (closes : settleRound callIds answered rest = some (seg, after)) :
    truncateLoop ⟨out, some ⟨start, callIds, answered⟩, []⟩ rest =
      truncateLoop ⟨out ++ seg.filter (·.role = .tool) ++ seg.filter (·.role ≠ .tool), none, []⟩
        after := by
  have same : rest.map message = rest := map_id rest
  rw [truncateLoop_pending _ _ _ _ _ _ inside, same, closes]
  obtain ⟨rfl, -⟩ := settleRound_iff.mp closes
  simp

private theorem truncateLoop_unsettled (out : List LlmMessage) (start : Nat)
    (inside : start ≤ out.length) (stays : settleRound callIds answered rest = none) :
    truncateLoop ⟨out, some ⟨start, callIds, answered⟩, []⟩ rest = out.take start := by
  have same : rest.map message = rest := map_id rest
  rw [truncateLoop_pending _ _ _ _ _ _ inside, same, stays]

private theorem truncateLoop_out (rest : List LlmMessage) (out : List LlmMessage) :
    truncateLoop ⟨out, none, []⟩ rest = out ++ truncateIncompleteToolEntries rest := by
  induction rest using rounds_induction generalizing out with
  | nil => simp [truncateIncompleteToolEntries]
  | stray m rest isTool =>
    simp [truncateIncompleteToolEntries, isTool]
  | plain m rest notTool noCalls ih =>
    simp only [truncateIncompleteToolEntries, truncateLoop, truncateStep_plain m notTool noCalls]
    simp [ih]
  | unsettled m rest calls stays =>
    simp only [truncateIncompleteToolEntries, truncateLoop, truncateStep_open m calls]
    simp [truncateLoop_unsettled, stays]
  | settled m rest seg after calls closes ih =>
    simp only [truncateIncompleteToolEntries, truncateLoop, truncateStep_open m calls]
    simp [truncateLoop_settled _ _ _ closes, ih]

section Equations

variable {m : LlmMessage} {rest : List LlmMessage}

theorem truncate_stray (isTool : m.role = .tool) :
    truncateIncompleteToolEntries (m :: rest) = [] := by
  simp [truncateIncompleteToolEntries, isTool]

theorem truncate_plain (notTool : m.role ≠ .tool) (noCalls : m.hasToolCalls = false) :
    truncateIncompleteToolEntries (m :: rest) = m :: truncateIncompleteToolEntries rest := by
  rw [truncateIncompleteToolEntries, truncateLoop, truncateStep_plain m notTool noCalls]
  exact truncateLoop_out rest [m]

theorem truncate_unsettled (calls : m.hasToolCalls = true)
    (stays : settleRound m.toolCallIds [] rest = none) :
    truncateIncompleteToolEntries (m :: rest) = [] := by
  rw [truncateIncompleteToolEntries, truncateLoop, truncateStep_open m calls]
  simp [truncateLoop_unsettled, stays]

theorem truncate_settled {seg after : List LlmMessage} (calls : m.hasToolCalls = true)
    (closes : settleRound m.toolCallIds [] rest = some (seg, after)) :
    truncateIncompleteToolEntries (m :: rest) =
      m :: (seg.filter (·.role = .tool) ++
        (seg.filter (·.role ≠ .tool) ++ truncateIncompleteToolEntries after)) := by
  rw [truncateIncompleteToolEntries, truncateLoop, truncateStep_open m calls]
  simp [truncateLoop_settled _ _ _ closes, truncateLoop_out]

end Equations

/-! ### What a settled round holds -/

/-- The ids answered by the Tool messages among `ms`. -/
private def answeredIds (ms : List LlmMessage) : List String :=
  (ms.filter (·.role = .tool)).flatMap LlmMessage.toolResultIds

private structure Settles (callIds answered : List String) (seg : List LlmMessage) : Prop where
  mine : ∀ id ∈ answeredIds seg, id ∈ callIds ∧ id ∉ answered
  complete : ∀ id ∈ callIds, id ∈ answered ∨ id ∈ answeredIds seg
  once : (answeredIds seg).Nodup ↔ ∀ t ∈ seg, t.role = .tool → t.toolResultIds.Nodup

private theorem answeredIds_tool (isTool : m.role = .tool) (seg : List LlmMessage) :
    answeredIds (m :: seg) = m.toolResultIds ++ answeredIds seg := by
  simp [answeredIds, isTool]

private theorem answeredIds_other (notTool : m.role ≠ .tool) (seg : List LlmMessage) :
    answeredIds (m :: seg) = answeredIds seg := by
  simp [answeredIds, notTool]

private theorem accepts_iff {ids : List String} :
    PendingRound.accepts ⟨0, callIds, answered⟩ ids = true ↔
      ids ≠ [] ∧ ∀ id ∈ ids, id ∈ callIds ∧ id ∉ answered := by
  simp [PendingRound.accepts]

private theorem settled_iff :
    PendingRound.settled ⟨0, callIds, answered⟩ = true ↔ ∀ id ∈ callIds, id ∈ answered := by
  simp [PendingRound.settled]

section

variable (settling : Settling callIds answered seg)

include settling

private theorem Settling.mem_answeredIds (id : String) :
    id ∈ answeredIds seg ↔ id ∈ callIds ∧ id ∉ answered := by
  induction settling with
  | last isTool accepted done =>
    have fresh := (accepts_iff.mp accepted).2
    have done := settled_iff.mp done
    grind [answeredIds]
  | result isTool accepted _ _ ih =>
    have fresh := (accepts_iff.mp accepted).2
    simp only [answeredIds_tool isTool, mem_append, ih]
    grind
  | between notTool _ ih => rw [answeredIds_other notTool, ih]

private theorem Settling.nodup_answeredIds :
    (answeredIds seg).Nodup ↔ ∀ t ∈ seg, t.role = .tool → t.toolResultIds.Nodup := by
  induction settling with
  | last isTool => simp [answeredIds, isTool]
  | @result answered m seg isTool _ _ later ih =>
    -- a later result may only answer what is still open, so no id comes twice across messages
    have apart : ∀ id ∈ m.toolResultIds, id ∉ answeredIds seg := by
      intro id member again
      exact ((later.mem_answeredIds id).mp again).2 (by simp [member])
    simp only [answeredIds_tool isTool, nodup_append, ih, forall_mem_cons, isTool, true_imp_iff]
    grind
  | between notTool _ ih => simp [answeredIds_other notTool, ih, notTool]

private theorem Settling.settles :
    Settles callIds answered seg where
  mine id := (settling.mem_answeredIds id).mp
  complete id member := or_iff_not_imp_left.mpr fun fresh =>
    (settling.mem_answeredIds id).mpr ⟨member, fresh⟩
  once := settling.nodup_answeredIds

end

/-! ### Reading the protocol off a list -/

variable (ms : List LlmMessage)

def StartsPlain : Prop :=
  ∀ t ts, ms = t :: ts → t.role ≠ .tool

theorem StartsPlain.append {held rest : List LlmMessage} (notTools : ∀ m ∈ held, m.role ≠ .tool)
    (startsPlain : StartsPlain rest) : StartsPlain (held ++ rest) := by
  intro t ts equal
  cases held with
  | nil => exact startsPlain t ts equal
  | cons other held =>
    cases equal
    exact notTools t (by simp)

/-- Where a message in front of a list may not carry calls, none of several may. -/
theorem append_iff_of_cons_iff {P : List LlmMessage → Prop}
    (cons : ∀ m rest, m.role ≠ .tool → StartsPlain rest →
      (P (m :: rest) ↔ m.hasToolCalls = false ∧ P rest))
    {held rest : List LlmMessage} (notTools : ∀ m ∈ held, m.role ≠ .tool)
    (startsPlain : StartsPlain rest) :
    P (held ++ rest) ↔ (∀ m ∈ held, m.hasToolCalls = false) ∧ P rest := by
  induction held with
  | nil => simp
  | cons m held ih =>
    have ⟨notTool, notTools⟩ := forall_mem_cons.mp notTools
    rw [cons_append, cons m _ notTool (startsPlain.append notTools), ih notTools]
    simp [and_assoc]

private theorem ProtocolValid.startsPlain {ms : List LlmMessage} (valid : ProtocolValid ms) :
    StartsPlain ms := by
  rintro t ts rfl
  cases valid with
  | plain notTool => exact notTool
  | round calls => exact hasToolCalls_notTool calls

theorem truncate_startsPlain :
    StartsPlain (truncateIncompleteToolEntries ms) := by
  intro t ts equal
  induction ms using rounds_induction with
  | nil => simp [truncateIncompleteToolEntries] at equal
  | stray m rest isTool => simp [truncate_stray isTool] at equal
  | plain m rest notTool noCalls =>
    rw [truncate_plain notTool noCalls] at equal
    cases equal
    exact notTool
  | unsettled m rest calls stays => simp [truncate_unsettled calls stays] at equal
  | settled m rest seg after calls closes =>
    rw [truncate_settled calls closes] at equal
    cases equal
    exact hasToolCalls_notTool calls

/-- Two ways to cut a leading block of Tool messages off one list agree. -/
private theorem block_unique {block block' more more' : List LlmMessage}
    (tools : ∀ t ∈ block, t.role = .tool) (tools' : ∀ t ∈ block', t.role = .tool)
    (plain : StartsPlain more) (plain' : StartsPlain more')
    (same : block ++ more = block' ++ more') : block = block' ∧ more = more' := by
  induction block generalizing block' with
  | nil =>
    cases block' with
    | nil => exact ⟨rfl, same⟩
    -- one block is over where the other still has a Tool message
    | cons t ts => exact absurd (tools' t (by simp)) (plain t (ts ++ more') same)
  | cons t ts ih =>
    cases block' with
    | nil => exact absurd (tools t (by simp)) (plain' t (ts ++ more) same.symm)
    | cons t' ts' =>
      obtain ⟨rfl, tail⟩ := cons.inj same
      obtain ⟨rfl, rfl⟩ := ih (forall_mem_cons.mp tools).2
        (forall_mem_cons.mp tools').2 tail
      exact ⟨rfl, rfl⟩

private theorem protocolValid_round_iff (block more : List LlmMessage)
    (calls : m.hasToolCalls = true) (tools : ∀ t ∈ block, t.role = .tool) (plain : StartsPlain more) :
    ProtocolValid (m :: (block ++ more)) ↔
      (block.flatMap LlmMessage.toolResultIds).Nodup ∧
      (∀ id, id ∈ block.flatMap LlmMessage.toolResultIds ↔ id ∈ m.toolCallIds) ∧
      ProtocolValid more := by
  constructor
  · intro valid
    -- inversion of the grammar; the block it finds is the given one
    generalize split : block ++ more = tail at valid
    cases valid with
    | plain notTool noCalls => simp [noCalls] at calls
    | round calls' tools' once answers rest =>
      obtain ⟨rfl, rfl⟩ := block_unique tools tools' plain rest.startsPlain split
      exact ⟨once, answers, rest⟩
  · rintro ⟨once, answers, valid⟩
    exact .round calls tools once answers valid

/-- Among messages none of which is a result, none may carry calls. -/
private theorem protocolValid_plain_iff (ys zs : List LlmMessage)
    (notTools : ∀ y ∈ ys, y.role ≠ .tool) (plain : StartsPlain zs) :
    ProtocolValid (ys ++ zs) ↔ (∀ y ∈ ys, y.hasToolCalls = false) ∧ ProtocolValid zs := by
  refine append_iff_of_cons_iff (fun y zs notTool plain => ⟨fun valid => ?_, ?_⟩) notTools plain
  · cases valid with
    | plain _ noCalls valid => exact ⟨noCalls, valid⟩
    | @round _ block _ calls tools _ answers =>
      cases block with
      -- a round without results answers no call, but this one has some
      | nil =>
        exact absurd (eq_nil_iff_forall_not_mem.mpr fun id => by simpa using (answers id).mpr)
          (hasToolCalls_ids calls)
      | cons t ts => exact absurd (tools t mem_cons_self) (plain t _ rfl)
  · rintro ⟨noCalls, valid⟩
    exact .plain notTool noCalls valid

/-! ### The protocol after normalisation -/

private theorem settled_valid_iff (calls : m.hasToolCalls = true)
    (closes : settleRound m.toolCallIds [] rest = some (seg, after)) :
    ProtocolValid (truncateIncompleteToolEntries (m :: rest)) ↔
      (∀ x ∈ seg, Undisturbing x) ∧ ProtocolValid (truncateIncompleteToolEntries after) := by
  have settles := (settleRound_iff.mp closes).2.settles
  have tools : ∀ t ∈ seg.filter (·.role = .tool), t.role = .tool := by simp
  have others : ∀ t ∈ seg.filter (·.role ≠ .tool), t.role ≠ .tool := by simp
  have answers : ∀ id, id ∈ answeredIds seg ↔ id ∈ m.toolCallIds := by
    intro id
    constructor
    · exact fun member => (settles.mine id member).1
    · exact fun member => (settles.complete id member).resolve_left (by simp)
  rw [truncate_settled calls closes, protocolValid_round_iff _ _ calls tools
    ((truncate_startsPlain after).append others), protocolValid_plain_iff _ _ others (truncate_startsPlain after)]
  -- the answers always match the calls; what can fail is doubled ids and nested calls
  change (answeredIds seg).Nodup ∧ (∀ id, id ∈ answeredIds seg ↔ _) ∧ _ ∧ _ ↔ _
  rw [settles.once]
  constructor
  · rintro ⟨once, -, noCalls, valid⟩
    refine ⟨fun x member => ⟨?_, once x member⟩, valid⟩
    by_cases isTool : x.role = .tool
    · simp [hasToolCalls_eq, isTool]
    · exact noCalls x (by simp [member, isTool])
  · rintro ⟨intact, valid⟩
    refine ⟨fun t member => (intact t member).2, answers, ?_, valid⟩
    intro x member
    exact (intact x (mem_of_mem_filter member)).1

private theorem truncate_valid_iff :
    ProtocolValid (truncateIncompleteToolEntries ms) ↔ RoundsUndisturbed ms := by
  induction ms using rounds_induction with
  | nil => exact ⟨fun _ => .nil, fun _ => .nil⟩
  | stray m rest isTool =>
    rw [truncate_stray isTool]
    exact ⟨fun _ => .stray isTool, fun _ => .nil⟩
  | plain m rest notTool noCalls shorter =>
    have step := protocolValid_plain_iff [m] _ (by simpa using notTool)
      (truncate_startsPlain rest)
    rw [truncate_plain notTool noCalls]
    constructor
    · intro valid
      exact .plain notTool noCalls (shorter.mp (step.mp valid).2)
    · intro undisturbed
      refine step.mpr ⟨by simpa using noCalls, ?_⟩
      cases undisturbed with
      | stray isTool => exact absurd isTool notTool
      | plain _ _ undisturbed => exact shorter.mpr undisturbed
      | unsettled calls | settled calls => simp [noCalls] at calls
  | unsettled m rest calls stays =>
    rw [truncate_unsettled calls stays]
    exact ⟨fun _ => .unsettled calls stays, fun _ => .nil⟩
  | settled m rest seg after calls closes shorter =>
    rw [settled_valid_iff calls closes]
    constructor
    · rintro ⟨intact, valid⟩
      exact .settled calls closes intact (shorter.mp valid)
    · intro undisturbed
      cases undisturbed with
      | stray isTool => exact absurd isTool (hasToolCalls_notTool calls)
      | plain _ noCalls => simp [calls] at noCalls
      | unsettled _ stays => simp [stays] at closes
      | settled _ closes' intact undisturbed =>
        rw [closes] at closes'
        cases closes'
        exact ⟨intact, shorter.mpr undisturbed⟩

/-- The messages sent to a provider follow the tool-call protocol exactly when, in the
visible and merged conversation, no settled round is disturbed. -/
theorem providerVisibleMessages_valid_iff (messages : List LlmMessage) :
    ProtocolValid (providerVisibleMessages messages) ↔
      RoundsUndisturbed (normalizeToolCallEntries
        (messages.filter LlmMessage.hasProviderVisibleContent)) :=
  truncate_valid_iff _

/-- An assistant message with one shell call. -/
def shellCall (id : String) : LlmMessage :=
  ⟨.assistant, [.toolCall id "shell" .null none], none, none⟩

/-- A second assistant message with calls arrives while the first round is open and comes
back unanswered behind the result that settles it. -/
theorem providerVisibleMessages_nested_call :
    providerVisibleMessages [shellCall "call-1", .user "next", shellCall "call-2",
        .tool "shell" "call-1" "late" false] =
      [shellCall "call-1", .tool "shell" "call-1" "late" false, .user "next",
        shellCall "call-2"] ∧
    ¬ ProtocolValid (providerVisibleMessages [shellCall "call-1", .user "next",
        shellCall "call-2", .tool "shell" "call-1" "late" false]) := by
  have output : providerVisibleMessages [shellCall "call-1", .user "next", shellCall "call-2",
        .tool "shell" "call-1" "late" false] =
      [shellCall "call-1", .tool "shell" "call-1" "late" false, .user "next",
        shellCall "call-2"] := by
    decide
  refine ⟨output, ?_⟩
  intro valid
  have ⟨_, _, behind⟩ := (protocolValid_round_iff [.tool "shell" "call-1" "late" false]
    [.user "next", shellCall "call-2"] (by decide) (by decide)
    (by rintro t ts ⟨⟩; decide)).mp valid
  have ⟨noCalls, _⟩ := (protocolValid_plain_iff [.user "next", shellCall "call-2"] [] (by decide)
    (by rintro t ts ⟨⟩)).mp behind
  exact absurd (noCalls (shellCall "call-2") (by simp)) (by decide)

end Astrcode
