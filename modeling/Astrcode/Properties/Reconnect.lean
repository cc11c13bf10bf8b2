import Astrcode.Frontend.Conversation
import Astrcode.Properties.TimelinePages

/-!
# Reconnecting clients

A client takes its view from the newest page of the log up to some event and then applies the
deltas of the events after an earlier cursor. Its view is compared with the one it would have
taken from the whole log.

The deltas of one event write one block, set or clear the approval of one tool call, or leave
the blocks alone. The view is therefore known from its ids and from what each block went
through, and it converges exactly if the ids are those of the newest page and each block ends
as the page has it. What keeps a block from that is listed in `BlockConverges`: a field that an
older event set and the last one leaves blank, a tool call the page gives up because no turn is
running, and an approval that is cleared on one side only.
-/
namespace Astrcode

variable {view : ConversationRenderState} {block : ConversationBlock} {stored : StoredEvent}
  {events earlier later : List StoredEvent} {blocks : List ConversationBlock} {k : String}
  {sessionId : SessionId} {log : List DurableEvent} {session : SessionReadModel}
  {deltas : List ConversationDelta}

open Library List
open Frontend

/-! ### What replayed deltas do to the view -/

/-- Deltas that are not pieces of text for a block. -/
@[simp] def ConversationDelta.isPiece : ConversationDelta → Bool
  | .patchBlock .. | .thinkingDelta .. | .toolOutput .. => true
  | _ => false

theorem coalesceDeltas_of_no_pieces (whole : ∀ delta ∈ deltas, delta.isPiece = false) :
    coalesceDeltas deltas = deltas.map .other := by
  induction deltas using reverseRecOn with
  | nil => rfl
  | append_singleton deltas delta ih =>
    have before := ih fun d member => whole d (mem_append_left _ member)
    have last := whole delta (by simp)
    rw [coalesceDeltas] at before
    rw [coalesceDeltas, foldl_append, before, map_append, foldl_cons,
      foldl_nil]
    cases delta <;> first | rfl | cases last

/-- Without pieces of text the deltas are applied one after the other. -/
theorem reduceConversationDeltas_of_no_pieces
    (whole : ∀ delta ∈ deltas, delta.isPiece = false) (view : ConversationRenderState) :
    reduceConversationDeltas view deltas = deltas.foldl reduceDelta view := by
  rw [reduceConversationDeltas, coalesceDeltas_of_no_pieces whole, foldl_map]
  -- nothing is ever pending
  have pending : ∀ view, deltas.foldl (fun r delta => reduceCoalesced r (.other delta)) ⟨view, []⟩ =
      ⟨deltas.foldl reduceDelta view, []⟩ := by
    clear whole
    induction deltas with
    | nil => exact fun _ => rfl
    | cons delta rest ih => exact fun view => ih (reduceDelta view delta)
  rw [pending]
  rfl

/-- A view of the newest events that shows no block of a message that is being sent. -/
structure Following (view : ConversationRenderState) : Prop where
  settled : view.transientBlockOwners = []
  attached : view.timelineDetachedFromLatest = false

theorem following_iff :
    Following view ↔
      view.transientBlockOwners = [] ∧ view.timelineDetachedFromLatest = false :=
  ⟨fun h => ⟨h.settled, h.attached⟩, fun h => ⟨h.1, h.2⟩⟩

/-- There is neither a rewrite nor a fork among the events. -/
def Replayable (log : List DurableEvent) : Prop :=
  ∀ event ∈ log, event.payload.rewriteSource? = none ∧ event.payload.isSessionForked = false

instance (log : List DurableEvent) : Decidable (Replayable log) :=
  inferInstanceAs (Decidable (∀ event ∈ log, _ ∧ _))

/-- A block as the client reads it. -/
def readBlock (block : ConversationBlock) : ConversationBlock :=
  (decodeConversationBlock block).getD block

def Readable (block : ConversationBlock) : Prop := (decodeConversationBlock block).isSome = true

instance (block : ConversationBlock) : Decidable (Readable block) :=
  inferInstanceAs (Decidable (_ = true))

theorem decodeConversationBlock_of_readable (readable : Readable block) :
    decodeConversationBlock block = some (readBlock block) := by
  obtain ⟨read, decoded⟩ := Option.isSome_iff_exists.mp readable
  rw [readBlock, decoded, Option.getD_some]

def blockApproval : ConversationBlock → Option ToolApproval
  | .toolCall _ _ _ _ _ _ approval _ => approval
  | _ => none

def isStreaming : ConversationBlock → Bool
  | .toolCall _ _ _ _ .streaming _ _ _ => true
  | _ => false

/-- Reading a block changes the metadata and the arguments of a tool call at most. -/
structure KeepsOutline (read block : ConversationBlock) : Prop where
  id : blockId read = blockId block
  approval : blockApproval read = blockApproval block
  streaming : isStreaming read = isStreaming block
  tool : isToolCall read = isToolCall block
  summary : isCompactSummary read = isCompactSummary block

theorem readBlock_keeps (block : ConversationBlock) : KeepsOutline (readBlock block) block := by
  rw [readBlock]
  cases block with
  | toolCall id name arguments text status metadata approval argumentsJson =>
    simp only [decodeConversationBlock]
    cases optionalObject metadata <;> cases optionalObject argumentsJson <;>
      cases status <;> exact ⟨rfl, rfl, rfl, rfl, rfl⟩
  | _ => exact ⟨rfl, rfl, rfl, rfl, rfl⟩

/-- What one event does to the blocks of a view. -/
def eventStep (blocks : List ConversationBlock) (stored : StoredEvent) : List ConversationBlock :=
  match timelineBlock stored with
  | some block => upsertBlock blocks (readBlock block)
  | none =>
    match stored.event.payload with
    | .toolApprovalRequested callId _ prompt ruleKey _ _ =>
      updateToolCall blocks callId (withApproval (some ⟨callId, prompt, ruleKey⟩))
    | .toolApprovalResolved callId _ _ => updateToolCall blocks callId (withApproval none)
    | _ => blocks

/-- What a list of deltas does to a view that follows the log. -/
def Leaves (deltas : List ConversationDelta) (view : ConversationRenderState)
    (blocks : List ConversationBlock) : Prop :=
  Following (deltas.foldl reduceDelta view) ∧ (deltas.foldl reduceDelta view).blocks = blocks

theorem leaves_appendBlock (following : Following view) (plain : isCompactSummary block = false) :
    Leaves [.appendBlock block] view (upsertBlock view.blocks block) := by
  obtain ⟨settled, attached⟩ := following
  simp only [Leaves, foldl_cons, foldl_nil, reduceDelta, attached, reduceVisible, plain,
    Bool.false_eq_true, if_false]
  exact ⟨⟨by rw [settled]; rfl, rfl⟩, trivial⟩

section

variable (hasMessages : Bool)

include hasMessages

/-- An event appends the block it shows, or its deltas change approvals at most. -/
theorem eventToReplayDeltas_cases (keeps : KeepsTranscript stored) :
    (∃ block, timelineBlock stored = some block ∧ isCompactSummary block = false ∧
      eventToReplayDeltas stored hasMessages = [.appendBlock block]) ∨
    (timelineBlock stored = none ∧
      (eventToReplayDeltas stored hasMessages).mapM decodeConversationDelta =
        some (eventToReplayDeltas stored hasMessages) ∧
      (∀ delta ∈ eventToReplayDeltas stored hasMessages, delta.isPiece = false) ∧
      ∀ view, Following view →
        Leaves (eventToReplayDeltas stored hasMessages) view (eventStep view.blocks stored)) := by
  obtain ⟨seq, id, sessionId, turnId, timestamp, payload⟩ := stored
  obtain ⟨noRewrite, noFork⟩ := keeps
  cases payload with
  | transcriptRewritten => cases noRewrite
  | sessionForked => cases noFork
  | userMessage | assistantMessageCompleted | toolCallRequested | toolCallCompleted
  | toolCallFailed | toolCallCancelled | errorOccurred | recapGenerated =>
    exact Or.inl ⟨_, rfl, rfl, rfl⟩
  | turnCompleted =>
    refine Or.inr ⟨rfl, ?_, ?_, fun view following => ?_⟩
    · cases turnId <;> rfl
    · cases turnId <;> simp [eventToReplayDeltas]
    · obtain ⟨settled, attached⟩ := following
      -- no block of the view belongs to a turn
      cases turnId <;> simp [Leaves, eventToReplayDeltas, reduceDelta, reduceVisible, attached,
        settled, eventStep, timelineBlock, following_iff]
  | turnStarted | toolApprovalRequested | toolApprovalResolved | customEvent =>
    refine Or.inr ⟨rfl, rfl, ?_, fun view following => ?_⟩
    · simp [eventToReplayDeltas]
    · obtain ⟨settled, attached⟩ := following
      simp [Leaves, eventToReplayDeltas, reduceDelta, reduceVisible, attached, settled, eventStep,
        timelineBlock, following_iff]
  | _ => exact Or.inr ⟨rfl, rfl, by simp [eventToReplayDeltas],
      fun view following => ⟨following, rfl⟩⟩

/-- The client can read the block an event shows. -/
@[simp] def ReadableEvent (stored : StoredEvent) : Prop :=
  ∀ block ∈ timelineBlock stored, Readable block

/-- The deltas of one event: they can be read if its block can. -/
theorem replay_event (keeps : KeepsTranscript stored) :
    (ReadableEvent stored ∧ ∃ deltas,
      (eventToReplayDeltas stored hasMessages).mapM decodeConversationDelta = some deltas ∧
      (∀ delta ∈ deltas, delta.isPiece = false) ∧
      ∀ view, Following view → Leaves deltas view (eventStep view.blocks stored)) ∨
    (¬ ReadableEvent stored ∧
      (eventToReplayDeltas stored hasMessages).mapM decodeConversationDelta = none) := by
  rcases eventToReplayDeltas_cases hasMessages keeps with
    ⟨block, shown, plain, deltas⟩ | ⟨hidden, decoded, whole, leaves⟩
  · rw [deltas]
    by_cases readable : Readable block
    · have decoded := decodeConversationBlock_of_readable readable
      refine Or.inl ⟨by simpa [shown] using readable,
        [.appendBlock (readBlock block)], by simp [decoded], ?_, ?_⟩
      · simp
      · intro view following
        rw [eventStep, shown]
        apply leaves_appendBlock following
        rw [(readBlock_keeps block).summary, plain]
    · have refused : decodeConversationBlock block = none := by
        simpa [Readable] using readable
      exact Or.inr ⟨by simpa [shown] using readable,
        by simp [refused]⟩
  · exact Or.inl ⟨by simp [hidden], _, decoded, whole, leaves⟩

/-- The deltas of the events, all of them readable or none applied. -/
theorem replay_events (keeps : ∀ stored ∈ events, KeepsTranscript stored) :
    ((∀ stored ∈ events, ReadableEvent stored) ∧ ∃ deltas,
      (events.flatMap (eventToReplayDeltas · hasMessages)).mapM decodeConversationDelta =
        some deltas ∧
      (∀ delta ∈ deltas, delta.isPiece = false) ∧
      ∀ view, Following view → Leaves deltas view (events.foldl eventStep view.blocks)) ∨
    (¬ (∀ stored ∈ events, ReadableEvent stored) ∧
      (events.flatMap (eventToReplayDeltas · hasMessages)).mapM decodeConversationDelta =
        none) := by
  induction events with
  | nil =>
    refine Or.inl ⟨by simp, [], rfl, by simp, fun view following => ⟨following, rfl⟩⟩
  | cons stored rest ih =>
    have later := ih (forall_mem_cons.mp keeps).2
    simp only [flatMap_cons, mapM_append, forall_mem_cons, foldl_cons]
    rcases replay_event hasMessages (keeps stored mem_cons_self) with
      ⟨readable, first, decoded, whole, leaves⟩ | ⟨unreadable, refused⟩
    · rcases later with ⟨allReadable, others, decoded', whole', leaves'⟩ | ⟨unreadable, refused⟩
      · refine Or.inl ⟨⟨readable, allReadable⟩, first ++ others, by simp [decoded, decoded'], ?_,
          fun view following => ?_⟩
        · intro delta member
          exact (mem_append.mp member).elim (whole delta) (whole' delta)
        · obtain ⟨following', blocks⟩ := leaves view following
          have tail := leaves' _ following'
          rw [blocks] at tail
          rwa [Leaves, foldl_append]
      · exact Or.inr ⟨fun all => unreadable all.2, by simp [decoded, refused]⟩
    · exact Or.inr ⟨fun all => unreadable all.1, by simp [refused]⟩

theorem replayInto_iff (keeps : ∀ stored ∈ events, KeepsTranscript stored)
    (following : Following view) :
    (∃ shown, replayInto view hasMessages events = some shown ∧ shown.blocks = blocks) ↔
      (∀ stored ∈ events, ReadableEvent stored) ∧ events.foldl eventStep view.blocks = blocks := by
  rcases replay_events hasMessages keeps with
    ⟨readable, deltas, decoded, whole, leaves⟩ | ⟨unreadable, refused⟩
  · have applied : replayInto view hasMessages events = some (deltas.foldl reduceDelta view) := by
      simp [replayInto, decoded, reduceConversationDeltas_of_no_pieces whole]
    rw [applied, ← (leaves view following).2]
    constructor
    · rintro ⟨shown, same, rfl⟩
      exact ⟨readable, by cases same; rfl⟩
    · rintro ⟨-, rfl⟩
      exact ⟨_, rfl, rfl⟩
  · constructor
    · rintro ⟨shown, same, -⟩
      simp [replayInto, refused] at same
    · rintro ⟨readable, -⟩
      exact absurd readable unreadable

end

/-! ### One block of the view -/

theorem keepsKey_mergeBlock : KeepsKey blockId mergeBlock := by
  intro incoming current same
  rw [same]
  cases current <;> cases incoming <;> rfl

theorem blockId_withApproval (approval : Option ToolApproval) (block : ConversationBlock) :
    blockId (withApproval approval block) = blockId block := by
  cases block <;> rfl

theorem map_blockId_updateToolCall (blocks : List ConversationBlock) (id : String)
    (approval : Option ToolApproval) :
    (updateToolCall blocks id (withApproval approval)).map blockId = blocks.map blockId := by
  induction blocks with
  | nil => rfl
  | cons block rest ih =>
    rw [updateToolCall] at ih
    rw [updateToolCall, updateFirst]
    split
    · rw [map_cons, map_cons, blockId_withApproval]
    · rw [map_cons, map_cons, ih]

/-- In a view with one block for each id, the block of the id is the tool call or there is none. -/
theorem find?_updateToolCall (nodup : (blocks.map blockId).Nodup) (id k : String)
    (approval : Option ToolApproval) :
    (updateToolCall blocks id (withApproval approval)).find? (blockId · = k) =
      if id = k then (blocks.find? (blockId · = k)).map (withApproval approval)
      else blocks.find? (blockId · = k) := by
  induction blocks with
  | nil => simp [updateToolCall, updateFirst]
  | cons block rest ih =>
    rw [map_cons, nodup_cons] at nodup
    have tail := ih nodup.2
    rw [updateToolCall] at tail
    rw [updateToolCall, updateFirst]
    by_cases own : blockId block = id
    · by_cases tool : isToolCall block = true
      · by_cases same : id = k <;> simp [own, tool, same, blockId_withApproval]
      · -- it is not a tool call, and no other block has the id
        have unchanged : withApproval approval block = block := by
          cases block <;> first | rfl | exact absurd rfl tool
        by_cases same : id = k
        · simp [own, tool, same, unchanged]
        · simp [own, tool, same, tail]
    · rw [if_neg (by simp [own])]
      by_cases found : blockId block = k
      · have different : ¬ id = k := fun same => own (found.trans same.symm)
        simp [found, different]
      · simp [found, tail]

/-- What an event does to the block of one id. -/
def rowStep (k : String) (row : Option ConversationBlock) (stored : StoredEvent) :
    Option ConversationBlock :=
  match timelineBlock stored with
  | some block =>
    if blockId block = k then some (row.elim (readBlock block) (mergeBlock · (readBlock block)))
    else row
  | none =>
    match stored.event.payload with
    | .toolApprovalRequested callId _ prompt ruleKey _ _ =>
      if callId = k then row.map (withApproval (some ⟨callId, prompt, ruleKey⟩)) else row
    | .toolApprovalResolved callId _ _ =>
      if callId = k then row.map (withApproval none) else row
    | _ => row

/-- What an event does to the ids of a view. -/
def idStep (ids : List String) (stored : StoredEvent) : List String :=
  match timelineBlock stored with
  | some block => if blockId block ∈ ids then ids else ids ++ [blockId block]
  | none => ids

theorem map_blockId_eventStep (blocks : List ConversationBlock) (stored : StoredEvent) :
    (eventStep blocks stored).map blockId = idStep (blocks.map blockId) stored := by
  rw [eventStep, idStep]
  cases timelineBlock stored with
  | some block =>
    simp only [upsertBlock]
    rw [map_key_upsert keepsKey_mergeBlock, (readBlock_keeps _).id]
  | none =>
    dsimp only
    split
    · rw [map_blockId_updateToolCall]
    · rw [map_blockId_updateToolCall]
    · rfl

theorem nodup_idStep {ids : List String} (nodup : ids.Nodup) (stored : StoredEvent) :
    (idStep ids stored).Nodup := by
  rw [idStep]
  split
  · next block _ =>
    split
    · exact nodup
    · next new => simpa using nodup.concat new
  · exact nodup

section

variable (nodup : (blocks.map blockId).Nodup)

include nodup

theorem find?_eventStep (k : String) (stored : StoredEvent) :
    (eventStep blocks stored).find? (blockId · = k) =
      rowStep k (blocks.find? (blockId · = k)) stored := by
  rw [eventStep, rowStep]
  cases timelineBlock stored with
  | some block =>
    simp only [upsertBlock]
    rw [find?_upsert keepsKey_mergeBlock, (readBlock_keeps _).id]
  | none =>
    dsimp only
    split
    · rw [find?_updateToolCall nodup]
    · rw [find?_updateToolCall nodup]
    · rfl

omit nodup in
theorem map_blockId_foldl (events : List StoredEvent) (blocks : List ConversationBlock) :
    (events.foldl eventStep blocks).map blockId = events.foldl idStep (blocks.map blockId) :=
  (foldl_hom _ fun blocks stored => (map_blockId_eventStep blocks stored).symm).symm

theorem find?_foldl (events : List StoredEvent) (k : String) :
    (events.foldl eventStep blocks).find? (blockId · = k) =
      events.foldl (rowStep k) (blocks.find? (blockId · = k)) := by
  induction events generalizing blocks with
  | nil => rfl
  | cons stored rest ih =>
    rw [foldl_cons, foldl_cons, ih, find?_eventStep nodup]
    rw [map_blockId_eventStep]
    exact nodup_idStep nodup stored

/-- The blocks after the events are known from their ids and from what each block went through. -/
theorem foldl_eventStep_eq_iff (events : List StoredEvent) {shown : List ConversationBlock}
    (nodupShown : (shown.map blockId).Nodup) :
    events.foldl eventStep blocks = shown ↔
      events.foldl idStep (blocks.map blockId) = shown.map blockId ∧
        ∀ block ∈ shown, events.foldl (rowStep (blockId block))
          (blocks.find? (blockId · = blockId block)) = some block := by
  constructor
  · rintro rfl
    refine ⟨(map_blockId_foldl _ _).symm, fun block member => ?_⟩
    rw [← find?_foldl nodup _, find?_eq_some_of_mem nodupShown member]
  · rintro ⟨ids, rows⟩
    rw [← map_blockId_foldl] at ids
    refine eq_of_find?_eq (ids ▸ nodupShown) ids fun k member => ?_
    rw [ids] at member
    obtain ⟨block, inShown, rfl⟩ := mem_map.mp member
    rw [find?_foldl nodup _, rows block inShown, find?_eq_some_of_mem nodupShown inShown]

end

/-! ### What a block went through -/

/-- The block an event writes under the id, as the client reads it. -/
def writtenTo (k : String) (stored : StoredEvent) : Option ConversationBlock :=
  ((timelineBlock stored).filter (blockId · = k)).map readBlock

/-- The last block written under the id, with the events before and after it. -/
def lastWrite (k : String) :
    List StoredEvent → Option (List StoredEvent × ConversationBlock × List StoredEvent)
  | [] => none
  | stored :: rest =>
    match lastWrite k rest with
    | some (earlier, block, later) => some (stored :: earlier, block, later)
    | none => (writtenTo k stored).map fun block => ([], block, rest)

/-- The approval a client shows with a call after the events, if none of them writes the block. -/
def approvalStep (k : String) (approval : Option ToolApproval) (stored : StoredEvent) :
    Option ToolApproval :=
  match stored.event.payload with
  | .toolApprovalRequested callId _ prompt ruleKey _ _ =>
    if callId = k then some ⟨callId, prompt, ruleKey⟩ else approval
  | .toolApprovalResolved callId _ _ => if callId = k then none else approval
  | _ => approval

theorem withApproval_self (block : ConversationBlock) :
    withApproval (blockApproval block) block = block := by
  cases block <;> rfl

theorem withApproval_withApproval (a b : Option ToolApproval) (block : ConversationBlock) :
    withApproval a (withApproval b block) = withApproval a block := by
  cases block <;> rfl

theorem rowStep_of_written (written : writtenTo k stored = some block)
    (row : Option ConversationBlock) :
    rowStep k row stored = some (row.elim block (mergeBlock · block)) := by
  simp only [writtenTo, Option.map_eq_some_iff, Option.filter_eq_some_iff, decide_eq_true_eq]
    at written
  obtain ⟨shown, ⟨found, own⟩, rfl⟩ := written
  simp [rowStep, found, own]

theorem writtenTo_eq_none_iff :
    writtenTo k stored = none ↔ ∀ block ∈ timelineBlock stored, blockId block ≠ k := by
  simp [writtenTo, Option.filter_eq_none_iff]

theorem approvalStep_of_shown (shown : timelineBlock stored = some block)
    (approval : Option ToolApproval) : approvalStep k approval stored = approval := by
  obtain ⟨seq, id, sessionId, turnId, timestamp, payload⟩ := stored
  cases payload <;> first | rfl | cases shown

/-- An event that does not write the block sets its approval at most. -/
theorem rowStep_of_not_written (unwritten : writtenTo k stored = none)
    (approval : Option ToolApproval) (row : Option ConversationBlock) :
    rowStep k (row.map (withApproval approval)) stored =
      row.map (withApproval (approvalStep k approval stored)) := by
  cases shown : timelineBlock stored with
  | some block =>
    have other := writtenTo_eq_none_iff.mp unwritten block shown
    simp [rowStep, shown, other, approvalStep_of_shown shown]
  | none =>
    rw [rowStep, shown, approvalStep]
    dsimp only
    split
    · split
      · simp [Function.comp_def, withApproval_withApproval]
      · rfl
    · split
      · simp [Function.comp_def, withApproval_withApproval]
      · rfl
    · rfl

theorem foldl_rowStep_of_not_written (unwritten : ∀ stored ∈ events, writtenTo k stored = none)
    (row : Option ConversationBlock) :
    events.foldl (rowStep k) row = row.map fun block =>
      withApproval (events.foldl (approvalStep k) (blockApproval block)) block := by
  -- with the approval in the place of the block's own
  have general : ∀ (approval : Option ToolApproval) (row : Option ConversationBlock),
      events.foldl (rowStep k) (row.map (withApproval approval)) =
        row.map (withApproval (events.foldl (approvalStep k) approval)) := by
    induction events with
    | nil => exact fun _ _ => rfl
    | cons stored rest ih =>
      intro approval row
      rw [foldl_cons, rowStep_of_not_written (unwritten stored mem_cons_self),
        foldl_cons]
      exact ih (forall_mem_cons.mp unwritten).2 _ row
  cases row with
  | none => simpa using general none none
  | some block =>
    have start := general (blockApproval block) (some block)
    rwa [Option.map_some, withApproval_self] at start

theorem lastWrite_none (never : lastWrite k events = none) :
    ∀ stored ∈ events, writtenTo k stored = none := by
  induction events with
  | nil => simp
  | cons stored rest ih =>
    rw [lastWrite] at never
    cases later : lastWrite k rest with
    | some found => simp [later] at never
    | none =>
      simp only [later, Option.map_eq_none_iff] at never
      exact forall_mem_cons.mpr ⟨never, ih later⟩

theorem lastWrite_some (last : lastWrite k events = some (earlier, block, later)) :
    (∃ stored, events = earlier ++ stored :: later ∧ writtenTo k stored = some block) ∧
      ∀ stored ∈ later, writtenTo k stored = none := by
  induction events generalizing earlier with
  | nil => cases last
  | cons stored rest ih =>
    rw [lastWrite] at last
    cases found : lastWrite k rest with
    | some split =>
      obtain ⟨earlier', block', later'⟩ := split
      simp only [found, Option.some.injEq, Prod.mk.injEq] at last
      obtain ⟨rfl, rfl, rfl⟩ := last
      obtain ⟨⟨written, same, own⟩, none⟩ := ih found
      exact ⟨⟨written, by rw [same, cons_append], own⟩, none⟩
    | none =>
      simp only [found, Option.map_eq_some_iff, Prod.mk.injEq] at last
      obtain ⟨_, own, rfl, rfl, rfl⟩ := last
      exact ⟨⟨stored, rfl, own⟩, lastWrite_none found⟩

/-! ### Fields that stay -/

/-- A field that comes in blank finds no other text. -/
def FillsText (held incoming : String) : Prop := isEmptyTrimmed incoming = true → held = incoming

def FillsOption {α : Type} (held incoming : Option α) : Prop := incoming = none → held = none

/-- The block that comes in leaves nothing of the one that is held. -/
@[simp] def Fills : ConversationBlock → ConversationBlock → Prop
  | .assistant _ _ heldReasoning _ _, .assistant _ _ reasoning _ _ =>
    FillsOption heldReasoning reasoning
  | .toolCall _ heldName heldArguments heldText _ heldMetadata _ heldJson,
      .toolCall _ name arguments text _ metadata _ argumentsJson =>
    FillsText heldName name ∧ FillsText heldArguments arguments ∧ FillsText heldText text ∧
      FillsOption heldMetadata metadata ∧ FillsOption heldJson argumentsJson
  | _, _ => True

theorem keepUnlessBlank_eq_iff {held incoming : String} :
    keepUnlessBlank held incoming = incoming ↔ FillsText held incoming := by
  rw [keepUnlessBlank, FillsText]
  split <;> simp_all

theorem or_eq_left_iff {α : Type} {held incoming : Option α} :
    incoming.or held = incoming ↔ FillsOption held incoming := by
  cases incoming <;> simp [FillsOption]

theorem mergeBlock_eq_iff {held incoming : ConversationBlock} :
    mergeBlock held incoming = incoming ↔ Fills held incoming := by
  cases held with
  | assistant =>
    cases incoming with
    | assistant => simp [mergeBlock, or_eq_left_iff]
    | _ => simp [mergeBlock]
  | toolCall =>
    cases incoming with
    | toolCall => simp [mergeBlock, or_eq_left_iff, keepUnlessBlank_eq_iff]
    | _ => simp [mergeBlock]
  | _ => simp [mergeBlock]

/-! ### Blocks as the newest page shows them -/

variable (execution : SessionExecutionState)

/-- The approval the page shows with a call. -/
def pendingApproval (k : String) : Option ToolApproval :=
  (execution.pendingToolApprovals.lookup k).map fun pending => ⟨k, pending.prompt, pending.ruleKey⟩

@[simp] def isSettled : Bool := execution.unsettledTurnId.isNone

@[simp] def finalizedBlock (settled : Bool) (block : ConversationBlock) : ConversationBlock :=
  if settled then finalizeOrphanedToolBlock block else block

theorem decorateTimelineItem_eq (session : SessionReadModel) (block : ConversationBlock) :
    decorateTimelineItem session block =
      withApproval ((pendingApproval session.execution (blockId block)).or (blockApproval block))
        (finalizedBlock (isSettled session.execution) block) := by
  cases block with
  | toolCall id name arguments text status metadata approval argumentsJson =>
    cases pending : session.execution.pendingToolApprovals.lookup id <;>
      cases settled : session.execution.unsettledTurnId.isNone <;> cases status <;>
      simp [decorateTimelineItem, settled, withApproval, pendingApproval, blockId, blockApproval,
        pending]
  | _ =>
    cases settled : session.execution.unsettledTurnId.isNone <;>
      simp [decorateTimelineItem, settled, withApproval]

variable (row : Option ConversationBlock)

theorem blockApproval_merged (block : ConversationBlock) :
    blockApproval (row.elim block (mergeBlock · block)) = blockApproval block := by
  cases row with
  | none => rfl
  | some held => cases held <;> cases block <;> rfl

/-- Merging changes fields of a tool call, but neither its status nor its kind. -/
theorem mergeBlock_toolCall (id name arguments text : String) (status : ToolCallStatus)
    (metadata : Option Json) (approval : Option ToolApproval) (argumentsJson : Option Json) :
    ∃ name' arguments' text' metadata' argumentsJson',
      (row.elim (.toolCall id name arguments text status metadata approval argumentsJson)
        (mergeBlock · (.toolCall id name arguments text status metadata approval argumentsJson))) =
      .toolCall id name' arguments' text' status metadata' approval argumentsJson' := by
  cases row with
  | none => exact ⟨_, _, _, _, _, rfl⟩
  | some current => cases current <;> exact ⟨_, _, _, _, _, rfl⟩

theorem withApproval_of_not_toolCall (other : isToolCall block = false)
    (approval : Option ToolApproval) : withApproval approval block = block := by
  cases block <;> first | rfl | cases other

theorem isToolCall_merged (block : ConversationBlock) :
    isToolCall (row.elim block (mergeBlock · block)) = isToolCall block := by
  cases row with
  | none => rfl
  | some held => cases held <;> cases block <;> rfl

theorem finalizedBlock_of_not_streaming (ended : isStreaming block = false) (settled : Bool) :
    finalizedBlock settled block = block := by
  rw [finalizedBlock]
  split
  · cases block with
    | toolCall _ _ _ _ status => cases status <;> first | rfl | cases ended
    | _ => rfl
  · rfl

theorem blockApproval_withApproval (tool : isToolCall block = true) (approval : Option ToolApproval) :
    blockApproval (withApproval approval block) = approval := by
  cases block <;> first | rfl | cases tool

theorem finalizedBlock_keeps {settled : Bool} :
    blockId (finalizedBlock settled block) = blockId block ∧
      isToolCall (finalizedBlock settled block) = isToolCall block := by
  cases block with
  | toolCall _ _ _ _ status => cases settled <;> cases status <;> exact ⟨rfl, rfl⟩
  | _ => cases settled <;> exact ⟨rfl, rfl⟩

/-- When the last event of a block makes it what the page shows. -/
theorem written_eq_iff {row : Option ConversationBlock} (held shown : Option ToolApproval)
    (settled : Bool) :
    withApproval held (row.elim block (mergeBlock · block)) =
        withApproval shown (finalizedBlock settled block) ↔
      (∀ current ∈ row, Fills current block) ∧ (isStreaming block = true → settled = false) ∧
        (isToolCall block = true → held = shown) := by
  have fills : (∀ current ∈ row, Fills current block) ↔
      row.elim block (mergeBlock · block) = block := by
    cases row with
    | none => simp
    | some current => simp [mergeBlock_eq_iff]
  rw [fills]
  cases block with
  | toolCall id name arguments text status metadata approval argumentsJson =>
    obtain ⟨name', arguments', text', metadata', argumentsJson', merged⟩ :=
      mergeBlock_toolCall row id name arguments text status metadata approval argumentsJson
    rw [merged]
    by_cases streaming : status = .streaming
    · subst streaming
      cases settled with
      | true => simp [withApproval, isStreaming]
      | false => simp [withApproval, isToolCall]; tauto
    · have ended : isStreaming (.toolCall id name arguments text status metadata approval
          argumentsJson) = false := by
        cases status <;> first | rfl | exact absurd rfl streaming
      rw [finalizedBlock_of_not_streaming ended]
      simp [withApproval, isToolCall, ended]
      tauto
  | _ =>
    -- neither side has anything to approve or to give up
    rw [withApproval_of_not_toolCall (isToolCall_merged row _),
      finalizedBlock_of_not_streaming rfl, withApproval_of_not_toolCall rfl]
    simp [isStreaming, isToolCall]

/-- When a block that no event has written since is what the page shows. -/
theorem kept_eq_iff (held shown : Option ToolApproval) (settledBefore settled : Bool) :
    withApproval held (finalizedBlock settledBefore block) =
        withApproval shown (finalizedBlock settled block) ↔
      (isStreaming block = true → settledBefore = settled) ∧
        (isToolCall block = true → held = shown) := by
  cases block with
  | toolCall id name arguments text status metadata approval argumentsJson =>
    cases status <;> cases settledBefore <;> cases settled <;>
      simp [withApproval, isStreaming, isToolCall]
  | _ =>
    rw [finalizedBlock_of_not_streaming rfl, finalizedBlock_of_not_streaming rfl,
      withApproval_of_not_toolCall rfl, withApproval_of_not_toolCall rfl]
    simp [isStreaming, isToolCall]

/-! ### The last event of a block -/

/-- What the last event of a block shows. -/
def lastShown (k : String) (events : List StoredEvent) : Option ConversationBlock :=
  ((events.filterMap timelineBlock).filter (blockId · = k)).getLast?

theorem lastShown_append (k : String) (earlier later : List StoredEvent) :
    lastShown k (earlier ++ later) = (lastShown k later).or (lastShown k earlier) := by
  rw [lastShown, filterMap_append, filter_append, getLast?_append]
  rfl

theorem lastShown_eq_none (unwritten : ∀ stored ∈ events, writtenTo k stored = none) :
    lastShown k events = none := by
  rw [lastShown, getLast?_eq_none_iff, filter_eq_nil_iff]
  intro block member
  obtain ⟨stored, found, shown⟩ := mem_filterMap.mp member
  simpa using writtenTo_eq_none_iff.mp (unwritten stored found) block shown

theorem lastShown_of_lastWrite (last : lastWrite k events = some (earlier, block, later)) :
    ∃ shown, lastShown k events = some shown ∧ readBlock shown = block := by
  obtain ⟨⟨stored, rfl, written⟩, unwritten⟩ := lastWrite_some last
  simp only [writtenTo, Option.map_eq_some_iff, Option.filter_eq_some_iff, decide_eq_true_eq]
    at written
  obtain ⟨shown, ⟨found, own⟩, rfl⟩ := written
  refine ⟨shown, ?_, rfl⟩
  have single : lastShown k [stored] = some shown := by simp [lastShown, found, own]
  rw [← singleton_append, lastShown_append, lastShown_append, lastShown_eq_none unwritten,
    single, Option.none_or, Option.some_or]

theorem timelineBlock_unapproved (shown : timelineBlock stored = some block) :
    blockApproval block = none := by
  obtain ⟨seq, id, sessionId, turnId, timestamp, payload⟩ := stored
  cases payload with
  | transcriptRewritten _ _ _ reason =>
    cases reason with
    | compaction => cases shown; rfl
  | _ => cases shown <;> rfl

theorem lastShown_unapproved (last : lastShown k events = some block) :
    blockApproval block = none ∧ blockId block = k := by
  have member := mem_of_getLast? last
  obtain ⟨found, own⟩ := mem_filter.mp member
  obtain ⟨stored, -, shown⟩ := mem_filterMap.mp found
  exact ⟨timelineBlock_unapproved shown, by simpa using own⟩

/-! ### The newest page -/

section Page

variable {sessionId : SessionId} {session : SessionReadModel} {log : List DurableEvent}
  (size : ConversationBlock → Nat) (budget : PageBudget)

/-- The blocks of the newest page, before the read model is consulted. -/
def newestItems (log : List DurableEvent) :
    List ConversationBlock :=
  ((eventPageBefore size budget (numberFrom 0 log) none).map (·.items)).getD []

theorem blockBefore_eq_lastShown (log : List DurableEvent) (k : String) :
    blockBefore (writesOf log) log.length k = lastShown k (numberFrom 0 log) := by
  have below : ∀ w ∈ writesOf log, w.seq < log.length := fun w written => (mem_writesOf written).2
  have same : (writesOf log).filter (fun w => w.id = k ∧ w.seq < log.length) =
      (writesOf log).filter (·.id = k) := by
    apply filter_congr
    intro w written
    simp [below w written]
  have blocks : (writesOf log).map (·.block) = (numberFrom 0 log).filterMap timelineBlock := by
    rw [writesOf, visibleEntries, map_filterMap]
    apply filterMap_congr
    intro stored _
    cases timelineBlock stored <;> rfl
  rw [blockBefore, same, lastShown, ← blocks, filter_map, getLast?_map]
  rfl

/-- The newest page has one block for each id, as its last event left it. -/
theorem newestItems_spec (unforked : Unforked log) :
    ∃ page, eventPageBefore size budget (numberFrom 0 log) none = some page ∧
      page.items = newestItems size budget log ∧
      ((newestItems size budget log).map blockId).Nodup ∧
      ∀ block ∈ newestItems size budget log,
        lastShown (blockId block) (numberFrom 0 log) = some block := by
  obtain ⟨page, found, isPage⟩ : ∃ page,
      eventPageBefore size budget (numberFrom 0 log) none = some page ∧
        PageOf log (pageEnd log none) page := eventPageBefore_pageOf unforked none
  have items : newestItems size budget log = page.items := by simp [newestItems, found]
  obtain ⟨shown, filed, same⟩ := isPage.shows
  rw [items, same]
  refine ⟨page, found, same.symm ▸ rfl, ?_, ?_⟩
  · rw [map_map, List.Nodup, pairwise_map]
    refine List.Pairwise.imp_of_mem ?_ filed.sorted
    intro a b aMember bMember less equal
    obtain ⟨v, opens, -, position, last⟩ := (filed.mem_iff a).mp aMember
    obtain ⟨w, opens', -, position', last'⟩ := (filed.mem_iff b).mp bMember
    have sameId : v.id = w.id := (blockBefore_id last).symm.trans (equal.trans (blockBefore_id last'))
    -- each block is filed once
    have one := opens.unique (numbered_writesOf log) opens' sameId
    rw [TimelineEntry.seq, TimelineEntry.seq, position, position', one] at less
    exact absurd less (Nat.lt_irrefl _)
  · intro block member
    obtain ⟨x, inPage, rfl⟩ := mem_map.mp member
    obtain ⟨v, -, -, -, last⟩ := (filed.mem_iff x).mp inPage
    rw [← blockBefore_eq_lastShown, blockBefore_id last]
    exact last

variable (session)

/-- Reading a block and showing what the read model knows about it do not interfere. -/
theorem decodeConversationBlock_decorate (block : ConversationBlock) :
    decodeConversationBlock (decorateTimelineItem session block) =
      (decodeConversationBlock block).map (decorateTimelineItem session) := by
  cases block with
  | toolCall id name arguments text status metadata approval argumentsJson =>
    cases settled : session.execution.unsettledTurnId.isNone <;> cases status <;>
      cases meta' : optionalObject metadata <;> cases json : optionalObject argumentsJson <;>
      simp [decodeConversationBlock, decorateTimelineItem, settled, meta', json]
  | _ => cases settled : session.execution.unsettledTurnId.isNone <;>
      simp [decodeConversationBlock, decorateTimelineItem, settled]

/-- A block as the client shows it. -/
def shownBlock (block : ConversationBlock) : ConversationBlock :=
  decorateTimelineItem session (readBlock block)

variable (items : List ConversationBlock)

theorem mapM_decode_decorate :
    (items.map (decorateTimelineItem session)).mapM decodeConversationBlock =
      if ∀ block ∈ items, Readable block then some (items.map (shownBlock session)) else none := by
  induction items with
  | nil => rfl
  | cons block rest ih =>
    simp only [map_cons, mapM_cons, decodeConversationBlock_decorate, ih, forall_mem_cons]
    by_cases readable : Readable block
    · rw [decodeConversationBlock_of_readable readable]
      by_cases others : ∀ block ∈ rest, Readable block
      · simp only [if_pos others, and_iff_right readable]
        rfl
      · simp only [if_neg others, and_iff_right readable]
        rfl
    · have refused : decodeConversationBlock block = none := by simpa [Readable] using readable
      simp [readable, refused]

/-- The view of the blocks of a page. -/
def pageView :
    ConversationRenderState :=
  buildConversationView (some (controlFromPhase session.execution.phase
    (!session.modelContext.messages.isEmpty))) (items.map (shownBlock session)) []

theorem following_pageView :
    Following (pageView session items) :=
  ⟨rfl, rfl⟩

theorem blocks_pageView :
    (pageView session items).blocks = items.map (shownBlock session) := rfl

variable {session}

/-- The view taken from a log that replays, if the client can read the page. -/
theorem hydrate_eq_some_iff
    (unforked : Unforked log) (accepted : replay sessionId (numberFrom 0 log) = .ok session)
    {view : ConversationRenderState} :
    hydrate size budget sessionId log = some view ↔
      (∀ block ∈ newestItems size budget log, Readable block) ∧
        pageView session (newestItems size budget log) = view := by
  obtain ⟨page, found, items, -⟩ := newestItems_spec size budget unforked
  simp only [hydrate, accepted, Except.toOption, found, items, decorateTimelineItems, if_true,
    Option.bind_eq_bind, Option.bind_some, mapM_decode_decorate]
  split
  · next readable =>
    rw [Option.bind_some, and_iff_right readable]
    exact Option.some_inj
  · next unreadable => simp [unreadable]

variable {budget} {size} (session)

theorem blockId_shownBlock (block : ConversationBlock) :
    blockId (shownBlock session block) = blockId block := by
  rw [shownBlock, decorateTimelineItem_eq, blockId_withApproval, finalizedBlock_keeps.1,
    (readBlock_keeps block).id]

theorem map_blockId_shownBlock (items : List ConversationBlock) :
    (items.map (shownBlock session)).map blockId = items.map blockId := by
  rw [map_map]
  exact map_congr_left fun block _ => blockId_shownBlock session block

theorem find?_map_shownBlock {items : List ConversationBlock}
    (nodup : (items.map blockId).Nodup) {block : ConversationBlock} (member : block ∈ items) :
    (items.map (shownBlock session)).find? (blockId · = blockId block) =
      some (shownBlock session block) := by
  rw [← blockId_shownBlock session block]
  apply find?_eq_some_of_mem
  · rw [map_blockId_shownBlock]
    exact nodup
  · exact mem_map_of_mem member

variable {session}

end Page

/-! ### Convergence -/

/-- What the read model of a log knows about running turns and approvals. -/
def executionAfter (sessionId : SessionId) (log : List DurableEvent) : SessionExecutionState :=
  ((replay sessionId (numberFrom 0 log)).toOption.map (·.execution)).getD .default

def eventsAfter (log : List DurableEvent) (cursor : Nat) : List StoredEvent :=
  (numberFrom 0 log).drop (cursor + 1)

section Convergence

variable (size : ConversationBlock → Nat) (budget : PageBudget) (sessionId : SessionId)
  (log : List DurableEvent) (cursor hydratedAt : Nat)

/-- The events the client has taken its view from. -/
def hydratedLog : List DurableEvent := log.take (hydratedAt + 1)

/-- The block the client holds under an id after it has applied the first events. -/
def heldBlock (k : String) (applied : List StoredEvent) : Option ConversationBlock :=
  applied.foldl (rowStep k) <| (((hydrate size budget sessionId (hydratedLog log hydratedAt)).map
    (·.blocks)).getD []).find? (blockId · = k)

/-- Nothing keeps the block from being what the newest page shows. -/
def BlockConverges (k : String) : Prop :=
  let execution := executionAfter sessionId log
  match lastWrite k (eventsAfter log cursor) with
  | some (earlier, block, later) =>
    (∀ held ∈ heldBlock size budget sessionId log hydratedAt k earlier, Fills held block) ∧
      (isStreaming block = true → isSettled execution = false) ∧
      (isToolCall block = true →
        later.foldl (approvalStep k) none = pendingApproval execution k)
  | none =>
    let executionBefore := executionAfter sessionId (hydratedLog log hydratedAt)
    ∀ block ∈ newestItems size budget log, blockId block = k →
      (isStreaming block = true → isSettled executionBefore = isSettled execution) ∧
        (isToolCall block = true →
          (eventsAfter log cursor).foldl (approvalStep k) (pendingApproval executionBefore k) =
            pendingApproval execution k)

/-- The client's view becomes the newest page. -/
structure Converges : Prop where
  readableView : ∀ block ∈ newestItems size budget (hydratedLog log hydratedAt), Readable block
  readableEvents : ∀ stored ∈ eventsAfter log cursor, ReadableEvent stored
  readablePage : ∀ block ∈ newestItems size budget log, Readable block
  /-- The page shows what the client's page shows, and then what else the events show
  (`newest_ids_iff`). -/
  ids : (eventsAfter log cursor).foldl idStep
      ((newestItems size budget (hydratedLog log hydratedAt)).map blockId) =
    (newestItems size budget log).map blockId
  blocks : ∀ k ∈ (newestItems size budget log).map blockId,
    BlockConverges size budget sessionId log cursor hydratedAt k

end Convergence

theorem numberFrom_take (first : Nat) (log : List DurableEvent) (n : Nat) :
    numberFrom first (log.take n) = (numberFrom first log).take n := by
  induction log generalizing first n with
  | nil => simp
  | cons event rest ih =>
    cases n with
    | zero => rfl
    | succ n => exact congrArg _ (ih (first + 1) n)

/-- A part of a log that replays replays as well. -/
theorem replay_take (accepted : replay sessionId (numberFrom 0 log) = .ok session) (n : Nat) :
    ∃ before, replay sessionId (numberFrom 0 (log.take (n + 1))) = .ok before := by
  obtain ⟨first, rest, started, same, own, valid, reduced⟩ := replay_ok_iff.mp accepted
  rw [← take_append_drop n rest] at reduced
  obtain ⟨before, run, -⟩ := runAll_append.mp reduced
  refine ⟨before, replay_ok_iff.mpr ⟨first, rest.take n, started, ?_, own, valid, run⟩⟩
  rw [numberFrom_take, same, take_succ_cons]

theorem foldl_rowStep_of_lastWrite (last : lastWrite k events = some (earlier, block, later))
    (row : Option ConversationBlock) :
    events.foldl (rowStep k) row = some (withApproval
      (later.foldl (approvalStep k) (blockApproval block))
      ((earlier.foldl (rowStep k) row).elim block (mergeBlock · block))) := by
  obtain ⟨⟨stored, rfl, written⟩, unwritten⟩ := lastWrite_some last
  rw [foldl_append, foldl_cons, rowStep_of_written written,
    foldl_rowStep_of_not_written unwritten, Option.map_some, blockApproval_merged]

/-! ### Ids of a view -/

section Ids

variable {ids : List String}

theorem mem_idStep : k ∈ idStep ids stored ↔ k ∈ ids ∨ writtenTo k stored ≠ none := by
  rw [Ne, writtenTo_eq_none_iff, idStep]
  cases timelineBlock stored with
  | none => simp
  | some block =>
    dsimp only
    split <;> grind

/-- The ids after the events: those before, and those that are written. -/
theorem mem_foldl_idStep :
    k ∈ events.foldl idStep ids ↔ k ∈ ids ∨ ∃ stored ∈ events, writtenTo k stored ≠ none := by
  induction events generalizing ids with
  | nil => simp
  | cons stored rest ih => rw [foldl_cons, ih, mem_idStep, exists_mem_cons_iff, or_assoc]

theorem prefix_idStep : ids <+: idStep ids stored := by
  rw [idStep]
  split
  · split
    · exact prefix_rfl
    · exact prefix_append _ _
  · exact prefix_rfl

theorem prefix_foldl_idStep : ids <+: events.foldl idStep ids := by
  induction events generalizing ids with
  | nil => exact prefix_rfl
  | cons stored rest ih => exact prefix_idStep.trans ih

theorem foldl_idStep_self (known : ∀ stored ∈ events, ∀ k, writtenTo k stored ≠ none → k ∈ ids) :
    events.foldl idStep ids = ids := by
  induction events with
  | nil => rfl
  | cons stored rest ih =>
    obtain ⟨here, others⟩ := forall_mem_cons.mp known
    have same : idStep ids stored = ids := by
      rw [idStep]
      split
      · next block shown =>
        refine if_pos (here (blockId block) fun never => ?_)
        exact writtenTo_eq_none_iff.mp never block shown rfl
      · rfl
    rw [foldl_cons, same, ih others]

/-- Events that have written before write nothing new. -/
theorem foldl_idStep_again (m : Nat) :
    events.foldl idStep ((events.take m).foldl idStep ids) = events.foldl idStep ids := by
  have same : (events.take m).foldl idStep ((events.take m).foldl idStep ids) =
      (events.take m).foldl idStep ids :=
    foldl_idStep_self fun stored member k written =>
      mem_foldl_idStep.mpr (.inr ⟨stored, member, written⟩)
  have whole (ids : List String) : events.foldl idStep ids =
      (events.drop m).foldl idStep ((events.take m).foldl idStep ids) := by
    rw [← foldl_append, take_append_drop]
  rw [whole ids, whole, same]

/-- Ids that are left out at the front make no difference as long as nothing is written to them. -/
theorem foldl_idStep_drop {n : Nat} (inside : n ≤ ids.length)
    (unwritten : ∀ stored ∈ events, ∀ k ∈ ids.take n, writtenTo k stored = none) :
    events.foldl idStep (ids.drop n) = (events.foldl idStep ids).drop n := by
  induction events generalizing ids with
  | nil => rfl
  | cons stored rest ih =>
    obtain ⟨here, others⟩ := forall_mem_cons.mp unwritten
    have front : (idStep ids stored).take n = ids.take n := by
      obtain ⟨more, same⟩ : ids <+: idStep ids stored := prefix_idStep
      rw [← same, take_append_of_le_length inside]
    have step : idStep (ids.drop n) stored = (idStep ids stored).drop n := by
      rw [idStep, idStep]
      cases shown : timelineBlock stored with
      | none => rfl
      | some block =>
        have outside : blockId block ∉ ids.take n := fun old =>
          writtenTo_eq_none_iff.mp (here _ old) block shown rfl
        have same : blockId block ∈ ids.drop n ↔ blockId block ∈ ids := by
          conv_rhs => rw [← take_append_drop n ids, mem_append]
          exact (or_iff_right outside).symm
        simp only [same]
        split
        · rfl
        · rw [drop_append_of_le_length inside]
    rw [foldl_cons, foldl_cons, step, ih (inside.trans prefix_idStep.length_le) (front ▸ others)]

/-- Whether a view that leaves out ids at its front ends with the ids from some place on. -/
theorem foldl_idStep_drop_eq_iff {before : List String} {i j : Nat} (nodup : ids.Nodup)
    (all : events.foldl idStep before = ids) (kept : before ≠ [] → i < before.length)
    (inBefore : i ≤ before.length) (inside : j ≤ ids.length) :
    events.foldl idStep (before.drop i) = ids.drop j ↔
      i = j ∧ ∀ stored ∈ events, ∀ k ∈ ids.take j, writtenTo k stored = none := by
  have grows : before <+: ids := all ▸ prefix_foldl_idStep
  constructor
  · intro same
    have begins : i = j := by
      by_cases empty : before = []
      · subst empty
        obtain rfl : i = 0 := Nat.le_zero.mp inBefore
        have length := congrArg List.length (all.symm.trans same)
        rw [length_drop] at length
        omega
      · -- both begin with the first block of the view
        obtain ⟨more, client⟩ : before.drop i <+: events.foldl idStep (before.drop i) :=
          prefix_foldl_idStep
        obtain ⟨later, rfl⟩ := grows
        have here := kept empty
        have shown : before.drop i ≠ [] := by simpa using here
        refine (List.getElem?_inj (i := i) (by rw [length_append]; omega) nodup).mp ?_
        rw [← head?_drop, ← head?_drop, ← same, ← client, drop_append_of_le_length inBefore,
          head?_append_of_ne_nil _ shown, head?_append_of_ne_nil _ shown]
    refine ⟨begins, fun stored member k old => ?_⟩
    by_contra written
    have listed : k ∈ ids.drop j := same ▸ mem_foldl_idStep.mpr (.inr ⟨stored, member, written⟩)
    exact disjoint_take_drop nodup le_rfl old listed
  · rintro ⟨rfl, unwritten⟩
    have front : before.take i = ids.take i := by
      obtain ⟨more, rfl⟩ := grows
      rw [take_append_of_le_length inBefore]
    rw [foldl_idStep_drop inBefore (front ▸ unwritten), all]

theorem map_id_projectEvents (unforked : ∀ stored ∈ events,
      stored.event.payload.isSessionForked = false) :
    (projectEvents events).map TimelineEntry.id = events.foldl idStep [] := by
  induction events using reverseRecOn with
  | nil => rfl
  | append_singleton events stored ih =>
    have last := unforked stored (by simp)
    rw [projectEvents, foldl_append, foldl_append, ← projectEvents,
      ← ih fun stored member => unforked stored (mem_append_left _ member), foldl_cons, foldl_nil,
      projectEvent_of_unforked _ last, foldl_cons, foldl_nil, idStep]
    cases shown : timelineBlock stored with
    | none => simp [visibleEntries, shown, upsertAll]
    | some block =>
      simp only [visibleEntries, shown, upsertAll, filterMap_cons, filterMap_nil, Option.map_some,
        foldl_cons, foldl_nil]
      exact map_key_upsert keepsKey_update

end Ids

/-! ### A log of one batch -/

section Short

variable (size : ConversationBlock → Nat) (budget : PageBudget)

/-- How many of the blocks a page leaves out that has read the whole log: those that do not fit,
and those before the first user message. -/
def droppedBlocks (entries : List TimelineEntry) : Nat :=
  let unfit := entries.length - keptEntries size budget 0 0 entries.reverse
  unfit + (turnStart (entries.drop unfit)).getD 0

variable {size budget}

theorem retainEntries_items (scan : TimelineScan) :
    (retainEntries size budget scan).items =
      scan.entries.drop (droppedBlocks size budget scan.entries) := by
  simp only [retainEntries, boundedSuffix, droppedBlocks]
  split
  · next found => rw [drop_drop, found, Option.getD_some]
  · next none => rw [none, Option.getD_none, Nat.add_zero]

theorem droppedBlocks_lt {entries : List TimelineEntry} (nonempty : entries ≠ []) :
    droppedBlocks size budget entries < entries.length := by
  have kept := keptEntries_pos size budget (mt reverse_eq_nil_iff.mp nonempty)
  have some := length_pos_iff.mpr nonempty
  rw [droppedBlocks]
  cases turn : turnStart (entries.drop (entries.length -
      keptEntries size budget 0 0 entries.reverse)) with
  | none =>
    rw [Option.getD_none]
    omega
  | some index =>
    obtain ⟨found, -⟩ := Option.filter_eq_some_iff.mp turn
    have bound := (findIdx?_eq_some_iff_getElem.mp found).1
    rw [length_drop] at bound
    rw [Option.getD_some]
    omega

theorem droppedBlocks_le (entries : List TimelineEntry) :
    droppedBlocks size budget entries ≤ entries.length := by
  cases entries with
  | nil => exact le_rfl
  | cons first rest => exact (droppedBlocks_lt (cons_ne_nil first rest)).le

/-- A log that is one batch is read as a whole. -/
theorem newestItems_short (short : log.length ≤ eventChunk) :
    newestItems size budget log =
      ((timelineOf log).drop (droppedBlocks size budget (timelineOf log))).map (·.block) := by
  rcases Nat.eq_zero_or_pos log.length with empty | positive
  · cases length_eq_zero_iff.mp empty
    rfl
  · have whole : slice log 0 log.length = numberFrom 0 log := by
      refine filter_eq_self.mpr fun stored member => ?_
      obtain ⟨inside, -⟩ := List.getElem?_eq_some_iff.mp (mem_numberFrom.mp member).2
      simpa using inside
    have first : log.length - eventChunk = 0 := Nat.sub_eq_zero_of_le short
    rw [newestItems, eventPageBefore, numberFrom_length,
      scanEvents_succ _ _ _ _ (by rfl) positive le_rfl, first]
    simp [whole, prependEntries, retainEntries_items, timelineOf]

end Short

/-! ### Blocks of a view -/

theorem executionAfter_of_replay (accepted : replay sessionId (numberFrom 0 log) = .ok session) :
    executionAfter sessionId log = session.execution := by
  simp [executionAfter, accepted, Except.toOption]

section Rows

variable {size : ConversationBlock → Nat} {budget : PageBudget} {cursor hydratedAt : Nat}
  (unforked : Unforked log) (overlap : cursor ≤ hydratedAt)
  (ids : (eventsAfter log cursor).foldl idStep
      ((newestItems size budget (hydratedLog log hydratedAt)).map blockId) =
    (newestItems size budget log).map blockId)
  (member : block ∈ newestItems size budget log)

theorem unforked_hydratedLog (unforked : Unforked log) : Unforked (hydratedLog log hydratedAt) :=
  fun event inLog => unforked event (mem_of_mem_take inLog)

include unforked overlap ids member

/-- A block no event after the cursor writes is on the client's page as it is on the newest. -/
theorem kept_on_page
    (unwritten : ∀ stored ∈ eventsAfter log cursor, writtenTo (blockId block) stored = none) :
    block ∈ newestItems size budget (hydratedLog log hydratedAt) := by
  obtain ⟨-, -, -, -, last⟩ := newestItems_spec size budget unforked
  obtain ⟨-, -, -, -, lastBefore⟩ := newestItems_spec size budget (unforked_hydratedLog unforked)
  have held : blockId block ∈
      (newestItems size budget (hydratedLog log hydratedAt)).map blockId := by
    refine (mem_foldl_idStep.mp (ids ▸ mem_map_of_mem member)).resolve_right ?_
    rintro ⟨stored, inEvents, written⟩
    exact written (unwritten stored inEvents)
  obtain ⟨found, inView, same⟩ := mem_map.mp held
  -- up to the cursor the two logs are the same, and after it nothing is written
  have split : ∀ events : List StoredEvent, (∀ stored ∈ events, stored ∈ eventsAfter log cursor) →
      lastShown (blockId block) ((numberFrom 0 log).take (cursor + 1) ++ events) =
        lastShown (blockId block) ((numberFrom 0 log).take (cursor + 1)) := by
    intro events after
    rw [lastShown_append, lastShown_eq_none fun stored inEvents =>
      unwritten stored (after stored inEvents), Option.none_or]
  have whole := split ((numberFrom 0 log).drop (cursor + 1)) fun _ inEvents => inEvents
  have part := split (((numberFrom 0 log).take (hydratedAt + 1)).drop (cursor + 1)) fun _ inEvents =>
    List.Sublist.subset ((take_sublist _ _).drop _) inEvents
  have shorter : ((numberFrom 0 log).take (hydratedAt + 1)).take (cursor + 1) =
      (numberFrom 0 log).take (cursor + 1) := by
    rw [take_take, Nat.min_eq_left (Nat.succ_le_succ overlap)]
  rw [take_append_drop, last block member] at whole
  rw [← shorter, take_append_drop, shorter, ← whole] at part
  have shown := lastBefore found inView
  rw [same, hydratedLog, numberFrom_take, part, Option.some.injEq] at shown
  rw [shown]
  exact inView

/-- A block that went through the events is what the newest page shows if nothing keeps it from
that. -/
theorem blockConverges_iff {before : SessionReadModel}
    (accepted : replay sessionId (numberFrom 0 log) = .ok session)
    (acceptedBefore : replay sessionId (numberFrom 0 (hydratedLog log hydratedAt)) = .ok before)
    (readable : ∀ block ∈ newestItems size budget (hydratedLog log hydratedAt), Readable block) :
    (eventsAfter log cursor).foldl (rowStep (blockId block))
        (((newestItems size budget (hydratedLog log hydratedAt)).map (shownBlock before)).find?
          (blockId · = blockId block)) = some (shownBlock session block) ↔
      BlockConverges size budget sessionId log cursor hydratedAt (blockId block) := by
  obtain ⟨-, -, -, nodup, last⟩ := newestItems_spec size budget unforked
  have lastBlock := last block member
  have shownAs : ∀ session : SessionReadModel, shownBlock session block = withApproval
      (pendingApproval session.execution (blockId block))
      (finalizedBlock (isSettled session.execution) (readBlock block)) := by
    intro session
    rw [shownBlock, decorateTimelineItem_eq, (readBlock_keeps block).id,
      (readBlock_keeps block).approval, (lastShown_unapproved lastBlock).1, Option.or_none]
  simp only [BlockConverges, executionAfter_of_replay accepted,
    executionAfter_of_replay acceptedBefore]
  cases written : lastWrite (blockId block) (eventsAfter log cursor) with
  | some split =>
    obtain ⟨earlier, incoming, later⟩ := split
    have hydrated := (hydrate_eq_some_iff size budget (unforked_hydratedLog unforked)
      acceptedBefore).mpr ⟨readable, rfl⟩
    -- the last event after the cursor is the last of the log
    have same : incoming = readBlock block := by
      obtain ⟨found, isLast, rfl⟩ := lastShown_of_lastWrite written
      rw [← take_append_drop (cursor + 1) (numberFrom 0 log), lastShown_append,
        ← eventsAfter, isLast, Option.some_or, Option.some.injEq] at lastBlock
      rw [lastBlock]
    subst same
    dsimp only
    rw [foldl_rowStep_of_lastWrite written, (readBlock_keeps block).approval,
      (lastShown_unapproved lastBlock).1, shownAs, Option.some.injEq, written_eq_iff, heldBlock,
      hydrated, Option.map_some, Option.getD_some, blocks_pageView]
  | none =>
    have unwritten := lastWrite_none written
    have onPage := kept_on_page unforked overlap ids member unwritten
    obtain ⟨-, -, -, nodupBefore, -⟩ :=
      newestItems_spec size budget (unforked_hydratedLog unforked)
    rw [find?_map_shownBlock before nodupBefore onPage, foldl_rowStep_of_not_written unwritten,
      Option.map_some, Option.some.injEq, shownAs session, shownAs before,
      withApproval_withApproval, kept_eq_iff, (readBlock_keeps block).streaming,
      (readBlock_keeps block).tool]
    have approval : isToolCall block = true → blockApproval (withApproval
        (pendingApproval before.execution (blockId block))
        (finalizedBlock (isSettled before.execution) (readBlock block))) =
          pendingApproval before.execution (blockId block) := by
      intro tool
      apply blockApproval_withApproval
      rw [finalizedBlock_keeps.2, (readBlock_keeps block).tool, tool]
    constructor
    · rintro ⟨streaming, approved⟩ other inPage same
      rw [inj_on_of_nodup_map nodup inPage member same]
      exact ⟨streaming, fun tool => approval tool ▸ approved tool⟩
    · intro all
      obtain ⟨streaming, approved⟩ := all block member rfl
      refine ⟨streaming, fun tool => ?_⟩
      rw [approval tool]
      exact approved tool

end Rows

theorem map_id_timelineOf (unforked : Unforked log) :
    (timelineOf log).map TimelineEntry.id = (numberFrom 0 log).foldl idStep [] :=
  map_id_projectEvents fun _ member => unforked _ (mem_of_getElem? (mem_numberFrom.mp member).2)

section Ids

variable {size : ConversationBlock → Nat} {budget : PageBudget} {cursor hydratedAt : Nat}
  (unforked : Unforked log) (overlap : cursor ≤ hydratedAt)

include unforked overlap

/-- The events after the cursor bring the blocks the client could know to those of the log. -/
theorem foldl_idStep_timelineOf :
    (eventsAfter log cursor).foldl idStep
        ((timelineOf (hydratedLog log hydratedAt)).map TimelineEntry.id) =
      (timelineOf log).map TimelineEntry.id := by
  obtain ⟨m, rfl⟩ := Nat.exists_eq_add_of_le overlap
  have before : numberFrom 0 (hydratedLog log (cursor + m)) =
      (numberFrom 0 log).take (cursor + 1) ++ (eventsAfter log cursor).take m := by
    rw [hydratedLog, numberFrom_take, Nat.add_right_comm, take_add, eventsAfter]
  rw [map_id_timelineOf (unforked_hydratedLog unforked), map_id_timelineOf unforked, before,
    foldl_append, foldl_idStep_again, eventsAfter, ← foldl_append, take_append_drop]

/-- Where the log is one batch, the newest page lists the client's blocks and then the new ones if
and only if it begins with the block that the client's page begins with, and no event after the
cursor writes a block before that. -/
theorem newest_ids_iff (short : log.length ≤ eventChunk) :
    (eventsAfter log cursor).foldl idStep
        ((newestItems size budget (hydratedLog log hydratedAt)).map blockId) =
      (newestItems size budget log).map blockId ↔
    droppedBlocks size budget (timelineOf (hydratedLog log hydratedAt)) =
        droppedBlocks size budget (timelineOf log) ∧
      ∀ stored ∈ eventsAfter log cursor,
        ∀ x ∈ (timelineOf log).take (droppedBlocks size budget (timelineOf log)),
          writtenTo x.id stored = none := by
  have page {log : List DurableEvent} (short : log.length ≤ eventChunk) :
      (newestItems size budget log).map blockId = ((timelineOf log).map TimelineEntry.id).drop
        (droppedBlocks size budget (timelineOf log)) := by
    rw [newestItems_short short, map_map, map_drop]
    rfl
  have shortBefore : (hydratedLog log hydratedAt).length ≤ eventChunk :=
    (length_take_le' _ _).trans short
  have nodup : ((timelineOf log).map TimelineEntry.id).Nodup := by
    rw [timelineOf_eq_collect unforked]
    exact nodup_collect keepsKey_update _
  have inside (log : List DurableEvent) :
      droppedBlocks size budget (timelineOf log) ≤
        ((timelineOf log).map TimelineEntry.id).length := by
    rw [length_map]
    exact droppedBlocks_le _
  rw [page short, page shortBefore, foldl_idStep_drop_eq_iff nodup
    (foldl_idStep_timelineOf unforked overlap) ?_ (inside _) (inside _), ← map_take]
  · simp only [forall_mem_map]
  · intro some
    rw [length_map]
    exact droppedBlocks_lt (mt map_eq_nil_iff.mpr some)

end Ids

/-- Reconnecting converges, and replaying what the view already has changes nothing, if and only if
the page lists what the client lists and nothing keeps a block from what the page shows. -/
theorem reconnect_converges_iff (size : ConversationBlock → Nat) (budget : PageBudget)
    (sessionId : SessionId) (log : List DurableEvent) (hasMessages : Bool) (cursor hydratedAt : Nat)
    (replayable : Replayable log) (accepted : (replay sessionId (numberFrom 0 log)).isOk = true)
    (overlap : cursor ≤ hydratedAt) :
    (∃ view shown page,
      hydrate size budget sessionId (log.take (hydratedAt + 1)) = some view ∧
      replayInto view hasMessages ((numberFrom 0 log).drop (cursor + 1)) = some shown ∧
      hydrate size budget sessionId log = some page ∧ shown.blocks = page.blocks) ↔
    Converges size budget sessionId log cursor hydratedAt := by
  obtain ⟨session, accepted⟩ := exists_of_isOk accepted
  obtain ⟨before, acceptedBefore⟩ := replay_take accepted hydratedAt
  have unforked : Unforked log := fun event inLog => (replayable event inLog).2
  have unforkedBefore : Unforked (hydratedLog log hydratedAt) := unforked_hydratedLog unforked
  have keeps : ∀ stored ∈ eventsAfter log cursor, KeepsTranscript stored := by
    intro stored inEvents
    have found := mem_numberFrom.mp (mem_of_mem_drop inEvents)
    exact replayable _ (mem_of_getElem? found.2)
  obtain ⟨-, -, -, nodup, -⟩ := newestItems_spec size budget unforked
  obtain ⟨-, -, -, nodupBefore, -⟩ := newestItems_spec size budget unforkedBefore
  rw [← map_blockId_shownBlock session] at nodup
  rw [← map_blockId_shownBlock before] at nodupBefore
  have agree := foldl_eventStep_eq_iff nodupBefore (eventsAfter log cursor) nodup
  rw [map_blockId_shownBlock, map_blockId_shownBlock] at agree
  constructor
  · rintro ⟨view, shown, page, hydrated, applied, whole, same⟩
    obtain ⟨readableView, rfl⟩ :=
      (hydrate_eq_some_iff size budget unforkedBefore acceptedBefore).mp hydrated
    obtain ⟨readablePage, rfl⟩ := (hydrate_eq_some_iff size budget unforked accepted).mp whole
    obtain ⟨readableEvents, blocks⟩ :=
      (replayInto_iff hasMessages keeps (following_pageView _ _)).mp ⟨shown, applied, same⟩
    rw [blocks_pageView, blocks_pageView] at blocks
    obtain ⟨ids, rows⟩ := agree.mp blocks
    refine ⟨readableView, readableEvents, readablePage, ids, fun k member => ?_⟩
    obtain ⟨block, inPage, rfl⟩ := mem_map.mp member
    have row := rows _ (mem_map_of_mem inPage)
    rw [blockId_shownBlock] at row
    exact (blockConverges_iff unforked overlap ids inPage accepted acceptedBefore
      readableView).mp row
  · rintro ⟨readableView, readableEvents, readablePage, ids, converges⟩
    have blocks := agree.mpr ⟨ids, fun block shown => ?_⟩
    · rw [← blocks_pageView, ← blocks_pageView] at blocks
      obtain ⟨shown, applied, same⟩ :=
        (replayInto_iff hasMessages keeps (following_pageView _ _)).mpr ⟨readableEvents, blocks⟩
      exact ⟨_, shown, _, (hydrate_eq_some_iff size budget unforkedBefore acceptedBefore).mpr
        ⟨readableView, rfl⟩, applied, (hydrate_eq_some_iff size budget unforked accepted).mpr
        ⟨readablePage, rfl⟩, same⟩
    · obtain ⟨block, inPage, rfl⟩ := mem_map.mp shown
      rw [blockId_shownBlock]
      exact (blockConverges_iff unforked overlap ids inPage accepted acceptedBefore
        readableView).mpr (converges _ (mem_map_of_mem inPage))

/-- A turn that ended without a result of its tool call. -/
def orphanedCall : List DurableEvent :=
  sampleEvent (.sessionStarted sampleStarted) ::
    [.turnStarted, .toolCallRequested "a" "read" (.object []) none, .turnCompleted "stop"].map
      sampleTurnEvent

/-- The page gives the call up. When its request is replayed, the client shows it as running. -/
theorem orphaned_call_runs_again :
    Replayable orphanedCall ∧ (replay "session" (numberFrom 0 orphanedCall)).isOk = true ∧
    (hydrate (fun _ => 1) ⟨50, 1000⟩ "session" orphanedCall).isSome = true ∧
    ((hydrate (fun _ => 1) ⟨50, 1000⟩ "session" (orphanedCall.take 4)).bind
      (replayInto · true ((numberFrom 0 orphanedCall).drop 2))).map (·.blocks) ≠
        (hydrate (fun _ => 1) ⟨50, 1000⟩ "session" orphanedCall).map (·.blocks) := by
  decide +kernel

/-- A turn with one tool call that had to be approved. -/
def approvedCall : List DurableEvent :=
  sampleEvent (.sessionStarted sampleStarted) ::
    [.turnStarted, .userMessage "m" "hi" [] none,
      .toolCallRequested "a" "read" (.object []) none,
      .toolApprovalRequested "a" "read" "read a file?" none .core (.object []),
      .toolApprovalResolved "a" .allowOnce none,
      .toolCallCompleted "a" "read" ⟨"text", false, none, [], none⟩ "" (some (.object [])),
      .assistantMessageCompleted "n" "done" none, .turnCompleted "stop"].map sampleTurnEvent

theorem approved_call_converges :
    ∃ view shown page,
      hydrate (fun _ => 1) ⟨50, 1000⟩ "session" (approvedCall.take 5) = some view ∧
      replayInto view true ((numberFrom 0 approvedCall).drop 3) = some shown ∧
      hydrate (fun _ => 1) ⟨50, 1000⟩ "session" approvedCall = some page ∧
      shown.blocks = page.blocks ∧
      Converges (fun _ => 1) ⟨50, 1000⟩ "session" approvedCall 2 4 := by
  have converged : ((hydrate (fun _ => 1) ⟨50, 1000⟩ "session" (approvedCall.take 5)).bind
      (replayInto · true ((numberFrom 0 approvedCall).drop 3))).map (·.blocks) =
        (hydrate (fun _ => 1) ⟨50, 1000⟩ "session" approvedCall).map (·.blocks) ∧
      (hydrate (fun _ => 1) ⟨50, 1000⟩ "session" approvedCall).isSome = true := by
    decide +kernel
  obtain ⟨same, hydrates⟩ := converged
  obtain ⟨page, whole⟩ := Option.isSome_iff_exists.mp hydrates
  rw [whole, Option.map_some] at same
  obtain ⟨shown, bound, same⟩ := Option.map_eq_some_iff.mp same
  obtain ⟨view, hydrated, applied⟩ := Option.bind_eq_some_iff.mp bound
  have converges := (reconnect_converges_iff (fun _ => 1) ⟨50, 1000⟩ "session" approvedCall true 2 4
    (by decide) (by decide +kernel) (by decide)).mp
      ⟨view, shown, page, hydrated, applied, whole, same⟩
  exact ⟨view, shown, page, hydrated, applied, whole, same, converges⟩

end Astrcode
