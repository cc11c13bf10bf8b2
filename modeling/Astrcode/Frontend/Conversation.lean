import Astrcode.Server.Timeline

/-!
# The client's view of a conversation

`frontend/src/store`: a client takes its view from the newest page of the timeline
(`conversationHistory.ts`) and applies the deltas of the stream to it (`delta/applyDelta.ts`).
A block that is in the view already is merged with the one that comes in
(`delta/blockHelpers.ts`), and pieces of text for one block are put together first
(`delta/coalesce.ts`).

The part of the state that no delta of a block touches is left out: agents, status items and
pending questions. So is the delta `patchArguments`, which no server sends.
-/
namespace Astrcode

open Library (Json upsert)

namespace Frontend

/-! ### Decoding

`decodeConversationBlock` of `services/protocol.ts`. A field that is null is absent; arguments
that are not an object are refused. -/

def optionalObject : Option Json → Option (Option Json)
  | none | some .null => some none
  | some (.object members) => some (some (.object members))
  | some _ => none

def decodeConversationBlock : ConversationBlock → Option ConversationBlock
  | .toolCall id name arguments text status metadata approval argumentsJson => do
    let metadata ← optionalObject metadata
    let argumentsJson ← optionalObject argumentsJson
    pure (.toolCall id name arguments text status metadata approval argumentsJson)
  | block => some block

@[simp] def decodeConversationDelta : ConversationDelta → Option ConversationDelta
  | .appendBlock block => (decodeConversationBlock block).map .appendBlock
  | .appendTransientBlock turnId block =>
    (decodeConversationBlock block).map (.appendTransientBlock turnId)
  | .finalizeBlock block => (decodeConversationBlock block).map .finalizeBlock
  | delta => some delta

/-! ### Merging blocks -/

/-- What `String.prototype.trim` removes. -/
def isTrimmed (c : Char) : Bool :=
  c.val ∈ [0x9, 0xA, 0xB, 0xC, 0xD, 0x20, 0xA0, 0x1680, 0x2028, 0x2029, 0x202F, 0x205F, 0x3000,
    0xFEFF] || (0x2000 ≤ c.val && c.val ≤ 0x200A)

def isEmptyTrimmed (s : String) : Bool := s.toList.all isTrimmed

def keepUnlessBlank (current incoming : String) : String :=
  if isEmptyTrimmed incoming then current else incoming

def mergeBlock : ConversationBlock → ConversationBlock → ConversationBlock
  | .assistant _ _ currentReasoning _ _, .assistant id text reasoning storageSeq status =>
    .assistant id text (reasoning <|> currentReasoning) storageSeq status
  | .toolCall _ currentName currentArguments currentText _ currentMetadata _ currentJson,
      .toolCall id name arguments text status metadata approval argumentsJson =>
    .toolCall id (keepUnlessBlank currentName name) (keepUnlessBlank currentArguments arguments)
      (keepUnlessBlank currentText text) status (metadata <|> currentMetadata) approval
      (argumentsJson <|> currentJson)
  | _, incoming => incoming

variable (blocks : List ConversationBlock)

def upsertBlock (block : ConversationBlock) :
    List ConversationBlock :=
  upsert blockId mergeBlock block blocks

/-- Changes the first block that the test picks, if the change applies to it. -/
def updateFirst (test : ConversationBlock → Bool) (change : ConversationBlock → ConversationBlock) :
    List ConversationBlock → List ConversationBlock
  | [] => []
  | block :: rest =>
    if test block then change block :: rest else block :: updateFirst test change rest

def isToolCall : ConversationBlock → Bool
  | .toolCall .. => true
  | _ => false

def updateToolCall (id : String)
    (change : ConversationBlock → ConversationBlock) : List ConversationBlock :=
  updateFirst (fun block => isToolCall block && blockId block = id) change blocks

def withApproval (approval : Option ToolApproval) : ConversationBlock → ConversationBlock
  | .toolCall id name arguments text status metadata _ argumentsJson =>
    .toolCall id name arguments text status metadata approval argumentsJson
  | block => block

/-! ### Pieces of text -/

inductive CoalescedDelta where
  | patchBlock (blockId textDelta : String)
  | thinkingDelta (blockId delta : String)
  | toolOutput (callId : String) (parts : List (ToolOutputStream × String))
  | other (delta : ConversationDelta)

/-- A piece of text joins the last delta if that is a piece for the same block. -/
def coalesceDelta (result : List CoalescedDelta) (delta : ConversationDelta) :
    List CoalescedDelta :=
  match delta, result.getLast? with
  | .patchBlock id text, some (.patchBlock lastId last) =>
    if lastId = id then result.dropLast ++ [.patchBlock id (last ++ text)]
    else result ++ [.patchBlock id text]
  | .patchBlock id text, _ => result ++ [.patchBlock id text]
  | .thinkingDelta id text, some (.thinkingDelta lastId last) =>
    if lastId = id then result.dropLast ++ [.thinkingDelta id (last ++ text)]
    else result ++ [.thinkingDelta id text]
  | .thinkingDelta id text, _ => result ++ [.thinkingDelta id text]
  | .toolOutput callId stream text, some (.toolOutput lastId parts) =>
    if lastId = callId then result.dropLast ++ [.toolOutput callId (parts ++ [(stream, text)])]
    else result ++ [.toolOutput callId [(stream, text)]]
  | .toolOutput callId stream text, _ => result ++ [.toolOutput callId [(stream, text)]]
  | delta, _ => result ++ [.other delta]

def coalesceDeltas (deltas : List ConversationDelta) : List CoalescedDelta :=
  deltas.foldl coalesceDelta []

def appendText (text : String) : ConversationBlock → ConversationBlock
  | .assistant id current reasoning storageSeq status =>
    .assistant id (current ++ text) reasoning storageSeq status
  | .toolCall id name arguments current status metadata approval argumentsJson =>
    .toolCall id name arguments (current ++ text) status metadata approval argumentsJson
  | block => block

def appendReasoning (text : String) : ConversationBlock → ConversationBlock
  | .assistant id current reasoning storageSeq status =>
    .assistant id current (some (reasoning.getD "" ++ text)) storageSeq status
  | block => block

/-- Each part of the output starts a line, except at the beginning of the text. -/
def appendOutput (parts : List (ToolOutputStream × String)) :
    ConversationBlock → ConversationBlock
  | .toolCall id name arguments current status metadata approval argumentsJson =>
    let output := String.join <| parts.map fun (stream, text) =>
      (if stream = .stderr then "\n[stderr] " else "\n") ++ text
    let output := if current = "" then String.ofList (output.toList.drop 1) else output
    .toolCall id name arguments (current ++ output) status metadata approval argumentsJson
  | block => block

/-- The code looks the blocks up once for all pieces; none of them changes an id. -/
def applyCoalescedDelta :
    CoalescedDelta → List ConversationBlock
  | .patchBlock id text => updateFirst (blockId · = id) (appendText text) blocks
  | .thinkingDelta id text => updateFirst (blockId · = id) (appendReasoning text) blocks
  | .toolOutput callId parts => updateToolCall blocks callId (appendOutput parts)
  | .other _ => blocks

def applyCoalescedDeltas (coalesced : List CoalescedDelta) :
    List ConversationBlock :=
  coalesced.foldl applyCoalescedDelta blocks

variable {blocks}

/-! ### The reducer -/

structure ConversationRenderState where
  blocks : List ConversationBlock
  transientBlockOwners : List (String × String)
  control : Option ConversationControlState
  timelineDetachedFromLatest : Bool

/-- The state of the loop, with the pieces of text that are still to be applied. -/
structure Reduction where
  state : ConversationRenderState
  pendingBlockDeltas : List CoalescedDelta

def Reduction.flushBlockDeltas (r : Reduction) : ConversationRenderState :=
  { r.state with blocks := applyCoalescedDeltas r.state.blocks r.pendingBlockDeltas }

def promoteTransientBlock (id : String) (owners : List (String × String)) :
    List (String × String) :=
  owners.filter (·.1 ≠ id)

def isCompactSummary : ConversationBlock → Bool
  | .compactSummary .. => true
  | _ => false

def resetBlock : ConversationBlock → ConversationBlock
  | .assistant id _ _ storageSeq status => .assistant id "" none storageSeq status
  | block => block

/-- The deltas that change blocks of the view. -/
def reduceVisible (s : ConversationRenderState) : ConversationDelta → ConversationRenderState
  | .appendBlock block =>
    let baseBlocks := if isCompactSummary block then s.blocks.filter (!isCompactSummary ·)
      else s.blocks
    { s with
      blocks := upsertBlock baseBlocks block
      transientBlockOwners := promoteTransientBlock (blockId block) s.transientBlockOwners }
  | .appendTransientBlock turnId block =>
    { s with
      blocks := upsertBlock s.blocks block
      transientBlockOwners :=
        (blockId block, turnId) :: promoteTransientBlock (blockId block) s.transientBlockOwners }
  | .clearTransientBlocks turnId =>
    let owned := (s.transientBlockOwners.filter (·.2 = turnId)).map (·.1)
    { s with
      blocks := s.blocks.filter (blockId · ∉ owned)
      transientBlockOwners := s.transientBlockOwners.filter (·.1 ∉ owned) }
  | .finalizeBlock block =>
    { s with
      blocks := upsertBlock s.blocks block
      transientBlockOwners := promoteTransientBlock (blockId block) s.transientBlockOwners }
  | .resetBlock id =>
    { s with blocks := s.blocks.map fun block => if blockId block = id then resetBlock block
        else block }
  | .toolApprovalRequested approval =>
    { s with blocks := updateToolCall s.blocks approval.callId (withApproval (some approval)) }
  | .toolApprovalResolved callId _ =>
    { s with blocks := updateToolCall s.blocks callId (withApproval none) }
  | _ => s

def reduceDelta (s : ConversationRenderState) : ConversationDelta → ConversationRenderState
  | .updateControlState control => { s with control := some control }
  | delta => if s.timelineDetachedFromLatest then s else reduceVisible s delta

def reduceCoalesced (r : Reduction) : CoalescedDelta → Reduction
  | .other delta => ⟨reduceDelta r.flushBlockDeltas delta, []⟩
  | piece =>
    if r.state.timelineDetachedFromLatest then r
    else { r with pendingBlockDeltas := r.pendingBlockDeltas ++ [piece] }

/-- `reduceConversationDeltas`: the deltas of one frame. -/
def reduceConversationDeltas (current : ConversationRenderState)
    (deltas : List ConversationDelta) : ConversationRenderState :=
  ((coalesceDeltas deltas).foldl reduceCoalesced ⟨current, []⟩).flushBlockDeltas

/-! ### Hydration -/

/-- `mergeById`. -/
def mergeById (stable updates : List ConversationBlock) : List ConversationBlock :=
  updates.foldl (fun merged update => upsert blockId (fun _ update => update) update merged) stable

/-- `buildConversationView`, with the page and the blocks of a message that is being sent. -/
def buildConversationView (control : Option ConversationControlState)
    (items transientBlocks : List ConversationBlock) : ConversationRenderState where
  blocks := mergeById items transientBlocks
  transientBlockOwners := []
  control := control
  timelineDetachedFromLatest := false

section Hydration

variable (size : ConversationBlock → Nat) (budget : PageBudget)

/-- The view of a client that reads the newest page of the log while no message is being sent. -/
def hydrate (sessionId : SessionId) (log : List DurableEvent) : Option ConversationRenderState := do
  let session ← (replay sessionId (numberFrom 0 log)).toOption
  let page ← eventPageBefore size budget (numberFrom 0 log) none
  let items ← (decorateTimelineItems page.items session true).mapM decodeConversationBlock
  let control := controlFromPhase session.execution.phase (!session.modelContext.messages.isEmpty)
  pure (buildConversationView (some control) items [])

end Hydration

/-- The client applies the deltas of the events that come after its cursor. -/
def replayInto (view : ConversationRenderState) (hasMessages : Bool) (events : List StoredEvent) :
    Option ConversationRenderState := do
  let deltas ← (events.flatMap (eventToReplayDeltas · hasMessages)).mapM decodeConversationDelta
  pure (reduceConversationDeltas view deltas)

end Frontend

end Astrcode
