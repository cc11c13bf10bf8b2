import Astrcode.Library.Upserts
import Astrcode.Server.Conversation
import Astrcode.Storage.InMemory

/-!
# The timeline of a conversation

`astrcode-server/src/http/conversation_timeline.rs`: the blocks of a session as pages, from the
newest back to the oldest. A page reads the log backward in batches until it has enough
blocks, cuts what is too much, and moves up to the next user message if it holds one. The
cursor to the page before it is the position of the first block it kept.

How long a block is as JSON text is up to the serialiser: `size` stands for it. A cursor is
its position here; the code sends it as text.
-/
namespace Astrcode

open Library (Json upsert)

/-! ### Blocks of a transcript

`persisted_transcript_blocks` of `projection/blocks.rs`, for the messages a fork brings along. -/

def LlmContent.asText? : LlmContent → Option String
  | .text content => some content
  | _ => none

def LlmContent.toDisplayText : LlmContent → String
  | .text content => content
  | .image .. => "[image]"
  | .toolCall _ name _ _ => "tool call: " ++ name
  | .toolResult _ content _ => content

def startsWithMarker (marker text : String) : Bool :=
  marker.toList.isPrefixOf (text.toList.dropWhile isWhitespace)

def isSyntheticContextMessage (message : LlmMessage) : Bool :=
  message.role = .user && (message.content.filterMap LlmContent.asText?).any fun text =>
    startsWithMarker "<compact_summary>" text || startsWithMarker "<post_compact_context>" text

/-- Text for the user: tool calls and images are shown by other means. -/
def visibleUiText (message : LlmMessage) : String :=
  String.join <| message.content.filterMap fun
    | .toolCall .. | .image .. => none
    | other => some other.toDisplayText

def attachmentsFromUserMessage (message : LlmMessage) : List MessageAttachment :=
  message.content.zipIdx.filterMap fun
    | (.image base64 mediaType filename, index) =>
      some ⟨filename.getD ("image-" ++ toString (index + 1) ++ ".png"), base64, mediaType⟩
    | _ => none

def toolStatusFromMessage : Option TranscriptMessageOrigin → ToolCallStatus
  | some .toolCallFailed => .failed
  | some .toolCallCancelled => .cancelled
  | _ => .complete

def fallbackToolBlock (id name text : String) (status : ToolCallStatus) : ConversationBlock :=
  .toolCall id name "" text status none none none

/-- The blocks so far, and where the block of each tool call stands. -/
structure TranscriptBlocks where
  blocks : List ConversationBlock
  toolBlockIndices : List (String × Nat)

namespace TranscriptBlocks

variable (s : TranscriptBlocks)

def push (block : ConversationBlock) : TranscriptBlocks :=
  { s with blocks := s.blocks ++ [block] }

def pushToolCall : LlmContent → TranscriptBlocks
  | .toolCall callId name arguments rawArguments =>
    { blocks := s.blocks ++ [requestedToolCallBlock callId name arguments rawArguments]
      -- a later call with the same id takes over the entry
      toolBlockIndices := (callId, s.blocks.length) :: s.toolBlockIndices }
  | _ => s

/-- One result of a tool message: it completes the block of its call, or stands alone. -/
def pushToolResult (name : String) (status : ToolCallStatus)
    (toolCallId content : String) : TranscriptBlocks :=
  match (s.toolBlockIndices.lookup toolCallId).bind fun index =>
      (s.blocks[index]?).map fun block => (index, block) with
  | some (index, .toolCall id callName arguments _ _ metadata approval argumentsJson) =>
    let completed : ConversationBlock :=
      .toolCall id callName arguments content status metadata approval argumentsJson
    { s with blocks := s.blocks.set index completed }
  | _ => s.push (fallbackToolBlock toolCallId name content status)

def pushToolResultBlock (message : LlmMessage) (fallbackId : String)
    (origin : Option TranscriptMessageOrigin) : TranscriptBlocks :=
  let fallbackName := message.name.getD "tool"
  let status := toolStatusFromMessage origin
  let results := message.content.filterMap fun
    | .toolResult toolCallId content _ => some (toolCallId, content)
    | _ => none
  if results.isEmpty then
    s.push (fallbackToolBlock fallbackId fallbackName (visibleUiText message) status)
  else results.foldl (fun s (toolCallId, content) =>
    s.pushToolResult fallbackName status toolCallId content) s

def pushMessage (index sourceSeq : Nat) (entry : TranscriptMessage) :
    TranscriptBlocks :=
  let message := entry.message
  let id := "snapshot-message-" ++ toString index
  if entry.origin = some .turnAborted || isSyntheticContextMessage message then s
  else match message.role with
    | .user =>
      s.push (.user id (visibleUiText message) (attachmentsFromUserMessage message))
    | .assistant =>
      let text := visibleUiText message
      let s := if !isBlank text || message.reasoningContent.isSome then
          s.push (.assistant id text message.reasoningContent (some sourceSeq) .complete)
        else s
      message.content.foldl pushToolCall s
    | .tool => s.pushToolResultBlock message id entry.origin
    | .system => s.push (.systemNote id (visibleUiText message))

end TranscriptBlocks

/-- All blocks are of one event, so that sorting them by it changes nothing. -/
def persistedTranscriptBlocks (messages : List TranscriptMessage) (sourceSeq : Nat) :
    List ConversationBlock :=
  (messages.zipIdx.foldl (fun s (entry, index) => s.pushMessage index sourceSeq entry)
    (⟨[], []⟩ : TranscriptBlocks)).blocks

/-! ### Entries -/

inductive TimelinePosition where
  | event (seq : Nat)
  | forkItem (eventSeq itemIndex : Nat)
  deriving DecidableEq

def TimelinePosition.eventSeq : TimelinePosition → Nat
  | .event seq | .forkItem seq _ => seq

structure TimelineEntry where
  position : TimelinePosition
  block : ConversationBlock
  deriving DecidableEq

def blockId : ConversationBlock → String
  | .user id .. | .assistant id .. | .toolCall id .. | .error id .. | .recap id ..
  | .systemNote id .. | .compactSummary id .. => id

namespace TimelineEntry

def id (entry : TimelineEntry) : String := blockId entry.block

/-- A later event of a block takes it over but leaves it where it is. -/
def update (existing entry : TimelineEntry) : TimelineEntry :=
  { existing with block := entry.block }

end TimelineEntry

/-- The block an event other than a fork shows on the timeline. -/
def timelineBlock (stored : StoredEvent) : Option ConversationBlock :=
  match stored.event.payload with
  | .toolCallRequested callId toolName arguments rawArguments =>
    some (requestedToolCallBlock callId toolName arguments rawArguments)
  | _ => blockFromStored stored

def forkEntries (messages : List TranscriptMessage) (eventSeq : Nat) : List TimelineEntry :=
  (persistedTranscriptBlocks messages eventSeq).zipIdx.map fun (block, itemIndex) =>
    ⟨.forkItem eventSeq itemIndex, block⟩

def projectEvent (entries : List TimelineEntry) (stored : StoredEvent) : List TimelineEntry :=
  match stored.event.payload with
  | .sessionForked _ _ _ messages => entries ++ forkEntries messages stored.seq
  | _ =>
    match timelineBlock stored with
    | none => entries
    | some block => upsert TimelineEntry.id TimelineEntry.update ⟨.event stored.seq, block⟩ entries

def projectEvents (events : List StoredEvent) : List TimelineEntry := events.foldl projectEvent []

/-- Blocks that are on the page already are not taken from older events again. -/
def prependEntries (current older : List TimelineEntry) : List TimelineEntry :=
  older.filter (fun entry => entry.id ∉ current.map TimelineEntry.id) ++ current

/-! ### Budgets -/

structure PageBudget where
  maxItems : Nat
  maxBytes : Nat

section Pages

variable (size : ConversationBlock → Nat) (budget : PageBudget)

def bytesReached (bytes : Nat) : List TimelineEntry → Bool
  | [] => false
  | entry :: rest =>
    let bytes := saturatingAdd bytes (size entry.block)
    budget.maxBytes ≤ bytes || bytesReached bytes rest

def pageBudgetReached (entries : List TimelineEntry) : Bool :=
  budget.maxItems ≤ entries.length || bytesReached size budget 0 entries.reverse

/-- How many entries of the end fit; at least one does. -/
def keptEntries (bytes kept : Nat) : List TimelineEntry → Nat
  | [] => kept
  | entry :: rest =>
    let itemBytes := size entry.block
    if 0 < kept && (budget.maxItems ≤ kept || budget.maxBytes < saturatingAdd bytes itemBytes) then
      kept
    else keptEntries (saturatingAdd bytes itemBytes) (kept + 1) rest

/-- The entries that fit, where they begin, and whether others had to go. -/
def boundedSuffix (entries : List TimelineEntry) :
    List TimelineEntry × Option TimelinePosition × Bool :=
  let start := entries.length - keptEntries size budget 0 0 entries.reverse
  let retained := entries.drop start
  (retained, retained.head?.map (·.position), 0 < start)

/-! ### Reading backward -/

def eventChunk : Nat := 512

def eventChunkScanTarget : Nat := 8

structure TimelineScan where
  entries : List TimelineEntry
  earliestScannedSeq : Option Nat
  hasUnscannedEvents : Bool

/-- The loop of `page_before`. It ends before the fuel does if there is more of it than events. -/
def scanEvents (events : List StoredEvent) :
    Nat → Nat → Option Nat → List TimelineEntry → Option Nat → Option TimelineScan
  | 0, _, _, _, _ => none
  | fuel + 1, scannedChunks, beforeSeq, entries, earliestScannedSeq =>
    let scannedChunks := scannedChunks + 1
    let batch := InMemory.replayBeforeLimited events beforeSeq (eventChunk + 1)
    if batch.isEmpty then some ⟨entries, earliestScannedSeq, false⟩
    else
      let chunkHasOlder := eventChunk < batch.length
      let chunk := if chunkHasOlder then batch.tail else batch
      let firstSeq := chunk.head?.map (·.seq)
      let entries := prependEntries entries (projectEvents chunk)
      let hasUnscannedEvents := chunkHasOlder || firstSeq.any (0 < ·)
      if pageBudgetReached size budget entries || !hasUnscannedEvents ||
          (eventChunkScanTarget ≤ scannedChunks && !entries.isEmpty) then
        some ⟨entries, firstSeq, hasUnscannedEvents⟩
      else scanEvents events fuel scannedChunks firstSeq entries firstSeq

/-! ### Pages -/

structure ConversationTimelinePage where
  items : List ConversationBlock
  olderCursor : Option TimelinePosition
  hasOlder : Bool
  deriving DecidableEq

inductive ConversationTimelineError where
  | invalidCursor
  deriving DecidableEq

def isUserBlock : ConversationBlock → Bool
  | .user .. => true
  | _ => false

/-- Where the first turn begins that is not at the start of the page. -/
def turnStart (items : List TimelineEntry) : Option Nat :=
  (items.findIdx? (isUserBlock ·.block)).filter (0 < ·)

/-- What a page keeps of its scan. -/
structure RetainedEntries where
  items : List TimelineEntry
  cursorPosition : Option TimelinePosition
  hasOlder : Bool

def retainEntries (scan : TimelineScan) : RetainedEntries :=
  let (items, firstRetainedPosition, droppedItems) := boundedSuffix size budget scan.entries
  match turnStart items with
  | some turnStart =>
    let items := items.drop turnStart
    ⟨items, items.head?.map (·.position), true⟩
  | none =>
    { items
      cursorPosition :=
        if droppedItems then firstRetainedPosition else scan.earliestScannedSeq.map .event
      hasOlder := droppedItems || scan.hasUnscannedEvents }

def eventPageBefore (events : List StoredEvent) (beforeSeq : Option Nat) :
    Option ConversationTimelinePage :=
  (scanEvents size budget events (events.length + 1) 0 beforeSeq [] none).map fun scan =>
    let retained := retainEntries size budget scan
    { items := retained.items.map (·.block)
      olderCursor := if retained.hasOlder then retained.cursorPosition else none
      hasOlder := retained.hasOlder }

def forkPageBefore (events : List StoredEvent) (eventSeq itemIndex : Nat) :
    Except ConversationTimelineError ConversationTimelinePage :=
  match checkedAdd eventSeq 1 with
  | none => .error .invalidCursor
  | some afterFork =>
    match (InMemory.replayBeforeLimited events (some afterFork) 1).getLast?.filter
        (·.seq = eventSeq) with
    | none => .error .invalidCursor
    | some stored =>
      match stored.event.payload with
      | .sessionForked _ _ _ messages =>
        let entries := forkEntries messages eventSeq
        if entries.length < itemIndex then .error .invalidCursor
        else
          let (items, firstPosition, droppedItems) :=
            boundedSuffix size budget (entries.take itemIndex)
          .ok ⟨items.map (·.block), if droppedItems then firstPosition else none, droppedItems⟩
      | _ => .error .invalidCursor

/-- `page_before`; nothing if the scan did not end. -/
def pageBefore (events : List StoredEvent) (before : Option TimelinePosition) :
    Option (Except ConversationTimelineError ConversationTimelinePage) :=
  match before with
  | some (.forkItem eventSeq itemIndex) =>
    some (forkPageBefore size budget events eventSeq itemIndex)
  | some (.event seq) => (eventPageBefore size budget events (some seq)).map .ok
  | none => (eventPageBefore size budget events none).map .ok

/-- A client asks for the page at the cursor, and for the pages before it until a page has no
older cursor. The oldest page comes first. -/
def pagesBefore (events : List StoredEvent) :
    Nat → Option TimelinePosition → Option (List ConversationTimelinePage)
  | 0, _ => none
  | fuel + 1, before => do
    let page ← (pageBefore size budget events before).bind Except.toOption
    match page.olderCursor with
    | none => pure [page]
    | some cursor =>
      let older ← pagesBefore events fuel (some cursor)
      pure (older ++ [page])

end Pages

/-! ### The newest page

`decorate_timeline_items` of `projection/snapshot.rs`: the newest page also shows what the read
model knows about its tool calls. -/

/-- Without a running turn a tool call that has no result will not get one. -/
@[simp] def finalizeOrphanedToolBlock : ConversationBlock → ConversationBlock
  | .toolCall id name arguments text .streaming metadata approval argumentsJson =>
    .toolCall id name arguments
      (if text = "" then "tool execution interrupted before completion" else text) .failed
      metadata approval argumentsJson
  | block => block

@[simp] def applyPendingToolApproval (approvals : List (ToolCallId × PendingToolApprovalView)) :
    ConversationBlock → ConversationBlock
  | .toolCall id name arguments text status metadata approval argumentsJson =>
    .toolCall id name arguments text status metadata
      ((approvals.lookup id).elim approval fun pending => some ⟨id, pending.prompt, pending.ruleKey⟩)
      argumentsJson
  | block => block

def decorateTimelineItem (session : SessionReadModel) (block : ConversationBlock) :
    ConversationBlock :=
  applyPendingToolApproval session.execution.pendingToolApprovals <|
    if session.execution.unsettledTurnId.isNone then finalizeOrphanedToolBlock block else block

def decorateTimelineItems (blocks : List ConversationBlock) (session : SessionReadModel)
    (isLatestPage : Bool) : List ConversationBlock :=
  if isLatestPage then blocks.map (decorateTimelineItem session) else blocks

end Astrcode
