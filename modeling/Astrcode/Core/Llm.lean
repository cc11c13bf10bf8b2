import Astrcode.Core.Primitives
import Astrcode.Library.Json

/-!
# Conversation messages and the provider boundary

`astrcode-core/src/llm.rs`: the message types, and the normalisation every
provider request passes through. Blank messages are dropped, an assistant message
that carries tool calls is merged into an assistant message right before it, and
what the last, unsettled round of tool calls leaves open is cut off.

`Arc` only shares storage, so an `Arc<LlmMessage>` is the message itself and a
`SharedTranscriptMessage` is a `TranscriptMessage`.
-/
namespace Astrcode

open Library (Json)

inductive LlmRole where
  | system
  | user
  | assistant
  | tool
  deriving DecidableEq

inductive LlmContent where
  | text (text : String)
  | image (base64 mediaType : String) (filename : Option String)
  | toolCall (callId name : String) (arguments : Json) (rawArguments : Option String)
  | toolResult (toolCallId content : String) (isError : Bool)
  deriving DecidableEq

structure LlmMessage where
  role : LlmRole
  content : List LlmContent
  name : Option String
  reasoningContent : Option String
  deriving DecidableEq

inductive TranscriptMessageOrigin where
  | turnAborted
  | toolCallFailed
  | toolCallCancelled
  deriving DecidableEq

structure TranscriptMessage where
  message : LlmMessage
  origin : Option TranscriptMessageOrigin
  deriving DecidableEq

abbrev SharedTranscriptMessage := TranscriptMessage

def TranscriptMessage.plain (message : LlmMessage) : TranscriptMessage := ⟨message, none⟩

structure MessageAttachment where
  filename : String
  content : String
  mediaType : String
  deriving DecidableEq

/-- `media_type.starts_with("image/")`. -/
def MessageAttachment.isImage (att : MessageAttachment) : Bool :=
  "image/".toList.isPrefixOf att.mediaType.toList

/-! ### Building messages -/

def xmlEscapeAttr (value : String) : String :=
  String.ofList (value.toList.flatMap fun c =>
    if c = '&' then "&amp;".toList else if c = '"' then "&quot;".toList else [c])

namespace LlmMessage

def user (text : String) : LlmMessage := ⟨.user, [.text text], none, none⟩

def attachmentContent (att : MessageAttachment) : LlmContent :=
  if att.isImage then .image att.content att.mediaType (some att.filename)
  else .text ("<attachment filename=\"" ++ xmlEscapeAttr att.filename ++ "\" media_type=\""
    ++ xmlEscapeAttr att.mediaType ++ "\">\n" ++ att.content ++ "\n</attachment>")

def userWithAttachments (text : String) (attachments : List MessageAttachment) : LlmMessage :=
  -- attachments come before the text; a message is never left without content
  let content := attachments.map attachmentContent ++ (if text = "" then [] else [.text text])
  ⟨.user, if content.isEmpty then [.text ""] else content, none, none⟩

def assistant (text : String) : LlmMessage := ⟨.assistant, [.text text], none, none⟩

def tool (name toolCallId content : String) (isError : Bool) : LlmMessage :=
  ⟨.tool, [.toolResult toolCallId content isError], some name, none⟩

end LlmMessage

def turnAbortedGuidance : String :=
  "The user interrupted the previous turn on purpose. " ++
  "Any running tools/commands may still be running in the background. " ++
  "If any tools/commands were aborted, they may have partially executed."

def turnAbortedContextMessage : LlmMessage :=
  .user ("<turn_aborted>\n" ++ turnAbortedGuidance ++ "\n</turn_aborted>")

/-! ### What a message carries -/

def LlmContent.toolCallId? : LlmContent → Option String
  | .toolCall callId .. => some callId
  | _ => none

def LlmContent.toolResultId? : LlmContent → Option String
  | .toolResult toolCallId .. => some toolCallId
  | _ => none

namespace LlmMessage

variable (m : LlmMessage)

def toolCallIds : List String := m.content.filterMap LlmContent.toolCallId?

def toolResultIds : List String := m.content.filterMap LlmContent.toolResultId?

/-- An assistant message with at least one tool call: it opens a round. -/
def hasToolCalls : Bool :=
  m.role = .assistant && m.content.any fun c => c.toolCallId?.isSome

def contentVisible : LlmContent → Bool
  | .text text => !isBlank text
  | .image .. | .toolCall .. | .toolResult .. => true

def hasProviderVisibleContent : Bool :=
  m.content.any contentVisible || m.reasoningContent.any fun r => !isBlank r

def append (other : LlmMessage) : LlmMessage :=
  { m with
    content := m.content ++ other.content
    -- the reasoning of the message that absorbs goes first
    reasoningContent := m.reasoningContent.or other.reasoningContent }

end LlmMessage

/-! ### The provider boundary -/

/-- The entries the normalisation works on: bare messages or messages with their origin. -/
class ProviderVisibleEntry (E : Type) where
  message : E → LlmMessage
  absorbAssistant : E → E → E
  message_absorb : ∀ e other, message (absorbAssistant e other) = (message e).append (message other)

open ProviderVisibleEntry

instance : ProviderVisibleEntry LlmMessage where
  message m := m
  absorbAssistant := LlmMessage.append
  message_absorb _ _ := rfl

@[simp] theorem message_self (m : LlmMessage) : message m = m := rfl

instance : ProviderVisibleEntry TranscriptMessage where
  message := TranscriptMessage.message
  absorbAssistant e other := ⟨e.message.append other.message, e.origin.or other.origin⟩
  message_absorb _ _ := rfl

section Normalisation

variable {E : Type} [ProviderVisibleEntry E]

/-- One entry of `normalize_tool_call_entries`, on the entries merged so far. -/
def mergeToolCallEntry (merged : List E) (entry : E) : List E :=
  match merged.getLast? with
  | some last =>
    -- a text and the calls that belong to it may arrive as two messages
    if (message entry).hasToolCalls && (message last).role = .assistant then
      merged.dropLast ++ [absorbAssistant last entry]
    else merged ++ [entry]
  | none => merged ++ [entry]

variable (messages : List E)

def normalizeToolCallEntries : List E :=
  messages.foldl mergeToolCallEntry []

/-- The round that is not yet settled: the position of its assistant message in the
output, all its call ids and those already answered. -/
structure PendingRound where
  start : Nat
  callIds : List String
  answered : List String

def PendingRound.accepts (round : PendingRound) (ids : List String) : Bool :=
  !ids.isEmpty && ids.all fun id => round.callIds.contains id && !round.answered.contains id

def PendingRound.settled (round : PendingRound) : Bool :=
  round.callIds.all fun id => round.answered.contains id

structure TruncateState (E : Type) where
  out : List E
  pending : Option PendingRound
  buffered : List E

/-- One iteration of the loop. `Except.error` is the early return with the given output. -/
@[simp] def truncateStep (s : TruncateState E) (entry : E) : Except (List E) (TruncateState E) :=
  if (message entry).role = .tool then
    let ids := (message entry).toolResultIds
    match s.pending with
    | some round =>
      if round.accepts ids then
        let round := { round with answered := round.answered ++ ids }
        if round.settled then
          -- the last answer: what arrived in between is let out behind the round
          .ok ⟨s.out ++ [entry] ++ s.buffered, none, []⟩
        else .ok { s with out := s.out ++ [entry], pending := some round }
      -- a result of another round, or one given twice: the open round is dropped
      else .error (s.out.take round.start)
    -- a result without a call
    | none => .error s.out
  else if s.pending.isSome then
    -- anything but a result waits, calls of its own included
    .ok { s with buffered := s.buffered ++ [entry] }
  else if (message entry).role = .assistant && !(message entry).toolCallIds.isEmpty then
    .ok { s with
      out := s.out ++ [entry]
      pending := some ⟨s.out.length, (message entry).toolCallIds, []⟩ }
  else .ok { s with out := s.out ++ [entry] }

@[simp] def truncateLoop (s : TruncateState E) : List E → List E
  | [] =>
    match s.pending with
    | some round => s.out.take round.start
    | none => s.out
  | entry :: rest =>
    match truncateStep s entry with
    | .error out => out
    | .ok s => truncateLoop s rest

def truncateIncompleteToolEntries : List E :=
  truncateLoop ⟨[], none, []⟩ messages

def providerVisibleEntries : List E :=
  truncateIncompleteToolEntries
    (normalizeToolCallEntries
      (messages.filter fun entry => (message entry).hasProviderVisibleContent))

end Normalisation

def providerVisibleMessages (messages : List LlmMessage) : List LlmMessage :=
  providerVisibleEntries messages

def providerTranscriptMessages (messages : List TranscriptMessage) : List TranscriptMessage :=
  (providerVisibleEntries messages).filter fun entry => entry.message.role ≠ .system

def providerTranscriptSharedMessages (messages : List SharedTranscriptMessage) :
    List SharedTranscriptMessage :=
  (providerVisibleEntries messages).filter fun entry => entry.message.role ≠ .system

def providerTranscript (messages : List LlmMessage) : List LlmMessage :=
  (providerTranscriptMessages (messages.map TranscriptMessage.plain)).map (·.message)

end Astrcode
