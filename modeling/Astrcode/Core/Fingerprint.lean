import Astrcode.Core.Llm

/-!
# Transcript fingerprints

`astrcode-core/src/event/fingerprint.rs`. A rewrite of the transcript names the
prefix it replaces by a 64-bit FNV-1a hash over the system prompt and the JSON text
of every message. The text determines the message, so two prefixes with different
content can only share a fingerprint through a collision of the hash itself.

Serialising a message cannot fail for the types at hand, so the `Result` of
`transcript_prefix_fingerprint` is always `Ok` and is left out.
-/
namespace Astrcode

open List

open Library (Json hexDigit)

/-! ### The derived serialisation of messages -/

def LlmRole.asStr : LlmRole → String
  | .system => "system"
  | .user => "user"
  | .assistant => "assistant"
  | .tool => "tool"

/-- A member that `skip_serializing_if = "Option::is_none"` leaves out when absent. -/
def optionalMember (key : String) (value : Option String) : List (String × Json) :=
  value.toList.map fun text => (key, .string text)

def LlmContent.toJson : LlmContent → Json
  | .text value => .object [("type", .string "text"), ("text", .string value)]
  | .image base64 mediaType filename =>
    .object ([("type", .string "image"), ("base64", .string base64),
      ("media_type", .string mediaType)] ++ optionalMember "filename" filename)
  | .toolCall callId name arguments rawArguments =>
    .object ([("type", .string "tool_call"), ("call_id", .string callId),
      ("name", .string name), ("arguments", arguments)] ++
      optionalMember "raw_arguments" rawArguments)
  | .toolResult toolCallId content isError =>
    .object [("type", .string "tool_result"), ("tool_call_id", .string toolCallId),
      ("content", .string content), ("is_error", .bool isError)]

def LlmMessage.toJson (m : LlmMessage) : Json :=
  .object ([("role", .string m.role.asStr), ("content", .array (m.content.map LlmContent.toJson))]
    ++ optionalMember "name" m.name ++ optionalMember "reasoning_content" m.reasoningContent)

/-- `serde_json::to_string(message)`. -/
def LlmMessage.serialized (m : LlmMessage) : String := m.toJson.text

/-! ### The hash -/

def fnv1a64Offset : UInt64 := 0xcbf29ce484222325

def fnv1a64Prime : UInt64 := 0x100000001b3

def segmentSeparator : UInt8 := 0xff

def fnv1aUpdate (hash : UInt64) (bytes : List UInt8) : UInt64 :=
  bytes.foldl (fun hash byte => (hash ^^^ byte.toUInt64) * fnv1a64Prime) hash

def asBytes (s : String) : List UInt8 := s.toUTF8.data.toList

/-- `{:016x}`. -/
def hex16 (hash : UInt64) : String :=
  String.ofList ((range 16).map fun i => hexDigit (hash.toNat / 16 ^ (15 - i) % 16))

def stableHashHex (parts : List String) : String :=
  hex16 (parts.foldl
    -- 0xff occurs in no UTF-8 text, so the separator cannot be part of a segment
    (fun hash part => fnv1aUpdate (fnv1aUpdate hash (asBytes part)) [segmentSeparator])
    fnv1a64Offset)

/-- What the fingerprint of a prefix is computed from. -/
def fingerprintParts (systemPrompt : String) (messages : List LlmMessage) : List String :=
  systemPrompt :: messages.map LlmMessage.serialized

def transcriptPrefixFingerprint (systemPrompt : String) (messages : List LlmMessage) : String :=
  stableHashHex (fingerprintParts systemPrompt messages)

/-! ### The hashed parts determine the prefix -/

private theorem optionalMember_inj {key : String} {a b : Option String}
    (same : optionalMember key a = optionalMember key b) : a = b := by
  cases a <;> cases b <;> simp_all [optionalMember]

theorem LlmContent.toJson_injective : Function.Injective LlmContent.toJson := by
  intro a b same
  cases a <;> cases b <;> simp only [LlmContent.toJson, Json.object.injEq] at same
  -- two kinds of content differ in their "type" member
  all_goals try simp at same
  case text.text => simpa using same
  case image.image =>
    obtain ⟨rfl, rfl, rest⟩ := same
    rw [optionalMember_inj rest]
  case toolCall.toolCall =>
    obtain ⟨rfl, rfl, rfl, rest⟩ := same
    rw [optionalMember_inj rest]
  case toolResult.toolResult =>
    obtain ⟨rfl, rfl, rfl⟩ := same
    rfl

private theorem asStr_injective : Function.Injective LlmRole.asStr := by
  intro a b same
  cases a <;> cases b <;> first | rfl | exact absurd same (by decide)

/-- Absent members are told apart by the keys of those present. -/
private theorem optionalMembers_inj {a b c d : Option String}
    (same : optionalMember "name" a ++ optionalMember "reasoning_content" b =
      optionalMember "name" c ++ optionalMember "reasoning_content" d) : a = c ∧ b = d := by
  cases a <;> cases b <;> cases c <;> cases d <;> simp_all [optionalMember]

theorem LlmMessage.toJson_injective : Function.Injective LlmMessage.toJson := by
  intro m n same
  obtain ⟨role, content, name, reasoning⟩ := m
  obtain ⟨role', content', name', reasoning'⟩ := n
  simp only [LlmMessage.toJson, cons_append, nil_append,
    Json.object.injEq, cons.injEq, Prod.mk.injEq, Json.string.injEq, Json.array.injEq,
    true_and] at same
  obtain ⟨roles, contents, members⟩ := same
  obtain ⟨rfl, rfl⟩ := optionalMembers_inj members
  rw [asStr_injective roles, (map_injective_iff.mpr LlmContent.toJson_injective) contents]

theorem fingerprintParts_inj {p q : String} {ms ns : List LlmMessage}
    (same : fingerprintParts p ms = fingerprintParts q ns) : p = q ∧ ms = ns := by
  obtain ⟨prompt, texts⟩ := cons.inj same
  have injective : Function.Injective LlmMessage.serialized :=
    Library.text_injective.comp LlmMessage.toJson_injective
  exact ⟨prompt, (map_injective_iff.mpr injective) texts⟩

example : (LlmMessage.user "hello").serialized =
    "\x7b\"role\":\"user\",\"content\":[\x7b\"type\":\"text\",\"text\":\"hello\"\x7d]\x7d" := by
  decide +kernel

example : transcriptPrefixFingerprint "system" [.user "hello"] = "8cadff38c396770a" := by
  decide +kernel

end Astrcode
