import Astrcode.Core.Primitives
import Astrcode.Library.Transducers
import Mathlib.Data.UInt

/-!
# Decoding a stream of bytes

`astrcode-ai/src/stream_decoder.rs`, and how `consume_sse_lines` uses it: chunks of bytes become
text (`Utf8StreamDecoder`), and text becomes lines (`SseLineReader`). The callback that may stop
the stream is left out.
-/
namespace Astrcode

def maxStreamBufferBytes : Nat := 16 * 1024 * 1024

inductive StreamDecoderError where
  | bufferOverflow
  deriving DecidableEq

/-- The length of a text in bytes. -/
def textLen (text : List Char) : Nat := (text.map Char.utf8Size).sum

/-! ### `str::from_utf8` -/

/-- The ranges of the bytes that follow a first byte in well-formed UTF-8; nothing for a byte
that never comes first. -/
def continuations (first : UInt8) : Option (List (UInt8 × UInt8)) :=
  if first ≤ 0x7F then some []
  else if first ≤ 0xC1 then none
  else if first ≤ 0xDF then some [(0x80, 0xBF)]
  else if first ≤ 0xEF then
    some [(if first = 0xE0 then 0xA0 else 0x80, if first = 0xED then 0x9F else 0xBF), (0x80, 0xBF)]
  else if first ≤ 0xF4 then
    some [(if first = 0xF0 then 0x90 else 0x80, if first = 0xF4 then 0x8F else 0xBF),
      (0x80, 0xBF), (0x80, 0xBF)]
  else none

/-- The character that a whole sequence stands for. -/
def charOf (first : UInt8) (rest : List UInt8) : Char :=
  let bits := if rest.isEmpty then 7 else 6 - rest.length
  .ofNat (rest.foldl (fun code byte => 64 * code + byte.toNat % 64) (first.toNat % 2 ^ bits))

inductive Utf8Sequence where
  | complete (c : Char)
  | begun
  | invalid

def utf8Sequence : List UInt8 → Utf8Sequence
  | [] => .begun
  | first :: rest =>
    match continuations first with
    | none => .invalid
    | some ranges =>
      if (rest.zip ranges).all fun (byte, low, high) => low ≤ byte && byte ≤ high then
        if rest.length < ranges.length then .begun else .complete (charOf first rest)
      else .invalid

/-- `Utf8Error`, with the text before `valid_up_to` and the bytes from there on. There is no
`error_len` when the bytes only end too early. -/
structure Utf8Error where
  valid : List Char
  rest : List UInt8
  errorLen : Option Nat

/-- `str::from_utf8`, inside the sequence `begun`. -/
def fromUtf8 (begun : List UInt8) : List UInt8 → Except Utf8Error (List Char)
  | [] => if begun = [] then .ok [] else .error ⟨[], begun, none⟩
  | byte :: bytes =>
    match utf8Sequence (begun ++ [byte]) with
    | .complete c =>
      match fromUtf8 [] bytes with
      | .ok text => .ok (c :: text)
      | .error e => .error { e with valid := c :: e.valid }
    | .begun => fromUtf8 (begun ++ [byte]) bytes
    -- the byte that does not fit belongs to the error only if nothing was begun
    | .invalid => .error ⟨[], begun ++ byte :: bytes, some (max begun.length 1)⟩

/-! ### `Utf8StreamDecoder` -/

/-- The loop of `decode_available` and of `finish`, which differ in what they do with a sequence
that is incomplete: the text, and what stays pending. Every round takes a byte at least. -/
def decodePending (atEnd : Bool) : Nat → List Char → List UInt8 → List Char × List UInt8
  | 0, decoded, pending => (decoded, pending)
  | rounds + 1, decoded, pending =>
    match fromUtf8 [] pending with
    | .ok text => (decoded ++ text, [])
    | .error e =>
      match e.errorLen with
      | some invalidLen =>
        decodePending atEnd rounds (decoded ++ e.valid ++ ['\uFFFD']) (e.rest.drop invalidLen)
      | none =>
        if atEnd then (decoded ++ e.valid ++ ['\uFFFD'], []) else (decoded ++ e.valid, e.rest)

def nonEmpty (text : List Char) : Option (List Char) := if text = [] then none else some text

def Utf8StreamDecoder.push (pending chunk : List UInt8) :
    Except StreamDecoderError (Option (List Char) × List UInt8) :=
  if chunk = [] then .ok (none, pending)
  else if maxStreamBufferBytes < pending.length + chunk.length then .error .bufferOverflow
  else
    let (decoded, pending) :=
      decodePending false (pending ++ chunk).length [] (pending ++ chunk)
    .ok (nonEmpty decoded, pending)

def Utf8StreamDecoder.finish (pending : List UInt8) : Option (List Char) :=
  nonEmpty (decodePending true pending.length [] pending).1

/-! ### `SseLineReader` -/

/-- `trim_end_matches('\r')`. -/
def trimReturns (line : List Char) : List Char := (line.reverse.dropWhile (· = '\r')).reverse

/-- The loop over the newlines of the buffer, one character at a time: a newline ends the line
that was begun. -/
def cutLine (line : List Char) (c : Char) : List (List Char) × List Char :=
  if c = '\n' then ([trimReturns line], []) else ([], line ++ [c])

/-- The lines that are complete, and what stays in the buffer. -/
def SseLineReader.pushChunk (buffer text : List Char) :
    Except StreamDecoderError (List (List Char) × List Char) :=
  if maxStreamBufferBytes < textLen buffer + textLen text then .error .bufferOverflow
  else .ok (Library.transduce cutLine [] (buffer ++ text))

def SseLineReader.flush (buffer : List Char) : Option (List Char) := nonEmpty (trimChars buffer)

/-- Lines are read from a text only if there is one. -/
def consumeDecodedLines (buffer : List Char) :
    Option (List Char) → Except StreamDecoderError (List (List Char) × List Char)
  | none => .ok ([], buffer)
  | some text => SseLineReader.pushChunk buffer text

/-- `consume_sse_lines`: the lines of a stream that comes in chunks. -/
def consumeSseLines (pending : List UInt8) (buffer : List Char) :
    List (List UInt8) → Except StreamDecoderError (List (List Char))
  | [] => do
    let (lines, buffer) ← consumeDecodedLines buffer (Utf8StreamDecoder.finish pending)
    return lines ++ (SseLineReader.flush buffer).toList
  | chunk :: chunks => do
    let (text, pending) ← Utf8StreamDecoder.push pending chunk
    let (lines, buffer) ← consumeDecodedLines buffer text
    let more ← consumeSseLines pending buffer chunks
    return lines ++ more

end Astrcode
