import Astrcode.Ai.StreamDecoder

/-!
# Lines do not depend on chunks

The decoder and the line reader both keep what is incomplete and read it again with the next
chunk. The text is therefore the lossy decoding of all bytes together, and the lines are those
of the whole text: without the carriage returns at their end, and the last one, if no newline
ends it, without white space around it or not at all.
-/
namespace Astrcode

open Library List

/-! ### Lossy decoding -/

/-- A byte after a complete sequence. -/
def beginSequence (byte : UInt8) : List Char × List UInt8 :=
  match utf8Sequence [byte] with
  | .complete c => ([c], [])
  | .begun => ([], [byte])
  | .invalid => (['\uFFFD'], [])

/-- One byte of a lossy decoding. A sequence that breaks off is replaced as a whole, and the
byte that does not fit comes after it. -/
def decodeByte (begun : List UInt8) (byte : UInt8) : List Char × List UInt8 :=
  if begun = [] then beginSequence byte
  else match utf8Sequence (begun ++ [byte]) with
    | .complete c => ([c], [])
    | .begun => ([], begun ++ [byte])
    | .invalid =>
      let (text, rest) := beginSequence byte
      ('\uFFFD' :: text, rest)

/-- `String::from_utf8_lossy`, after `begun`. -/
def lossyText (begun bytes : List UInt8) : List Char :=
  let (text, rest) := transduce decodeByte begun bytes
  text ++ if rest.isEmpty then [] else ['\uFFFD']

private theorem decodeByte_complete {begun : List UInt8} {byte : UInt8} {c : Char}
    (completes : utf8Sequence (begun ++ [byte]) = .complete c) :
    decodeByte begun byte = ([c], []) := by
  cases begun <;> simp_all [decodeByte, beginSequence]

private theorem decodeByte_begun {begun : List UInt8} {byte : UInt8}
    (begins : utf8Sequence (begun ++ [byte]) = .begun) :
    decodeByte begun byte = ([], begun ++ [byte]) := by
  cases begun <;> simp_all [decodeByte, beginSequence]

private theorem beginSequence_held (byte : UInt8) : Held decodeByte (beginSequence byte).2 := by
  rw [beginSequence]
  split
  · exact held_nil
  · next begins => exact held_nil.snoc (decodeByte_begun begins)
  · exact held_nil

private theorem decodeByte_held (begun : List UInt8) (byte : UInt8) (held : Held decodeByte begun) :
    Held decodeByte (decodeByte begun byte).2 := by
  rw [decodeByte]
  split
  · exact beginSequence_held byte
  · split
    · exact held_nil
    · next begins => exact held.snoc (decodeByte_begun begins)
    · exact beginSequence_held byte

/-- What is decoded when `from_utf8` has said this. -/
def afterUtf8 : Except Utf8Error (List Char) → List Char × List UInt8
  | .ok text => (text, [])
  | .error ⟨valid, rest, none⟩ => (valid, rest)
  | .error ⟨valid, rest, some errorLen⟩ =>
    let (text, last) := transduce decodeByte [] (rest.drop errorLen)
    (valid ++ '\uFFFD' :: text, last)

private theorem transduce_eq_afterUtf8 (begun bytes : List UInt8) :
    transduce decodeByte begun bytes = afterUtf8 (fromUtf8 begun bytes) := by
  fun_induction fromUtf8 begun bytes with
  | case1 => rfl
  | case2 begun started => rfl
  | case3 begun byte bytes c completes text rest ih =>
    simp [transduce, decodeByte_complete completes, ih, rest, afterUtf8]
  | case4 begun byte bytes c completes e rest ih =>
    obtain ⟨valid, last, _ | errorLen⟩ := e
    all_goals simp [transduce, decodeByte_complete completes, ih, rest, afterUtf8]
  | case5 begun byte bytes begins ih => simp [transduce, decodeByte_begun begins, ih]
  | case6 begun byte bytes breaks =>
    cases begun with
    | nil =>
      rw [nil_append] at breaks
      simp [transduce, decodeByte, beginSequence, breaks, afterUtf8]
    | cons first more =>
      -- the byte is read again after the replacement
      rw [cons_append] at breaks
      simp [transduce, decodeByte, breaks, afterUtf8]

/-- An error takes a byte at least, and bytes that end too early are some. -/
private theorem fromUtf8_error {begun bytes : List UInt8} {e : Utf8Error}
    (failed : fromUtf8 begun bytes = .error e) :
    (e.errorLen = none → e.rest ≠ []) ∧ ∀ errorLen, e.errorLen = some errorLen →
      (e.rest.drop errorLen).length < begun.length + bytes.length := by
  fun_induction fromUtf8 begun bytes generalizing e with
  | case1 | case3 => cases failed
  | case2 begun started =>
    cases failed
    exact ⟨fun _ => started, by simp⟩
  | case4 begun byte bytes c completes e' rest ih =>
    cases failed
    obtain ⟨early, breaks⟩ := ih rest
    refine ⟨early, fun errorLen found => ?_⟩
    have := breaks errorLen found
    simp only [length_cons, length_nil] at this ⊢
    omega
  | case5 begun byte bytes begins ih =>
    have := ih failed
    simpa [Nat.add_assoc, Nat.add_comm 1] using this
  | case6 begun byte bytes breaks =>
    cases failed
    refine ⟨by simp, ?_⟩
    rintro errorLen ⟨⟩
    simp only [length_drop, length_append, length_cons]
    omega

private theorem decodePending_eq (atEnd : Bool) {rounds : Nat} (decoded : List Char)
    {bytes : List UInt8} (enough : bytes.length ≤ rounds) :
    decodePending atEnd rounds decoded bytes =
      if atEnd then (decoded ++ lossyText [] bytes, [])
      else (decoded ++ (transduce decodeByte [] bytes).1, (transduce decodeByte [] bytes).2) := by
  induction rounds generalizing decoded bytes with
  | zero =>
    obtain rfl := length_eq_zero_iff.mp (Nat.le_zero.mp enough)
    simp [decodePending, lossyText, transduce]
  | succ rounds ih =>
    rw [decodePending, lossyText, transduce_eq_afterUtf8]
    split
    · next text valid => simp [valid, afterUtf8]
    · next e failed =>
      obtain ⟨early, breaks⟩ := fromUtf8_error failed
      rw [failed]
      obtain ⟨valid, rest, _ | errorLen⟩ := e
      · cases atEnd <;> simp [afterUtf8, early rfl]
      · have fewer := breaks errorLen rfl
        dsimp only
        simp only [length_nil, Nat.zero_add] at fewer
        rw [ih _ (by omega)]
        cases atEnd <;> simp [afterUtf8, lossyText]

/-- A sequence that breaks off is one replacement character, a byte that begins none another. -/
example : lossyText [] [0xE2, 0x82, 0xAC, 0xE2, 0x82, 0x41, 0xFF, 0xF0] =
    ['€', '\uFFFD', 'A', '\uFFFD', '\uFFFD'] := by
  decide

/-! ### Lines -/

private theorem cutLine_held (line : List Char) (c : Char) (held : Held cutLine line) :
    Held cutLine (cutLine line c).2 := by
  by_cases newline : c = '\n'
  · simpa [cutLine, newline] using held_nil
  · simpa [cutLine, newline] using held.snoc (by simp [cutLine, newline])

/-- The lines of a text: none that a newline ends has a carriage return at its end, and what
follows the last newline counts without the white space around it, unless it is blank. -/
def textLines (text : List Char) : List (List Char) :=
  let pieces := text.splitOn '\n'
  pieces.dropLast.map trimReturns ++ (nonEmpty (trimChars (pieces.getLastD []))).toList

/-- The reader cuts a text into its pieces, the first of which has begun with `line`. -/
private theorem transduce_cutLine (line text : List Char) :
    transduce cutLine line text =
      let pieces := (text.splitOn '\n').modifyHead (line ++ ·)
      (pieces.dropLast.map trimReturns, pieces.getLastD []) := by
  induction text generalizing line with
  | nil => simp [transduce, splitOn]
  | cons c text ih =>
    obtain ⟨first, more, pieces⟩ := exists_cons_of_ne_nil (splitOnP_ne_nil (· == '\n') text)
    by_cases newline : c = '\n' <;>
      simp [transduce, cutLine, newline, ih, splitOn, splitOnP_cons_eq_if_modifyHead, pieces]

/-- The buffers stay below the limit at every chunk, and at the end. -/
def BelowLimit (pending : List UInt8) (buffer : List Char) : List (List UInt8) → Prop
  | [] => textLen buffer + textLen (lossyText pending []) ≤ maxStreamBufferBytes
  | chunk :: chunks =>
    let (text, rest) := transduce decodeByte pending chunk
    pending.length + chunk.length ≤ maxStreamBufferBytes ∧
      textLen buffer + textLen text ≤ maxStreamBufferBytes ∧
      BelowLimit rest (transduce cutLine buffer text).2 chunks

private theorem consumeDecodedLines_eq {buffer text : List Char} (held : Held cutLine buffer)
    (fits : textLen buffer + textLen text ≤ maxStreamBufferBytes) :
    consumeDecodedLines buffer (nonEmpty text) = .ok (transduce cutLine buffer text) := by
  by_cases none : text = []
  · simp [nonEmpty, none, consumeDecodedLines, transduce]
  · simp [nonEmpty, none, consumeDecodedLines, SseLineReader.pushChunk, held.resume,
      Nat.not_lt.mpr fits]

private theorem utf8Push_eq {pending chunk : List UInt8} (held : Held decodeByte pending)
    (fits : pending.length + chunk.length ≤ maxStreamBufferBytes) :
    Utf8StreamDecoder.push pending chunk =
      .ok (nonEmpty (transduce decodeByte pending chunk).1,
        (transduce decodeByte pending chunk).2) := by
  by_cases none : chunk = []
  · simp [Utf8StreamDecoder.push, none, transduce, nonEmpty]
  · simp [Utf8StreamDecoder.push, none, Nat.not_lt.mpr fits, decodePending_eq, held.resume]

private theorem consumeSseLines_eq {pending : List UInt8} {buffer : List Char}
    {chunks : List (List UInt8)} (bytes : Held decodeByte pending) (line : Held cutLine buffer)
    (fits : BelowLimit pending buffer chunks) :
    consumeSseLines pending buffer chunks =
      let (lines, rest) := transduce cutLine buffer (lossyText pending chunks.flatten)
      .ok (lines ++ (SseLineReader.flush rest).toList) := by
  induction chunks generalizing pending buffer with
  | nil =>
    have finished : Utf8StreamDecoder.finish pending = nonEmpty (lossyText pending []) := by
      rw [Held] at bytes
      simp [Utf8StreamDecoder.finish, decodePending_eq, lossyText, transduce, bytes]
    rw [consumeSseLines, finished, consumeDecodedLines_eq line fits]
    rfl
  | cons chunk chunks ih =>
    obtain ⟨small, short, rest⟩ := fits
    have later := ih (bytes.transduce decodeByte_held chunk) (line.transduce cutLine_held _) rest
    have first := consumeDecodedLines_eq line short
    rw [consumeSseLines, utf8Push_eq bytes small]
    simp only [bind, Except.bind] at first ⊢
    rw [first]
    simp only [later, pure, Except.pure, flatten_cons, lossyText, transduce_append,
      append_assoc]

/-- Whatever chunks the bytes of a stream come in, as long as they stay below the limit, the
lines that are read are those of its lossy decoding. -/
theorem lines_independent_of_chunks (chunks : List (List UInt8)) (fits : BelowLimit [] [] chunks) :
    consumeSseLines [] [] chunks = .ok (textLines (lossyText [] chunks.flatten)) := by
  rw [consumeSseLines_eq held_nil held_nil fits, transduce_cutLine]
  obtain ⟨first, more, pieces⟩ :=
    exists_cons_of_ne_nil (splitOnP_ne_nil (· == '\n') (lossyText [] chunks.flatten))
  simp [textLines, splitOn, pieces, SseLineReader.flush]

/-- A character may come in two chunks. -/
theorem character_in_two_chunks :
    consumeSseLines [] [] [[0xC3], [0xA9, 0x0A]] =
      .ok (textLines (lossyText [] [0xC3, 0xA9, 0x0A])) :=
  lines_independent_of_chunks [[0xC3], [0xA9, 0x0A]]
    ⟨by decide, by decide, by decide, by decide, Nat.le_of_ble_eq_true rfl⟩

/-- The lines are not the pieces between the newlines: a carriage return before a newline is lost,
and so is a blank at the end. -/
theorem return_and_blank_lost :
    consumeSseLines [] [] [[0x61, 0x0D, 0x0A, 0x20]] = .ok [['a']] ∧
      (lossyText [] [0x61, 0x0D, 0x0A, 0x20]).splitOn '\n' = [['a', '\r'], [' ']] := by
  decide +kernel

end Astrcode
