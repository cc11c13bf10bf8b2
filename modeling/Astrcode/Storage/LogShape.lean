import Astrcode.Projection.Reachable
import Astrcode.Storage.EventLog

/-!
# Well-formed logs

What a log file holds when only the writer has touched it: records of one session,
numbered from zero, the first of them starting the session. Reading such a file
forward returns exactly its events. What the encoder must do for that is stated per
record (`RecordCodec.RoundTrips`).
-/
namespace Astrcode

variable {rest : List StoredEvent} {first event : StoredEvent} {next lineNumber : Nat}
  {tail : List UInt8}

open List

open Library (frame frame_cons frame_append splitInclusive splitInclusive_record
  splitInclusive_tail)

/-! ### Text and bytes -/

theorem utf8?_asBytes (s : String) : utf8? (asBytes s) = some s := by
  have bytes : (⟨(asBytes s).toArray⟩ : ByteArray) = s.toByteArray := by
    simp [asBytes, String.toUTF8]
  rw [utf8?, bytes, String.fromUTF8?, dif_pos s.isValidUTF8]
  rfl

theorem asBytes_append (s t : String) : asBytes (s ++ t) = asBytes s ++ asBytes t := by
  simp [asBytes, String.toUTF8, String.toByteArray_append]

/-- What is assumed of the JSON encoder at one event: it is read back, its text is an object,
and it holds no raw newline. -/
structure RecordCodec.RoundTrips (codec : RecordCodec) (event : StoredEvent) : Prop where
  decodes : codec.fromStr (codec.toText event) = .ok event
  oneLine : newline ∉ asBytes (codec.toText event)
  object : ∃ body, codec.toText event = "\x7b" ++ body ++ "\x7d"

namespace RecordCodec.RoundTrips

variable {lineNumber : Nat} {codec : RecordCodec} {event : StoredEvent}
  (lawful : codec.RoundTrips event)

include lawful

private theorem chars : ∃ body, (codec.toText event).toList = '{' :: body ++ ['}'] := by
  obtain ⟨body, text⟩ := lawful.object
  refine ⟨body.toList, ?_⟩
  rw [text, String.toList_append, String.toList_append]
  rfl

private theorem trim_text : trim (codec.toText event) = codec.toText event := by
  obtain ⟨body, chars⟩ := lawful.chars
  rw [trim, chars, trimChars_eq_self _ _ _ (by decide) (by decide), ← chars, String.ofList_toList]

private theorem trim_line : trim (codec.toText event ++ "\n") = codec.toText event := by
  obtain ⟨body, chars⟩ := lawful.chars
  have line : trimChars (codec.toText event ++ "\n").toList = (codec.toText event).toList := by
    rw [String.toList_append, chars]
    -- the braces stop the trimming on both sides, and behind them is only the newline
    simp [trimChars, show isWhitespace '{' = false by decide, show isWhitespace '}' = false by decide,
      show isWhitespace '\n' = true by decide]
  rw [trim, line, String.ofList_toList]

private theorem line_visible : isBlank (codec.toText event ++ "\n") = false := by
  obtain ⟨body, chars⟩ := lawful.chars
  have same := congrArg String.toList lawful.trim_line
  simp only [trim, String.toList_ofList] at same
  rw [isBlank, same, chars]
  rfl

private theorem parse_trimmed {line path : String} (own : event.event.sessionId ≠ "")
    (trimmed : trim line = codec.toText event) :
    parseEventLine codec path lineNumber line = .ok event := by
  simp only [parseEventLine, trimmed, lawful.decodes, validateEvent, own, if_false]
  rfl

theorem parse_text {path : String} (own : event.event.sessionId ≠ "") :
    parseEventLine codec path lineNumber (codec.toText event) = .ok event :=
  lawful.parse_trimmed own lawful.trim_text

/-- The opening brace is not white space. -/
theorem bytes_visible : (asBytes (codec.toText event)).all isAsciiWhitespace = false := by
  obtain ⟨body, text⟩ := lawful.object
  have brace : (asBytes "\x7b").all isAsciiWhitespace = false := by decide
  rw [text, asBytes_append, asBytes_append, all_append, all_append, brace]
  rfl

end RecordCodec.RoundTrips

/-! ### The shape of a log -/

/-- Records that may follow in the log of a session, the first of them numbered `next`. -/
def Continues (codec : RecordCodec) (sessionId : SessionId) : Nat → List StoredEvent → Prop
  | _, [] => True
  | next, event :: events =>
    (event.seq = next ∧ event.event.sessionId = sessionId ∧
      event.event.payload.isSessionStarted = false ∧ codec.RoundTrips event) ∧
    Continues codec sessionId (next + 1) events

structure WellFormedLog (codec : RecordCodec) (sessionId : SessionId) (first : StoredEvent)
    (rest : List StoredEvent) : Prop where
  named : sessionId ≠ ""
  session : first.event.sessionId = sessionId
  zero : first.seq = 0
  started : first.event.payload.isSessionStarted = true
  noTurn : first.event.turnId = none
  lawful : codec.RoundTrips first
  continues : Continues codec sessionId 1 rest
  room : rest.length + 1 < u64Limit

section Continues

variable {xs : List StoredEvent} {event : StoredEvent} {codec : RecordCodec} {sessionId : SessionId}

theorem continues_append {ys : List StoredEvent} :
    Continues codec sessionId next (xs ++ ys) ↔
      Continues codec sessionId next xs ∧ Continues codec sessionId (next + xs.length) ys := by
  induction xs generalizing next with
  | nil => simp [Continues]
  | cons x xs ih =>
    have shift : next + 1 + xs.length = next + (x :: xs).length := by simp; omega
    simp [Continues, ih, shift, and_assoc]

theorem continues_record {i : Nat} (continues : Continues codec sessionId next xs)
    (found : xs[i]? = some event) :
    event.seq = next + i ∧ event.event.sessionId = sessionId ∧ codec.RoundTrips event := by
  induction xs generalizing next i with
  | nil => simp at found
  | cons x xs ih =>
    obtain ⟨⟨seq, session, -, lawful⟩, later⟩ := continues
    cases i with
    | zero =>
      cases found
      exact ⟨seq, session, lawful⟩
    | succ i =>
      obtain ⟨tail, own⟩ := ih later (by simpa using found)
      exact ⟨by omega, own⟩

/-- Each record of a log is numbered by its position, belongs to the session and is read back. -/
theorem WellFormedLog.record {i : Nat}
    (log : WellFormedLog codec sessionId first rest) (found : (first :: rest)[i]? = some event) :
    event.seq = i ∧ event.event.sessionId = sessionId ∧ codec.RoundTrips event := by
  cases i with
  | zero =>
    cases found
    exact ⟨log.zero, log.session, log.lawful⟩
  | succ i =>
    obtain ⟨seq, own⟩ := continues_record log.continues (by simpa using found)
    exact ⟨by omega, own⟩

theorem WellFormedLog.clean (log : WellFormedLog codec sessionId first rest) :
    ∀ r ∈ (first :: rest).map fun event => asBytes (codec.toText event), newline ∉ r := by
  intro r member
  obtain ⟨event, held, rfl⟩ := mem_map.mp member
  obtain ⟨i, found⟩ := mem_iff_getElem?.mp held
  exact (log.record found).2.2.oneLine

end Continues

/-! ### Reading a log forward -/

section Forward

variable {codec : RecordCodec} {sessionId : SessionId} {σ : Type} {path : String}
  {visit : σ → StoredEvent → Except StorageError (σ × Bool)}

theorem encodeRecords_cons (codec : RecordCodec) (event : StoredEvent) (events : List StoredEvent) :
    encodeRecords codec (event :: events) =
      asBytes (codec.toText event) ++ newline :: encodeRecords codec events :=
  frame_cons ..

theorem encodeRecords_append (codec : RecordCodec) (xs ys : List StoredEvent) :
    encodeRecords codec (xs ++ ys) = encodeRecords codec xs ++ encodeRecords codec ys := by
  simp [encodeRecords, frame_append]

/-- One complete record is decoded, observed and handed to the visitor. -/
theorem scanPieces_record {validator validator' : EventStreamValidator}
    {acc : σ} {rest : List (List UInt8)} (lawful : codec.RoundTrips event)
    (own : event.event.sessionId ≠ "")
    (observed : validator.observe event (lineNumber + 1) path = .ok validator') :
    scanPieces codec path visit validator lineNumber acc
        ((asBytes (codec.toText event) ++ [newline]) :: rest) = (do
      let (acc, more) ← visit acc event
      if more then scanPieces codec path visit validator' (lineNumber + 1) acc rest
      else return acc) := by
  have bytes : asBytes (codec.toText event) ++ [newline] = asBytes (codec.toText event ++ "\n") := by
    rfl
  rw [scanPieces, bytes, utf8?_asBytes]
  simp only [← bytes, getLast?_concat, ne_eq, not_true_eq_false, if_false, lawful.line_visible,
    Bool.false_eq_true, lawful.parse_trimmed own lawful.trim_line, bind, Except.bind, observed]

theorem scanPieces_tail {validator : EventStreamValidator} {acc : σ}
    (clean : newline ∉ tail) (known : validator.sessionId.isSome = true) :
    scanPieces codec path visit validator lineNumber acc (splitInclusive newline tail) =
      if (utf8? tail).isSome then .ok acc else .error (readError path) := by
  have finishes : validator.finish path = .ok () := by
    cases session : validator.sessionId with
    | none => simp [session] at known
    | some sessionId => simp [EventStreamValidator.finish, session]
  -- an empty tail is no piece at all, any other one is the last piece
  by_cases empty : tail = []
  · subst empty
    have decoded : (utf8? []).isSome = true := by decide
    simp only [splitInclusive, scanPieces, finishes, decoded, if_true]
    rfl
  · rw [splitInclusive_tail clean empty, scanPieces]
    have incomplete : tail.getLast? ≠ some newline := by
      intro last
      exact clean (mem_of_getLast? last)
    cases decoded : utf8? tail with
    | none => simp
    | some line =>
      simp only [incomplete, ne_eq, not_false_eq_true, if_true, finishes]
      simp

end Forward

/-! ### Replaying a log -/

section Replay

variable {codec : RecordCodec} {sessionId : SessionId} {path : String} {tail : List UInt8}

/-- The visitor of an unrestricted replay. -/
private def gather (events : List StoredEvent) (event : StoredEvent) :
    Except StorageError (List StoredEvent × Bool) :=
  .ok (events ++ [event], true)

private theorem scanPieces_gather {acc : List StoredEvent} (named : sessionId ≠ "")
    (continues : Continues codec sessionId next rest) (clean : newline ∉ tail) :
    scanPieces codec path gather ⟨some sessionId, next⟩ lineNumber acc
        (splitInclusive newline (encodeRecords codec rest ++ tail)) =
      if (utf8? tail).isSome then .ok (acc ++ rest) else .error (readError path) := by
  induction rest generalizing next lineNumber acc with
  | nil =>
    simp only [encodeRecords, map_nil, Library.frame_nil, nil_append, append_nil]
    exact scanPieces_tail clean rfl
  | cons event rest ih =>
    obtain ⟨⟨seq, session, notStarted, lawful⟩, later⟩ := continues
    have observed : EventStreamValidator.observe ⟨some sessionId, next⟩ event (lineNumber + 1) path =
        .ok ⟨some sessionId, next + 1⟩ := by
      simp [EventStreamValidator.observe, seq, session, notStarted]
    rw [encodeRecords_cons, append_assoc, cons_append,
      splitInclusive_record lawful.oneLine,
      scanPieces_record lawful (by rw [session]; exact named) observed]
    simp only [gather, bind, Except.bind, if_true]
    rw [ih later, append_assoc]
    rfl

/-- Reading a log forward returns its events. What follows the last newline is ignored if it
is UTF-8 text, and makes the whole read fail if it is not. -/
theorem replay_log (log : WellFormedLog codec sessionId first rest) (clean : newline ∉ tail) :
    replayEventsAtPath codec path (encodeRecords codec (first :: rest) ++ tail) none none none =
      if (utf8? tail).isSome then .ok (first :: rest) else .error (readError path) := by
  have observed : EventStreamValidator.default.observe first 1 path = .ok ⟨some sessionId, 1⟩ := by
    simp [EventStreamValidator.observe, EventStreamValidator.default, log.zero, log.noTurn,
      log.started, log.session]
  -- without limits the visitor of the replay is `gather`
  change scanPieces codec path gather .default 0 [] _ = _
  rw [encodeRecords_cons, append_assoc, cons_append,
    splitInclusive_record log.lawful.oneLine,
    scanPieces_record log.lawful (by rw [log.session]; exact log.named) observed]
  simp only [gather, bind, Except.bind, if_true]
  rw [scanPieces_gather log.named log.continues clean]
  rfl

end Replay

/-! ### The batches the writer accepts -/

/-- A batch that continues the log of a session at `next`. -/
structure Appendable (sessionId : SessionId) (next : Nat) (batch : List StoredEvent) : Prop where
  numbered : batch.map StoredEvent.seq = range' next batch.length
  own : ∀ event ∈ batch, event.event.sessionId = sessionId
  ordinary : ∀ event ∈ batch, event.event.payload.isSessionStarted = false

section Batches

variable {batch : List StoredEvent} {codec : RecordCodec} {sessionId : SessionId}

theorem appendable_cons :
    Appendable sessionId next (event :: batch) ↔
      event.seq = next ∧ event.event.sessionId = sessionId ∧
        event.event.payload.isSessionStarted = false ∧ Appendable sessionId (next + 1) batch := by
  constructor
  · rintro ⟨numbered, own, ordinary⟩
    simp only [map_cons, length_cons, range'_succ, cons.injEq] at numbered
    rw [forall_mem_cons] at own ordinary
    exact ⟨numbered.1, own.1, ordinary.1, numbered.2, own.2, ordinary.2⟩
  · rintro ⟨seq, session, plain, numbered, own, ordinary⟩
    exact ⟨by simp [range'_succ, seq, numbered], forall_mem_cons.mpr ⟨session, own⟩,
      forall_mem_cons.mpr ⟨plain, ordinary⟩⟩

theorem encodeBatch_ok_iff {last : Nat} {encoded : List UInt8} :
    encodeBatch codec sessionId next batch = .ok (encoded, last) ↔
      Appendable sessionId next batch ∧ (batch = [] ∨ next + batch.length < u64Limit) ∧
        encoded = encodeRecords codec batch ∧ last = next + batch.length := by
  induction batch generalizing next encoded last with
  | nil =>
    have empty : Appendable sessionId next [] := ⟨rfl, by simp, by simp⟩
    simp [encodeBatch, empty, encodeRecords, eq_comm]
  | cons event batch ih =>
    rw [encodeBatch, appendable_cons]
    -- the checks in the order the writer makes them
    by_cases seq : event.seq = next
    · by_cases session : event.event.sessionId = sessionId
      · by_cases plain : event.event.payload.isSessionStarted = false
        · by_cases room : next + 1 < u64Limit
          · simp only [seq, session, plain, ne_eq, not_true_eq_false, if_false, Bool.false_eq_true,
              checkedAdd_of_lt room, true_and]
            rw [Library.bind_ok_iff]
            constructor
            · rintro ⟨⟨rest, final⟩, later, done⟩
              obtain ⟨fits, space, rfl, rfl⟩ := ih.mp later
              cases done
              refine ⟨fits, .inr ?_, by simp [encodeRecords, frame], by simp; omega⟩
              rcases space with rfl | space
              · simpa using room
              · simp only [length_cons]
                omega
            · rintro ⟨fits, space, rfl, rfl⟩
              have less : next + (event :: batch).length < u64Limit := by simpa using space
              simp only [length_cons] at less
              refine ⟨(encodeRecords codec batch, next + 1 + batch.length),
                ih.mpr ⟨fits, .inr (by omega), rfl, rfl⟩, ?_⟩
              simp [encodeRecords, frame]
              omega
          · have full : ¬ (next + (batch.length + 1) < u64Limit) := by omega
            simp [seq, session, plain, checkedAdd, room, full]
        · simp [seq, session, plain]
      · simp [seq, session]
    · simp [seq]

theorem continues_of_appendable (fits : Appendable sessionId next batch)
    (lawful : ∀ event ∈ batch, codec.RoundTrips event) :
    Continues codec sessionId next batch := by
  induction batch generalizing next with
  | nil => trivial
  | cons event batch ih =>
    obtain ⟨seq, own, ordinary, later⟩ := appendable_cons.mp fits
    rw [forall_mem_cons] at lawful
    exact ⟨⟨seq, own, ordinary, lawful.1⟩, ih later lawful.2⟩

/-! ### What an append does -/

variable {state : WriterState}

/-- The ways an append ends. -/
inductive Appended (codec : RecordCodec) (batch : List StoredEvent) (state : WriterState) :
    Except StorageError Unit × WriterState → Prop where
  | accepted (healthy : state.poisoned = none)
      (fits : Appendable state.sessionId state.nextSeq batch) :
      Appended codec batch state (.ok (), { state with
        file := state.file ++ encodeRecords codec batch
        committedLen := state.committedLen + (encodeRecords codec batch).length
        nextSeq := state.nextSeq + batch.length
        dirty := true })
  | refused (e : StorageError) : Appended codec batch state (.error e, state)
  /-- Something was written and cut off, as far as the writer remembers the length. -/
  | rolledBack (healthy : state.poisoned = none) (e : StorageError) (written : List UInt8) :
      Appended codec batch state (.error e, { state with
        file := (state.file ++ written).take state.committedLen })
  | lost (healthy : state.poisoned = none) (e : StorageError) (file : List UInt8)
      (reason : String) : Appended codec batch state
        (.error e, { state with file, poisoned := some reason })

theorem appendStoredBatch_appended (outcome : WriteOutcome) :
    Appended codec batch state (state.appendStoredBatch codec batch outcome) ∧
      ((state.appendStoredBatch codec batch outcome).1 = .ok () →
        outcome = .complete ∧ batch ≠ [] ∧ state.nextSeq + batch.length < u64Limit) := by
  rw [WriterState.appendStoredBatch]
  split
  · exact ⟨.refused _, nofun⟩
  · next nonempty =>
    have nonempty : batch ≠ [] := by simpa using nonempty
    split
    · exact ⟨.refused _, nofun⟩
    · next encoded nextSeq encoding =>
      obtain ⟨fits, room, rfl, rfl⟩ := encodeBatch_ok_iff.mp encoding
      obtain ⟨file, sessionId, nextSeq, committedLen, path, dirty, poisoned⟩ := state
      cases poisoned with
      | some reason => exact ⟨.refused _, nofun⟩
      | none =>
        cases outcome with
        | complete => exact ⟨.accepted rfl fits, fun _ => ⟨rfl, nonempty, room.resolve_left nonempty⟩⟩
        | failed written reason rollback =>
          cases rollback with
          | restored => exact ⟨.rolledBack rfl _ _, nofun⟩
          | setLenFailed | seekFailed => exact ⟨.lost rfl _ _ _, nofun⟩

section Appended

variable {result : Except StorageError Unit} {state' : WriterState} {e : StorageError}

/-- Only a healthy writer accepts. -/
theorem Appended.healthy_of_ok (appended : Appended codec batch state (.ok (), state')) :
    state.poisoned = none := by
  cases appended with
  | accepted healthy fits => exact healthy

/-- No append makes a writer healthy again. -/
theorem Appended.healthy_before (appended : Appended codec batch state (result, state'))
    (healthy : state'.poisoned = none) : state.poisoned = none := by
  cases appended with
  | accepted healthy | rolledBack healthy => exact healthy
  | refused => exact healthy
  | lost => cases healthy

/-- A failed append of a writer that stays healthy has changed nothing. -/
theorem Appended.undone (appended : Appended codec batch state (.error e, state'))
    (committed : state.committedLen = state.file.length) (healthy : state'.poisoned = none) :
    state' = state := by
  cases appended with
  | refused => rfl
  | rolledBack _ _ written =>
    -- the length the writer remembers is the length of the file
    have kept : (state.file ++ written).take state.committedLen = state.file :=
      take_left' committed.symm
    rw [kept]
  | lost => cases healthy

end Appended

/-- The sequence numbers an append uses up: those of the batch if it returns `Ok`, else none. -/
theorem appendStoredBatch_nextSeq (codec : RecordCodec) (batch : List StoredEvent)
    (outcome : WriteOutcome) (state : WriterState) :
    match state.appendStoredBatch codec batch outcome with
    | (.ok (), state') =>
      state'.nextSeq = state.nextSeq + batch.length ∧ state'.nextSeq < u64Limit
    | (.error _, state') => state'.nextSeq = state.nextSeq := by
  obtain ⟨appended, accepted⟩ := @appendStoredBatch_appended batch codec state outcome
  split
  · next state' done =>
    rw [done] at appended accepted
    cases appended with
    | accepted => exact ⟨rfl, (accepted rfl).2.2⟩
  · next e state' done =>
    rw [done] at appended
    cases appended with
    | refused | rolledBack | lost => rfl

theorem flushAndSync_keeps (outcome : SyncOutcome) (state : WriterState) :
    (state.flushAndSync outcome).2 = state ∨
      (state.flushAndSync outcome).2 = { state with dirty := false } := by
  simp only [WriterState.flushAndSync]
  split
  · exact .inl rfl
  · split
    · exact .inr rfl
    all_goals exact .inl rfl

end Batches

/-! ### The end of the last record -/

theorem lastCommittedOffset_eq (chunk : ChunkSize) (file : List UInt8) (position : Nat)
    (inside : position ≤ file.length) :
    lastCommittedOffset chunk file position = Library.lastEnd newline (file.take position) := by
  induction position using Nat.strongRecOn with
  | _ position ih =>
    rw [lastCommittedOffset]
    split
    · next more =>
      -- the bytes before `position` are those before the chunk and the chunk itself
      have cut : file.take position =
          file.take (position - chunk.1) ++ (file.take position).drop (position - chunk.1) := by
        rw [show file.take (position - chunk.1) = (file.take position).take (position - chunk.1) by
          rw [take_take, Nat.min_eq_left (by omega)], take_append_drop]
      have start : (file.take (position - chunk.1)).length = position - chunk.1 := by
        rw [length_take]
        omega
      have last := Library.lastEnd_append newline (file.take (position - chunk.1))
        ((file.take position).drop (position - chunk.1))
      rw [← cut, start, ← ih (position - chunk.1) (by omega) (by omega)] at last
      exact last.symm
    · next none =>
      rw [show position = 0 by omega]
      rfl

/-- The last newline of a log ends its last record. -/
theorem lastCommittedOffset_log {codec : RecordCodec} (clean : newline ∉ tail) (chunk : ChunkSize) :
    lastCommittedOffset chunk (encodeRecords codec (first :: rest) ++ tail)
        (encodeRecords codec (first :: rest) ++ tail).length =
      some (encodeRecords codec (first :: rest)).length := by
  rw [lastCommittedOffset_eq _ _ _ (Nat.le_refl _), take_length]
  exact Library.lastEnd_frame (by simp) clean

/-! ### Two records -/

def sampleFirst : StoredEvent := ⟨0, sampleEvent (.sessionStarted sampleStarted)⟩

def sampleRecap : StoredEvent := ⟨1, sampleEvent (.recapGenerated "回顾" "manual")⟩

/-- Two stored events with the members of the object they are encoded as. -/
def sampleRecords : List (StoredEvent × String) :=
  [(sampleFirst, "\"seq\":0,\"id\":\"event\",\"session_id\":\"session\"," ++
      "\"timestamp\":\"1970-01-01T00:00:00Z\",\"payload\":\x7b\"type\":\"session_started\"," ++
      "\"working_dir\":\"/work\",\"model_id\":\"model\"," ++
      "\"tool_selection\":\x7b\"mode\":\"all\",\"except\":[]\x7d," ++
      "\"initial_system_prompt\":\x7b\"text\":\"system\",\"fingerprint\":\"\"," ++
      "\"source\":\"native\"\x7d\x7d"),
   (sampleRecap, "\"seq\":1,\"id\":\"event\",\"session_id\":\"session\"," ++
      "\"timestamp\":\"1970-01-01T00:00:00Z\",\"payload\":\x7b\"type\":\"recap_generated\"," ++
      "\"text\":\"回顾\",\"source\":\"manual\"\x7d")]

def sampleCodec : RecordCodec where
  toText event := "\x7b" ++ (sampleRecords.lookup event).getD "" ++ "\x7d"
  fromStr text := match sampleRecords.find? fun record => "\x7b" ++ record.2 ++ "\x7d" = text with
    | some record => .ok record.1
    | none => .error "expected value at line 1 column 1"
  utf8Error _ := "invalid utf-8 sequence"

theorem sampleCodec_roundTrips :
    ∀ event ∈ [sampleFirst, sampleRecap], sampleCodec.RoundTrips event := by
  have decodes : ∀ event ∈ [sampleFirst, sampleRecap],
      sampleCodec.fromStr (sampleCodec.toText event) = .ok event := by
    decide +kernel
  have oneLine : ∀ event ∈ [sampleFirst, sampleRecap], newline ∉ asBytes (sampleCodec.toText event) := by
    decide +kernel
  intro event member
  exact ⟨decodes event member, oneLine event member, _, rfl⟩

theorem sampleLog_wellFormed : WellFormedLog sampleCodec "session" sampleFirst [sampleRecap] where
  named := by decide
  session := rfl
  zero := rfl
  started := rfl
  noTurn := rfl
  lawful := sampleCodec_roundTrips _ (by simp)
  continues := ⟨⟨rfl, rfl, rfl, sampleCodec_roundTrips _ (by simp)⟩, trivial⟩
  room := by decide

/-- The writer of a freshly created log. -/
def sampleWriter : WriterState where
  file := encodeRecords sampleCodec [sampleFirst]
  sessionId := "session"
  nextSeq := 1
  committedLen := (encodeRecords sampleCodec [sampleFirst]).length
  path := "log"
  dirty := false
  poisoned := none

end Astrcode
