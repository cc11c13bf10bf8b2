import Astrcode.Core.Fingerprint
import Astrcode.Library.Frames
import Astrcode.Storage.Error
import Mathlib.Data.List.Infix

/-!
# The event log

`astrcode-storage/src/event_log.rs`: a file of JSON records, one per line, written by
one writer and read forward on open and backward for paging. The newline that ends a
record is its commit marker.

The JSON encoder and decoder of a record are parameters (`RecordCodec`). A file is its
list of bytes; opening, reading and syncing it succeed unless the model says
otherwise. A write may stop after any number of bytes (`WriteOutcome`).
-/
namespace Astrcode

open Library (frame splitInclusive lastEnd pieces cutFirst)

/-- `serde_json` for one stored event, `to_writer` and `from_str`, and the text of the error of
`str::from_utf8` for bytes that are none. -/
structure RecordCodec where
  toText : StoredEvent → String
  fromStr : String → Except String StoredEvent
  utf8Error : List UInt8 → String

def newline : UInt8 := 10

/-- `String::from_utf8`. -/
def utf8? (bytes : List UInt8) : Option String := String.fromUTF8? ⟨bytes.toArray⟩

def encodeRecords (codec : RecordCodec) (events : List StoredEvent) : List UInt8 :=
  frame newline (events.map fun event => asBytes (codec.toText event))

/-! ### Validating a stream of events -/

def corruptLog (path : String) (lineNumber : Nat) (message : String) : StorageError :=
  .corruptLog (path ++ ":" ++ toString lineNumber ++ ": " ++ message)

/-- The epoch-zero timestamp is only warned about. -/
def validateEvent (event : StoredEvent) (lineNumber : Nat) (path : String) :
    Except StorageError Unit :=
  if event.event.sessionId = "" then
    .error (.invalidId ("event at " ++ path ++ ":" ++ toString lineNumber ++
      " has empty session_id"))
  else .ok ()

structure EventStreamValidator where
  sessionId : Option SessionId
  nextSeq : Nat

namespace EventStreamValidator

def default : EventStreamValidator := ⟨none, 0⟩

def observe (validator : EventStreamValidator) (event : StoredEvent) (lineNumber : Nat)
    (path : String) : Except StorageError EventStreamValidator :=
  if event.seq ≠ validator.nextSeq then
    .error (corruptLog path lineNumber ("expected seq " ++ toString validator.nextSeq ++ ", got "
      ++ toString event.seq))
  else match validator.sessionId with
    | none =>
      if event.event.turnId.isSome then
        .error (corruptLog path lineNumber "SessionStarted must be a session-level event")
      else if !event.event.payload.isSessionStarted then
        .error (corruptLog path lineNumber "first event must be SessionStarted")
      else .ok ⟨some event.event.sessionId, validator.nextSeq + 1⟩
    | some sessionId =>
      if event.event.sessionId ≠ sessionId then
        .error (corruptLog path lineNumber ("event belongs to session " ++ event.event.sessionId
          ++ ", expected " ++ sessionId))
      else if event.event.payload.isSessionStarted then
        .error (corruptLog path lineNumber "SessionStarted may only appear at seq 0")
      else .ok ⟨some sessionId, validator.nextSeq + 1⟩

def finish (validator : EventStreamValidator) (path : String) : Except StorageError Unit :=
  if validator.sessionId.isNone then .error (.corruptLog (path ++ " is empty")) else .ok ()

end EventStreamValidator

/-- The longest run of whole characters within `maxBytes` bytes. -/
def truncateUtf8 (value : String) (maxBytes : Nat) : String :=
  String.ofList (fitting maxBytes value.toList)
where
  fitting : Nat → List Char → List Char
    | _, [] => []
    | room, c :: cs => if c.utf8Size ≤ room then c :: fitting (room - c.utf8Size) cs else []

def parseEventLine (codec : RecordCodec) (path : String) (lineNumber : Nat) (line : String) :
    Except StorageError StoredEvent :=
  let trimmed := trim line
  match codec.fromStr trimmed with
  | .error e =>
    let preview :=
      if 100 < trimmed.utf8ByteSize then truncateUtf8 trimmed 100 ++ "..." else trimmed
    .error (.corruptLog ("failed to parse event at " ++ path ++ ":" ++ toString lineNumber ++
      " (content: '" ++ preview ++ "'): " ++ e))
  | .ok event => do
    validateEvent event lineNumber path
    return event

/-! ### Reading forward -/

section Forward

variable {σ : Type} (codec : RecordCodec) (path : String)
  (visit : σ → StoredEvent → Except StorageError (σ × Bool))

/-- `read_line` refuses bytes that are not UTF-8, also those of an incomplete last line. -/
def readError : StorageError :=
  .io ("session file '" ++ path ++ "' contains invalid UTF-8 data. The file may be corrupted. " ++
    "Consider deleting this session.")

/-- The loop over the lines of the file; each piece ends with a newline but perhaps the last. -/
def scanPieces : EventStreamValidator → Nat → σ → List (List UInt8) → Except StorageError σ
  | validator, _, acc, [] => do
    validator.finish path
    return acc
  | validator, lineNumber, acc, piece :: rest =>
    match utf8? piece with
    | none => .error (readError path)
    | some line =>
      -- an incomplete trailing record is ignored
      if piece.getLast? ≠ some newline then do
        validator.finish path
        return acc
      else if isBlank line then scanPieces validator lineNumber acc rest
      else do
        let event ← parseEventLine codec path (lineNumber + 1) line
        let validator ← validator.observe event (lineNumber + 1) path
        let (acc, more) ← visit acc event
        -- a visitor that has enough stops the scan, and nothing after it is validated
        if more then scanPieces validator (lineNumber + 1) acc rest else return acc

def scanEventsAtPath (file : List UInt8) (maxBytes : Option Nat) (init : σ) :
    Except StorageError σ :=
  let bytes := match maxBytes with
    | some limit => file.take limit
    | none => file
  scanPieces codec path visit .default 0 init (splitInclusive newline bytes)

end Forward

def replayEventsAtPath (codec : RecordCodec) (path : String) (file : List UInt8)
    (maxBytes afterSeq maxEvents : Option Nat) : Except StorageError (List StoredEvent) :=
  if maxEvents = some 0 then .ok []
  else
    scanEventsAtPath codec path
      (fun events event =>
        let events := if afterSeq.all (· < event.seq) then events ++ [event] else events
        .ok (events, !maxEvents.any (· ≤ events.length)))
      file maxBytes []

/-! ### Reading backward -/

/-- A positive number of bytes to read at once. -/
abbrev ChunkSize := { n : Nat // 0 < n }

/-- Searches the first `position` bytes for the last newline, one chunk after the other from
the end. `last_committed_offset` and `recover_incomplete_tail` share this loop. -/
def lastCommittedOffset (chunk : ChunkSize) (file : List UInt8) (position : Nat) : Option Nat :=
  if 0 < position then
    let start := position - chunk.1
    match lastEnd newline ((file.take position).drop start) with
    | some behind => some (start + behind)
    | none => lastCommittedOffset chunk file start
  else none
termination_by position
decreasing_by
  have := chunk.2
  omega

/-- `u8::is_ascii_whitespace`. -/
def isAsciiWhitespace (byte : UInt8) : Bool :=
  byte = 32 || byte = 9 || byte = 10 || byte = 12 || byte = 13

structure ReverseScan where
  events : List StoredEvent
  newerSeq : Option Nat
  sessionId : Option SessionId

section Backward

variable (codec : RecordCodec) (path : String) (beforeSeq : Option Nat) (maxEvents : Nat)

def reverseLine (s : ReverseScan) (line : List UInt8) : Except StorageError ReverseScan :=
  if line.all isAsciiWhitespace then .ok s
  else match utf8? line with
    | none => .error (.corruptLog ("event at " ++ path ++ " is not valid UTF-8: " ++
        codec.utf8Error line))
    | some text => do
      -- read from the end, a line has no number
      let event ← parseEventLine codec path 0 text
      if s.newerSeq.any fun newer => checkedAdd event.seq 1 ≠ some newer then
        .error (corruptLog path 0 ("expected reverse seq " ++ toString (s.newerSeq.getD 0 - 1) ++
          ", got " ++ toString event.seq))
      else if s.sessionId.any (· ≠ event.event.sessionId) then
        .error (corruptLog path 0 ("event belongs to session " ++ event.event.sessionId ++
          ", expected " ++ s.sessionId.getD ""))
      else
        let events :=
          -- events at or above the cursor are checked all the same
          if beforeSeq.all (event.seq < ·) then s.events ++ [event] else s.events
        .ok ⟨events, some event.seq, s.sessionId.or (some event.event.sessionId)⟩

/-- The lines of one chunk, newest first, up to the last event wanted. -/
def reverseLines : ReverseScan → List (List UInt8) → Except StorageError ReverseScan
  | s, [] => .ok s
  | s, line :: rest => do
    let s ← reverseLine codec path beforeSeq s line
    if s.events.length = maxEvents then return s else reverseLines s rest

/-- Reads chunk by chunk towards the start of the file. `fragment` is the end of a line whose
beginning lies before `position`. -/
def reverseLoop (chunk : ChunkSize) (file : List UInt8) (position : Nat)
    (fragment : List UInt8) (s : ReverseScan) : Except StorageError ReverseScan :=
  if 0 < position ∧ s.events.length < maxEvents then
    let start := position - chunk.1
    let bytes := (file.take position).drop start ++ fragment
    let (complete, next) :=
      -- before the first byte of the file no line can begin
      if start = 0 then (bytes, [])
      else match cutFirst newline bytes with
        | some (front, behind) => (behind, front)
        -- no newline: the chunk lies within one line
        | none => ([], bytes)
    do
      let s ← reverseLines codec path beforeSeq maxEvents s (pieces newline complete).reverse
      reverseLoop chunk file start next s
  else .ok s
termination_by position
decreasing_by
  have := chunk.2
  omega

/-- `run_blocking_io` makes an error of the panic, which also names the task. -/
def capacityOverflow : StorageError := .io "event log blocking task failed: capacity overflow"

/-- A vector for all the events wanted is made at once, also where the file has fewer of them. Its
`capacity` is bounded by `isize::MAX` bytes. -/
def replayEventsBeforeAtPath (capacity : Nat) (tailChunk chunk : ChunkSize) (file : List UInt8) :
    Except StorageError (List StoredEvent) :=
  if maxEvents = 0 then .ok []
  else match lastCommittedOffset tailChunk file file.length with
    | none => .ok []
    | some position =>
      if capacity < maxEvents then .error capacityOverflow
      else do
        let s ← reverseLoop codec path beforeSeq maxEvents chunk file position [] ⟨[], none, none⟩
        return s.events.reverse

end Backward

/-! ### Writing -/

structure WriterState where
  file : List UInt8
  sessionId : SessionId
  nextSeq : Nat
  committedLen : Nat
  path : String
  dirty : Bool
  poisoned : Option String

/-- How the rollback after a failed write ends. -/
inductive RollbackOutcome where
  | restored
  | setLenFailed (reason : String)
  | seekFailed (reason : String)

/-- How a write ends: completely, or with an error after some bytes reached the file. -/
inductive WriteOutcome where
  | complete
  | failed (written : Nat) (reason : String) (rollback : RollbackOutcome)

/-- How `flush` and `sync_all` end. -/
inductive SyncOutcome where
  | synced
  | flushFailed (reason : String)
  | syncFailed (reason : String)

/-- Checks and encodes a batch, the first event of which must be numbered `nextSeq`. -/
def encodeBatch (codec : RecordCodec) (sessionId : SessionId) :
    Nat → List StoredEvent → Except StorageError (List UInt8 × Nat)
  | nextSeq, [] => .ok ([], nextSeq)
  | nextSeq, event :: events =>
    if event.seq ≠ nextSeq then
      .error (.invalidEvent ("event log expected seq " ++ toString nextSeq ++ ", got " ++
        toString event.seq))
    else if event.event.sessionId ≠ sessionId then
      .error (.invalidEvent ("cannot append event for session " ++ event.event.sessionId ++
        " to log for " ++ sessionId))
    else if event.event.payload.isSessionStarted then
      .error (.invalidEvent "SessionStarted may only be written while creating a log")
    else match checkedAdd nextSeq 1 with
      | none => .error (.corruptLog "session event sequence overflow")
      | some next => do
        let (encoded, last) ← encodeBatch codec sessionId next events
        return (encodeRecords codec [event] ++ encoded, last)

namespace WriterState

/-- A failed write is cut off again. When that fails too the writer refuses further writes,
and whatever is left behind the committed bytes stays in the file. -/
def writeCommittedRecord (encoded : List UInt8) (outcome : WriteOutcome) (state : WriterState) :
    Except StorageError Unit × WriterState :=
  match state.poisoned with
  | some reason =>
    (.error (.io ("event log writer is unavailable after failed recovery: " ++ reason)), state)
  | none =>
    match outcome with
    | .complete =>
      (.ok (), { state with
        file := state.file ++ encoded
        committedLen := state.committedLen + encoded.length })
    | .failed written reason rollback =>
      let grown := state.file ++ encoded.take written
      let restored := grown.take state.committedLen
      let lost (rollbackReason : String) : String :=
        "write failed: " ++ reason ++ "; rollback to " ++ toString state.committedLen ++
          " bytes failed: " ++ rollbackReason
      match rollback with
      | .restored =>
        (.error (.io ("failed to append event log '" ++ state.path ++
          "'; partial write was rolled back: " ++ reason)), { state with file := restored })
      | .setLenFailed why =>
        (.error (.io (lost why)), { state with file := grown, poisoned := some (lost why) })
      -- the file is cut, but the position of the next write is unknown
      | .seekFailed why =>
        (.error (.io (lost why)), { state with file := restored, poisoned := some (lost why) })

def appendStoredBatch (codec : RecordCodec) (events : List StoredEvent) (outcome : WriteOutcome)
    (state : WriterState) : Except StorageError Unit × WriterState :=
  if events.isEmpty then (.error (.invalidEvent "event log batch cannot be empty"), state)
  else match encodeBatch codec state.sessionId state.nextSeq events with
    | .error e => (.error e, state)
    | .ok (encoded, nextSeq) =>
      match state.writeCommittedRecord encoded outcome with
      | (.ok (), state) => (.ok (), { state with nextSeq, dirty := true })
      | (.error e, state) => (.error e, state)

def flushAndSync (outcome : SyncOutcome) (state : WriterState) :
    Except StorageError Unit × WriterState :=
  if !state.dirty then (.ok (), state)
  else match outcome with
    | .synced => (.ok (), { state with dirty := false })
    | .flushFailed reason =>
      (.error (.io ("failed to flush event log '" ++ state.path ++ "': " ++ reason)), state)
    | .syncFailed reason =>
      (.error (.io ("failed to sync event log '" ++ state.path ++ "' to disk: " ++ reason)), state)

end WriterState

/-- `WriteCommand`, with how the file behaves while it is carried out. The commands of the tests
are left out. -/
inductive WriteCommand where
  | appendPreparedBatch (batch : List StoredEvent) (outcome : WriteOutcome)
  | flushSync (outcome : SyncOutcome)

/-- The writer task: its state, and the counter that it shares with the readers. -/
structure WriteLoop where
  state : WriterState
  nextSeq : Nat

variable (codec : RecordCodec)

def applyWriteCommand (command : WriteCommand) (loop : WriteLoop) :
    Except StorageError Unit × WriteLoop :=
  match command with
  | .appendPreparedBatch batch outcome =>
    match loop.state.appendStoredBatch codec batch outcome with
    -- readers learn about the batch once it is written
    | (.ok (), state) => (.ok (), ⟨state, state.nextSeq⟩)
    | (.error e, state) => (.error e, { loop with state })
  | .flushSync outcome =>
    let (result, state) := loop.state.flushAndSync outcome
    (result, { loop with state })

/-! ### Creating and opening -/

inductive IdError where
  | invalidCharacters (message : String)
  | pathTraversal (id : String)
  deriving DecidableEq

/-- `session_repo/session_id.rs`: what every session id must pass before a log is created. -/
def validateSessionId (id : String) : Except IdError Unit :=
  if id = "" then .error (.invalidCharacters "empty ID")
  else if ['.', '.'] <:+: id.toList ∨ '/' ∈ id.toList ∨ '\\' ∈ id.toList then
    .error (.pathTraversal id)
  else match id.toList.find? fun ch => !ch.isAlphanum && ch ≠ '-' && ch ≠ '_' with
    | some ch => .error (.invalidCharacters ("character '" ++ ch.toString ++ "' not allowed in ID"))
    | none => .ok ()

def createAtPath (path : String) (initialEvent : DurableEvent) :
    Except StorageError (WriterState × StoredEvent) :=
  if initialEvent.turnId.isSome || !initialEvent.payload.isSessionStarted then
    .error (.invalidEvent "event log creation requires a session-level SessionStarted event")
  else
    let stored : StoredEvent := ⟨0, initialEvent⟩
    let encoded := encodeRecords codec [stored]
    .ok ({ file := encoded, sessionId := initialEvent.sessionId, nextSeq := 1
           committedLen := encoded.length, path, dirty := false, poisoned := none }, stored)

/-- The file without an incomplete last record. -/
def recoverIncompleteTail (chunk : ChunkSize) (path : String) (file : List UInt8) :
    Except StorageError (List UInt8) :=
  -- a file that ends in a newline holds complete records only
  if file = [] ∨ file.getLast? = some newline then .ok file
  else match lastCommittedOffset chunk file file.length with
    | some committedLen => .ok (file.take committedLen)
    | none =>
      .error (.io ("event log '" ++ path ++ "' has no committed newline-terminated record"))

def openAtPath (chunk : ChunkSize) (path : String) (file : List UInt8) :
    Except StorageError (WriterState × List StoredEvent) := do
  let file ← recoverIncompleteTail chunk path file
  -- the tail is cut off before the file is read forward
  let events ← replayEventsAtPath codec path file (some file.length) none none
  match events.head?, events.getLast? with
  | some first, some last =>
    match checkedAdd last.seq 1 with
    | some nextSeq =>
      return ({ file, sessionId := first.event.sessionId, nextSeq, committedLen := file.length
                path, dirty := false, poisoned := none }, events)
    | none => .error (.corruptLog "session event sequence overflow")
  | _, _ => .error (.corruptLog (path ++ " is empty"))

end Astrcode
