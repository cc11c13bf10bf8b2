import Astrcode.Storage.LogShape

/-!
# Crash recovery

A log is created, appended to, synced and reopened; a write may fail and be rolled
back. A crash leaves the committed bytes and any prefix of the bytes of the write in
progress. Opening such a file restores exactly the records that are completely in it:
every acknowledged batch, and of the unfinished one the records the crash let through.

The writer's bookkeeping is one invariant (`Bookkeeping`), kept by every step of a run.
-/
namespace Astrcode

open List

open Library (frame_take frame_take_prefix_iff)

/-! ### Runs and crashes -/

/-- What a crash leaves in the file: all bytes, or some bytes of the write in progress behind
the committed ones. `pending` is the batch being written. -/
inductive Crash (codec : RecordCodec) (state : WriterState) :
    List StoredEvent → List UInt8 → Prop where
  | idle : Crash codec state [] state.file
  | writing {batch : List StoredEvent} {encoded : List UInt8} {nextSeq : Nat}
      (accepted : encodeBatch codec state.sessionId state.nextSeq batch = .ok (encoded, nextSeq))
      (lawful : ∀ event ∈ batch, codec.RoundTrips event) (written : Nat) :
      Crash codec state batch (state.file ++ encoded.take written)

/-- The runs of one log, with the events whose append returned `Ok` (after a crash, those the
reopened log holds). The encoder is lawful at every event that is written. -/
inductive LogRun (codec : RecordCodec) (path : String) :
    WriterState → List StoredEvent → Prop where
  | created {initial : DurableEvent} {state : WriterState} {stored : StoredEvent}
      (valid : validateSessionId initial.sessionId = .ok ())
      (made : createAtPath codec path initial = .ok (state, stored))
      (lawful : codec.RoundTrips stored) : LogRun codec path state [stored]
  | appended {state state' : WriterState} {events batch : List StoredEvent} {outcome : WriteOutcome}
      (run : LogRun codec path state events)
      (done : state.appendStoredBatch codec batch outcome = (.ok (), state'))
      (lawful : ∀ event ∈ batch, codec.RoundTrips event) : LogRun codec path state' (events ++ batch)
  | refused {state state' : WriterState} {events batch : List StoredEvent} {outcome : WriteOutcome}
      {e : StorageError} (run : LogRun codec path state events)
      (failed : state.appendStoredBatch codec batch outcome = (.error e, state'))
      (rolledBack : state'.poisoned = none) : LogRun codec path state' events
  | synced {state state' : WriterState} {events : List StoredEvent} {outcome : SyncOutcome}
      {result : Except StorageError Unit} (run : LogRun codec path state events)
      (done : state.flushAndSync outcome = (result, state')) : LogRun codec path state' events
  | reopened {state state' : WriterState} {events pending found : List StoredEvent}
      {file : List UInt8} {chunk : ChunkSize} (run : LogRun codec path state events)
      (crash : Crash codec state pending file)
      (opened : openAtPath codec chunk path file = .ok (state', found)) :
      LogRun codec path state' found

/-- The events whose record, newline included, lies within the file. -/
def recordsIn (codec : RecordCodec) (log : List StoredEvent) (file : List UInt8) :
    List StoredEvent :=
  (log.zipIdx.filter fun (_, i) => encodeRecords codec (log.take (i + 1)) <+: file).map Prod.fst

/-! ### The writer's bookkeeping -/

structure Bookkeeping (codec : RecordCodec) (state : WriterState) (events : List StoredEvent) :
    Prop where
  file : state.file = encodeRecords codec events
  committed : state.committedLen = state.file.length
  counted : state.nextSeq = events.length
  healthy : state.poisoned = none
  shaped : ∃ first rest, events = first :: rest ∧ WellFormedLog codec state.sessionId first rest

namespace Bookkeeping

variable {codec : RecordCodec} {state state' : WriterState} {events batch : List StoredEvent}
  {outcome : WriteOutcome} (book : Bookkeeping codec state events)

include book

/-- An append returns `Ok` if the batch continues the log and the write completes. -/
theorem append_ok_iff :
    state.appendStoredBatch codec batch outcome = (.ok (), state') ↔
      batch ≠ [] ∧ Appendable state.sessionId events.length batch ∧
        events.length + batch.length < u64Limit ∧ outcome = .complete ∧
        state' = { state with
          file := state.file ++ encodeRecords codec batch
          committedLen := state.committedLen + (encodeRecords codec batch).length
          nextSeq := events.length + batch.length, dirty := true } := by
  constructor
  · intro done
    obtain ⟨appended, accepted⟩ := @appendStoredBatch_appended batch codec state outcome
    rw [done] at appended accepted
    obtain ⟨rfl, nonempty, room⟩ := accepted rfl
    cases appended with
    | accepted _ fits =>
      rw [book.counted] at fits room
      exact ⟨nonempty, fits, room, rfl, by rw [book.counted]⟩
  · rintro ⟨nonempty, fits, room, rfl, rfl⟩
    have encoding : encodeBatch codec state.sessionId events.length batch = _ :=
      encodeBatch_ok_iff.mpr ⟨fits, .inr room, rfl, rfl⟩
    simp [WriterState.appendStoredBatch, WriterState.writeCommittedRecord, book.counted, book.healthy,
      encoding, nonempty]

theorem append (done : state.appendStoredBatch codec batch outcome = (.ok (), state'))
    (lawful : ∀ event ∈ batch, codec.RoundTrips event) :
    Bookkeeping codec state' (events ++ batch) := by
  obtain ⟨-, fits, room, -, rfl⟩ := book.append_ok_iff.mp done
  obtain ⟨first, rest, rfl, log⟩ := book.shaped
  refine ⟨?_, ?_, ?_, book.healthy, first, rest ++ batch, rfl, ?_⟩
  · show state.file ++ encodeRecords codec batch = _
    rw [book.file, encodeRecords_append]
  · simp [book.committed]
  · exact length_append.symm
  -- the batch takes up where the log ends
  · have later : Continues codec state.sessionId (1 + rest.length) batch := by
      rw [Nat.add_comm]
      exact continues_of_appendable fits lawful
    simp only [length_cons] at room
    exact { log with
      continues := continues_append.mpr ⟨log.continues, later⟩
      room := by rw [length_append]; omega }

end Bookkeeping

/-! ### Opening a cut file -/

section Opening

variable {codec : RecordCodec} {sessionId : SessionId} {first : StoredEvent}
  {rest : List StoredEvent} {tail : List UInt8}

/-- The incomplete record is cut off. -/
private theorem recoverIncompleteTail_log (clean : newline ∉ tail) (chunk : ChunkSize)
    (path : String) :
    recoverIncompleteTail chunk path (encodeRecords codec (first :: rest) ++ tail) =
      .ok (encodeRecords codec (first :: rest)) := by
  have ended : (encodeRecords codec (first :: rest)).getLast? = some newline := by
    obtain ⟨front, last, split⟩ : ∃ front last, first :: rest = front ++ [last] :=
      ⟨_, _, (dropLast_append_getLast (cons_ne_nil first rest)).symm⟩
    rw [split, encodeRecords_append, encodeRecords_cons]
    simp [encodeRecords]
  -- without a tail the file ends in a newline and is left alone
  by_cases empty : tail = []
  · rw [empty, append_nil, recoverIncompleteTail, if_pos (.inr ended)]
  · have incomplete : (encodeRecords codec (first :: rest) ++ tail).getLast? ≠ some newline := by
      rw [getLast?_append_of_ne_nil _ empty]
      exact fun last => clean (mem_of_getLast? last)
    have nonempty : encodeRecords codec (first :: rest) ++ tail ≠ [] := by simp [empty]
    rw [recoverIncompleteTail, if_neg (not_or.mpr ⟨nonempty, incomplete⟩),
      lastCommittedOffset_log clean]
    simp [take_left']

theorem openAtPath_log (log : WellFormedLog codec sessionId first rest) (clean : newline ∉ tail)
    (chunk : ChunkSize) (path : String) :
    openAtPath codec chunk path (encodeRecords codec (first :: rest) ++ tail) =
      .ok ({ file := encodeRecords codec (first :: rest), sessionId
             nextSeq := (first :: rest).length
             committedLen := (encodeRecords codec (first :: rest)).length
             path, dirty := false, poisoned := none }, first :: rest) := by
  have replayed : replayEventsAtPath codec path (encodeRecords codec (first :: rest))
      (some (encodeRecords codec (first :: rest)).length) none none = .ok (first :: rest) := by
    have whole : replayEventsAtPath codec path (encodeRecords codec (first :: rest) ++ []) none none
        none = _ := replay_log log not_mem_nil
    rw [append_nil, if_pos (by decide)] at whole
    rw [← whole]
    simp [replayEventsAtPath, scanEventsAtPath, take_length]
  -- the last record is numbered one below the count
  obtain ⟨last, ends⟩ : ∃ last, (first :: rest).getLast? = some last :=
    ⟨_, getLast?_eq_some_getLast (cons_ne_nil first rest)⟩
  have seq : last.seq = rest.length := by
    rw [getLast?_eq_getElem?] at ends
    simpa using (log.record ends).1
  have next : checkedAdd last.seq 1 = some (rest.length + 1) := by
    rw [seq, checkedAdd_of_lt log.room]
  simp only [openAtPath, recoverIncompleteTail_log clean, bind, Except.bind, replayed,
    head?_cons, ends, next, log.session]
  rfl

private theorem WellFormedLog.take (log : WellFormedLog codec sessionId first rest) (n : Nat) :
    WellFormedLog codec sessionId first (rest.take n) := by
  have cut := log.continues
  rw [← take_append_drop n rest] at cut
  have room := log.room
  exact { log with
    continues := (continues_append.mp cut).1
    room := by rw [length_take]; omega }

private theorem zipIdx_filter_lt (xs : List StoredEvent) (first n : Nat) :
    ((xs.zipIdx first).filter fun (_, i) => i < first + n).map Prod.fst = xs.take n := by
  induction xs generalizing first n with
  | nil => simp
  | cons x xs ih =>
    cases n with
    | zero =>
      have none : ((x :: xs).zipIdx first).filter (fun (_, i) => decide (i < first + 0)) = [] := by
        apply filter_eq_nil_iff.mpr
        rintro ⟨y, i⟩ member
        have lower := le_snd_of_mem_zipIdx member
        simpa using lower
      rw [none]
      rfl
    | succ n =>
      have kept : first < first + (n + 1) := by omega
      simp [zipIdx_cons, kept, take_succ_cons, ← ih (first + 1) n, Nat.add_assoc,
        Nat.add_comm 1 n]

/-- Cut behind `n` records and an incomplete one, the file holds these records. -/
private theorem recordsIn_cut {log : List StoredEvent} {n : Nat} (clean : newline ∉ tail) :
    recordsIn codec log (encodeRecords codec (log.take n) ++ tail) = log.take n := by
  have indices := zipIdx_filter_lt log 0 n
  rw [Nat.zero_add] at indices
  refine Eq.trans (congrArg (map Prod.fst) ?_) indices
  apply filter_congr
  rintro ⟨event, i⟩ member
  have inside : i < (log.map fun event => asBytes (codec.toText event)).length := by
    simpa using snd_lt_of_mem_zipIdx member
  simp only [encodeRecords, map_take, decide_eq_decide]
  exact frame_take_prefix_iff clean inside

end Opening

/-! ### Crashes of a run -/

section Recovery

variable {codec : RecordCodec} {path : String} {state : WriterState}
  {events pending : List StoredEvent} {file : List UInt8}

section

variable (book : Bookkeeping codec state events)

include book

variable (crash : Crash codec state pending file)

include crash

/-- What a crash leaves: all acknowledged records, some pending ones and an incomplete one. -/
private theorem crash_cut :
    ∃ n tail, file = encodeRecords codec ((events ++ pending).take (events.length + n)) ++ tail ∧
      newline ∉ tail := by
  cases crash with
  | idle =>
    refine ⟨0, [], ?_, by simp⟩
    simp [book.file]
  | writing accepted lawful written =>
    obtain ⟨-, -, rfl, -⟩ := encodeBatch_ok_iff.mp accepted
    have clean : ∀ r ∈ pending.map fun event => asBytes (codec.toText event), newline ∉ r := by
      intro r member
      obtain ⟨event, held, rfl⟩ := mem_map.mp member
      exact (lawful event held).oneLine
    obtain ⟨n, tail, cut, absent⟩ := frame_take clean written
    refine ⟨n, tail, ?_, absent⟩
    rw [take_length_add_append, encodeRecords_append, append_assoc, book.file]
    congr 1
    rw [encodeRecords, cut, encodeRecords, map_take]

/-- Were the write in progress complete, the log would be well formed too. -/
private theorem crash_log :
    ∃ first rest, events ++ pending = first :: rest ∧
      WellFormedLog codec state.sessionId first rest := by
  obtain ⟨first, rest, rfl, log⟩ := book.shaped
  cases crash with
  | idle => exact ⟨first, rest, by simp, log⟩
  | writing accepted lawful written =>
    obtain ⟨fits, room, -, -⟩ := encodeBatch_ok_iff.mp accepted
    rw [book.counted] at fits room
    have space : (rest ++ pending).length + 1 < u64Limit := by
      have own := log.room
      rcases room with rfl | room
      · simpa using own
      · simp only [length_cons, length_append] at room ⊢
        omega
    refine ⟨first, rest ++ pending, rfl, { log with continues := ?_, room := space }⟩
    refine continues_append.mpr ⟨log.continues, ?_⟩
    rw [Nat.add_comm]
    exact continues_of_appendable fits lawful

/-- Opening what a crash leaves yields the records completely in the file, and a writer whose
books are in order for them. -/
private theorem open_crashed (chunk : ChunkSize) (path : String) :
    ∃ state', openAtPath codec chunk path file = .ok (state', recordsIn codec (events ++ pending) file) ∧
      recordsIn codec (events ++ pending) file <+: events ++ pending ∧
      events <+: recordsIn codec (events ++ pending) file ∧
      state'.sessionId = state.sessionId ∧
      Bookkeeping codec state' (recordsIn codec (events ++ pending) file) := by
  obtain ⟨n, tail, rfl, clean⟩ := crash_cut book crash
  rw [recordsIn_cut clean]
  obtain ⟨first, rest, whole, log⟩ := crash_log book crash
  obtain ⟨m, length⟩ : ∃ m, events.length + n = m + 1 := by
    obtain ⟨first, rest, rfl, -⟩ := book.shaped
    exact ⟨rest.length + n, by simp; omega⟩
  have kept : events <+: (events ++ pending).take (events.length + n) := by
    rw [take_length_add_append]
    exact prefix_append ..
  -- the first record is among the acknowledged ones, so the cut log is a log again
  have taken : (events ++ pending).take (events.length + n) = first :: rest.take m := by
    rw [whole, length, take_succ_cons]
  have opened := openAtPath_log (log.take m) clean chunk path
  rw [taken] at kept ⊢
  refine ⟨_, opened, ?_, kept, rfl, ⟨rfl, rfl, rfl, rfl, first, _, rfl, log.take m⟩⟩
  rw [← taken]
  exact take_prefix ..

end

private theorem validateSessionId_nonempty {id : String} (valid : validateSessionId id = .ok ()) :
    id ≠ "" := by
  rintro rfl
  cases valid

/-- Every step of a run keeps the books in order. -/
theorem LogRun.bookkeeping (run : LogRun codec path state events) :
    Bookkeeping codec state events := by
  induction run with
  | @created initial state stored valid made lawful =>
    rw [createAtPath] at made
    split at made
    · cases made
    · next ordinary =>
      cases made
      simp only [Bool.or_eq_true, not_or, Bool.not_eq_true, Bool.not_eq_false'] at ordinary
      refine ⟨rfl, rfl, rfl, rfl, ⟨0, initial⟩, [], rfl, ?_⟩
      exact ⟨validateSessionId_nonempty valid, rfl, rfl, ordinary.2, by simpa using ordinary.1,
        lawful, trivial, by decide⟩
  | appended run done lawful book => exact book.append done lawful
  | @refused state state' _ batch outcome e run failed rolledBack book =>
    have appended := (@appendStoredBatch_appended batch codec state outcome).1
    rw [failed] at appended
    rw [appended.undone book.committed rolledBack]
    exact book
  | @synced state state' events outcome result run done book =>
    obtain rfl : (state.flushAndSync outcome).2 = state' := congrArg Prod.snd done
    rcases flushAndSync_keeps outcome state with same | same
    all_goals
      rw [same]
      exact ⟨book.file, book.committed, book.counted, book.healthy, book.shaped⟩
  -- opening is a function, so what was found is what `open_crashed` says
  | reopened run crash opened book =>
    obtain ⟨_, again, -, -, -, restored⟩ := open_crashed book crash _ path
    rw [opened] at again
    cases again
    exact restored

/-- Reopening after a crash. -/
theorem reopen_after_crash (run : LogRun codec path state events)
    (crash : Crash codec state pending file) (chunk : ChunkSize) :
    ∃ state' found, openAtPath codec chunk path file = .ok (state', found) ∧
      -- exactly the records completely in the file
      found = recordsIn codec (events ++ pending) file ∧
      -- a prefix of what was appended, with every acknowledged batch
      found <+: events ++ pending ∧ events <+: found ∧
      state'.nextSeq = found.length ∧
      -- appends continue from there
      (∀ batch, (state'.appendStoredBatch codec batch .complete).1 = .ok () ↔
        batch ≠ [] ∧ Appendable state.sessionId found.length batch ∧
          found.length + batch.length < u64Limit) ∧
      (∀ batch outcome state'',
        state'.appendStoredBatch codec batch outcome = (.ok (), state'') →
          state''.file = encodeRecords codec (found ++ batch) ∧
          state''.nextSeq = (found ++ batch).length) := by
  obtain ⟨state', opened, shorter, kept, session, book⟩ := open_crashed run.bookkeeping crash chunk path
  refine ⟨state', _, opened, rfl, shorter, kept, book.counted, ?_, ?_⟩
  · intro batch
    constructor
    · intro accepted
      obtain ⟨nonempty, fits, room, -⟩ := book.append_ok_iff.mp (Prod.ext accepted rfl)
      exact ⟨nonempty, session ▸ fits, room⟩
    · rintro ⟨nonempty, fits, room⟩
      have done := book.append_ok_iff.mpr ⟨nonempty, session ▸ fits, room, rfl, rfl⟩
      rw [done]
  · intro batch outcome state'' done
    obtain ⟨-, -, -, -, rfl⟩ := book.append_ok_iff.mp done
    simp [book.file, encodeRecords_append]

end Recovery

theorem sampleWriter_run : LogRun sampleCodec "log" sampleWriter [sampleFirst] := by
  have valid : validateSessionId sampleFirst.event.sessionId = .ok () := by decide +kernel
  have made : createAtPath sampleCodec "log" sampleFirst.event = .ok (sampleWriter, sampleFirst) := rfl
  exact .created valid made (sampleCodec_roundTrips _ (by simp))

/-- A batch cut off inside a character of its only record is dropped. -/
theorem reopen_after_crash_in_character :
    let file := sampleWriter.file ++ (encodeRecords sampleCodec [sampleRecap]).take 125
    LogRun sampleCodec "log" sampleWriter [sampleFirst] ∧
      Crash sampleCodec sampleWriter [sampleRecap] file ∧
      ∃ state', openAtPath sampleCodec ⟨8192, by decide⟩ "log" file = .ok (state', [sampleFirst]) ∧
        state'.nextSeq = 1 := by
  have accepted : encodeBatch sampleCodec sampleWriter.sessionId sampleWriter.nextSeq [sampleRecap] =
      .ok (encodeRecords sampleCodec [sampleRecap], 2) :=
    encodeBatch_ok_iff.mpr ⟨⟨rfl, by decide, by decide⟩, .inr (by decide), rfl, rfl⟩
  have lawful : ∀ event ∈ [sampleRecap], sampleCodec.RoundTrips event :=
    (forall_mem_cons.mp sampleCodec_roundTrips).2
  have crash := Crash.writing accepted lawful 125
  obtain ⟨state', found, opened, exactly, -, -, counted, -, -⟩ :=
    reopen_after_crash sampleWriter_run crash ⟨8192, by decide⟩
  have records : recordsIn sampleCodec ([sampleFirst] ++ [sampleRecap])
      (sampleWriter.file ++ (encodeRecords sampleCodec [sampleRecap]).take 125) = [sampleFirst] := by
    decide +kernel
  rw [exactly, records] at opened counted
  exact ⟨sampleWriter_run, crash, state', opened, counted⟩

end Astrcode
