import Astrcode.Properties.CrashRecovery

/-!
# Failed writes

The writer task carries out one command after the other, and every write may fail after any
number of bytes. A failed write is cut off again; when the cut fails as well the writer is
poisoned. So the file of a healthy writer holds the accepted events and nothing else, whatever
failed on the way.
-/
namespace Astrcode

open List

/-! ### Runs of the writer task -/

/-- What the writer task has done since its log was created, or opened after an earlier run, with
the events it has accepted. -/
inductive WriterRun (codec : RecordCodec) (path : String) : WriteLoop → List StoredEvent → Prop where
  | created {initial : DurableEvent} {state : WriterState} {stored : StoredEvent}
      (made : createAtPath codec path initial = .ok (state, stored)) :
      WriterRun codec path ⟨state, state.nextSeq⟩ [stored]
  | opened {state : WriterState} {events : List StoredEvent} (run : LogRun codec path state events) :
      WriterRun codec path ⟨state, state.nextSeq⟩ events
  | accepted {loop loop' : WriteLoop} {events batch : List StoredEvent} {outcome : WriteOutcome}
      (run : WriterRun codec path loop events)
      (step : applyWriteCommand codec (.appendPreparedBatch batch outcome) loop = (.ok (), loop')) :
      WriterRun codec path loop' (events ++ batch)
  | failed {loop loop' : WriteLoop} {events batch : List StoredEvent} {outcome : WriteOutcome}
      {e : StorageError} (run : WriterRun codec path loop events)
      (step : applyWriteCommand codec (.appendPreparedBatch batch outcome) loop =
        (.error e, loop')) : WriterRun codec path loop' events
  | synced {loop loop' : WriteLoop} {events : List StoredEvent} {outcome : SyncOutcome}
      {result : Except StorageError Unit} (run : WriterRun codec path loop events)
      (step : applyWriteCommand codec (.flushSync outcome) loop = (result, loop')) :
      WriterRun codec path loop' events

/-- The file holds the accepted events, numbered from zero, and nothing else. -/
structure Intact (codec : RecordCodec) (loop : WriteLoop) (events : List StoredEvent) : Prop where
  file : loop.state.file = encodeRecords codec events
  committed : loop.state.committedLen = loop.state.file.length
  numbered : events.map StoredEvent.seq = range loop.state.nextSeq
  published : loop.nextSeq = loop.state.nextSeq

section Runs

variable {codec : RecordCodec} {path : String} {loop loop' : WriteLoop}
  {events batch : List StoredEvent} {outcome : WriteOutcome}

theorem applyWriteCommand_append {result : Except StorageError Unit}
    (step : applyWriteCommand codec (.appendPreparedBatch batch outcome) loop = (result, loop')) :
    Appended codec batch loop.state (result, loop'.state) ∧
      loop'.nextSeq = if result.isOk then loop'.state.nextSeq else loop.nextSeq := by
  have appended : Appended codec batch loop.state
      (loop.state.appendStoredBatch codec batch outcome) := (appendStoredBatch_appended outcome).1
  rw [applyWriteCommand] at step
  split at step
  · next state done =>
    cases step
    rw [done] at appended
    exact ⟨appended, rfl⟩
  · next e state done =>
    cases step
    rw [done] at appended
    exact ⟨appended, rfl⟩

theorem Intact.accept (intact : Intact codec loop events)
    (step : applyWriteCommand codec (.appendPreparedBatch batch outcome) loop = (.ok (), loop')) :
    Intact codec loop' (events ++ batch) := by
  obtain ⟨appended, published⟩ := applyWriteCommand_append step
  obtain ⟨state, nextSeq⟩ := loop'
  cases appended with
  | accepted healthy fits =>
    refine ⟨?_, ?_, ?_, published⟩
    · rw [encodeRecords_append, ← intact.file]
    · rw [length_append, ← intact.committed]
    · -- the batch takes up where the numbers end
      rw [map_append, intact.numbered, fits.numbered, range_eq_range',
        range_eq_range', ← range'_append_1, Nat.zero_add]

/-- A failed append of a writer that stays healthy has changed nothing. -/
theorem Intact.fail {e : StorageError} (intact : Intact codec loop events)
    (step : applyWriteCommand codec (.appendPreparedBatch batch outcome) loop = (.error e, loop'))
    (healthy : loop'.state.poisoned = none) : loop' = loop := by
  obtain ⟨appended, published⟩ := applyWriteCommand_append step
  obtain ⟨state, nextSeq⟩ := loop
  obtain ⟨state', nextSeq'⟩ := loop'
  obtain rfl : nextSeq' = nextSeq := published
  rw [show state' = state from appended.undone intact.committed healthy]

theorem WriterRun.intact (run : WriterRun codec path loop events)
    (healthy : loop.state.poisoned = none) : Intact codec loop events := by
  induction run with
  | created made =>
    rw [createAtPath] at made
    split at made
    · cases made
    · cases made
      exact ⟨rfl, rfl, rfl, rfl⟩
  | opened run =>
    have book := run.bookkeeping
    obtain ⟨first, rest, rfl, log⟩ := book.shaped
    refine ⟨book.file, book.committed, ?_, rfl⟩
    -- each record of a log is numbered by its position
    refine ext_getElem? fun i => ?_
    show ((first :: rest).map StoredEvent.seq)[i]? = (range _)[i]?
    rw [book.counted, getElem?_map]
    cases found : (first :: rest)[i]? with
    | none => rw [getElem?_eq_none (by simpa using found), Option.map_none]
    | some event =>
      obtain ⟨inside, -⟩ := List.getElem?_eq_some_iff.mp found
      rw [getElem?_range inside, Option.map_some, (log.record found).1]
  | accepted run step ih =>
    obtain ⟨appended, -⟩ := applyWriteCommand_append step
    exact (ih appended.healthy_of_ok).accept step
  | failed run step ih =>
    obtain ⟨appended, -⟩ := applyWriteCommand_append step
    have intact := ih (appended.healthy_before healthy)
    rwa [intact.fail step healthy]
  | @synced loop loop' events outcome result run step ih =>
    obtain rfl : { loop with state := (loop.state.flushAndSync outcome).2 } = loop' :=
      (Prod.mk.inj step).2
    rcases flushAndSync_keeps outcome loop.state with same | same
    · rw [same] at healthy ⊢
      exact ih healthy
    · rw [same] at healthy ⊢
      have intact := ih healthy
      exact ⟨intact.file, intact.committed, intact.numbered, intact.published⟩

/-- Failed appends are undone or poison the writer, and a poisoned writer takes nothing. -/
theorem failed_append_atomic (run : WriterRun codec path loop events) :
    (loop.state.poisoned = none →
      loop.state.file = encodeRecords codec events ∧
      events.map StoredEvent.seq = range loop.state.nextSeq ∧
      loop.state.committedLen = loop.state.file.length) ∧
    ∀ batch outcome result loop',
      applyWriteCommand codec (.appendPreparedBatch batch outcome) loop = (result, loop') →
      (∀ e, result = .error e →
        (loop'.state.file = loop.state.file ∧ loop'.state.nextSeq = loop.state.nextSeq ∧
          loop'.state.committedLen = loop.state.committedLen) ∨
        loop'.state.poisoned.isSome = true) ∧
      (loop.state.poisoned.isSome = true → (∃ e, result = .error e) ∧ loop' = loop) := by
  refine ⟨fun healthy => ?_, fun batch outcome result loop' step => ⟨?_, ?_⟩⟩
  · have intact := run.intact healthy
    exact ⟨intact.file, intact.numbered, intact.committed⟩
  · rintro e rfl
    cases poisoned : loop'.state.poisoned with
    | some reason => exact .inr rfl
    | none =>
      obtain ⟨appended, -⟩ := applyWriteCommand_append step
      have intact := run.intact (appended.healthy_before poisoned)
      rw [intact.fail step poisoned]
      exact .inl ⟨rfl, rfl, rfl⟩
  · intro poisoned
    obtain ⟨appended, published⟩ := applyWriteCommand_append step
    obtain ⟨state, nextSeq⟩ := loop
    obtain ⟨state', nextSeq'⟩ := loop'
    have noHealth : state.poisoned ≠ none := Option.isSome_iff_ne_none.mp poisoned
    cases appended with
    | accepted healthy | rolledBack healthy | lost healthy => exact absurd healthy noHealth
    | refused e =>
      obtain rfl : nextSeq' = nextSeq := published
      exact ⟨⟨e, rfl⟩, rfl⟩

end Runs

/-- A record of which forty bytes were written is cut off again. -/
theorem torn_append_undone :
    let torn := applyWriteCommand sampleCodec
      (.appendPreparedBatch [sampleRecap] (.failed 40 "disk full" .restored)) ⟨sampleWriter, 1⟩
    torn.2.state.poisoned = none ∧
      torn.2.state.file = encodeRecords sampleCodec [sampleFirst] ∧
      torn.2.state.committedLen = torn.2.state.file.length := by
  intro torn
  have step : torn = (.error (.io ("failed to append event log 'log'; " ++
      "partial write was rolled back: disk full")), torn.2) := rfl
  have run : WriterRun sampleCodec "log" torn.2 [sampleFirst] :=
    .failed (.opened sampleWriter_run) step
  obtain ⟨intact, -⟩ := failed_append_atomic run
  obtain ⟨file, -, committed⟩ := intact rfl
  exact ⟨rfl, file, committed⟩

end Astrcode
