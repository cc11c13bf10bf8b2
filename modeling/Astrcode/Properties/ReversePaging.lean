import Astrcode.Library.Prefixes
import Astrcode.Storage.InMemory
import Astrcode.Storage.LogShape

/-!
# Paging backward

The reverse reader reassembles lines that span any number of chunks. Whatever the
chunk size, it processes the pieces between newlines from the last one to the first,
so on a log the writer produced it returns the newest events below the cursor: the
slice the in-memory store returns.

The forward reader is stricter about an incomplete last record. It refuses one that
is not UTF-8 text, as a record cut inside a character is, and a file without any
complete record. The reverse reader in turn makes room for all the events wanted before
it reads the first, and fails where there is no such room. Exactly then the two disagree.
-/
namespace Astrcode

variable {sessionId : SessionId}

open List

open Library (pieces cutFirst pieces_append pieces_frame cutFirst_some filter_eq_takeWhile)

/-! ### Chunks do not matter -/

section Loop

variable {s : ReverseScan} {codec : RecordCodec} {path : String} {beforeSeq : Option Nat}
  {maxEvents : Nat}

private theorem reverseLine_length {s' : ReverseScan} {line : List UInt8}
    (read : reverseLine codec path beforeSeq s line = .ok s') :
    s'.events.length ≤ s.events.length + 1 := by
  unfold reverseLine at read
  split at read
  · cases read
    omega
  · split at read
    · cases read
    · obtain ⟨event, -, read⟩ := Library.bind_ok_iff.mp read
      split at read
      · cases read
      · split at read
        · cases read
        · cases read
          split <;> simp

/-- Lines are processed in sequence, and none after the last event wanted. -/
private theorem reverseLines_append (xs ys : List (List UInt8)) (s : ReverseScan)
    (room : s.events.length < maxEvents) :
    reverseLines codec path beforeSeq maxEvents s (xs ++ ys) = (do
      let s ← reverseLines codec path beforeSeq maxEvents s xs
      if s.events.length < maxEvents then reverseLines codec path beforeSeq maxEvents s ys
      else return s) := by
  induction xs generalizing s with
  | nil =>
    simp [reverseLines, room]
  | cons x xs ih =>
    simp only [cons_append, reverseLines, bind, Except.bind]
    cases read : reverseLine codec path beforeSeq s x with
    | error e => rfl
    | ok mid =>
      have grown := reverseLine_length read
      by_cases full : mid.events.length = maxEvents
      · simp [full]
      · simp only [full, if_false]
        exact ih mid (by omega)

/-- What the loop still has to read are the pieces before `position`, completed by the
fragment. -/
private theorem reverseLoop_eq (chunk : ChunkSize) (file : List UInt8) (position : Nat)
    (fragment : List UInt8) (s : ReverseScan) (inside : position ≤ file.length) :
    reverseLoop codec path beforeSeq maxEvents chunk file position fragment s =
      if 0 < position ∧ s.events.length < maxEvents then
        reverseLines codec path beforeSeq maxEvents s
          (pieces newline (file.take position ++ fragment)).reverse
      else .ok s := by
  induction position using Nat.strongRecOn generalizing fragment s with
  | _ position ih =>
    rw [reverseLoop]
    split
    · next more =>
      -- what is still to read: the bytes before the chunk, then the chunk with the fragment
      have whole : file.take position ++ fragment =
          file.take (position - chunk.1) ++
            ((file.take position).drop (position - chunk.1) ++ fragment) := by
        rw [← append_assoc, show file.take (position - chunk.1) =
          (file.take position).take (position - chunk.1) by
            rw [take_take, Nat.min_eq_left (by omega)], take_append_drop]
      rw [whole]
      simp only []
      generalize (file.take position).drop (position - chunk.1) ++ fragment = bytes
      by_cases zero : position - chunk.1 = 0
      · -- the chunk reaches the start of the file
        simp only [zero, if_true, take_zero, nil_append]
        cases read : reverseLines codec path beforeSeq maxEvents s (pieces newline bytes).reverse with
        | error e => rfl
        | ok s' =>
          simp only [bind, Except.bind]
          rw [ih 0 (by omega) _ _ (by omega)]
          simp
      · simp only [zero, if_false]
        cases cut : cutFirst newline bytes with
        | some parts =>
          obtain ⟨front, behind⟩ := parts
          -- the lines behind the first newline are complete; its front waits for the next chunk
          rw [cutFirst_some cut, ← append_assoc, pieces_append, reverse_append,
            reverseLines_append _ _ _ more.2]
          congr 1
          funext s'
          rw [ih _ (by omega) _ _ (by omega)]
          simp [Nat.pos_of_ne_zero zero]
        | none =>
          -- no line ends in this chunk: it only lengthens the fragment
          have skipped : reverseLines codec path beforeSeq maxEvents s (pieces newline []).reverse =
              .ok s := by
            have other : s.events.length ≠ maxEvents := by omega
            simp [reverseLines, reverseLine, other, bind, Except.bind]
          simp only [skipped, bind, Except.bind]
          rw [ih _ (by omega) _ _ (by omega), if_pos ⟨by omega, more.2⟩]
    · rfl

/-! ### The lines of a log -/

private def below (beforeSeq : Option Nat) (event : StoredEvent) : Bool :=
  beforeSeq.all (event.seq < ·)

/-- The record just older than `newer` is taken over. -/
private theorem reverseLine_record {event : StoredEvent}
    (lawful : codec.RoundTrips event) (named : sessionId ≠ "")
    (own : event.event.sessionId = sessionId)
    (newer : s.newerSeq = none ∨ s.newerSeq = some (event.seq + 1))
    (room : event.seq + 1 < u64Limit) (session : s.sessionId = none ∨ s.sessionId = some sessionId) :
    reverseLine codec path beforeSeq s (asBytes (codec.toText event)) =
      .ok ⟨if below beforeSeq event then s.events ++ [event] else s.events, some event.seq,
        some sessionId⟩ := by
  have follows : (s.newerSeq.any fun newer => checkedAdd event.seq 1 ≠ some newer) = false := by
    rcases newer with none | some
    · simp [none]
    · simp [some, checkedAdd_of_lt room]
  have same : (s.sessionId.any (· ≠ event.event.sessionId)) = false := by
    rcases session with none | some
    · simp [none]
    · simp [some, own]
  have kept : s.sessionId.or (some event.event.sessionId) = some sessionId := by
    rcases session with none | some
    · simp [none, own]
    · simp [some]
  have parsed : parseEventLine codec path 0 (codec.toText event) = .ok event :=
    lawful.parse_text (by rw [own]; exact named)
  simp only [reverseLine, lawful.bytes_visible, Bool.false_eq_true, if_false, utf8?_asBytes,
    parsed, bind, Except.bind, follows, same, kept]
  rfl

/-- Records numbered by their position, read from the last to the first: the events below the
cursor, newest first, up to the number wanted. -/
private theorem reverseLines_records {xs : List StoredEvent}
    (named : sessionId ≠ "") (room : xs.length < u64Limit) (held : ∀ i event, xs[i]? = some event →
      event.seq = i ∧ event.event.sessionId = sessionId ∧ codec.RoundTrips event)
    (newer : s.newerSeq = none ∨ s.newerSeq = some xs.length)
    (session : s.sessionId = none ∨ s.sessionId = some sessionId)
    (open' : s.events.length < maxEvents) :
    ∃ s', reverseLines codec path beforeSeq maxEvents s
        (xs.map fun event => asBytes (codec.toText event)).reverse = .ok s' ∧
      s'.events = (s.events ++ xs.reverse.filter (below beforeSeq)).take maxEvents := by
  induction xs using reverseRecOn generalizing s with
  | nil =>
    refine ⟨s, rfl, ?_⟩
    simp [take_of_length_le (Nat.le_of_lt open')]
  -- from the end: the newest record is read first and bounds the number of the next
  | append_singleton ys x ih =>
    rw [length_append, length_singleton] at room newer
    obtain ⟨seq, own, lawful⟩ := held ys.length x (by simp)
    have line : reverseLine codec path beforeSeq s (asBytes (codec.toText x)) = _ :=
      reverseLine_record lawful named own (by rw [seq]; exact newer) (by rw [seq]; exact room) session
    simp only [map_append, map_cons, map_nil, reverse_append,
      reverse_singleton, singleton_append, reverseLines, line, bind, Except.bind]
    -- the events collected so far, with this one if it lies below the cursor
    obtain ⟨events, taken, collected⟩ : ∃ events,
        (if below beforeSeq x then s.events ++ [x] else s.events) = events ∧
        s.events ++ (x :: ys.reverse).filter (below beforeSeq) =
          events ++ ys.reverse.filter (below beforeSeq) := by
      refine ⟨_, rfl, ?_⟩
      by_cases kept : below beforeSeq x = true <;> simp [kept]
    have bounded : events.length ≤ s.events.length + 1 := by
      rw [← taken]
      split <;> simp
    rw [taken, collected]
    by_cases full : events.length = maxEvents
    · refine ⟨_, if_pos full, ?_⟩
      rw [← full, take_left']
      rfl
    · rw [if_neg full]
      refine ih (by omega) ?_ (.inr ?_) (.inr rfl) ?_
      · intro i event found
        have inside := (List.getElem?_eq_some_iff.mp found).1
        exact held i event ((getElem?_append_left inside).trans found)
      · simp [seq]
      · show events.length < maxEvents
        omega

end Loop

/-! ### The slice in memory -/

private theorem eventReader_eq_drop (events : List StoredEvent) (beforeSeq : Option Nat)
    (maxEvents : Nat) :
    EventReader.replayBeforeLimited events beforeSeq maxEvents =
      (events.filter (below beforeSeq)).drop ((events.filter (below beforeSeq)).length - maxEvents) := by
  cases beforeSeq with
  | none =>
    have all : events.filter (below none) = events :=
      filter_eq_self.mpr fun _ _ => rfl
    rw [all]
    rfl
  | some before => rfl

/-- On events numbered by their position the in-memory store and the trait's default agree. -/
theorem inMemory_eq_eventReader {events : List StoredEvent} (beforeSeq : Option Nat)
    (maxEvents : Nat) (numbered : ∀ i (event : StoredEvent), events[i]? = some event → event.seq = i) :
    InMemory.replayBeforeLimited events beforeSeq maxEvents =
      EventReader.replayBeforeLimited events beforeSeq maxEvents := by
  cases beforeSeq with
  | none => simp
  | some before =>
    have ordered : events.Pairwise fun a b : StoredEvent =>
        decide (b.seq < before) = true → decide (a.seq < before) = true := by
      rw [pairwise_iff_getElem]
      intro i j hi hj less high
      have left := numbered i _ (getElem?_eq_getElem hi)
      have right := numbered j _ (getElem?_eq_getElem hj)
      simp only [decide_eq_true_eq] at high ⊢
      omega
    have cut : events.take (events.takeWhile fun e : StoredEvent => e.seq < before).length =
        events.takeWhile fun e : StoredEvent => e.seq < before :=
      (prefix_iff_eq_take.mp ( takeWhile_prefix _)).symm
    simp [partitionPoint, cut, filter_eq_takeWhile ordered]

/-! ### Both readers on one file -/

section Readers

variable {codec : RecordCodec} {tail : List UInt8}

/-- The reverse reader skips what follows the last newline and returns the slice. -/
private theorem replayBefore_log {first : StoredEvent}
    {rest : List StoredEvent} (log : WellFormedLog codec sessionId first rest)
    (clean : newline ∉ tail) (path : String) (beforeSeq : Option Nat) {maxEvents capacity : Nat}
    (fits : maxEvents ≤ capacity) (tailChunk chunk : ChunkSize) :
    replayEventsBeforeAtPath codec path beforeSeq maxEvents capacity tailChunk chunk
        (encodeRecords codec (first :: rest) ++ tail) =
      .ok (EventReader.replayBeforeLimited (first :: rest) beforeSeq maxEvents) := by
  rw [eventReader_eq_drop]
  by_cases zero : maxEvents = 0
  · simp [replayEventsBeforeAtPath, zero]
  · have wanted : 0 < maxEvents := Nat.pos_of_ne_zero zero
    have positive : 0 < (encodeRecords codec (first :: rest)).length := by
      rw [encodeRecords_cons, length_append, length_cons]
      omega
    obtain ⟨s, read, events⟩ : ∃ s, reverseLines codec path beforeSeq maxEvents ⟨[], none, none⟩
        ((first :: rest).map fun event => asBytes (codec.toText event)).reverse = .ok s ∧
        s.events = ([] ++ (first :: rest).reverse.filter (below beforeSeq)).take maxEvents :=
      reverseLines_records log.named (by simpa using log.room) (fun i event => log.record)
        (.inl rfl) (.inl rfl) wanted
    -- behind the last newline is an empty piece
    have blank : reverseLine codec path beforeSeq ⟨[], none, none⟩ [] = .ok ⟨[], none, none⟩ := by
      simp [reverseLine]
    have whole : reverseLoop codec path beforeSeq maxEvents chunk
        (encodeRecords codec (first :: rest) ++ tail) (encodeRecords codec (first :: rest)).length []
        ⟨[], none, none⟩ = .ok s := by
      rw [reverseLoop_eq _ _ _ _ _ (by simp), if_pos ⟨positive, wanted⟩, take_left',
        append_nil, encodeRecords, pieces_frame log.clean, reverse_append]
      simp only [reverse_singleton, singleton_append, reverseLines, blank, bind, Except.bind]
      rw [if_neg (by simpa using Ne.symm zero), read]
      rfl
    simp only [replayEventsBeforeAtPath, zero, if_false, lastCommittedOffset_log clean,
      Nat.not_lt.mpr fits, whole, bind, Except.bind, events, pure, Except.pure]
    rw [nil_append, filter_reverse, take_reverse, reverse_reverse]

/-- Without room for the events wanted, the reverse reader fails at the first complete record. -/
private theorem replayBefore_overflow {first : StoredEvent} {rest : List StoredEvent}
    (clean : newline ∉ tail) (path : String) (beforeSeq : Option Nat) {maxEvents capacity : Nat}
    (exceeds : capacity < maxEvents) (tailChunk chunk : ChunkSize) :
    replayEventsBeforeAtPath codec path beforeSeq maxEvents capacity tailChunk chunk
        (encodeRecords codec (first :: rest) ++ tail) = .error capacityOverflow := by
  rw [replayEventsBeforeAtPath, if_neg (Nat.ne_zero_of_lt exceeds), lastCommittedOffset_log clean]
  exact if_pos exceeds

/-- Without a complete record the reverse reader returns no event and the forward reader fails. -/
private theorem replayBefore_empty (clean : newline ∉ tail) (path : String) (beforeSeq : Option Nat)
    (maxEvents capacity : Nat) (tailChunk chunk : ChunkSize) :
    replayEventsBeforeAtPath codec path beforeSeq maxEvents capacity tailChunk chunk tail =
      .ok [] := by
  rw [replayEventsBeforeAtPath, lastCommittedOffset_eq _ _ _ (Nat.le_refl _), take_length,
    Library.lastEnd_clean clean]
  split <;> rfl

private theorem replay_empty (clean : newline ∉ tail) (path : String) :
    ∃ e, replayEventsAtPath codec path tail none none none = .error e := by
  rw [replayEventsAtPath, if_neg (by simp), scanEventsAtPath]
  by_cases empty : tail = []
  · subst empty
    exact ⟨_, rfl⟩
  · have incomplete : tail.getLast? ≠ some newline := fun last => clean (mem_of_getLast? last)
    simp only [Library.splitInclusive_tail clean empty, scanPieces]
    cases utf8? tail with
    | none => exact ⟨_, rfl⟩
    | some line =>
      simp only [incomplete, ne_eq, not_false_eq_true, if_true]
      exact ⟨_, rfl⟩

/-- The complete records of a log file: none yet, or those of a well-formed log. -/
def CompleteRecords (codec : RecordCodec) : List StoredEvent → Prop
  | [] => True
  | first :: rest => ∃ sessionId, WellFormedLog codec sessionId first rest

/-- The reverse reader returns the slice the in-memory store returns, whatever the chunk sizes
and whatever incomplete record ends the file, unless there is a complete record and no room for the
events wanted. It is the slice of the forward replay exactly if in addition the file has a complete
record and what follows the last newline is UTF-8 text; otherwise the forward replay fails. -/
theorem replayBefore_eq_forward_iff {events : List StoredEvent}
    (records : CompleteRecords codec events) (clean : newline ∉ tail) (path : String)
    (beforeSeq : Option Nat) (maxEvents capacity : Nat) (tailChunk chunk : ChunkSize) :
    let file := encodeRecords codec events ++ tail
    let page := replayEventsBeforeAtPath codec path beforeSeq maxEvents capacity tailChunk chunk file
    (page = .ok (InMemory.replayBeforeLimited events beforeSeq maxEvents) ↔
        events = [] ∨ maxEvents ≤ capacity) ∧
      ((∃ all, replayEventsAtPath codec path file none none none = .ok all ∧
          page = .ok (EventReader.replayBeforeLimited all beforeSeq maxEvents)) ↔
        events ≠ [] ∧ (utf8? tail).isSome ∧ maxEvents ≤ capacity) := by
  cases events with
  | nil =>
    have nothing : InMemory.replayBeforeLimited [] beforeSeq maxEvents = [] := by
      simp
    obtain ⟨e, fails⟩ : ∃ e, replayEventsAtPath codec path tail none none none = .error e :=
      replay_empty clean path
    simp only [encodeRecords, map_nil, Library.frame_nil, nil_append,
      replayBefore_empty clean, nothing, fails]
    simp
  | cons first rest =>
    obtain ⟨sessionId, log⟩ := records
    have same := inMemory_eq_eventReader beforeSeq maxEvents
      (fun i event (found : (first :: rest)[i]? = some event) => (log.record found).1)
    by_cases fits : maxEvents ≤ capacity
    · simp only [replayBefore_log log clean path beforeSeq fits, replay_log log clean, same]
      by_cases decoded : (utf8? tail).isSome = true
      all_goals simp [decoded, fits]
    · simp only [replayBefore_overflow clean path beforeSeq (Nat.lt_of_not_le fits)]
      simp [fits]

/-- A write cut off inside a character: paging backward still works, reading forward fails. And
without an incomplete record, a page for more events than there can be room for. -/
theorem replayBefore_cut_character :
    (let file := encodeRecords sampleCodec [sampleFirst] ++
      (encodeRecords sampleCodec [sampleRecap]).take 125
    replayEventsBeforeAtPath sampleCodec "log" none 10 10 ⟨8192, by decide⟩ ⟨65536, by decide⟩ file =
        .ok [sampleFirst] ∧
      replayEventsAtPath sampleCodec "log" file none none none = .error (readError "log")) ∧
    ∀ capacity, replayEventsBeforeAtPath sampleCodec "log" none (capacity + 1) capacity
      ⟨8192, by decide⟩ ⟨65536, by decide⟩ (encodeRecords sampleCodec [sampleFirst] ++ []) =
        .error capacityOverflow := by
  have log : WellFormedLog sampleCodec "session" sampleFirst [] :=
    { sampleLog_wellFormed with continues := trivial, room := by decide }
  have clean : newline ∉ (encodeRecords sampleCodec [sampleRecap]).take 125 := by decide +kernel
  have cut : (utf8? ((encodeRecords sampleCodec [sampleRecap]).take 125)).isSome = false := by
    decide +kernel
  refine ⟨⟨replayBefore_log log clean _ _ (Nat.le_refl _) _ _, ?_⟩, fun capacity => ?_⟩
  · rw [replay_log log clean, cut]
    rfl
  · exact replayBefore_overflow not_mem_nil _ _ (Nat.lt_succ_self _) _ _

/-- Cut between two characters, both readers return the first record. -/
theorem replayBefore_eq_forward_cut_between :
    let tail := (encodeRecords sampleCodec [sampleRecap]).take 127
    CompleteRecords sampleCodec [sampleFirst] ∧ newline ∉ tail ∧
      ∃ all, replayEventsAtPath sampleCodec "log" (encodeRecords sampleCodec [sampleFirst] ++ tail)
          none none none = .ok all ∧
        replayEventsBeforeAtPath sampleCodec "log" none 10 1000 ⟨8192, by decide⟩
            ⟨100, by decide⟩ (encodeRecords sampleCodec [sampleFirst] ++ tail) =
          .ok (EventReader.replayBeforeLimited all none 10) := by
  have log : CompleteRecords sampleCodec [sampleFirst] :=
    ⟨"session", { sampleLog_wellFormed with continues := trivial, room := by decide }⟩
  have clean : newline ∉ (encodeRecords sampleCodec [sampleRecap]).take 127 := by decide +kernel
  refine ⟨log, clean, ?_⟩
  exact (replayBefore_eq_forward_iff log clean _ _ _ _ _ _).2.mpr
    ⟨by simp, by decide +kernel, by decide⟩

end Readers

end Astrcode
