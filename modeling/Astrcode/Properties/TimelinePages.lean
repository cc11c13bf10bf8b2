import Astrcode.Properties.Rewrite
import Astrcode.Properties.StreamCursor
import Astrcode.Server.Timeline
import Mathlib.Data.Prod.Lex
import Mathlib.Order.Minimal

/-!
# The pages of a timeline

The pages of a timeline, followed from the newest to the oldest and put together again, against
the blocks of the whole log. A page files a block under the first of its events in the newest
batch that has any, and shows it as the last event before the page's cursor left it.

The pages therefore add up exactly if no page cuts through a block: what it shows has no event
before its own beginning, is not changed by an event after its cursor, and is filed in the
order in which the blocks begin. A tool call whose result comes after other blocks have begun
may be cut, and is then shown as if it had not ended.
-/
namespace Astrcode

variable {log : List DurableEvent} {x w : TimelineEntry} {rest : List TimelineEntry}

open Library List Nat TimelineEntry

/-! ### Blocks as writes -/

def TimelineEntry.seq (entry : TimelineEntry) : Nat := entry.position.eventSeq

/-- What each event writes on the timeline. -/
def visibleEntries (events : List StoredEvent) : List TimelineEntry :=
  events.filterMap fun stored => (timelineBlock stored).map (⟨.event stored.seq, ·⟩)

/-- There is no fork among the events. -/
def Unforked (log : List DurableEvent) : Prop :=
  ∀ event ∈ log, event.payload.isSessionForked = false

theorem keepsKey_update : KeepsKey TimelineEntry.id TimelineEntry.update := by
  intro a b same
  exact same.symm

theorem projectEvent_of_unforked {stored : StoredEvent} (entries : List TimelineEntry)
    (unforked : stored.event.payload.isSessionForked = false) :
    projectEvent entries stored =
      upsertAll TimelineEntry.id TimelineEntry.update (visibleEntries [stored]) entries := by
  simp only [projectEvent]
  split
  · next fork => simp [fork] at unforked
  · cases shown : timelineBlock stored <;> simp [visibleEntries, shown, upsertAll]

theorem projectEvents_eq_collect {events : List StoredEvent}
    (unforked : ∀ stored ∈ events, stored.event.payload.isSessionForked = false) :
    projectEvents events =
      collect TimelineEntry.id TimelineEntry.update (visibleEntries events) := by
  -- the entries so far are arbitrary, so that the induction goes through
  have general : ∀ entries, events.foldl projectEvent entries =
      upsertAll TimelineEntry.id TimelineEntry.update (visibleEntries events) entries := by
    induction events with
    | nil => exact fun _ => rfl
    | cons stored rest ih =>
      intro entries
      have head := projectEvent_of_unforked entries (unforked stored mem_cons_self)
      rw [foldl_cons, head, ih (forall_mem_cons.mp unforked).2,
        ← upsertAll_append]
      congr 1
      rw [visibleEntries, visibleEntries, visibleEntries, ← filterMap_append]
      rfl
  exact general []

/-! ### Slices of a log -/

variable (log)

theorem slice_numberFrom (first a b : Nat) :
    ((numberFrom first log).take (b - first)).drop (a - first) =
      (numberFrom first log).filter fun e => a ≤ e.seq ∧ e.seq < b := by
  induction log generalizing first with
  | nil => simp
  | cons event rest ih =>
    have tail := ih (first + 1)
    rw [numberFrom]
    by_cases above : b ≤ first
    · -- all numbers are too high
      rw [show b - first = 0 by omega, show b - (first + 1) = 0 by omega] at *
      rw [take_zero, drop_nil] at tail ⊢
      rw [filter_cons_of_neg (by simp; omega)]
      exact tail
    · rw [show b - first = (b - (first + 1)) + 1 by omega, take_succ_cons]
      by_cases begun : a ≤ first
      · rw [show a - (first + 1) = 0 by omega, drop_zero] at tail
        rw [show a - first = 0 by omega, drop_zero,
          filter_cons_of_pos (by simp; omega), tail]
      · rw [show a - first = (a - (first + 1)) + 1 by omega, drop_succ_cons,
          filter_cons_of_neg (by simp; omega), tail]

theorem partitionPoint_numberFrom (before : Nat) :
    partitionPoint (numberFrom 0 log) (fun event : StoredEvent => event.seq < before) =
      min before log.length := by
  have below := slice_numberFrom log 0 0 before
  rw [partitionPoint, ← filter_eq_takeWhile]
  · simp only [zero_le, true_and] at below
    rw [← below]
    simp [numberFrom_length]
  · refine (numberFrom_sorted 0 log).imp ?_
    intro a b less
    simp
    omega

/-- Where a page ends: at its cursor, or at the end of the log. -/
def pageEnd : Option Nat → Nat
  | some before => min before log.length
  | none => log.length

variable {log}

theorem pageEnd_le (before : Option Nat) : pageEnd log before ≤ log.length := by
  cases before with
  | none => exact le_refl _
  | some before => exact min_le_right _ _

/-- The events with numbers from `a` on and below `b`. -/
def slice (log : List DurableEvent) (a b : Nat) : List StoredEvent :=
  (numberFrom 0 log).filter fun e => a ≤ e.seq ∧ e.seq < b

theorem replayBeforeLimited_eq_slice (log : List DurableEvent) (before : Option Nat) (count : Nat) :
    InMemory.replayBeforeLimited (numberFrom 0 log) before count =
      slice log (pageEnd log before - count) (pageEnd log before) := by
  rw [slice, ← slice_numberFrom, Nat.sub_zero, Nat.sub_zero]
  cases before with
  | none => simp [pageEnd, numberFrom_length]
  | some before => simp [pageEnd, partitionPoint_numberFrom]

theorem slice_eq_cons {a b : Nat} (nonempty : a < b) (inside : b ≤ log.length) :
    ∃ event, slice log a b = ⟨a, event⟩ :: slice log (a + 1) b := by
  have exists_ : a < ((numberFrom 0 log).take b).length := by
    rw [length_take, numberFrom_length]
    omega
  refine ⟨log[a], ?_⟩
  simp only [slice, ← slice_numberFrom, Nat.sub_zero]
  rw [drop_eq_getElem_cons exists_]
  simp [numberFrom_eq_map]

theorem slice_eq_nil {a b : Nat} (empty : b ≤ a) : slice log a b = [] := by
  apply filter_eq_nil_iff.mpr
  intro e member
  simp
  omega

theorem slice_length {a b : Nat} (inside : b ≤ log.length) :
    (slice log a b).length = b - a := by
  rw [slice, ← slice_numberFrom, length_drop, length_take, numberFrom_length]
  omega

/-! ### What a page files -/

section Filing

variable {w : TimelineEntry} {id : String} {a b batches : Nat} {entries : List TimelineEntry}

/-- The writes of a log: each has its own number. -/
def Numbered (writes : List TimelineEntry) : Prop :=
  writes.Pairwise fun a b => a.seq < b.seq

variable {writes : List TimelineEntry} {before seq : Nat} {v : TimelineEntry}

theorem Numbered.eq_of_seq (numbered : Numbered writes) (first : v ∈ writes)
    (second : w ∈ writes) (same : v.seq = w.seq) : v = w := by
  have nodup : (writes.map seq).Nodup :=
    pairwise_map.mpr (List.Pairwise.imp Nat.ne_of_lt numbered)
  exact inj_on_of_nodup_map nodup first second same

/-- The batch an event is read in by a page that ends at `before`; the newest is batch 0. -/
def batchOf (before seq : Nat) : Nat := (before - 1 - seq) / eventChunk

/-- A page that ends at `before` files the block of this write under it. -/
structure Opens (writes : List TimelineEntry) (before : Nat) (v : TimelineEntry) : Prop where
  written : v ∈ writes
  below : v.seq < before
  /-- No write to the block is in a newer batch, or earlier in the same one. -/
  newest : ∀ w ∈ writes, w.id = v.id → w.seq < before →
    batchOf before v.seq ≤ batchOf before w.seq ∧
      (batchOf before v.seq = batchOf before w.seq → v.seq ≤ w.seq)

theorem Opens.unique (numbered : Numbered writes)
    (opens : Opens writes before v) (opens' : Opens writes before w) (same : v.id = w.id) :
    v = w := by
  have left := opens.newest w opens'.written same.symm opens'.below
  have right := opens'.newest v opens.written same opens.below
  apply numbered.eq_of_seq opens.written opens'.written
  have batch := le_antisymm left.1 right.1
  exact le_antisymm (left.2 batch) (right.2 batch.symm)

/-- Every block with a write before the cursor is filed, in the batch of the write or a newer
one. -/
theorem exists_opens (written : w ∈ writes) (below : w.seq < before) :
    ∃ v, Opens writes before v ∧ v.id = w.id ∧ batchOf before v.seq ≤ batchOf before w.seq := by
  -- of all writes to the block, the one that is read first
  obtain ⟨v, ⟨inWrites, same, less⟩, least⟩ := exists_minimalFor_of_wellFoundedLT
    (fun u => u ∈ writes ∧ u.id = w.id ∧ u.seq < before)
    (fun u => toLex (batchOf before u.seq, u.seq)) ⟨w, written, rfl, below⟩
  have newest : ∀ u ∈ writes, u.id = w.id → u.seq < before →
      batchOf before v.seq ≤ batchOf before u.seq ∧
        (batchOf before v.seq = batchOf before u.seq → v.seq ≤ u.seq) := by
    intro u member equal under
    have first := (le_total _ _).elim id (@least u ⟨member, equal, under⟩)
    rcases Prod.Lex.toLex_le_toLex.mp first with batch | ⟨batch, sooner⟩
    · exact ⟨le_of_lt batch, fun equal => absurd equal (Nat.ne_of_lt batch)⟩
    · exact ⟨le_of_eq batch, fun _ => sooner⟩
  exact ⟨v, ⟨inWrites, less, fun u member equal => newest u member (equal.trans same)⟩, same,
    (newest w written rfl below).1⟩

/-- The block as the writes below `before` leave it. -/
def blockBefore (writes : List TimelineEntry) (before : Nat) (id : String) :
    Option ConversationBlock :=
  (writes.filter fun w => w.id = id ∧ w.seq < before).getLast?.map (·.block)

/-- The entries of a page that ends at `before` and has been read down to `start`. -/
structure Filed (writes : List TimelineEntry) (before start : Nat) (entries : List TimelineEntry) :
    Prop where
  sorted : entries.Pairwise fun a b => a.seq < b.seq
  mem_iff : ∀ x, x ∈ entries ↔ ∃ v, Opens writes before v ∧ start ≤ v.seq ∧
    x.position = v.position ∧ blockBefore writes before v.id = some x.block

theorem blockBefore_id {block : ConversationBlock}
    (found : blockBefore writes before id = some block) : blockId block = id := by
  obtain ⟨w, last, rfl⟩ := Option.map_eq_some_iff.mp found
  have member := (mem_filter.mp (mem_of_getLast? last)).2
  simp only [decide_eq_true_eq] at member
  exact member.1

theorem Filed.nil (empty : before ≤ start) : Filed writes before start [] where
  sorted := List.Pairwise.nil
  mem_iff x := by
    constructor
    · intro member
      cases member
    · rintro ⟨v, opens, begun, -⟩
      have := opens.below
      omega

/-- The slice of writes that one batch holds. -/
def writesIn (writes : List TimelineEntry) (a b : Nat) : List TimelineEntry :=
  writes.filter fun w => a ≤ w.seq ∧ w.seq < b

theorem mem_writesIn :
    w ∈ writesIn writes a b ↔ w ∈ writes ∧ a ≤ w.seq ∧ w.seq < b := by
  simp [writesIn]

/-- What a batch makes of its writes: first position and last block. -/
theorem mem_collect_writesIn :
    x ∈ collect TimelineEntry.id TimelineEntry.update (writesIn writes a b) ↔
      ∃ first rest, (writesIn writes a b).filter (·.id = x.id) = first :: rest ∧
        x.position = first.position ∧
        (first :: rest).getLast?.map (·.block) = some x.block := by
  have folded : ∀ (rest : List TimelineEntry) (first : TimelineEntry),
      x = rest.foldl TimelineEntry.update first ↔ x.position = first.position ∧
        (first :: rest).getLast?.map (·.block) = some x.block := by
    intro rest
    induction rest with
    | nil =>
      intro first
      obtain ⟨position, block⟩ := x
      obtain ⟨position', block'⟩ := first
      simp [eq_comm]
    | cons next rest ih =>
      intro first
      rw [foldl_cons, ih, getLast?_cons_cons]
      -- the update leaves the position, and the block of the first is lost anyway
      cases rest with
      | nil | cons => simp [TimelineEntry.update]
  rw [mem_collect keepsKey_update]
  simp [folded]

section

variable (numbered : Numbered writes)

include numbered

theorem numbered_writesIn (a b : Nat) : Numbered (writesIn writes a b) :=
  List.Pairwise.filter _ numbered

/-- Blocks are filed in the order of their first writes. -/
theorem numbered_collect : Numbered (collect TimelineEntry.id TimelineEntry.update writes) := by
  have kept : ∀ a b : TimelineEntry, b.id = a.id → (b.update a).seq = b.seq := fun _ _ _ => rfl
  rw [Numbered, ← pairwise_map (R := (· < ·))]
  exact List.Pairwise.sublist (map_collect_sublist kept writes) (pairwise_map.mpr numbered)

/-- In order of their numbers, the writes below a number come before the others. -/
theorem Numbered.filter_eq_append (p : TimelineEntry → Bool) (cut : Nat) :
    writes.filter p = writes.filter (fun w => p w && w.seq < cut) ++
      writes.filter fun w => p w && cut ≤ w.seq := by
  have split := filter_append_filter_not (p := (·.seq < cut)) (numbered.imp fun less below => by
    simp only [decide_eq_true_eq] at below ⊢
    omega)
  conv_lhs => rw [← split, filter_append, filter_filter, filter_filter]
  simp only [← decide_not, Nat.not_lt]

/-- A block without writes between a batch and the cursor is as the batch leaves it. -/
theorem blockBefore_eq_of_batch (none_after : ∀ w ∈ writes, w.id = id → w.seq < before → w.seq < b)
    (inside : b ≤ before) {first : TimelineEntry}
    (found : (writesIn writes a b).filter (·.id = id) = first :: rest) :
    blockBefore writes before id = (first :: rest).getLast?.map (·.block) := by
  have batch : writes.filter (fun w => decide (w.id = id ∧ w.seq < before) && a ≤ w.seq) =
      first :: rest := by
    rw [← found, writesIn, filter_filter]
    apply filter_congr
    intro w written
    have after := none_after w written
    rw [Bool.eq_iff_iff]
    simp only [Bool.and_eq_true, decide_eq_true_eq]
    constructor
    · rintro ⟨⟨same, below⟩, above⟩
      exact ⟨same, above, after same below⟩
    · rintro ⟨same, above, below⟩
      exact ⟨⟨same, by omega⟩, above⟩
  rw [blockBefore, numbered.filter_eq_append _ a, batch, getLast?_append_cons]

/-- The first of the writes to a block in a batch. -/
structure FirstIn (writes : List TimelineEntry) (a b : Nat) (v : TimelineEntry) : Prop where
  written : v ∈ writes
  above : a ≤ v.seq
  below : v.seq < b
  least : ∀ w ∈ writes, w.id = v.id → a ≤ w.seq → w.seq < b → v.seq ≤ w.seq

theorem firstIn_of_filter {first : TimelineEntry}
    (found : (writesIn writes a b).filter (·.id = id) = first :: rest) :
    FirstIn writes a b first ∧ first.id = id := by
  have member : first ∈ (writesIn writes a b).filter (·.id = id) := found ▸ mem_cons_self
  obtain ⟨inBatch, same⟩ := mem_filter.mp member
  have same : first.id = id := by simpa using same
  obtain ⟨written, above, below⟩ := mem_writesIn.mp inBatch
  refine ⟨⟨written, above, below, ?_⟩, same⟩
  intro w inWrites equal begun ended
  have among : w ∈ first :: rest := found ▸ mem_filter.mpr
    ⟨mem_writesIn.mpr ⟨inWrites, begun, ended⟩, by simpa using equal.trans same⟩
  have sorted : (first :: rest).Pairwise fun a b => a.seq < b.seq :=
    found ▸ (numbered_writesIn numbered a b).filter _
  rcases mem_cons.mp among with rfl | later
  · exact le_refl _
  · exact le_of_lt ((pairwise_cons.mp sorted).1 w later)

/-- Every block with a write in a batch has a first one there. -/
theorem exists_firstIn (written : w ∈ writes) (above : a ≤ w.seq) (below : w.seq < b) :
    ∃ first rest, (writesIn writes a b).filter (·.id = w.id) = first :: rest ∧
      FirstIn writes a b first ∧ first.id = w.id := by
  obtain ⟨first, rest, found⟩ := exists_cons_of_ne_nil (ne_nil_of_mem
    (mem_filter.mpr ⟨mem_writesIn.mpr ⟨written, above, below⟩, by simp⟩ :
      w ∈ (writesIn writes a b).filter (·.id = w.id)))
  exact ⟨first, rest, found, firstIn_of_filter numbered found⟩

/-- A batch files a block under the first of its writes, as the last write before the cursor left
it, if there is none after the batch. -/
theorem mem_collect_iff_first (inside : b ≤ before)
    (none_after : ∀ w ∈ writes, w.id = x.id → w.seq < before → w.seq < b) :
    x ∈ collect TimelineEntry.id TimelineEntry.update (writesIn writes a b) ↔
      ∃ v, FirstIn writes a b v ∧ x.position = v.position ∧
        blockBefore writes before v.id = some x.block := by
  rw [mem_collect_writesIn]
  constructor
  · rintro ⟨first, rest, found, position, block⟩
    obtain ⟨isFirst, same⟩ := firstIn_of_filter numbered found
    refine ⟨first, isFirst, position, ?_⟩
    rw [same, blockBefore_eq_of_batch numbered none_after inside found, block]
  · rintro ⟨v, isFirst, position, block⟩
    have same : x.id = v.id := blockBefore_id block
    rw [same] at none_after ⊢
    obtain ⟨first, rest, found, isFirst', equal⟩ :=
      exists_firstIn numbered isFirst.written isFirst.above isFirst.below
    have first_eq : first = v := by
      apply numbered.eq_of_seq isFirst'.written isFirst.written
      exact le_antisymm (isFirst'.least v isFirst.written equal.symm isFirst.above isFirst.below)
        (isFirst.least first isFirst'.written equal isFirst'.above isFirst'.below)
    refine ⟨first, rest, found, by rw [position, first_eq], ?_⟩
    rw [← blockBefore_eq_of_batch numbered none_after inside found, block]

end

theorem exists_blockBefore (written : w ∈ writes) (below : w.seq < before) :
    ∃ block, blockBefore writes before w.id = some block := by
  have some_write : writes.filter (fun u => u.id = w.id ∧ u.seq < before) ≠ [] :=
    ne_nil_of_mem (mem_filter.mpr ⟨written, by simp [below]⟩)
  rw [blockBefore, getLast?_eq_some_getLast some_write]
  exact ⟨_, rfl⟩

/-- Which batch a write is read in, by its number, when the page has been read down to `start`. -/
structure ReadDownTo (before start batches : Nat) : Prop where
  whole : start + eventChunk * batches = before

theorem ReadDownTo.newer {start : Nat} (read : ReadDownTo before start batches)
    (below : seq < before) : start ≤ seq ↔ batchOf before seq < batches := by
  have := read.whole
  rw [batchOf, div_lt_iff_lt_mul (by decide), Nat.mul_comm]
  omega

theorem ReadDownTo.next_batch {start : Nat} (read : ReadDownTo before start batches)
    (above : start - eventChunk ≤ seq) (below : seq < start) :
    batchOf before seq = batches := by
  have := read.whole
  rw [batchOf, Nat.div_eq_iff (by decide), Nat.mul_comm]
  omega

theorem ReadDownTo.older {start : Nat} (read : ReadDownTo before start batches)
    (below : seq < start - eventChunk) : batches < batchOf before seq := by
  have := read.whole
  rw [batchOf, lt_div_iff_mul_lt (by decide)]
  simp only [eventChunk] at *
  omega

theorem Filed.mem_ids {start : Nat} (filed : Filed writes before start entries)
    (read : ReadDownTo before start batches) :
    id ∈ entries.map TimelineEntry.id ↔
      ∃ w ∈ writes, w.id = id ∧ start ≤ w.seq ∧ w.seq < before := by
  rw [mem_map]
  constructor
  · rintro ⟨x, member, rfl⟩
    obtain ⟨v, opens, above, -, block⟩ := (filed.mem_iff x).mp member
    exact ⟨v, opens.written, (blockBefore_id block).symm, above, opens.below⟩
  · rintro ⟨w, written, rfl, above, below⟩
    obtain ⟨v, opens, same, batch⟩ := exists_opens written below
    have begun : start ≤ v.seq :=
      (read.newer opens.below).mpr (lt_of_le_of_lt batch ((read.newer below).mp above))
    obtain ⟨block, found⟩ := exists_blockBefore opens.written opens.below
    refine ⟨⟨v.position, block⟩, (filed.mem_iff _).mpr ⟨v, opens, begun, rfl, found⟩, ?_⟩
    exact (blockBefore_id found).trans same

/-- Reading one more batch files the blocks that are not filed yet. -/
theorem Filed.prepend (numbered : Numbered writes) {start : Nat}
    (filed : Filed writes before start entries) (read : ReadDownTo before start batches) :
    Filed writes before (start - eventChunk) (prependEntries entries
      (collect TimelineEntry.id TimelineEntry.update
        (writesIn writes (start - eventChunk) start))) := by
  have inside : start ≤ before := by
    have := read.whole
    omega
  constructor
  · rw [prependEntries, pairwise_append]
    refine ⟨?_, filed.sorted, ?_⟩
    · apply List.Pairwise.filter
      exact numbered_collect (numbered_writesIn numbered _ _)
    · intro x kept y member
      obtain ⟨first, rest, found, position, -⟩ :=
        mem_collect_writesIn.mp (mem_filter.mp kept).1
      have below := (firstIn_of_filter numbered found).1.below
      obtain ⟨v, -, above, same, -⟩ := (filed.mem_iff y).mp member
      simp only [seq, position, same] at *
      omega
  · intro x
    rw [prependEntries, mem_append, mem_filter, decide_eq_true_eq, filed.mem_ids read]
    constructor
    · rintro (⟨fresh, unfiled⟩ | old)
      · -- the block has no write above the batch, or it would be filed
        have none_after : ∀ w ∈ writes, w.id = x.id → w.seq < before → w.seq < start := by
          intro w inWrites equal less
          by_contra high
          exact unfiled ⟨w, inWrites, equal, Nat.le_of_not_lt high, less⟩
        obtain ⟨first, isFirst, position, block⟩ :=
          (mem_collect_iff_first numbered inside none_after).mp fresh
        have below := isFirst.below
        refine ⟨first, ⟨isFirst.written, by omega, ?_⟩, isFirst.above, position, block⟩
        intro w inWrites equal less
        have low := none_after w inWrites (equal.trans (blockBefore_id block).symm) less
        rw [read.next_batch isFirst.above below]
        by_cases inBatch : start - eventChunk ≤ w.seq
        · rw [read.next_batch inBatch low]
          exact ⟨le_refl _, fun _ => isFirst.least w inWrites equal inBatch low⟩
        · have further := read.older (Nat.lt_of_not_le inBatch)
          exact ⟨le_of_lt further, fun equal => absurd equal (Nat.ne_of_lt further)⟩
      · obtain ⟨v, opens, above, rest⟩ := (filed.mem_iff x).mp old
        exact ⟨v, opens, by omega, rest⟩
    · rintro ⟨v, opens, above, position, block⟩
      by_cases begun : start ≤ v.seq
      · exact Or.inr ((filed.mem_iff x).mpr ⟨v, opens, begun, position, block⟩)
      · have low := Nat.lt_of_not_le begun
        have same : x.id = v.id := blockBefore_id block
        -- a write above the batch would be filed instead
        have none_after : ∀ w ∈ writes, w.id = x.id → w.seq < before → w.seq < start := by
          intro w inWrites equal less
          by_contra high
          have batch := (opens.newest w inWrites (equal.trans same) less).1
          rw [read.next_batch above low] at batch
          have := (read.newer less).mp (Nat.le_of_not_lt high)
          omega
        left
        constructor
        · refine (mem_collect_iff_first numbered inside none_after).mpr
            ⟨v, ⟨opens.written, above, low, ?_⟩, position, block⟩
          intro w inWrites equal above' below'
          apply (opens.newest w inWrites equal (by omega)).2
          rw [read.next_batch above low, read.next_batch above' below']
        · rintro ⟨w, inWrites, equal, high, less⟩
          have := none_after w inWrites equal less
          omega

/-- An entry of a page that begins at `cut` is one at or after it. -/
theorem Filed.filter {start cut : Nat} (filed : Filed writes before start entries)
    (later : start ≤ cut) :
    Filed writes before cut (entries.filter (cut ≤ ·.seq)) where
  sorted := filed.sorted.filter _
  mem_iff x := by
    rw [mem_filter, filed.mem_iff, decide_eq_true_eq]
    constructor
    · rintro ⟨⟨v, opens, -, position, block⟩, above⟩
      refine ⟨v, opens, ?_, position, block⟩
      rwa [seq, position] at above
    · rintro ⟨v, opens, above, position, block⟩
      refine ⟨⟨v, opens, by omega, position, block⟩, ?_⟩
      rwa [seq, position]

theorem Filed.below {start : Nat} (filed : Filed writes before start entries)
    (member : x ∈ entries) :
    start ≤ x.seq ∧ x.seq < before := by
  obtain ⟨v, opens, above, position, -⟩ := (filed.mem_iff x).mp member
  rw [seq, position]
  exact ⟨above, opens.below⟩

end Filing

/-! ### Scanning -/

/-- The writes of a whole log. -/
def writesOf (log : List DurableEvent) : List TimelineEntry := visibleEntries (numberFrom 0 log)

theorem numbered_writesOf (log : List DurableEvent) : Numbered (writesOf log) := by
  rw [Numbered, writesOf, visibleEntries, pairwise_filterMap]
  refine List.Pairwise.imp ?_ (numberFrom_sorted 0 log)
  intro a b less x shown y shown'
  obtain ⟨block, -, rfl⟩ := Option.map_eq_some_iff.mp shown
  obtain ⟨block', -, rfl⟩ := Option.map_eq_some_iff.mp shown'
  exact less

theorem mem_writesOf (written : w ∈ writesOf log) :
    w.position = .event w.seq ∧ w.seq < log.length := by
  obtain ⟨stored, member, shown⟩ := mem_filterMap.mp written
  obtain ⟨block, -, rfl⟩ := Option.map_eq_some_iff.mp shown
  refine ⟨rfl, ?_⟩
  have found := (mem_numberFrom.mp member).2
  exact (List.getElem?_eq_some_iff.mp found).1

theorem visibleEntries_slice (log : List DurableEvent) (a b : Nat) :
    visibleEntries (slice log a b) = writesIn (writesOf log) a b := by
  rw [slice, writesOf, writesIn, visibleEntries, visibleEntries, filterMap_filter,
    filter_filterMap]
  congr 1
  funext stored
  -- the entry has the number of its event
  by_cases inside : a ≤ stored.seq ∧ stored.seq < b <;> cases timelineBlock stored <;>
    simp [Option.filter, TimelineEntry.seq, TimelinePosition.eventSeq, inside]

theorem projectEvents_slice (unforked : Unforked log) (a b : Nat) :
    projectEvents (slice log a b) =
      collect TimelineEntry.id TimelineEntry.update (writesIn (writesOf log) a b) := by
  rw [projectEvents_eq_collect, visibleEntries_slice]
  intro stored member
  have found := (mem_numberFrom.mp (mem_filter.mp member).1).2
  exact unforked _ (mem_of_getElem? found)

section Scan

variable {entries : List TimelineEntry} {size : ConversationBlock → Nat} {budget : PageBudget}
  {log : List DurableEvent} {beforeSeq : Option Nat}

/-- One round of the loop reads the batch that ends where the last one began. -/
theorem scanEvents_succ (fuel chunks : Nat) {stop : Nat}
    (entries : List TimelineEntry) (earliest : Option Nat) (ends : pageEnd log beforeSeq = stop)
    (positive : 0 < stop) (inside : stop ≤ log.length) :
    scanEvents size budget (numberFrom 0 log) (fuel + 1) chunks beforeSeq entries earliest =
      let start := stop - eventChunk
      let entries := prependEntries entries (projectEvents (slice log start stop))
      if pageBudgetReached size budget entries || !decide (0 < start) ||
          (eventChunkScanTarget ≤ chunks + 1 && !entries.isEmpty) then
        some ⟨entries, some start, decide (0 < start)⟩
      else
        scanEvents size budget (numberFrom 0 log) fuel (chunks + 1) (some start) entries
          (some start) := by
  have length := slice_length (a := stop - (eventChunk + 1)) inside
  obtain ⟨event, first⟩ := slice_eq_cons (a := stop - eventChunk) (by simp [eventChunk]; omega) inside
  have nonempty : (slice log (stop - (eventChunk + 1)) stop).isEmpty = false := by
    rw [isEmpty_eq_false_iff, ← length_pos_iff, length]
    omega
  -- one event more than a batch says that there are older ones
  have chunk : (if eventChunk < (slice log (stop - (eventChunk + 1)) stop).length then
      (slice log (stop - (eventChunk + 1)) stop).tail else
      slice log (stop - (eventChunk + 1)) stop) = slice log (stop - eventChunk) stop := by
    split
    · next more =>
      obtain ⟨event, full⟩ := slice_eq_cons (a := stop - (eventChunk + 1)) (by omega) inside
      rw [full, tail_cons, show stop - (eventChunk + 1) + 1 = stop - eventChunk by omega]
    · next few => rw [show stop - (eventChunk + 1) = stop - eventChunk by omega]
  have older : decide (eventChunk < (slice log (stop - (eventChunk + 1)) stop).length) =
      decide (0 < stop - eventChunk) := by
    rw [length, decide_eq_decide]
    omega
  rw [scanEvents, replayBeforeLimited_eq_slice, ends]
  simp [nonempty, chunk, first, head?_cons, Option.any_some, older, Bool.or_self]

/-- What the loop hands over to the page. -/
structure Scanned (log : List DurableEvent) (stop start : Nat) (scan : TimelineScan) : Prop where
  filed : Filed (writesOf log) stop start scan.entries
  unscanned : scan.hasUnscannedEvents = decide (0 < start)
  earliest : 0 < start → scan.earliestScannedSeq = some start
  progress : 0 < start → start < stop

/-- The loop ends, with the entries of the page read so far. -/
theorem scanEvents_scanned (unforked : Unforked log) (chunks : Nat) (earliest : Option Nat)
    {fuel stop stop' batches : Nat} (enough : stop' < fuel)
    (ends : pageEnd log beforeSeq = stop') (inside : stop' ≤ log.length)
    (filed : Filed (writesOf log) stop stop' entries) (read : ReadDownTo stop stop' batches) :
    ∃ scan start, scanEvents size budget (numberFrom 0 log) fuel chunks beforeSeq entries earliest =
      some scan ∧ Scanned log stop start scan := by
  induction fuel generalizing chunks stop' batches beforeSeq earliest entries with
  | zero => omega
  | succ fuel ih =>
    rcases Nat.eq_zero_or_pos stop' with rfl | positive
    · -- there was nothing left to read
      have empty : slice log (0 - (eventChunk + 1)) 0 = [] := slice_eq_nil (zero_le _)
      refine ⟨⟨entries, earliest, false⟩, 0, ?_, ?_⟩
      · rw [scanEvents, replayBeforeLimited_eq_slice, ends, empty]
        rfl
      · exact ⟨filed, rfl, fun none => absurd none (lt_irrefl 0),
          fun none => absurd none (lt_irrefl 0)⟩
    · have whole := read.whole
      have next := filed.prepend (numbered_writesOf log) read
      rw [← projectEvents_slice unforked] at next
      rw [scanEvents_succ fuel chunks entries earliest ends positive inside]
      dsimp only
      split
      · have shorter : stop' - eventChunk < stop := by
          have : 0 < eventChunk := by decide
          omega
        refine ⟨_, stop' - eventChunk, rfl, ⟨next, ?_, fun _ => ?_, fun _ => shorter⟩⟩
        all_goals dsimp only
      · next goesOn =>
        -- the loop goes on only if there are older events
        have more : 0 < stop' - eventChunk := by
          by_contra none
          simp [none] at goesOn
        have : 0 < eventChunk := by decide
        have read' : ReadDownTo stop (stop' - eventChunk) (batches + 1) :=
          ⟨by rw [← whole, mul_succ]; omega⟩
        have ends' : pageEnd log (some (stop' - eventChunk)) = stop' - eventChunk :=
          min_eq_left (by omega)
        exact ih _ _ (by omega) ends' (by omega) next read'

/-! ### One page -/

theorem le_keptEntries (bytes kept : Nat) (entries : List TimelineEntry) :
    kept ≤ keptEntries size budget bytes kept entries := by
  induction entries generalizing bytes kept with
  | nil => exact le_refl _
  | cons entry rest ih =>
    rw [keptEntries]
    split
    · exact le_refl _
    · exact (Nat.le_succ kept).trans (ih _ _)

variable (size)

/-- At least one entry is kept. -/
theorem keptEntries_pos (budget : PageBudget) (nonempty : entries ≠ []) :
    0 < keptEntries size budget 0 0 entries := by
  cases entries with
  | nil => exact absurd rfl nonempty
  | cons entry rest =>
    exact le_keptEntries (saturatingAdd 0 (size entry.block)) 1 rest

/-- In order, the entries from some place on are those with a number from there on. -/
theorem drop_eq_filter (sorted : entries.Pairwise fun a b => a.seq < b.seq) {n : Nat}
    (found : entries.drop n = x :: rest) :
    entries.drop n = entries.filter (x.seq ≤ ·.seq) := by
  have split := take_append_drop n entries
  rw [found] at split ⊢
  rw [← split] at sorted ⊢
  obtain ⟨-, later, across⟩ := pairwise_append.mp sorted
  have none : (entries.take n).filter (x.seq ≤ ·.seq) = [] := by
    apply filter_eq_nil_iff.mpr
    intro y member
    have := across y member x mem_cons_self
    simp
    omega
  have all : (x :: rest).filter (x.seq ≤ ·.seq) = x :: rest := by
    apply filter_eq_self.mpr
    intro y member
    rcases mem_cons.mp member with rfl | member
    · simp
    · have := (pairwise_cons.mp later).1 y member
      simp
      omega
  rw [filter_append, none, all, nil_append]

/-- Where the page that was asked for begins. -/
def ConversationTimelinePage.start (page : ConversationTimelinePage) : Nat :=
  page.olderCursor.elim 0 TimelinePosition.eventSeq

/-- What a page is: the blocks filed from its beginning to its end. -/
structure PageOf (log : List DurableEvent) (stop : Nat) (page : ConversationTimelinePage) :
    Prop where
  shows : ∃ shown, Filed (writesOf log) stop page.start shown ∧ page.items = shown.map (·.block)
  older : ∀ cursor, page.olderCursor = some cursor → cursor = .event page.start ∧ page.start < stop

/-- A page that begins with a filed entry. -/
theorem pageOf_first {stop start : Nat} (filed : Filed (writesOf log) stop start entries) {n : Nat}
    (found : entries.drop n = x :: rest) (hasOlder : Bool) :
    PageOf log stop ⟨(entries.drop n).map (·.block), some x.position, hasOlder⟩ := by
  have member : x ∈ entries := mem_of_mem_drop (found ▸ mem_cons_self)
  obtain ⟨above, below⟩ := filed.below member
  obtain ⟨v, opens, -, position, -⟩ := (filed.mem_iff x).mp member
  have event : x.position = .event x.seq := by
    rw [position, seq, position]
    exact (mem_writesOf opens.written).1
  constructor
  · refine ⟨entries.filter (x.seq ≤ ·.seq), filed.filter above, ?_⟩
    rw [← drop_eq_filter filed.sorted found]
  · intro cursor same
    cases same
    exact ⟨event, below⟩

/-- A page begins with one of the entries, or keeps them all. -/
theorem retainEntries_cases (budget : PageBudget) (scan : TimelineScan) :
    (∃ n x rest, scan.entries.drop n = x :: rest ∧
      retainEntries size budget scan = ⟨scan.entries.drop n, some x.position, true⟩) ∨
    retainEntries size budget scan =
      ⟨scan.entries, scan.earliestScannedSeq.map .event, scan.hasUnscannedEvents⟩ := by
  have first : ∀ n < scan.entries.length, ∃ x rest, scan.entries.drop n = x :: rest :=
    fun n inside => ⟨_, _, drop_eq_getElem_cons inside⟩
  have dropped : ∃ n, scan.entries.length - keptEntries size budget 0 0 scan.entries.reverse = n ∧
      (0 < n → n < scan.entries.length) := by
    refine ⟨_, rfl, fun some_dropped => ?_⟩
    have nonempty : scan.entries.reverse ≠ [] := by
      intro none
      rw [reverse_eq_nil_iff] at none
      simp [none] at some_dropped
    have kept := keptEntries_pos size budget nonempty
    omega
  obtain ⟨n, count, inside⟩ := dropped
  cases turn : turnStart (scan.entries.drop n) with
  | some index =>
    -- the page moves up to a user message
    obtain ⟨found, -⟩ := Option.filter_eq_some_iff.mp turn
    have bound := (findIdx?_eq_some_iff_getElem.mp found).1
    obtain ⟨x, rest, user⟩ := first (n + index) (by rw [length_drop] at bound; omega)
    refine Or.inl ⟨n + index, x, rest, user, ?_⟩
    simp [retainEntries, boundedSuffix, count, turn, drop_drop, user, head?_cons]
  | none =>
    rcases Nat.eq_zero_or_pos n with rfl | positive
    · right
      rw [drop_zero] at turn
      simp only [retainEntries, boundedSuffix, count, drop_zero, turn, lt_irrefl,
        decide_false, Bool.false_eq_true, if_false, Bool.false_or]
    · obtain ⟨x, rest, fits⟩ := first n (inside positive)
      refine Or.inl ⟨n, x, rest, fits, ?_⟩
      rw [fits] at turn
      simp [retainEntries, boundedSuffix, count, fits, turn, positive, head?_cons,
        Bool.true_or]

variable {size}

theorem eventPageBefore_pageOf (unforked : Unforked log) (beforeSeq : Option Nat) :
    ∃ page, eventPageBefore size budget (numberFrom 0 log) beforeSeq = some page ∧
      PageOf log (pageEnd log beforeSeq) page := by
  have inside : pageEnd log beforeSeq ≤ log.length := pageEnd_le beforeSeq
  have enough : pageEnd log beforeSeq < (numberFrom 0 log).length + 1 := by
    rw [numberFrom_length]
    omega
  have unread : ReadDownTo (pageEnd log beforeSeq) (pageEnd log beforeSeq) 0 := ⟨rfl⟩
  obtain ⟨scan, start, scans, scanned⟩ :=
    scanEvents_scanned unforked 0 none enough rfl inside (Filed.nil (le_refl _)) unread
  refine ⟨_, congrArg (Option.map _) scans, ?_⟩
  rcases retainEntries_cases size budget scan with
    ⟨n, x, rest, found, retained⟩ | retained
  · simp only [retained, if_true]
    exact pageOf_first scanned.filed found true
  · -- nothing had to go, so that the page begins where the scan ended
    simp only [retained, scanned.unscanned, decide_eq_true_eq]
    rcases Nat.eq_zero_or_pos start with rfl | positive
    · exact ⟨⟨scan.entries, scanned.filed, rfl⟩, fun cursor same => by cases same⟩
    · rw [if_pos positive, scanned.earliest positive]
      refine ⟨⟨scan.entries, scanned.filed, rfl⟩, fun cursor same => ?_⟩
      cases same
      exact ⟨rfl, scanned.progress positive⟩

end Scan

/-! ### The whole timeline -/

/-- The blocks of the whole log. -/
def timelineOf (log : List DurableEvent) : List TimelineEntry := projectEvents (numberFrom 0 log)

section Walk

variable {stop : Nat} {shown : List TimelineEntry} {log : List DurableEvent}

section

variable {pages : List ConversationTimelinePage} (unforked : Unforked log)

include unforked

theorem timelineOf_eq_collect :
    timelineOf log = collect TimelineEntry.id TimelineEntry.update (writesOf log) := by
  apply projectEvents_eq_collect
  intro stored member
  exact unforked _ (mem_of_getElem? (mem_numberFrom.mp member).2)

theorem timelineOf_sorted : Numbered (timelineOf log) := by
  rw [timelineOf_eq_collect unforked]
  exact numbered_collect (numbered_writesOf log)

/-- A block of the timeline is filed under its first write and is as the last one leaves it. -/
theorem mem_timelineOf :
    x ∈ timelineOf log ↔ ∃ v ∈ writesOf log, (∀ w ∈ writesOf log, w.id = v.id → v.seq ≤ w.seq) ∧
      x.position = v.position ∧ blockBefore (writesOf log) log.length v.id = some x.block := by
  have all : writesIn (writesOf log) 0 log.length = writesOf log := by
    apply filter_eq_self.mpr
    intro w written
    simp [(mem_writesOf written).2]
  rw [timelineOf_eq_collect unforked, ← all, mem_collect_iff_first (numbered_writesOf log) le_rfl
    fun _ _ _ below => below, all]
  constructor
  · rintro ⟨v, isFirst, rest⟩
    exact ⟨v, isFirst.written, fun w written equal =>
      isFirst.least w written equal (zero_le _) (mem_writesOf written).2, rest⟩
  · rintro ⟨v, written, earliest, rest⟩
    exact ⟨v, ⟨written, zero_le _, (mem_writesOf written).2, fun w inWrites equal _ _ =>
      earliest w inWrites equal⟩, rest⟩

omit unforked in
/-- Every block with a write has a first one. -/
theorem exists_first_write (written : w ∈ writesOf log) :
    ∃ v ∈ writesOf log, v.id = w.id ∧ (∀ u ∈ writesOf log, u.id = v.id → v.seq ≤ u.seq) ∧
      v.seq ≤ w.seq := by
  obtain ⟨first, -, -, isFirst, same⟩ :=
    exists_firstIn (numbered_writesOf log) written (zero_le _) (mem_writesOf written).2
  have least : ∀ u ∈ writesOf log, u.id = first.id → first.seq ≤ u.seq := fun u member equal =>
    isFirst.least u member equal (zero_le _) (mem_writesOf member).2
  exact ⟨first, isFirst.written, same, least, least w written same.symm⟩

/-! ### Whole pages -/

/-- One block begins before another. -/
def Begins (log : List DurableEvent) (first second : String) : Prop :=
  ∃ w ∈ writesOf log, w.id = first ∧ ∀ t ∈ writesOf log, t.id = second → w.seq < t.seq

/-- The page from `start` to `stop` cuts through no block. -/
structure PageWhole (log : List DurableEvent) (stop start : Nat) : Prop where
  /-- What is filed on the page has no event before it. -/
  unbegun : ∀ v, Opens (writesOf log) stop v → start ≤ v.seq →
    ∀ w ∈ writesOf log, w.id = v.id → start ≤ w.seq
  /-- No event after the page changes it. -/
  settled : ∀ v, Opens (writesOf log) stop v → start ≤ v.seq →
    blockBefore (writesOf log) stop v.id = blockBefore (writesOf log) log.length v.id
  /-- Blocks are filed in the order in which they begin. -/
  inOrder : ∀ u v, Opens (writesOf log) stop u → start ≤ u.seq → Opens (writesOf log) stop v →
    u.seq < v.seq → Begins log u.id v.id

/-- Blocks by the order in which they begin. -/
def BlockBegins (log : List DurableEvent) (a b : ConversationBlock) : Prop :=
  Begins log (blockId a) (blockId b)

instance (log : List DurableEvent) : Std.Irrefl (BlockBegins log) where
  irrefl a := by
    rintro ⟨w, written, same, before⟩
    exact absurd (before w written same) (lt_irrefl _)

instance (log : List DurableEvent) : Std.Antisymm (BlockBegins log) where
  antisymm a b := by
    rintro ⟨w, written, same, before⟩ ⟨w', written', same', before'⟩
    exact absurd (before w' written' same') (lt_asymm (before' w written same))

/-- The blocks of the timeline that begin between two places of the log. -/
def timelineBetween (log : List DurableEvent) (start stop : Nat) : List TimelineEntry :=
  (timelineOf log).filter fun x => start ≤ x.seq ∧ x.seq < stop

theorem timelineOf_begins : ((timelineOf log).map (·.block)).Pairwise (BlockBegins log) := by
  rw [pairwise_map]
  refine List.Pairwise.imp_of_mem ?_ (timelineOf_sorted unforked)
  intro x y xMember yMember less
  obtain ⟨v, written, -, position, block⟩ := (mem_timelineOf unforked).mp xMember
  obtain ⟨u, -, earliest, position', block'⟩ := (mem_timelineOf unforked).mp yMember
  refine ⟨v, written, (blockBefore_id block).symm, fun t inWrites same => ?_⟩
  have least := earliest t inWrites (same.trans (blockBefore_id block'))
  rw [seq, seq, position, position'] at less
  exact lt_of_lt_of_le less least

/-- A page that cuts through no block shows the blocks that begin on it. -/
theorem PageWhole.shows {start : Nat} (whole : PageWhole log stop start)
    (filed : Filed (writesOf log) stop start shown) :
    shown.map (·.block) = (timelineBetween log start stop).map (·.block) := by
  apply List.Pairwise.eq_of_mem_iff (r := BlockBegins log)
  · rw [pairwise_map]
    refine List.Pairwise.imp_of_mem ?_ filed.sorted
    intro x y xMember yMember less
    obtain ⟨u, opens, above, position, block⟩ := (filed.mem_iff x).mp xMember
    obtain ⟨v, opens', -, position', block'⟩ := (filed.mem_iff y).mp yMember
    rw [seq, seq, position, position'] at less
    rw [BlockBegins, blockBefore_id block, blockBefore_id block']
    exact whole.inOrder u v opens above opens' less
  · exact (timelineOf_begins unforked).sublist (filter_sublist.map _)
  · intro block
    simp only [mem_map, timelineBetween, mem_filter, decide_eq_true_eq]
    constructor
    · rintro ⟨x, member, rfl⟩
      obtain ⟨v, opens, above, -, last⟩ := (filed.mem_iff x).mp member
      obtain ⟨first, written, same, earliest, least⟩ := exists_first_write opens.written
      rw [whole.settled v opens above, ← same] at last
      refine ⟨⟨first.position, x.block⟩, ⟨(mem_timelineOf unforked).mpr
        ⟨first, written, earliest, rfl, last⟩, ?_, ?_⟩, rfl⟩
      · exact whole.unbegun v opens above first written same
      · exact lt_of_le_of_lt least opens.below
    · rintro ⟨x, ⟨member, above, below⟩, rfl⟩
      obtain ⟨first, written, earliest, position, final⟩ := (mem_timelineOf unforked).mp member
      rw [seq, position] at above below
      obtain ⟨v, opens, same, -⟩ := exists_opens written below
      -- the first write is on the page, so that the one it is filed under is too
      have begun : start ≤ v.seq := le_trans above (earliest v opens.written same)
      rw [← same, ← whole.settled v opens begun] at final
      exact ⟨⟨v.position, x.block⟩, (filed.mem_iff _).mpr ⟨v, opens, begun, rfl, final⟩, rfl⟩

omit unforked in
/-- Two entries on a page stand in the order of their numbers. -/
theorem begins_of_pairwise (numbered : Numbered shown)
    (begins : (shown.map (·.block)).Pairwise (BlockBegins log)) {x y : TimelineEntry}
    (xMember : x ∈ shown) (yMember : y ∈ shown) (less : x.seq < y.seq) :
    BlockBegins log x.block y.block := by
  refine List.Pairwise.forall_of_forall_of_flip
    (R := fun a b => a.seq < b.seq → BlockBegins log a.block b.block) ?_ ?_ ?_ xMember yMember less
  · exact fun _ _ same => absurd same (lt_irrefl _)
  · exact (pairwise_map.mp begins).imp fun {a b} begins (_ : a.seq < b.seq) => begins
  · exact List.Pairwise.imp (fun {a b} first last => absurd last (lt_asymm first)) numbered

/-- A page whose blocks go on with the timeline cuts through none. -/
theorem pageWhole_of_continues {start : Nat} (filed : Filed (writesOf log) stop start shown)
    (goesOn : shown.map (·.block) <+: (timelineBetween log start log.length).map (·.block)) :
    PageWhole log stop start := by
  have entry : ∀ v, Opens (writesOf log) stop v → start ≤ v.seq → ∃ x ∈ shown,
      x.position = v.position ∧ blockBefore (writesOf log) stop v.id = some x.block := by
    intro v opens above
    obtain ⟨block, last⟩ := exists_blockBefore opens.written opens.below
    exact ⟨⟨v.position, block⟩, (filed.mem_iff _).mpr ⟨v, opens, above, rfl, last⟩, rfl, last⟩
  have final : ∀ v, Opens (writesOf log) stop v → start ≤ v.seq →
      (∀ w ∈ writesOf log, w.id = v.id → start ≤ w.seq) ∧
      blockBefore (writesOf log) stop v.id = blockBefore (writesOf log) log.length v.id := by
    intro v opens above
    obtain ⟨x, member, -, last⟩ := entry v opens above
    obtain ⟨y, inTimeline, same⟩ :=
      mem_map.mp (goesOn.subset (mem_map_of_mem member))
    simp only [timelineBetween, mem_filter, decide_eq_true_eq] at inTimeline
    obtain ⟨first, -, earliest, position, whole⟩ := (mem_timelineOf unforked).mp inTimeline.1
    have sameId : first.id = v.id := by
      rw [← blockBefore_id whole, ← blockBefore_id last, same]
    refine ⟨fun w written equal => ?_, ?_⟩
    · have begun := inTimeline.2.1
      rw [seq, position] at begun
      exact le_trans begun (earliest w written (equal.trans sameId.symm))
    · rw [last, ← sameId, whole, same]
  have begins : (shown.map (·.block)).Pairwise (BlockBegins log) :=
    (timelineOf_begins unforked).sublist
      (goesOn.sublist.trans (filter_sublist.map _))
  refine ⟨fun v opens above => (final v opens above).1,
    fun v opens above => (final v opens above).2, ?_⟩
  intro u v opens above opens' less
  obtain ⟨x, xMember, xPosition, xBlock⟩ := entry u opens above
  obtain ⟨y, yMember, yPosition, yBlock⟩ :=
    entry v opens' (le_trans above (le_of_lt less))
  have xBelow : x.seq < y.seq := by
    rw [seq, seq, xPosition, yPosition]
    exact less
  have ordered := begins_of_pairwise filed.sorted begins xMember yMember xBelow
  rw [BlockBegins, blockBefore_id xBlock, blockBefore_id yBlock] at ordered
  exact ordered

/-! ### The walk -/

/-- A walk through the pages before `stop`, with the oldest page first. -/
inductive PagesTo (log : List DurableEvent) : Nat → List ConversationTimelinePage → Prop
  | oldest {stop : Nat} {page : ConversationTimelinePage} (isPage : PageOf log stop page)
      (ends : page.start = 0) : PagesTo log stop [page]
  | older {stop : Nat} {page : ConversationTimelinePage} {pages : List ConversationTimelinePage}
      (isPage : PageOf log stop page) (progress : page.start < stop)
      (before : PagesTo log page.start pages) : PagesTo log stop (pages ++ [page])

/-- The walk ends: each page begins before the last one. -/
theorem pagesBefore_pagesTo {size : ConversationBlock → Nat} {budget : PageBudget} (fuel : Nat)
    (beforeSeq : Option Nat) (enough : pageEnd log beforeSeq < fuel) :
    ∃ pages, pagesBefore size budget (numberFrom 0 log) fuel (beforeSeq.map .event) = some pages ∧
      PagesTo log (pageEnd log beforeSeq) pages := by
  induction fuel generalizing beforeSeq with
  | zero => exact absurd enough (not_lt_zero _)
  | succ fuel ih =>
    obtain ⟨page, found, isPage⟩ : ∃ page,
        eventPageBefore size budget (numberFrom 0 log) beforeSeq = some page ∧
          PageOf log (pageEnd log beforeSeq) page := eventPageBefore_pageOf unforked beforeSeq
    have asked : pageBefore size budget (numberFrom 0 log) (beforeSeq.map .event) =
        some (.ok page) := by
      cases beforeSeq <;> simp [pageBefore, found]
    cases cursor : page.olderCursor with
    | none =>
      refine ⟨[page], by simp [pagesBefore, asked, cursor, Except.toOption], .oldest isPage ?_⟩
      rw [ConversationTimelinePage.start, cursor]
      rfl
    | some next =>
      obtain ⟨event, progress⟩ := isPage.older next cursor
      have ends : pageEnd log (some page.start) = page.start :=
        min_eq_left (le_trans (le_of_lt progress) (pageEnd_le beforeSeq))
      obtain ⟨pages, walked, before⟩ := ih (some page.start) (by rw [ends]; omega)
      rw [ends] at before
      refine ⟨pages ++ [page], ?_, .older isPage progress before⟩
      rw [event] at cursor
      rw [Option.map_some] at walked
      simp [pagesBefore, asked, cursor, walked, Except.toOption]

/-- Between the cursors of a walk, the oldest first, no page cuts through a block. -/
def EveryPageWhole (log : List DurableEvent) (stop : Nat) : List Nat → Prop
  | [] => True
  | start :: newer => PageWhole log (newer.head?.getD stop) start ∧ EveryPageWhole log stop newer

omit unforked in
theorem everyPageWhole_concat {start : Nat} {cursors : List Nat} :
    EveryPageWhole log stop (cursors ++ [start]) ↔
      EveryPageWhole log start cursors ∧ PageWhole log stop start := by
  induction cursors with
  | nil => simp [EveryPageWhole]
  | cons first rest ih =>
    have next : (rest ++ [start]).head?.getD stop = rest.head?.getD start := by
      cases rest <;> rfl
    rw [cons_append, EveryPageWhole, EveryPageWhole, next, ih, and_assoc]

theorem timelineBetween_append {start : Nat} (ordered : start ≤ stop) :
    timelineBetween log 0 stop = timelineBetween log 0 start ++ timelineBetween log start stop := by
  rw [timelineBetween, (timelineOf_sorted unforked).filter_eq_append _ start]
  congr 1
  · apply filter_congr
    intro x _
    simp
    omega
  · apply filter_congr
    intro x _
    simp [Bool.and_comm]

theorem timelineBetween_all : timelineBetween log 0 log.length = timelineOf log := by
  apply filter_eq_self.mpr
  intro x member
  obtain ⟨v, written, -, position, -⟩ := (mem_timelineOf unforked).mp member
  have below := (mem_writesOf written).2
  rw [seq] at below
  simp [seq, position, below]

variable (pages)

/-- What a walk shows. -/
def shownBlocks : List ConversationBlock :=
  pages.flatMap (·.items)

omit unforked in
theorem shownBlocks_concat (page : ConversationTimelinePage) :
    shownBlocks (pages ++ [page]) = shownBlocks pages ++ page.items := by
  simp [shownBlocks]

variable {pages}

/-- Pages that cut through no block show what begins before the walk's cursor. -/
theorem PagesTo.shows (walk : PagesTo log stop pages)
    (whole : EveryPageWhole log stop (pages.map (·.start))) :
    shownBlocks pages = (timelineBetween log 0 stop).map (·.block) := by
  induction walk with
  | @oldest stop page isPage ends =>
    obtain ⟨shown, filed, items⟩ := isPage.shows
    have pageWhole : PageWhole log stop page.start := whole.1
    have same := pageWhole.shows unforked filed
    rw [ends] at same
    rw [shownBlocks, flatMap_singleton, items, same]
  | @older stop page pages isPage progress _ ih =>
    obtain ⟨shown, filed, items⟩ := isPage.shows
    rw [map_append, map_singleton, everyPageWhole_concat] at whole
    rw [shownBlocks_concat, ih whole.1, items, whole.2.shows unforked filed,
      timelineBetween_append unforked (le_of_lt progress), map_append]

/-- Pages that show the timeline from its beginning cut through no block. -/
theorem PagesTo.whole (walk : PagesTo log stop pages)
    (inside : stop ≤ log.length) (shows : shownBlocks pages <+: (timelineOf log).map (·.block)) :
    EveryPageWhole log stop (pages.map (·.start)) := by
  rw [← timelineBetween_all unforked] at shows
  induction walk with
  | @oldest stop page isPage ends =>
    obtain ⟨shown, filed, items⟩ := isPage.shows
    refine ⟨pageWhole_of_continues unforked filed ?_, trivial⟩
    rwa [shownBlocks, flatMap_singleton, items, ← ends] at shows
  | @older stop page pages isPage progress before ih =>
    obtain ⟨shown, filed, items⟩ := isPage.shows
    have below : page.start ≤ log.length := le_trans (le_of_lt progress) inside
    rw [shownBlocks_concat] at shows
    have olderWhole := ih below ((prefix_append _ _).trans shows)
    -- the older pages show what begins before this one, so that its own items come next
    rw [before.shows unforked olderWhole, timelineBetween_append unforked below, map_append,
      prefix_append_right_inj, items] at shows
    rw [map_append, map_singleton]
    exact everyPageWhole_concat.mpr ⟨olderWhole, pageWhole_of_continues unforked filed shows⟩

end

/-- Following the older cursors from the newest page ends, and the pages put together are the
projection of the whole log if and only if none of them cuts through a block. -/
theorem pages_add_up_iff_whole (size : ConversationBlock → Nat) (budget : PageBudget)
    (log : List DurableEvent) (unforked : Unforked log) :
    ∃ pages, pagesBefore size budget (numberFrom 0 log) (log.length + 1) none = some pages ∧
      (pages.flatMap (·.items) = (projectEvents (numberFrom 0 log)).map (·.block) ↔
        EveryPageWhole log log.length (pages.map (·.start))) := by
  obtain ⟨pages, walked, walk⟩ : ∃ pages,
      pagesBefore size budget (numberFrom 0 log) (log.length + 1) none = some pages ∧
        PagesTo log log.length pages :=
    pagesBefore_pagesTo unforked (log.length + 1) none (lt_succ_self _)
  refine ⟨pages, walked, fun same => ?_, fun whole => ?_⟩
  · exact walk.whole unforked (le_refl _) (same ▸ prefix_rfl)
  · rw [← timelineOf, ← timelineBetween_all unforked]
    exact walk.shows unforked whole

end Walk

/-- A turn with two tool calls that overlap. -/
def overlappingCalls : List DurableEvent :=
  [.userMessage "m" "hi" [] none,
    .toolCallRequested "a" "read" (.object []) none,
    .toolCallRequested "b" "read" (.object []) none,
    .toolCallCompleted "b" "read" ⟨"of b", false, none, [], none⟩ "" none,
    .toolCallCompleted "a" "read" ⟨"of a", false, none, [], none⟩ "" none].map
  (⟨"event", "session", some "turn", ⟨0⟩, ·⟩)

/-- The same turn with one call after the other. -/
def callsInTurn : List DurableEvent :=
  [.userMessage "m" "hi" [] none,
    .toolCallRequested "a" "read" (.object []) none,
    .toolCallCompleted "a" "read" ⟨"of a", false, none, [], none⟩ "" none,
    .toolCallRequested "b" "read" (.object []) none,
    .toolCallCompleted "b" "read" ⟨"of b", false, none, [], none⟩ "" none].map
  (⟨"event", "session", some "turn", ⟨0⟩, ·⟩)

instance (log : List DurableEvent) : Decidable (Unforked log) :=
  inferInstanceAs (Decidable (∀ event ∈ log, event.payload.isSessionForked = false))

/-- With a page for each block, the result of the first call is on no page: it comes after the
second call has begun. -/
theorem overlapping_call_left_unfinished :
    Unforked overlappingCalls ∧
    ((pagesBefore (fun _ => 1) ⟨1, 1000⟩ (numberFrom 0 overlappingCalls) 6 none).map
      (·.flatMap (·.items))) ≠
        some ((projectEvents (numberFrom 0 overlappingCalls)).map (·.block)) := by
  decide +kernel

theorem calls_in_turn_add_up :
    ∃ pages, pagesBefore (fun _ => 1) ⟨1, 1000⟩ (numberFrom 0 callsInTurn) 6 none = some pages ∧
      pages.length = 3 ∧
      pages.flatMap (·.items) = (projectEvents (numberFrom 0 callsInTurn)).map (·.block) ∧
      EveryPageWhole callsInTurn 5 (pages.map (·.start)) := by
  obtain ⟨pages, walked, whole⟩ :=
    pages_add_up_iff_whole (fun _ => 1) ⟨1, 1000⟩ callsInTurn (by decide)
  have shown : (pagesBefore (fun _ => 1) ⟨1, 1000⟩ (numberFrom 0 callsInTurn) 6 none).map
      (fun pages => (pages.length, pages.flatMap (·.items))) =
        some (3, (projectEvents (numberFrom 0 callsInTurn)).map (·.block)) := by
    decide +kernel
  have fuel : callsInTurn.length + 1 = 6 := rfl
  rw [fuel] at walked
  rw [walked, Option.map_some, Option.some.injEq, Prod.mk.injEq] at shown
  exact ⟨pages, walked, shown.1, shown.2, whole.mp shown.2⟩

end Astrcode
