import Astrcode.Core.Event

/-!
# Paging over events in memory

`in_memory.rs` and the default of the `EventReader` trait: the newest events below a
cursor, cut from a list that is already in memory.
-/
namespace Astrcode

/-- `slice::partition_point` on a list whose elements satisfy `p` up to some index. -/
def partitionPoint {α : Type} (xs : List α) (p : α → Bool) : Nat := (xs.takeWhile p).length

/-- The slice the in-memory store returns. -/
@[simp] def InMemory.replayBeforeLimited (events : List StoredEvent) (beforeSeq : Option Nat)
    (maxEvents : Nat) : List StoredEvent :=
  let stop := match beforeSeq with
    | some before => partitionPoint events fun event : StoredEvent => event.seq < before
    | none => events.length
  -- `saturating_sub`: fewer events than asked for start at the first
  (events.take stop).drop (stop - maxEvents)

/-- The default of the trait: keep what lies below the cursor, then its end. -/
@[simp] def EventReader.replayBeforeLimited (events : List StoredEvent) (beforeSeq : Option Nat)
    (maxEvents : Nat) : List StoredEvent :=
  let kept := match beforeSeq with
    | some before => events.filter fun event : StoredEvent => event.seq < before
    | none => events
  kept.drop (kept.length - maxEvents)

end Astrcode
