import Astrcode.Core.Primitives
import Mathlib.Data.List.Infix

/-!
# Streamed answers

The parts of `astrcode-ai` that every provider shares. Text arrives in fragments, which some
providers send as growing snapshots of the whole (`TextDeltaAccumulator`). A text is the list of
its characters.
-/
namespace Astrcode

/-! ### Text deltas -/

/-- Takes fragments in either format and tells what is new in them. -/
structure TextDeltaAccumulator where
  accumulated : List Char := []
  /-- A fragment was seen that is no snapshot: from then on nothing is compared. -/
  incrementalConfirmed : Bool := false

namespace TextDeltaAccumulator

/-- The delta to send on, and the state after the fragment. -/
def push (state : TextDeltaAccumulator) (fragment : List Char) :
    Option (List Char) × TextDeltaAccumulator :=
  if fragment = [] then (none, state)
  else if state.accumulated = [] ∨ state.incrementalConfirmed = true then
    (some fragment, { state with accumulated := state.accumulated ++ fragment })
  else if state.accumulated <+: fragment then
    if fragment.length ≤ state.accumulated.length then (none, state)
    else (some (fragment.drop state.accumulated.length), { state with accumulated := fragment })
  else if fragment <+: state.accumulated then (none, state)
  else (some fragment, ⟨state.accumulated ++ fragment, true⟩)

/-- The deltas that fragments give, one after the other. -/
def deltas (state : TextDeltaAccumulator) : List (List Char) → List (List Char)
  | [] => []
  | fragment :: rest =>
    let (delta, state) := state.push fragment
    delta.toList ++ state.deltas rest

end TextDeltaAccumulator

end Astrcode
