import Astrcode.Core.Event
import Mathlib.Data.List.Dedup
import Mathlib.Data.List.Sort

/-!
# Which tools a session may use

`SessionToolSelection` of `astrcode-core/src/tool/selection.rs`. A selection is either
everything except some names, or some names only. Lists of names are kept as ordered
sets (`BTreeSet`) wherever the code computes them.
-/
namespace Astrcode

/-- The names in order, each once. -/
def orderedNames (names : List String) : List String := (names.insertionSort (· ≤ ·)).dedup

@[simp] theorem mem_orderedNames {names : List String} {name : String} :
    name ∈ orderedNames names ↔ name ∈ names := by
  simp [orderedNames, List.mem_dedup, List.mem_insertionSort]

namespace SessionToolSelection

def allows : SessionToolSelection → String → Bool
  | .all except, toolName => !except.any (· = toolName)
  | .only names, toolName => names.any (· = toolName)

def normalized : SessionToolSelection → SessionToolSelection
  | .all except => .all (orderedNames except)
  | .only names => .only (orderedNames names)

@[simp] def intersection : SessionToolSelection → SessionToolSelection → SessionToolSelection
  | .all current, .all other => .all (orderedNames (current ++ other))
  | .all except, .only names | .only names, .all except =>
    .only (orderedNames (names.filter fun name => !except.contains name))
  | .only current, .only other =>
    .only (orderedNames (current.filter fun name => other.contains name))

def restrict (parent : Option SessionToolSelection) (requested : SessionToolSelection) :
    SessionToolSelection :=
  match parent with
  | none => requested.normalized
  | some parent => parent.intersection requested

def intersect : Option SessionToolSelection → Option SessionToolSelection →
    Option SessionToolSelection
  | none, none => none
  | some parent, none => some parent.normalized
  | parent, some requested => some (restrict parent requested)

/-! ### What a selection allows -/

@[simp] theorem allows_all (except : List String) (name : String) :
    (all except).allows name = true ↔ name ∉ except := by
  simp only [allows, Bool.not_eq_true', List.any_eq_false, decide_eq_true_eq]
  exact ⟨fun other member => other name member rfl, fun absent x member same => absent (same ▸ member)⟩

@[simp] theorem allows_only (names : List String) (name : String) :
    (only names).allows name = true ↔ name ∈ names := by
  simp [allows]

/-- The intersection allows what both allow. -/
@[simp] theorem allows_intersection (a b : SessionToolSelection) (name : String) :
    (a.intersection b).allows name = (a.allows name && b.allows name) := by
  rw [Bool.eq_iff_iff, Bool.and_eq_true]
  cases a with
  | all except =>
    cases b with
    | all other => simp
    | only names => simp [and_comm]
  | only names =>
    cases b with
    | all | only => simp

end SessionToolSelection

end Astrcode
