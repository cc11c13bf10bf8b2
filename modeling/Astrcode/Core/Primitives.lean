import Mathlib.Algebra.Group.Nat.Defs
import Mathlib.Data.List.Basic

/-!
# Standard-library primitives

The parts of the Rust standard library the modelled crates rest on: `str::trim`
with its Unicode notion of white space, cutting text into lines and words, and
checked `u64` arithmetic. Sequence numbers and token counts are naturals below
`u64Limit`; only the operations that check for overflow mention the bound.
-/
namespace Astrcode

/-! ### Text -/

/-- Unicode `White_Space`, which `char::is_whitespace` tests. -/
def isWhitespace (c : Char) : Bool :=
  let n := c.toNat
  (9 ≤ n && n ≤ 13) || n = 0x20 || n = 0x85 || n = 0xA0 || n = 0x1680 ||
    (0x2000 ≤ n && n ≤ 0x200A) || n = 0x2028 || n = 0x2029 || n = 0x202F || n = 0x205F ||
    n = 0x3000

def trimChars (cs : List Char) : List Char :=
  ((cs.dropWhile isWhitespace).reverse.dropWhile isWhitespace).reverse

def trim (s : String) : String := String.ofList (trimChars s.toList)

/-- `s.trim().is_empty()`. -/
def isBlank (s : String) : Bool := (trimChars s.toList).isEmpty

/-- Text that starts and ends with visible characters is left alone by `trim`. -/
theorem trimChars_eq_self (first last : Char) (body : List Char)
    (visibleFirst : isWhitespace first = false) (visibleLast : isWhitespace last = false) :
    trimChars (first :: body ++ [last]) = first :: body ++ [last] := by
  simp [trimChars, visibleFirst, visibleLast]

/-- `str::strip_prefix`. -/
def stripPrefix (start text : List Char) : Option (List Char) :=
  if start.isPrefixOf text then some (text.drop start.length) else none

/-- `str::lines`, inside the line `current`. Only a line that is ended loses a final carriage
return. -/
@[simp] def linesFrom (current : List Char) : List Char → List (List Char)
  | [] => if current.isEmpty then [] else [current]
  | c :: cs =>
    if c = '\n' then
      (if current.getLast? = some '\r' then current.dropLast else current) :: linesFrom [] cs
    else linesFrom (current ++ [c]) cs

def lines (text : String) : List (List Char) := linesFrom [] text.toList

/-- `str::rsplit_once`: cuts at the last place the separator occurs. -/
def rsplitOnce (separator : List Char) : List Char → Option (List Char × List Char)
  | [] => none
  | c :: cs =>
    match rsplitOnce separator cs with
    | some (front, back) => some (c :: front, back)
    | none => (stripPrefix separator (c :: cs)).map fun back => ([], back)

/-- The first of `str::split_whitespace`. -/
def firstWord (cs : List Char) : Option (List Char) :=
  match (cs.dropWhile isWhitespace).takeWhile (!isWhitespace ·) with
  | [] => none
  | word => some word

/-! ### `u64` -/

/-- One past `u64::MAX`. -/
def u64Limit : Nat := 2 ^ 64

def u64Max : Nat := u64Limit - 1

/-- `u64::checked_add`. -/
def checkedAdd (a b : Nat) : Option Nat := if a + b < u64Limit then some (a + b) else none

theorem checkedAdd_eq_some {a b c : Nat} :
    checkedAdd a b = some c ↔ a + b < u64Limit ∧ c = a + b := by
  unfold checkedAdd
  split
  · next room => simp [room, eq_comm]
  · next full => simp [full]

@[simp] theorem checkedAdd_of_lt {a b : Nat} (room : a + b < u64Limit) :
    checkedAdd a b = some (a + b) := by
  simp [checkedAdd, room]

/-- `str::parse::<usize>`: digits after at most one plus sign. -/
def parseUsize (text : List Char) : Option Nat :=
  let digits := (stripPrefix ['+'] text).getD text
  if digits.isEmpty || digits.any (!·.isDigit) then none
  else
    let value := digits.foldl (fun acc c => acc * 10 + (c.toNat - '0'.toNat)) 0
    if value < u64Limit then some value else none

end Astrcode
