import Mathlib.Data.List.Destutter
import Mathlib.Data.List.DropRight
import Mathlib.Data.List.Sort

/-!
# Unix paths as text

A path is the text it is written as, and a list of components where it is compared.
Empty segments and single dots between slashes make no component, so different texts
can be equal as paths; two dots stay a component of their own, since only a file system
can say where they lead. Taking a prefix off a path gives text again: what is left of
the spelling, without the slashes and dots at its ends.
-/
namespace Astrcode.Library

abbrev PathText := List Char

inductive PathComponent where
  | rootDir
  | curDir
  | parentDir
  | normal (name : List Char)
  deriving DecidableEq

def segments (path : PathText) : List (List Char) := path.splitOn '/'

/-- The component a segment behind the start of a path stands for, if any. -/
def segmentComponent (segment : List Char) : Option PathComponent :=
  if segment = [] ∨ segment = ['.'] then none
  else if segment = ['.', '.'] then some .parentDir
  else some (.normal segment)

variable (path : PathText)

def isAbsolute : Bool := path.head? = some '/'

/-- A dot counts as a component only at the very start of a relative path. -/
def startsWithDot : Bool := (segments path).head? = some ['.']

def components : List PathComponent :=
  let body := (segments path).filterMap segmentComponent
  if isAbsolute path then .rootDir :: body
  else if startsWithDot path then .curDir :: body
  else body

/-! ### Spelling -/

def joinSegments (segments : List (List Char)) : PathText := ['/'].intercalate segments

/-- Without the segments at the end that make no component. -/
def trimEnd (segments : List (List Char)) : List (List Char) :=
  segments.rdropWhile fun segment => (segmentComponent segment).isNone

def trimBoth (segments : List (List Char)) : List (List Char) :=
  trimEnd (segments.dropWhile fun segment => (segmentComponent segment).isNone)

/-- What is left of the segments behind the given components. -/
def stripSegments : List (List Char) → List PathComponent → Option (List (List Char))
  | rest, [] => some rest
  | [], _ :: _ => none
  | segment :: rest, first :: others =>
    match segmentComponent segment with
    | none => stripSegments rest (first :: others)
    | some component => if component = first then stripSegments rest others else none

/-- The path without slashes and dots at its end. -/
def trimPathEnd : PathText :=
  if isAbsolute path then '/' :: joinSegments (trimEnd (segments path).tail)
  else if startsWithDot path then joinSegments (['.'] :: trimEnd (segments path).tail)
  else joinSegments (trimEnd (segments path))

/-- The spelling of what follows `base`, if the path starts with the components of `base`. -/
def stripPathPrefix (base : PathText) : Option PathText :=
  match components base with
  | [] => some (trimPathEnd path)
  | first :: others =>
    let spell := fun rest => joinSegments (trimBoth rest)
    if isAbsolute path then
      if first = .rootDir then (stripSegments (segments path) others).map spell else none
    else if startsWithDot path then
      if first = .curDir then (stripSegments (segments path) others).map spell else none
    else (stripSegments (segments path) (first :: others)).map spell

/-- An absolute path replaces the base. -/
def joinPath (base path : PathText) : PathText :=
  if isAbsolute path then path
  else if base = [] ∨ base.getLast? = some '/' then base ++ path
  else base ++ '/' :: path

/-- The path without its last component. -/
def parentPath : Option PathText :=
  let body := if isAbsolute path || startsWithDot path then (segments path).tail else segments path
  match trimEnd body with
  | [] => if startsWithDot path then some [] else none
  | last :: others =>
    let front := trimEnd (last :: others).dropLast
    if isAbsolute path then some ('/' :: joinSegments front)
    else if startsWithDot path then some (joinSegments (['.'] :: front))
    else some (joinSegments front)

/-- The path and its ancestors. A parent has fewer components, so their number is enough. -/
def ancestorsFrom : Nat → PathText → List PathText
  | 0, path => [path]
  | fuel + 1, path =>
    match parentPath path with
    | none => [path]
    | some parent => path :: ancestorsFrom fuel parent

def ancestors (path : PathText) : List PathText := ancestorsFrom (components path).length path

/-! ### Comparing paths -/

/-- The file a path names as far as text can tell: dots are dropped, and two dots take back
the component before them, but never the root. -/
def resolveStep (resolved : List PathComponent) : PathComponent → List PathComponent
  | .curDir => resolved
  | .parentDir =>
    match resolved.getLast? with
    | some (.normal _) => resolved.dropLast
    | _ => resolved
  | component => resolved ++ [component]

def normalizeComponents (parts : List PathComponent) : List PathComponent :=
  parts.foldl resolveStep []

def startsWithPath (path base : List PathComponent) : Bool := base.isPrefixOf path

def PathComponent.rank : PathComponent → Nat
  | .rootDir => 0
  | .curDir => 1
  | .parentDir => 2
  | .normal _ => 3

def charsLe : List Char → List Char → Bool
  | [], _ => true
  | _ :: _, [] => false
  | c :: cs, d :: ds => c < d || (c = d && charsLe cs ds)

def PathComponent.le : PathComponent → PathComponent → Bool
  | .normal a, .normal b => charsLe a b
  | a, b => a.rank ≤ b.rank

def componentsLe : List PathComponent → List PathComponent → Bool
  | [], _ => true
  | _ :: _, [] => false
  | a :: as, b :: bs => if a = b then componentsLe as bs else a.le b

/-- Sorted by components, and of spellings of one path the first. -/
def sortPaths (paths : List PathText) : List PathText :=
  (paths.insertionSort fun a b => componentsLe (components a) (components b) = true).destutter
    fun a b => components a ≠ components b

end Astrcode.Library
