import Mathlib.Data.List.Basic

/-!
# Glob patterns

The part of the pattern language of a glob library that a program can rely on from its
documentation alone: literal characters, `*` for any text, slashes included, a leading
`**/` for any directory above, and a trailing `/**` for whatever lies below. How a
library compiles its patterns is not looked at; an engine documents a list of patterns
when it compiles each of them and matches as this reading says.
-/
namespace Astrcode.Library

variable {patterns : List SimpleGlob}

inductive GlobPart where
  | literal (c : Char)
  | star
  deriving DecidableEq

structure SimpleGlob where
  anyDepth : Bool
  body : List GlobPart
  below : Bool
  deriving DecidableEq

def GlobPart.char : GlobPart → Char
  | literal c => c
  | star => '*'

def SimpleGlob.text (pattern : SimpleGlob) : List Char :=
  (if pattern.anyDepth then ['*', '*', '/'] else []) ++ pattern.body.map GlobPart.char ++
    (if pattern.below then ['/', '*', '*'] else [])

/-! ### What a pattern matches -/

/-- All ways to cut a text in two. -/
def cuts (text : List Char) : List (List Char × List Char) := text.inits.zip text.tails

def bodyMatches : List GlobPart → List Char → Bool
  | [], text => text.isEmpty
  | .literal _ :: _, [] => false
  | .literal c :: parts, d :: text => c = d && bodyMatches parts text
  | .star :: parts, text => text.tails.any (bodyMatches parts)

/-- The text before is empty or ends with a slash. -/
def atSegment (before : List Char) : Bool := before.isEmpty || before.getLast? = some '/'

def SimpleGlob.matches (pattern : SimpleGlob) (text : List Char) : Bool :=
  (cuts text).any fun (before, rest) =>
    (if pattern.anyDepth then atSegment before else before.isEmpty) &&
      (cuts rest).any fun (middle, after) =>
        bodyMatches pattern.body middle &&
          (if pattern.below then after.head? = some '/' else after.isEmpty)

/-! ### Engines -/

structure GlobEngine where
  Glob : Type
  compile : List Char → Option Glob
  isMatch : Glob → List Char → Bool

namespace GlobEngine

variable (engine : GlobEngine)

/-- A set of patterns, unless one of them does not compile. -/
def compileAll (patterns : List (List Char)) : Option (List engine.Glob) :=
  patterns.mapM engine.compile

def anyMatch (globs : List engine.Glob) (text : List Char) : Bool :=
  globs.any (engine.isMatch · text)

/-- The engine treats the given patterns as documented. -/
def Documents (patterns : List SimpleGlob) : Prop :=
  ∀ pattern ∈ patterns, ∃ glob, engine.compile pattern.text = some glob ∧
    ∀ text, engine.isMatch glob text = pattern.matches text

variable {engine}

/-- A documented set compiles, and matches what one of its patterns matches. -/
theorem Documents.compileAll (documents : engine.Documents patterns) :
    ∃ globs, engine.compileAll (patterns.map SimpleGlob.text) = some globs ∧
      ∀ text, engine.anyMatch globs text = patterns.any (·.matches text) := by
  induction patterns with
  | nil => exact ⟨[], rfl, fun _ => rfl⟩
  | cons pattern patterns ih =>
    obtain ⟨glob, compiled, same⟩ := documents pattern List.mem_cons_self
    obtain ⟨globs, others, rest⟩ := ih (List.forall_mem_cons.mp documents).2
    refine ⟨glob :: globs, ?_, fun text => ?_⟩
    · unfold GlobEngine.compileAll at others ⊢
      simp [List.mapM_cons, compiled, others]
    · have tail := rest text
      unfold anyMatch at tail ⊢
      rw [List.any_cons, List.any_cons, same, tail]

end GlobEngine

/-! ### An engine for the simple patterns -/

def isSpecialChar (c : Char) : Bool :=
  c = '?' || c = '[' || c = ']' || c = '\x7b' || c = '\x7d' || c = '\\' || c = '!'

def parseBody : List Char → Option (List GlobPart)
  | [] => some []
  | '*' :: '*' :: _ => none
  | '*' :: rest => (parseBody rest).map (.star :: ·)
  | c :: rest => if isSpecialChar c then none else (parseBody rest).map (.literal c :: ·)

/-- Reads a simple pattern. Whatever else the language has is refused. -/
def parseSimpleGlob (text : List Char) : Option SimpleGlob :=
  let anyDepth := ['*', '*', '/'].isPrefixOf text
  let rest := if anyDepth then text.drop 3 else text
  let below := ['/', '*', '*'].isSuffixOf rest
  let body := if below then rest.take (rest.length - 3) else rest
  (parseBody body).map fun body => ⟨anyDepth, body, below⟩

def simpleEngine : GlobEngine where
  Glob := SimpleGlob
  compile := parseSimpleGlob
  isMatch := SimpleGlob.matches

theorem simpleEngine_documents
    (read : ∀ pattern ∈ patterns, parseSimpleGlob pattern.text = some pattern) :
    simpleEngine.Documents patterns :=
  fun pattern member => ⟨pattern, read pattern member, fun _ => rfl⟩

end Astrcode.Library
