import Mathlib.Data.List.Infix
import Astrcode.Library.Runs
import Astrcode.Core.Primitives

/-!
# Unified diffs at the workspace boundary

Two scanners read the text of a patch. `analyze_unified_diff_paths`
(`astrcode-extension-sdk/src/host/workspace_patch.rs`) only looks for the files it names:
the planner of the tool and the check of the resource lease rest on it. The host parses
sections and hunks (`astrcode-extensions/src/host_router/workspace_patch.rs`) and executes
what it finds. A line is a list of characters.
-/
namespace Astrcode

abbrev Line := List Char

def isPatchMetadata (line : Line) : Bool :=
  ["diff ", "index ", "old mode ", "new mode ", "new file mode ", "deleted file mode ", "rename ",
    "similarity ", "copy "].any fun start => start.toList.isPrefixOf line

def normalizeUnifiedDiffPath (value : List Char) : Except String String :=
  -- a time stamp may follow the path behind a tab
  let value := trimChars (value.takeWhile (· ≠ '\t'))
  if value.isEmpty then .error "patch file path must not be empty"
  else if value = "/dev/null".toList then .ok "/dev/null"
  else .ok (String.ofList
    ((stripPrefix "a/".toList value).getD ((stripPrefix "b/".toList value).getD value)))

/-- The path of a header, unless it stands for a file that is not there. -/
def realPath (path : String) : Option String := if path ≠ "/dev/null" then some path else none

def skippedLine (line : Line) : Bool :=
  isPatchMetadata line || line.isEmpty || line.head? = some '#'

/-! ### Path analysis -/

structure WorkspacePatchPaths where
  oldPath : Option String
  newPath : Option String
  deriving DecidableEq

def expectedNewPath : String := "patch format error: expected '+++ new_path' after '--- old_path'"

def analyzeLines : List Line → Except String (List WorkspacePatchPaths)
  | [] => .ok []
  | line :: rest =>
    if skippedLine line then analyzeLines rest
    else match stripPrefix "--- ".toList line with
      -- whatever is no header is passed over
      | none => analyzeLines rest
      | some oldPath =>
        match rest with
        | [] => .error expectedNewPath
        | next :: rest =>
          match stripPrefix "+++ ".toList next with
          | none => .error expectedNewPath
          | some newPath => do
            let oldPath ← normalizeUnifiedDiffPath oldPath
            let newPath ← normalizeUnifiedDiffPath newPath
            let pair : WorkspacePatchPaths := ⟨realPath oldPath, realPath newPath⟩
            if pair.oldPath.isNone && pair.newPath.isNone then
              .error "patch file section cannot use /dev/null for both paths"
            else
              let paths ← analyzeLines rest
              return pair :: paths

def analyzeUnifiedDiffPaths (patch : String) : Except String (List WorkspacePatchPaths) :=
  if isBlank patch then .error "patch must not be empty"
  else do
    let paths ← analyzeLines (lines patch)
    if paths.isEmpty then .error "patch does not contain any file sections" else .ok paths

/-! ### The parser of the host -/

inductive HunkLine where
  | context (text : Line)
  | add (text : Line)
  | delete (text : Line)
  deriving DecidableEq

structure Hunk where
  oldStart : Nat
  lines : List HunkLine
  deriving DecidableEq

structure FilePatch where
  oldPath : Option String
  newPath : Option String
  hunks : List Hunk
  deriving DecidableEq

def FilePatch.paths (patch : FilePatch) : WorkspacePatchPaths := ⟨patch.oldPath, patch.newPath⟩

def parseHunkHeader (header : Line) : Except String Nat :=
  let invalid := "invalid hunk header: " ++ String.ofList header
  match ((stripPrefix "@@".toList header).bind (rsplitOnce "@@".toList)).map
      (fun cut => trimChars cut.1) with
  | none => .error invalid
  | some body =>
    match (firstWord body).bind (stripPrefix ['-']) with
    | none => .error invalid
    | some old =>
      match parseUsize (old.takeWhile (· ≠ ',')) with
      | none => .error ("invalid old range in hunk header: " ++ String.ofList header)
      | some start => .ok start

/-- A line inside a hunk. The note about a missing final newline adds nothing. -/
def hunkLine (line : Line) : List HunkLine :=
  match line with
  | ' ' :: text => [.context text]
  | '+' :: text => [.add text]
  | '-' :: text => [.delete text]
  | '\\' :: _ => []
  | _ => [.context line]

/-- A line that ends the hunks of a section. -/
def endsSection (line : Line) : Bool :=
  "--- ".toList.isPrefixOf line || "diff ".toList.isPrefixOf line

/-- The hunks of a section and the lines behind it. `current` is the hunk the scan is in;
before the first one other lines are passed over. -/
def parseHunks (current : Option Hunk) : List Line → Except String (List Hunk × List Line)
  | [] => .ok (current.toList, [])
  | line :: rest =>
    if endsSection line then .ok (current.toList, line :: rest)
    else if "@@".toList.isPrefixOf line then do
      let oldStart ← parseHunkHeader line
      let (hunks, rest) ← parseHunks (some ⟨oldStart, []⟩) rest
      return (current.toList ++ hunks, rest)
    else parseHunks (current.map fun hunk => { hunk with lines := hunk.lines ++ hunkLine line }) rest

theorem parseHunks_rest {current : Option Hunk} {lines rest : List Line} {hunks : List Hunk}
    (parsed : parseHunks current lines = .ok (hunks, rest)) : rest <:+ lines := by
  induction lines generalizing current hunks with
  | nil =>
    cases parsed
    exact List.suffix_refl _
  | cons line lines ih =>
    unfold parseHunks at parsed
    split at parsed
    · cases parsed
      exact List.suffix_refl _
    · split at parsed
      · obtain ⟨start, -, parsed⟩ := Library.bind_ok_iff.mp parsed
        obtain ⟨⟨hunks', rest'⟩, inner, done⟩ := Library.bind_ok_iff.mp parsed
        cases done
        exact (ih inner).trans (List.suffix_cons _ _)
      · exact (ih parsed).trans (List.suffix_cons _ _)

/-- The rest of a file section, behind the `--- ` of its header. -/
def parseFileSection (oldPath : List Char) (rest : List Line) :
    Except String (FilePatch × List Line) := do
  let oldPath ← normalizeUnifiedDiffPath oldPath
  match rest with
  | [] => .error expectedNewPath
  | next :: rest =>
    match stripPrefix "+++ ".toList next with
    | none => .error expectedNewPath
    | some newPath => do
      let newPath ← normalizeUnifiedDiffPath newPath
      let (hunks, remaining) ← parseHunks none rest
      if hunks.isEmpty then .error ("patch for " ++ newPath ++ " does not contain a hunk")
      else return (⟨realPath oldPath, realPath newPath, hunks⟩, remaining)

/-- What a section that is accepted consists of. -/
theorem parseFileSection_ok {oldPath : List Char} {rest remaining : List Line} {patch : FilePatch}
    (parsed : parseFileSection oldPath rest = .ok (patch, remaining)) :
    ∃ next body newPath old new hunks, rest = next :: body ∧
      stripPrefix "+++ ".toList next = some newPath ∧
      normalizeUnifiedDiffPath oldPath = .ok old ∧ normalizeUnifiedDiffPath newPath = .ok new ∧
      parseHunks none body = .ok (hunks, remaining) ∧
      patch = ⟨realPath old, realPath new, hunks⟩ := by
  obtain ⟨old, oldOk, parsed⟩ := Library.bind_ok_iff.mp parsed
  cases rest with
  | nil => cases parsed
  | cons next body =>
    cases header : stripPrefix "+++ ".toList next with
    | none =>
      simp only [header] at parsed
      cases parsed
    | some newPath =>
      simp only [header] at parsed
      obtain ⟨new, newOk, parsed⟩ := Library.bind_ok_iff.mp parsed
      obtain ⟨⟨hunks, after⟩, body', parsed⟩ := Library.bind_ok_iff.mp parsed
      split at parsed
      · cases parsed
      · cases parsed
        exact ⟨next, body, newPath, old, new, hunks, rfl, header, oldOk, newOk, body', rfl⟩

theorem parseFileSection_shorter {oldPath : List Char} {rest remaining : List Line}
    {patch : FilePatch} (parsed : parseFileSection oldPath rest = .ok (patch, remaining)) :
    remaining.length < rest.length := by
  obtain ⟨next, body, _, _, _, _, rfl, -, -, -, hunks, -⟩ := parseFileSection_ok parsed
  have shorter := (parseHunks_rest hunks).length_le
  simp only [List.length_cons]
  omega

def parseFileSections (input : List Line) : Except String (List FilePatch) :=
  match input with
  | [] => .ok []
  | line :: rest =>
    if skippedLine line then parseFileSections rest
    else match stripPrefix "--- ".toList line with
      | none =>
        .error ("patch format error: unexpected line '" ++ String.ofList (line.take 40) ++ "'")
      | some oldPath =>
        match _section : parseFileSection oldPath rest with
        | .error e => .error e
        | .ok (patch, remaining) => do
          let patches ← parseFileSections remaining
          return patch :: patches
termination_by input.length
decreasing_by
  · simp
  · have shorter := parseFileSection_shorter _section
    simp only [List.length_cons]
    omega

def parsePatch (patch : String) : Except String (List FilePatch) :=
  if isBlank patch then .error "patch must not be empty"
  else do
    let patches ← parseFileSections (lines patch)
    if patches.isEmpty then .error "patch does not contain any file changes" else .ok patches

/-! ### Applying the hunks -/

/-- The lines a hunk expects to find. -/
def Hunk.expected (hunk : Hunk) : List Line :=
  hunk.lines.filterMap fun
    | .context text | .delete text => some text
    | .add _ => none

def hunkCounts (hunk : Hunk) : Nat × Nat :=
  hunk.lines.foldl (fun (added, removed) line => match line with
    | .add _ => (added + 1, removed)
    | .delete _ => (added, removed + 1)
    | .context _ => (added, removed)) (0, 0)

def matchesAt (content expected : List Line) (position : Nat) : Bool :=
  decide (position + expected.length ≤ content.length) &&
    expected.isPrefixOf (content.drop position)

/-- The nearest match above the anchor, then the first one below it. -/
def findMatch (content : List Line) (hunk : Hunk) (anchor : Nat) : Option Nat :=
  let expected := hunk.expected
  if expected.isEmpty then some (min anchor content.length)
  else if matchesAt content expected anchor then some anchor
  else
    let lower := anchor - max expected.length 10
    ((List.range' lower (anchor - lower)).reverse ++
      List.range' (anchor + 1) (content.length - expected.length - anchor)).find?
        (matchesAt content expected)

def checkLine (what : String) (expected : Line) : Option Line → Except String Unit
  | none => .error ("expected " ++ what ++ " '" ++ String.ofList expected ++ "' at end of file")
  | some actual =>
    if actual ≠ expected then
      .error ("expected " ++ what ++ " '" ++ String.ofList expected ++ "', got '" ++
        String.ofList actual ++ "'")
    else .ok ()

/-- The loop over the lines of a hunk: what replaces them, and where they end. -/
def replaceLines (result : List Line) (source : Nat) :
    List HunkLine → Except String (List Line × Nat)
  | [] => .ok ([], source)
  | .context expected :: rest => do
    checkLine "context" expected result[source]?
    let (replacement, source) ← replaceLines result (source + 1) rest
    return (expected :: replacement, source)
  | .delete expected :: rest => do
    checkLine "deletion" expected result[source]?
    replaceLines result (source + 1) rest
  | .add text :: rest => do
    let (replacement, source) ← replaceLines result source rest
    return (text :: replacement, source)

/-- Where a hunk is looked for first. The sum is one of machine integers. -/
def hunkAnchor (hunk : Hunk) (lineDelta : Int) (length : Nat) : Nat :=
  (max 0 (min ((((hunk.oldStart - 1 : Nat) : Int) + lineDelta).bmod (2 ^ 64)) length)).toNat

/-- The loop over the hunks, `index` of which are applied. -/
def applyHunksFrom (index : Nat) (lineDelta : Int) (result : List Line) :
    List Hunk → Except String (List Line)
  | [] => .ok result
  | hunk :: hunks =>
    match findMatch result hunk (hunkAnchor hunk lineDelta result.length) with
    | none => .error ("hunk #" ++ toString (index + 1) ++ " around line " ++
        toString hunk.oldStart ++ " failed: context mismatch")
    | some position => do
      let (replacement, source) ← replaceLines result position hunk.lines
      let (added, removed) := hunkCounts hunk
      applyHunksFrom (index + 1) (lineDelta + (added - removed))
        (result.take position ++ replacement ++ result.drop source) hunks

def applyHunks (content : List Line) (hunks : List Hunk) : Except String (List Line) :=
  applyHunksFrom 0 0 content hunks

/-! ### Documents -/

inductive LineEnding where
  | lf
  | crlf
  deriving DecidableEq

def LineEnding.asStr : LineEnding → List Char
  | .lf => ['\n']
  | .crlf => ['\r', '\n']

structure TextDocument where
  lines : List Line
  lineEnding : LineEnding
  hasTrailingNewline : Bool

def parseDocument (content : List Char) : TextDocument where
  lines := linesFrom [] content
  lineEnding := if ['\r', '\n'] <:+: content then .crlf else .lf
  hasTrailingNewline := content.getLast? = some '\n'

@[simp]
def renderDocument (lines : List Line) (ending : LineEnding) (trailingNewline : Bool) : List Char :=
  let content := ending.asStr.intercalate lines
  if trailingNewline && !lines.isEmpty then content ++ ending.asStr else content

def requestImpliesTrailingNewline (patch : FilePatch) : Bool :=
  (patch.hunks.getLast?.bind (·.lines.getLast?)).any fun
    | .add _ | .context _ => true
    | .delete _ => false

/-- What `apply_file_patch` makes of the content of a file. There is none before the file is
created, and none once it is deleted. -/
def patchContent (patch : FilePatch) (original : Option (List Char)) :
    Except String (Option (List Char)) := do
  let document := parseDocument (original.getD [])
  let lines ← applyHunks document.lines patch.hunks
  if patch.newPath.isNone then
    if !lines.isEmpty then .error "delete patch does not remove the full file" else return none
  else
    let trailingNewline :=
      if original.isSome then document.hasTrailingNewline else requestImpliesTrailingNewline patch
    return some (renderDocument lines document.lineEnding trailingNewline)

end Astrcode
