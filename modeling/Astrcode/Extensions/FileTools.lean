import Astrcode.Extensions.Patch
import Astrcode.Session.Permission

/-!
# File tools and the host

The `read`, `write`, `edit` and `patch` tools of `astrcode-extension-coding/src/files`: how
they read their arguments, which resources they plan, and which paths the host is then
asked to read or write. The host knows sensitive files by the components of the path it
is given (`astrcode-extensions/src/host_router/workspace.rs`).
-/
namespace Astrcode

open Library

inductive FileTool where
  | read
  | write
  | edit
  | patch
  deriving DecidableEq

def FileTool.name : FileTool → String
  | .read => "read"
  | .write => "write"
  | .edit => "edit"
  | .patch => "patch"

/-! ### Arguments -/

/-- The fields of a record: an object without unknown or repeated keys, or a list of values in
the order of the fields. -/
def structFields (known : List String) : Json → Option (List (String × Json))
  | .object members =>
    if (members.map (·.1)).Nodup ∧ members.all fun member => known.contains member.1 then
      some members
    else none
  | .array items => if items.length ≤ known.length then some (known.zip items) else none
  | _ => none

def fieldValue (fields : List (String × Json)) (key : String) : Option Json :=
  (fields.find? fun field => field.1 = key).map (·.2)

def stringField (fields : List (String × Json)) (key : String) : Option String :=
  (fieldValue fields key).bind Json.asStr?

/-- An optional field: missing or `null` is no value, and a value of another type is an error. -/
def optionalField {α : Type} (read : Json → Option α) (fields : List (String × Json))
    (key : String) : Option (Option α) :=
  match fieldValue fields key with
  | none | some .null => some none
  | some value => (read value).map some

def defaultField {α : Type} (read : Json → Option α) (default : α) (fields : List (String × Json))
    (key : String) : Option α :=
  match fieldValue fields key with
  | none => some default
  | some value => read value

def jsonUsize : Json → Option Nat
  | .number n => if n.numeral.toList.all (·.isDigit) then parseUsize n.numeral.toList else none
  | _ => none

def jsonBool : Json → Option Bool
  | .bool b => some b
  | _ => none

structure ReadArgs where
  path : String
  maxChars : Option Nat
  charOffset : Option Nat
  offset : Option Nat
  limit : Option Nat

variable (input : Json)

def readArgs : Option ReadArgs := do
  let fields ← structFields ["path", "maxChars", "charOffset", "offset", "limit"] input
  return {
    path := ← stringField fields "path"
    maxChars := ← optionalField jsonUsize fields "maxChars"
    charOffset := ← optionalField jsonUsize fields "charOffset"
    offset := ← optionalField jsonUsize fields "offset"
    limit := ← optionalField jsonUsize fields "limit" }

def maxReturnedChars : Nat := 30000

def ReadArgs.valid (args : ReadArgs) : Bool :=
  !isBlank args.path && !args.maxChars.any (fun n => n = 0 || maxReturnedChars < n) &&
    args.limit ≠ some 0

structure WriteArgs where
  path : String
  content : String
  createDirs : Bool

def writeArgs : Option WriteArgs := do
  let fields ← structFields ["path", "content", "createDirs"] input
  return {
    path := ← stringField fields "path"
    content := ← stringField fields "content"
    createDirs := ← defaultField jsonBool false fields "createDirs" }

structure TextEdit where
  oldText : String
  newText : String
  replaceAll : Bool

def textEdit : Option TextEdit := do
  let fields ← structFields ["oldText", "newText", "replaceAll"] input
  return {
    oldText := ← stringField fields "oldText"
    newText := ← stringField fields "newText"
    replaceAll := ← defaultField jsonBool false fields "replaceAll" }

def textEdits : Json → Option (List TextEdit)
  | .array items => items.mapM textEdit
  | _ => none

structure EditArgs where
  path : String
  oldText : Option String
  newText : Option String
  replaceAll : Bool
  edits : List TextEdit

def editArgs : Option EditArgs := do
  let fields ← structFields ["path", "oldText", "newText", "replaceAll", "edits"] input
  return {
    path := ← stringField fields "path"
    oldText := ← optionalField Json.asStr? fields "oldText"
    newText := ← optionalField Json.asStr? fields "newText"
    replaceAll := ← defaultField jsonBool false fields "replaceAll"
    edits := ← defaultField textEdits [] fields "edits" }

def EditArgs.valid (args : EditArgs) : Bool :=
  let hasTopLevel := args.oldText.isSome || args.newText.isSome
  !(hasTopLevel && !args.edits.isEmpty) &&
    !(args.edits.isEmpty && (args.oldText.isNone || args.newText.isNone)) &&
    !(args.oldText = some "" || args.edits.any (·.oldText = ""))

def patchText : Option String := do
  let fields ← structFields ["patch"] input
  stringField fields "patch"

variable (tool : FileTool)

/-- The path argument of a tool that names one, for arguments the tool accepts. -/
def pathArgument (input : Json) : Option String :=
  match tool with
  | .read => ((readArgs input).filter ReadArgs.valid).map (·.path)
  | .write => (writeArgs input).map (·.path)
  | .edit => ((editArgs input).filter EditArgs.valid).map (·.path)
  | .patch => none

/-! ### Planning -/

def componentText : PathComponent → List Char
  | .rootDir => []
  | .curDir => ['.']
  | .parentDir => ['.', '.']
  | .normal name => name.map fun c => if c = '\\' then '/' else c

def collapseSlashes : List Char → List Char
  | [] => []
  | c :: rest =>
    if c = '/' ∧ rest.head? = some '/' then collapseSlashes rest else c :: collapseSlashes rest

/-- `path_to_access_string`: the path as text, after dots are resolved. -/
def accessPath (path : PathText) : PathText :=
  match normalizeComponents (components path) with
  | [.rootDir] => ['/']
  | parts => collapseSlashes (joinSegments (parts.map componentText))

def fileOperation : FileTool → FileOperation
  | .read => .read
  | .write => .write
  | .edit | .patch => .readWrite

/-- The resources a call declares; `none` is a call that is refused before any permission is
looked at. -/
def planFileTool (workingDir : PathText) (input : Json) :
    Option (List ResourceAccess) :=
  let access := fun path : String =>
    ResourceAccess.file (fileOperation tool) (accessPath (joinPath workingDir path.toList)) false
  match tool with
  | .patch => do
    let patch ← patchText input
    match analyzeUnifiedDiffPaths patch with
    | .error _ => none
    | .ok paths => some ((paths.flatMap fun pair => pair.oldPath.toList ++ pair.newPath.toList).map access)
  | tool => do
    let path ← pathArgument tool input
    return [access path]

/-! ### What the host touches -/

def isSensitiveComponent (component : List Char) : Bool :=
  let name := component.map Char.toLower
  name = ".git".toList || name = ".ssh".toList || name = ".aws".toList || name = ".azure".toList ||
    name = ".gcloud".toList || name = ".gitconfig".toList || name = ".npmrc".toList ||
    name = ".env".toList || ".env.".toList.isPrefixOf name ||
    "credentials".toList.isPrefixOf name || "secret".toList.isPrefixOf name ||
    ".pem".toList.isSuffixOf name || ".key".toList.isSuffixOf name ||
    "id_rsa".toList.isPrefixOf name || "id_ed25519".toList.isPrefixOf name

def isSensitivePath (path : PathText) : Bool :=
  (components path).any fun
    | .normal name => isSensitiveComponent name
    | _ => false

/-- The file a section of a patch is about. A section for two different files is refused. -/
def FilePatch.target (patch : FilePatch) : Option String :=
  match patch.oldPath, patch.newPath with
  | some old, some new => if old = new then some new else none
  | old, new => new.or old

/-- The paths the host is asked for by a planned call. -/
def requestedPaths (input : Json) : List PathText :=
  match tool with
  | .patch =>
    match (patchText input).map parsePatch with
    | some (.ok sections) => (sections.filterMap FilePatch.target).map (·.toList)
    | _ => []
  | tool => (pathArgument tool input).toList.map (·.toList)

/-- The context in which the chain looks at a planned call. -/
def fileToolContext (workingDir : PathText) (input : Json)
    (plan : List ResourceAccess) (selection : Option SessionToolSelection) : PermissionContext where
  toolName := tool.name
  toolInput := input
  workingDir := workingDir
  resourceAccesses := plan
  approvalMode := .manual
  toolSelection := selection

end Astrcode
