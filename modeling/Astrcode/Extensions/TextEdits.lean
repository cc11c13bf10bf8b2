import Astrcode.Extensions.FileTools
import Astrcode.Extensions.SessionHistory
import Astrcode.Library.Runs
import Astrcode.Library.Substrings
import Mathlib.Logic.Function.Basic

/-!
# Edits of a file by the host

`edit_with_access` of `astrcode-extensions/src/host_router/workspace.rs`: the edits of a request
are applied one after the other to the content of a file, the result is written in one step,
and the file as written is remembered as seen by the session.
-/
namespace Astrcode

open Library

/-- What a session has seen of a file. -/
structure FileObservation where
  path : PathText
  bytes : Nat
  modifiedUnixNanos : Option Nat
  contentFingerprint : String
  deriving DecidableEq

/-- The files, and the observations of the session. Without a store of observations nothing
is compared and nothing remembered. -/
structure Workspace where
  files : PathText → ByteArray
  observations : Option (PathText → Option FileObservation)

/-- What the file system answers during one edit. Each `String` is the text of an error. -/
structure EditIo where
  resolved : Except ErrorPayload PathText
  /-- Reading the file for the comparison; the time of its last change. -/
  compared : Except String (Option Nat)
  isFile : Except String Bool
  read : Except String Unit
  written : Except String Unit
  /-- Reading the file once more, after it has been written. -/
  observed : Except String (Option Nat)
  fingerprint : ByteArray → String
  utf8Error : ByteArray → String

structure EditOutput where
  path : String
  operationCount : Nat
  replacements : Nat
  deriving DecidableEq

def maxFileBytes : Nat := 10 * 1024 * 1024

def ioError (message : String) : ErrorPayload := ⟨.ioError, message⟩

def invalidInput (message : String) : ErrorPayload := ⟨.invalidInput, message⟩

def requestedEdits (request : EditArgs) : Except ErrorPayload (List TextEdit) :=
  match request.edits, request.oldText, request.newText with
  | [], none, _ => .error (invalidInput "old_text is required")
  | [], some _, none => .error (invalidInput "new_text is required")
  | [], some oldText, some newText => .ok [⟨oldText, newText, request.replaceAll⟩]
  | edits, _, _ => .ok edits

def normalizeEdits (request : EditArgs) : Except ErrorPayload (List TextEdit) := do
  let hasTopLevel := request.oldText.isSome || request.newText.isSome
  ensure (!(hasTopLevel && !request.edits.isEmpty))
    (invalidInput "use either old_text/new_text or edits, not both")
  let edits ← requestedEdits request
  ensure (∀ edit ∈ edits, edit.oldText ≠ "") (invalidInput "old_text must not be empty")
  return edits

/-! ### Observations -/

/-- `capture_observation` of a file with the given bytes, if it can be read. -/
def captureObservation (io : EditIo) (outcome : Except String (Option Nat)) (path : PathText)
    (bytes : ByteArray) : Except ErrorPayload FileObservation :=
  match outcome with
  | .error message => .error (ioError message)
  | .ok modified => .ok ⟨path, bytes.size, modified, io.fingerprint bytes⟩

def ensureObservationCurrent (io : EditIo) (w : Workspace) (path : PathText) :
    Except ErrorPayload Unit := do
  let some observations := w.observations | return
  let some previous := observations path
    | throw ⟨.staleFile, "read " ++ String.ofList path ++ " before editing it"⟩
  let current ← captureObservation io io.compared path (w.files path)
  ensure (previous = current) ⟨.staleFile, String.ofList path ++
    " changed after the last read; read it again before editing"⟩

def rememberObservation (io : EditIo) (w : Workspace) (path : PathText) :
    Except ErrorPayload Workspace := do
  let some observations := w.observations | return w
  let observation ← captureObservation io io.observed path (w.files path)
  return { w with
    observations := some (Function.update observations observation.path (some observation)) }

/-! ### Editing -/

def replaceText (old new text : List Char) : List Char :=
  new.intercalate (Substrings.splitAt old 0 text)

/-- `str::replacen` for one occurrence. -/
def replaceFirst (old new text : List Char) : List Char :=
  match Substrings.splitAt old 0 text with
  | before :: after :: more => before ++ new ++ old.intercalate (after :: more)
  | _ => text

def TextEdit.replaced (operation : TextEdit) (edited : List Char) : List Char :=
  if operation.replaceAll then
    replaceText operation.oldText.toList operation.newText.toList edited
  else replaceFirst operation.oldText.toList operation.newText.toList edited

/-- The loop over the operations: the text so far and the number of replacements. -/
def applyEdits (path : String) (edited : List Char) (replacements : Nat) :
    List TextEdit → Except ErrorPayload (List Char × Nat)
  | [] => .ok (edited, replacements)
  | operation :: operations =>
    let found := (Substrings.splitAt operation.oldText.toList 0 edited).length - 1
    if found = 0 then .error (invalidInput ("old_text not found in " ++ path))
    else if !operation.replaceAll && 1 < found then
      .error (invalidInput ("old_text matched " ++ toString found ++ " times in " ++ path ++
        "; set replace_all=true or provide more context"))
    else applyEdits path (operation.replaced edited)
      (replacements + if operation.replaceAll then found else 1) operations

/-- What is known when the file is about to be written. -/
structure PreparedEdit where
  path : PathText
  edited : String
  output : EditOutput

def PreparedEdit.write (prepared : PreparedEdit) (w : Workspace) : Workspace :=
  { w with files := Function.update w.files prepared.path prepared.edited.toUTF8 }

/-- `edit_with_access` up to the write: nothing is changed so far. -/
def prepareEdit (io : EditIo) (capability : String) (allowSensitivePaths : Bool)
    (request : EditArgs) (w : Workspace) : Except ErrorPayload PreparedEdit := do
  ensure (request.path ≠ "") (invalidInput "path must not be empty")
  let operations ← normalizeEdits request
  ensure (allowSensitivePaths || !isSensitivePath request.path.toList)
    ⟨.permissionDenied, "workspace access to sensitive files is not allowed"⟩
  let path ← io.resolved
  ensureObservationCurrent io w path
  let tooLarge : ErrorPayload := ⟨.fileTooLarge, capability ++ " supports regular files up to " ++
    toString maxFileBytes ++ " bytes"⟩
  let isFile ← io.isFile.mapError ioError
  ensure (isFile ∧ (w.files path).size ≤ maxFileBytes) tooLarge
  io.read.mapError ioError
  ensure ((w.files path).size ≤ maxFileBytes) tooLarge
  let some content := String.fromUTF8? (w.files path)
    | throw (ioError (io.utf8Error (w.files path)))
  let (edited, replacements) ← applyEdits request.path content.toList 0 operations
  let edited := String.ofList edited
  ensure (edited.utf8ByteSize ≤ maxFileBytes)
    ⟨.fileTooLarge, "workspace writes are limited to " ++ toString maxFileBytes ++ " bytes"⟩
  return ⟨path, edited, request.path, operations.length, replacements⟩

def editWithAccess (io : EditIo) (capability : String) (allowSensitivePaths : Bool)
    (request : EditArgs) (w : Workspace) : Except ErrorPayload EditOutput × Workspace :=
  match prepareEdit io capability allowSensitivePaths request w with
  | .error e => (.error e, w)
  | .ok prepared =>
    match io.written with
    | .error message => (.error (ioError message), w)
    | .ok () =>
      -- the file is replaced as a whole; only then is the observation recorded
      match rememberObservation io (prepared.write w) prepared.path with
      | .error e => (.error e, prepared.write w)
      | .ok w => (.ok prepared.output, w)

end Astrcode
