import Astrcode.Extensions.TextEdits

/-!
# Edits reach a file together

An accepted request leaves the result of all its edits in the file, and a refused one should
leave the file alone. Two things stand in the way of the intended reading: the uniqueness of an
old text is checked by a scan that skips overlapping occurrences, and the observation of the
file is taken after the file has been written.
-/
namespace Astrcode

open Library Substrings

/-! ### The purpose of an edit -/

/-- A property of each edit and the text it is applied to. -/
def EachEdit (holds : TextEdit → List Char → Prop) : List TextEdit → List Char → Prop
  | [], _ => True
  | edit :: edits, text => holds edit text ∧ EachEdit holds edits (edit.replaced text)

/-- The old text occurs once, overlapping occurrences included, unless all are to be replaced. -/
def TextEdit.Unambiguous (edit : TextEdit) (text : List Char) : Prop :=
  edit.replaceAll = false → occurrences edit.oldText.toList text = 1

/-- The file of a request holds the result of its edits, each of which was unambiguous, and every
other file what it held. -/
def Edited (io : EditIo) (request : EditArgs) (w after : Workspace) : Prop :=
  ∃ path operations content, io.resolved = .ok path ∧ normalizeEdits request = .ok operations ∧
    String.fromUTF8? (w.files path) = some content ∧
    EachEdit TextEdit.Unambiguous operations content.toList ∧
    after.files = Function.update w.files path
      (String.ofList (operations.foldl (fun text edit => edit.replaced text)
        content.toList)).toUTF8

/-- What a caller may rely on: an accepted request has been carried out, a refused one has left
the files as they were. -/
def AtomicEdit (io : EditIo) (capability : String) (allowed : Bool) (request : EditArgs)
    (w : Workspace) : Prop :=
  match editWithAccess io capability allowed request w with
  | (.ok _, after) => Edited io request w after
  | (.error _, after) => after.files = w.files

/-! ### When it is met -/

/-- Another occurrence of the old text begins inside the first one. -/
def TextEdit.Overlapped (edit : TextEdit) (text : List Char) : Prop :=
  ∃ before after, text = before ++ edit.oldText.toList ++ after ∧
    ¬ edit.oldText.toList <:+: before ++ edit.oldText.toList.dropLast ∧
    edit.oldText.toList <:+: edit.oldText.toList.tail ++ after

/-- The observation of a written file can be taken, if one is kept at all. -/
def Observable (io : EditIo) (w : Workspace) : Prop :=
  w.observations.isSome → io.observed.isOk

variable {io : EditIo} {request : EditArgs} {w : Workspace}

/-- With a single occurrence for the scan, an edit is ambiguous just where the occurrence is
overlapped. -/
private theorem unambiguous_iff {edit : TextEdit} {text : List Char} (named : edit.oldText ≠ "")
    (single : edit.replaceAll = false → (splitAt edit.oldText.toList 0 text).length = 2) :
    edit.Unambiguous text ↔ (edit.replaceAll = false → ¬ edit.Overlapped text) := by
  have nonempty : edit.oldText.toList ≠ [] := by simpa using named
  refine forall_congr' fun one => ?_
  obtain ⟨before, last, pieces⟩ := List.length_eq_two.mp (single one)
  have cut : CutAt edit.oldText.toList text [before, last] := pieces ▸ cut_splitAt nonempty 0 text
  cases cut with
  | @next before after _ first rest =>
  constructor
  · rintro once ⟨other, tail, whole, start, again⟩
    rw [whole, occurrences_around nonempty tail start, Nat.add_eq_right,
      occurrences_eq_zero_iff] at once
    exact once again
  · intro free
    rw [occurrences_around nonempty after first, Nat.add_eq_right, occurrences_eq_zero_iff]
    exact fun again => free ⟨before, after, rfl, first, again⟩

/-- The loop computes the edits one after the other, and the guards leave nothing but overlapping
occurrences to be ambiguous. -/
private theorem applyEdits_ok {path : String} {text edited : List Char} {before after : Nat}
    {operations : List TextEdit} (named : ∀ edit ∈ operations, edit.oldText ≠ "")
    (accepted : applyEdits path text before operations = .ok (edited, after)) :
    edited = operations.foldl (fun text edit => edit.replaced text) text ∧
      (EachEdit TextEdit.Unambiguous operations text ↔
        EachEdit (fun edit text => edit.replaceAll = false → ¬ edit.Overlapped text)
          operations text) := by
  induction operations generalizing text before with
  | nil =>
    cases accepted
    exact ⟨rfl, Iff.rfl⟩
  | cons edit operations ih =>
    obtain ⟨nonempty, named⟩ := List.forall_mem_cons.mp named
    simp only [applyEdits] at accepted
    split at accepted
    · cases accepted
    split at accepted
    · cases accepted
    next some_found not_many =>
    obtain ⟨same, rest⟩ := ih named accepted
    refine ⟨same, and_congr (unambiguous_iff nonempty fun one => ?_) rest⟩
    simp [one] at not_many
    omega

private theorem normalizeEdits_named {operations : List TextEdit}
    (normal : normalizeEdits request = .ok operations) :
    ∀ edit ∈ operations, edit.oldText ≠ "" := by
  simp only [normalizeEdits, bind_ok_iff] at normal
  obtain ⟨_, -, edits, -, _, named, same⟩ := normal
  cases same
  exact ensure_ok_iff.mp named

private theorem prepareEdit_ok {capability : String} {allowed : Bool} {prepared : PreparedEdit}
    (ready : prepareEdit io capability allowed request w = .ok prepared) :
    ∃ operations content, io.resolved = .ok prepared.path ∧
      normalizeEdits request = .ok operations ∧
      String.fromUTF8? (w.files prepared.path) = some content ∧
      prepared.edited = String.ofList (operations.foldl (fun text edit => edit.replaced text)
        content.toList) ∧
      (EachEdit TextEdit.Unambiguous operations content.toList ↔
        EachEdit (fun edit text => edit.replaceAll = false → ¬ edit.Overlapped text)
          operations content.toList) := by
  simp only [prepareEdit, bind_ok_iff] at ready
  obtain ⟨_, -, operations, normal, _, -, path, resolved, _, -, _, -, _, -, _, -, _, -, ready⟩ :=
    ready
  split at ready
  · next content read =>
    simp only [bind_ok_iff] at ready
    obtain ⟨⟨edited, replacements⟩, applied, _, -, same⟩ := ready
    cases same
    obtain ⟨result, unambiguous⟩ := applyEdits_ok (normalizeEdits_named normal) applied
    exact ⟨operations, content, resolved, normal, read, congrArg String.ofList result,
      unambiguous⟩
  · cases ready

/-- Recording an observation leaves the files alone, and fails only where one is kept and the
file cannot be read. -/
private theorem rememberObservation_cases (io : EditIo) (w : Workspace) (path : PathText) :
    (Observable io w ∧ ∃ after, rememberObservation io w path = .ok after ∧
      after.files = w.files) ∨
      ¬ Observable io w ∧ ∃ e, rememberObservation io w path = .error e := by
  rw [rememberObservation, Observable]
  cases w.observations with
  | none => exact .inl ⟨by simp, w, rfl, rfl⟩
  | some observations =>
    rw [captureObservation.eq_def]
    cases io.observed with
    | error message => exact .inr ⟨by simp [Except.isOk, Except.toBool], _, rfl⟩
    | ok modified => exact .inl ⟨fun _ => rfl, _, rfl, rfl⟩

/-- A file system without failures, but for the last reading of the file. -/
private def sampleIo (observed : Except String (Option Nat)) : EditIo where
  resolved := .ok "a.txt".toList
  compared := .ok none
  isFile := .ok true
  read := .ok ()
  written := .ok ()
  observed := observed
  fingerprint := fun _ => ""
  utf8Error := fun _ => ""

private def shrinkRequest : EditArgs := ⟨"a.txt", some "aa", some "b", false, []⟩

private def observedFile : Workspace where
  files := fun _ => "aaa".toUTF8
  observations := some fun _ => some ⟨"a.txt".toList, 3, none, ""⟩

end Astrcode
