import Astrcode.Extensions.FileTools
import Astrcode.Properties.PermissionChain

/-!
# Sensitive files

The session looks for sensitive files among the path values it finds in the arguments,
by patterns; the host knows them by the components of the paths it is asked for. Without
rules and answers a file tool is kept from them exactly where the two views meet.
-/
namespace Astrcode

variable {ctx : PermissionContext}

open Library List

/-! ### The patterns of the session -/

def globParts (text : String) : List GlobPart :=
  text.toList.map fun c => if c = '*' then .star else .literal c

/-- The sensitive patterns, read as the glob library documents them. -/
def sensitiveGlobs : List SimpleGlob :=
  [⟨false, globParts ".env", false⟩, ⟨false, globParts ".env.*", false⟩,
    ⟨true, globParts ".ssh", true⟩, ⟨true, globParts ".git", true⟩,
    ⟨true, globParts ".aws", true⟩, ⟨true, globParts ".azure", true⟩,
    ⟨true, globParts ".gcloud", true⟩, ⟨true, globParts ".gitconfig", false⟩,
    ⟨true, globParts ".npmrc", false⟩, ⟨true, globParts "credentials*", false⟩,
    ⟨true, globParts "secret*", false⟩, ⟨true, globParts "*.pem", false⟩,
    ⟨true, globParts "*.key", false⟩, ⟨true, globParts "id_rsa*", false⟩,
    ⟨true, globParts "id_ed25519*", false⟩]

theorem sensitiveGlobs_text :
    sensitiveGlobs.map SimpleGlob.text = sensitivePatterns.map (·.toList) := by
  decide +kernel

theorem simpleEngine_sensitiveGlobs : simpleEngine.Documents sensitiveGlobs :=
  simpleEngine_documents (by decide +kernel)

/-- A path that one of the two policies for paths asks about. -/
def sensitiveSpelling (workingDir path : PathText) : Bool :=
  sensitiveGlobs.any (·.matches (pathForMatching path workingDir)) ||
    sensitiveGlobs.any (·.matches path) || isGitMetadataPath path workingDir

private theorem sensitiveFileAskPolicy_key {engine : GlobEngine}
    (noSearch : searchField ctx.toolName = none) :
    (sensitiveFileAskPolicy engine ctx).askKey? = none ↔
      ∀ path ∈ extractToolPaths ctx.toolInput,
        isSensitiveToolPath engine path ctx.workingDir = false := by
  have nothing : sensitiveSearchPattern engine ctx = none := by
    simp [sensitiveSearchPattern, noSearch]
  simp only [← Bool.not_eq_true, ← find?_eq_none]
  unfold sensitiveFileAskPolicy
  cases (extractToolPaths ctx.toolInput).find? (isSensitiveToolPath engine · ctx.workingDir) with
  | none | some => simp [nothing]

private theorem gitPathAskPolicy_key :
    (gitPathAskPolicy ctx).askKey? = none ↔
      ∀ path ∈ extractToolPaths ctx.toolInput, isGitMetadataPath path ctx.workingDir = false := by
  simp only [← Bool.not_eq_true, ← find?_eq_none]
  unfold gitPathAskPolicy
  cases (extractToolPaths ctx.toolInput).find? (isGitMetadataPath · ctx.workingDir) with
  | none | some => simp

section Asks

variable {engine : GlobEngine} (documents : engine.Documents sensitiveGlobs)
include documents

theorem isSensitiveToolPath_documented (path workingDir : PathText) :
    isSensitiveToolPath engine path workingDir =
      (sensitiveGlobs.any (·.matches (pathForMatching path workingDir)) ||
        sensitiveGlobs.any (·.matches path)) := by
  obtain ⟨globs, compiled, same⟩ := documents.compileAll
  rw [sensitiveGlobs_text] at compiled
  unfold isSensitiveToolPath buildSensitiveGlobset pathMatchesGlob
  rw [compiled]
  simp [same]

/-- Calls that search nothing and touch nothing but files are asked about only for their paths. -/
theorem askKeys_eq_nil_iff (noSearch : searchField ctx.toolName = none)
    (onlyFiles : ∀ access ∈ ctx.resourceAccesses, ∃ operation path recursive,
      access = .file operation path recursive) :
    askKeys (askPolicies engine []) ctx = [] ↔
      ∀ path ∈ extractToolPaths ctx.toolInput, sensitiveSpelling ctx.workingDir path = false := by
  have untouched : ∀ access, (∀ operation path recursive, access ≠ .file operation path recursive) →
      ctx.resourceAccesses.contains access = false := by
    intro access other
    rw [contains_eq_mem, decide_eq_false_iff_not]
    intro member
    obtain ⟨operation, path, recursive, same⟩ := onlyFiles access member
    exact other _ _ _ same
  have process : processResourceAskPolicy ctx = .pass := by
    simp only [processResourceAskPolicy, untouched (.host .process) (by simp), Bool.false_eq_true,
      if_false]
  have external : opaqueResourceAskPolicy ctx = .pass := by
    simp only [opaqueResourceAskPolicy, untouched .opaqueEffect (by simp), Bool.false_eq_true,
      if_false]
  have rules : configuredPolicy engine [] .ask ctx = .pass := rfl
  have keys : askKeys (askPolicies engine []) ctx = [] ↔
      (sensitiveFileAskPolicy engine ctx).askKey? = none ∧ (gitPathAskPolicy ctx).askKey? = none := by
    simp [askKeys, askPolicies, filterMap_eq_nil_iff, rules, process, external]
  rw [keys, sensitiveFileAskPolicy_key noSearch, gitPathAskPolicy_key]
  simp only [isSensitiveToolPath_documented documents, sensitiveSpelling, Bool.or_eq_false_iff]
  exact forall₂_and.symm

end Asks

/-! ### Calls of file tools -/

theorem planFileTool_files {tool : FileTool} {workingDir : PathText} {input : Json}
    {plan : List ResourceAccess} (planned : planFileTool tool workingDir input = some plan) :
    ∀ access ∈ plan, ∃ operation path recursive, access = .file operation path recursive := by
  have single : ∀ operation : FileOperation, ∀ path : Option String,
      path.bind (fun path => some [ResourceAccess.file operation
        (accessPath (joinPath workingDir path.toList)) false]) = some plan →
      ∀ access ∈ plan, ∃ operation path recursive, access = .file operation path recursive := by
    rintro operation (_ | path) same access member
    · cases same
    · obtain rfl := Option.some_inj.mp same
      exact ⟨_, _, _, mem_singleton.mp member⟩
  cases tool with
  | read | write | edit => exact single _ _ planned
  | patch =>
    obtain ⟨patch, -, analysed⟩ := Option.bind_eq_some_iff.mp planned
    cases paths : analyzeUnifiedDiffPaths patch with
    | error message => simp [paths] at analysed
    | ok paths =>
      simp only [paths, Option.some_inj] at analysed
      subst analysed
      intro access member
      obtain ⟨path, -, rfl⟩ := mem_map.mp member
      exact ⟨_, _, _, rfl⟩

/-- No path that is sensitive for the host is touched by a call the chain allows. -/
def SensitiveFilesAsked (engine : GlobEngine) (fs : FileSystem) (ctx : PermissionContext)
    (touched : List PathText) : Prop :=
  ∀ path ∈ touched, isSensitivePath path = true →
    decidePermission (buildDefaultChain engine fs noRules) ctx noAnswers ≠ .allow

/-- The paths of a call are the ones requested that the host can resolve. A call of a file tool
is asked about or denied exactly when the selection excludes the tool, the call touches no
sensitive path, or one of the path values in its arguments is spelled like one. -/
theorem sensitive_files_asked_iff (engine : GlobEngine) (fs : FileSystem)
    (documents : engine.Documents sensitiveGlobs) (tool : FileTool) (workingDir : PathText)
    (input : Json) (plan : List ResourceAccess) (selection : Option SessionToolSelection)
    (reaches : PathText → Bool) (planned : planFileTool tool workingDir input = some plan) :
    SensitiveFilesAsked engine fs (fileToolContext tool workingDir input plan selection)
        ((requestedPaths tool input).filter reaches) ↔
      (selection.any fun selection => !selection.allows tool.name) = true ∨
        (∀ path ∈ (requestedPaths tool input).filter reaches, isSensitivePath path = false) ∨
        ∃ path ∈ extractToolPaths input, sensitiveSpelling workingDir path = true := by
  have noSearch : searchField tool.name = none := by cases tool <;> decide
  have asked : askKeys (askPolicies engine [])
      (fileToolContext tool workingDir input plan selection) = [] ↔
        ∀ path ∈ extractToolPaths input, sensitiveSpelling workingDir path = false :=
    askKeys_eq_nil_iff documents noSearch (planFileTool_files planned)
  have excludes : selectionExcludes (fileToolContext tool workingDir input plan selection) =
      selection.any fun selection => !selection.allows tool.name := rfl
  rw [← excludes]
  unfold SensitiveFilesAsked
  cases excluded : selectionExcludes (fileToolContext tool workingDir input plan selection) with
  | true =>
    simp only [true_or, iff_true]
    intro path _ _ allowed
    have included := ((decide_allow_iff fs noRules noAnswers rfl).mp allowed).2.1
    simp [excluded] at included
  | false =>
    simp only [Ne, decide_allow_noRules fs excluded rfl, asked, Bool.false_eq_true, false_or]
    constructor
    · intro kept
      by_cases sensitive : ∃ path ∈ (requestedPaths tool input).filter reaches,
          isSensitivePath path = true
      · obtain ⟨path, touched, bad⟩ := sensitive
        exact Or.inr (by simpa using kept path touched bad)
      · exact Or.inl (by simpa using sensitive)
    · rintro (harmless | ⟨spelled, member, asks⟩) path touched bad none
      · simp [harmless path touched] at bad
      · simp [none spelled member] at asks

def environmentPatch : Json :=
  .object [("patch", .string "--- a/.env\n+++ b/.env\n@@ -1 +1 @@\n-A=1\n+A=2\n")]

/-- An environment file below the working directory is read, and one in it is patched, without
an approval: the pattern has no directory in front, and a patch has no path value. -/
theorem environment_file_allowed :
    (planFileTool .read "/w".toList (.object [("path", .string "sub/.env")]) =
        some [.file .read "/w/sub/.env".toList false] ∧
      ¬SensitiveFilesAsked simpleEngine emptyFileSystem
        (fileToolContext .read "/w".toList (.object [("path", .string "sub/.env")])
          [.file .read "/w/sub/.env".toList false] none)
        (requestedPaths .read (.object [("path", .string "sub/.env")]))) ∧
    planFileTool .patch "/w".toList environmentPatch =
        some [.file .readWrite "/w/.env".toList false, .file .readWrite "/w/.env".toList false] ∧
      ¬SensitiveFilesAsked simpleEngine emptyFileSystem
        (fileToolContext .patch "/w".toList environmentPatch
          [.file .readWrite "/w/.env".toList false, .file .readWrite "/w/.env".toList false] none)
        (requestedPaths .patch environmentPatch) := by
  refine ⟨⟨by decide +kernel, fun asked => ?_⟩, by decide +kernel, fun asked => ?_⟩
  · exact asked "sub/.env".toList (by decide +kernel) (by decide +kernel) (by decide +kernel)
  · exact asked ".env".toList (by decide +kernel) (by decide +kernel) (by decide +kernel)

/-- In the working directory itself the file is asked about. -/
theorem environment_file_asked :
    planFileTool .read "/w".toList (.object [("path", .string ".env")]) =
        some [.file .read "/w/.env".toList false] ∧
      SensitiveFilesAsked simpleEngine emptyFileSystem
        (fileToolContext .read "/w".toList (.object [("path", .string ".env")])
          [.file .read "/w/.env".toList false] none)
        ((requestedPaths .read (.object [("path", .string ".env")])).filter fun _ => true) := by
  have planned : planFileTool .read "/w".toList (.object [("path", .string ".env")]) =
      some [.file .read "/w/.env".toList false] := by decide +kernel
  exact ⟨planned, (sensitive_files_asked_iff simpleEngine emptyFileSystem
    simpleEngine_sensitiveGlobs .read _ _ _ none (fun _ => true) planned).mpr
      (Or.inr (Or.inr ⟨".env".toList, by decide +kernel, by decide +kernel⟩))⟩

end Astrcode
