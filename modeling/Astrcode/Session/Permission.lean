import Astrcode.Core.ToolSelection
import Astrcode.Library.Globs
import Astrcode.Library.Paths

/-!
# The permission chain of a session

`astrcode-session/src/permission`: before a tool runs, twelve policies look at the call
one after the other. A policy allows, denies, asks for an approval or passes. Asks are
collected, a denial ends the evaluation, and the first policy that allows settles it: the
call is allowed if nothing was asked. Answers the user gave for the whole session settle
the ask they belong to.

Globs are compiled by a library and `is_path_within` asks the file system; both are
parameters. Paths and texts are lists of characters.
-/
namespace Astrcode

open Library

/-! ### Types -/

inductive ApprovalMode where
  | manual
  | yolo
  deriving DecidableEq

structure PermissionRule where
  tool : String
  pattern : Option String
  path : Option String
  deriving DecidableEq

structure PermissionsSection where
  deny : List PermissionRule
  ask : List PermissionRule
  allow : List PermissionRule
  deriving DecidableEq

inductive FileOperation where
  | read
  | search
  | write
  | readWrite
  deriving DecidableEq

inductive HostResource where
  | process
  | toolResultArtifact
  | session
  | model
  | network
  | event
  | extensionHttp
  | extensionService
  deriving DecidableEq

/-- What a tool call declares to touch; `opaqueEffect` is a side effect outside the host. -/
inductive ResourceAccess where
  | file (operation : FileOperation) (path : PathText) (recursive : Bool)
  | host (resource : HostResource)
  | opaqueEffect
  deriving DecidableEq

inductive PolicyDecision where
  | allow
  | deny (reason : String)
  | ask (prompt : String) (ruleKey : Option String)
  | pass
  deriving DecidableEq

structure PermissionRequirement where
  prompt : String
  ruleKey : Option String
  deriving DecidableEq

inductive PermissionResolution where
  | allow
  | deny (reason : String)
  | ask (requirements : List PermissionRequirement)
  deriving DecidableEq

structure PermissionContext where
  toolName : String
  toolInput : Json
  workingDir : PathText
  resourceAccesses : List ResourceAccess
  approvalMode : ApprovalMode
  toolSelection : Option SessionToolSelection

abbrev PermissionPolicy := PermissionContext → PolicyDecision

/-- The answers that hold for the rest of the session. -/
structure ApprovalHistory where
  allowedAlways : List String
  deniedAlways : List String
  deriving DecidableEq

namespace ApprovalHistory

def isAllowedAlways (history : ApprovalHistory) (ruleKey : String) : Bool :=
  history.allowedAlways.contains ruleKey

def isDeniedAlways (history : ApprovalHistory) (ruleKey : String) : Bool :=
  history.deniedAlways.contains ruleKey

end ApprovalHistory

/-- What the operating system answers about paths. -/
structure FileSystem where
  canonicalize : PathText → Option PathText
  pathExists : PathText → Bool

/-! ### Paths in the arguments -/

def Json.asStr? : Json → Option String
  | .string s => some s
  | _ => none

def Json.get? (key : String) : Json → Option Json
  | .object members => (members.find? fun member => member.1 = key).map (·.2)
  | _ => none

def pathKeys : List String := ["path", "file", "filePath", "target", "directory", "dir"]

def pushPathValue (value : Json) : List PathText :=
  match Json.asStr? value with
  | some text => if text = "" then [] else [text.toList]
  | none => []

def listedPaths : Json → List PathText
  | .array items => items.flatMap pushPathValue
  | _ => []

mutual

def collectPaths : Json → List PathText
  | .object members => collectMembers members
  | .array items => collectItems items
  | _ => []

def collectItems : List Json → List PathText
  | [] => []
  | item :: items => collectPaths item ++ collectItems items

def collectMembers : List (String × Json) → List PathText
  | [] => []
  | (key, value) :: members =>
    (if pathKeys.contains key then pushPathValue value
    else if key = "paths" ∨ key = "files" then listedPaths value
    else collectPaths value) ++ collectMembers members

end

def extractToolPaths (input : Json) : List PathText := sortPaths (collectPaths input)

def pathForMatching (path workingDir : PathText) : List Char :=
  ((stripPathPrefix path workingDir).getD path).map fun c => if c = '\\' then '/' else c

def pathMatchesGlob (engine : GlobEngine) (path workingDir : PathText) (globset : List engine.Glob) :
    Bool :=
  engine.anyMatch globset (pathForMatching path workingDir) || engine.anyMatch globset path

/-! ### Configured rules -/

/-- `str::contains`. -/
def containsText (pattern text : List Char) : Bool := text.tails.any pattern.isPrefixOf

structure CompiledRule (engine : GlobEngine) where
  tool : String
  pattern : Option String
  pathGlob : Option (List engine.Glob)

inductive ConfiguredEffect where
  | deny
  | allow
  | ask
  deriving DecidableEq

section Configured

variable (engine : GlobEngine)

def buildGlobset (pattern : String) : Option (List engine.Glob) :=
  engine.compileAll [pattern.toList]

/-- A path pattern that does not compile is dropped without a word. -/
def compileRule (rule : PermissionRule) : CompiledRule engine :=
  ⟨rule.tool, rule.pattern, rule.path.bind (buildGlobset engine)⟩

variable {engine}

def ruleMatches (rule : CompiledRule engine) (ctx : PermissionContext) : Bool :=
  if rule.tool ≠ ctx.toolName ∧ rule.tool ≠ "*" then false
  else if rule.pattern.any (fun pattern => !containsText pattern.toList ctx.toolInput.render) then
    false
  else match rule.pathGlob with
    | some globset =>
      let paths := extractToolPaths ctx.toolInput
      -- without any path, `any` is false as well
      paths.any fun path => pathMatchesGlob engine path ctx.workingDir globset
    | none => true

def configuredDecision (effect : ConfiguredEffect) (ctx : PermissionContext)
    (rule : CompiledRule engine) : PolicyDecision :=
  match effect with
  | .deny => .deny ("Denied by user rule for tool `" ++ ctx.toolName ++ "`")
  | .allow => .allow
  | .ask =>
    .ask ("User rule requires approval for tool `" ++ ctx.toolName ++ "`")
      (some ("configured:" ++ rule.tool))

variable (engine)

def configuredPolicy (rules : List PermissionRule) (effect : ConfiguredEffect) : PermissionPolicy :=
  fun ctx =>
    match (rules.map (compileRule engine)).find? (ruleMatches · ctx) with
    | some rule => configuredDecision effect ctx rule
    | none => .pass

end Configured

/-! ### The other policies -/

def sessionToolSelectionPolicy : PermissionPolicy := fun ctx =>
  match ctx.toolSelection with
  | none => .pass
  | some selection =>
    if selection.allows ctx.toolName then .pass
    else .deny ("Tool '" ++ ctx.toolName ++ "' is outside this session's selection")

def yoloModeApprovePolicy : PermissionPolicy := fun ctx =>
  if ctx.approvalMode = .yolo then .allow else .pass

def sensitivePatterns : List String :=
  [".env", ".env.*", "**/.ssh/**", "**/.git/**", "**/.aws/**", "**/.azure/**", "**/.gcloud/**",
    "**/.gitconfig", "**/.npmrc", "**/credentials*", "**/secret*", "**/*.pem", "**/*.key",
    "**/id_rsa*", "**/id_ed25519*"]

def hasUnescapedGlobMeta (escaped : Bool) : List Char → Bool
  | [] => false
  | c :: rest =>
    if escaped then hasUnescapedGlobMeta false rest
    else if c = '\\' then hasUnescapedGlobMeta true rest
    else if c = '*' ∨ c = '?' ∨ c = '[' ∨ c = '{' then true
    else hasUnescapedGlobMeta false rest

section SensitiveFiles

variable (engine : GlobEngine)

def buildSensitiveGlobset : Option (List engine.Glob) :=
  engine.compileAll (sensitivePatterns.map (·.toList))

/-- Without a set of patterns every path counts as sensitive. -/
def isSensitiveToolPath (path workingDir : PathText) : Bool :=
  match buildSensitiveGlobset engine with
  | none => true
  | some globset => pathMatchesGlob engine path workingDir globset

def searchField (toolName : String) : Option String :=
  if toolName = "grep" then some "glob" else if toolName = "glob" then some "pattern" else none

def sensitiveSearchPattern (ctx : PermissionContext) : Option (List Char) := do
  let field ← searchField ctx.toolName
  let value ← Json.get? field ctx.toolInput
  let text ← Json.asStr? value
  let pattern := trimChars text.toList
  if pattern.isEmpty then none
  else match buildSensitiveGlobset engine with
    | none => some pattern
    | some globset =>
      if hasUnescapedGlobMeta false pattern || engine.anyMatch globset pattern then some pattern
      else none

def sensitivePrompt (path : PathText) : String :=
  if (buildSensitiveGlobset engine).isSome then
    "Access sensitive path `" ++ String.ofList path ++ "`?"
  else
    "Sensitive-file policy is unavailable; allow access to `" ++ String.ofList path ++ "`?"

def sensitiveFileAskPolicy : PermissionPolicy := fun ctx =>
  match (extractToolPaths ctx.toolInput).find? (isSensitiveToolPath engine · ctx.workingDir) with
  | some path =>
    .ask (sensitivePrompt engine path)
      (some ("sensitive:" ++ String.ofList (pathForMatching path ctx.workingDir)))
  | none =>
    match sensitiveSearchPattern engine ctx with
    | some pattern =>
      .ask ("Search sensitive path pattern `" ++ String.ofList pattern ++ "`?")
        (some ("sensitive:" ++ String.ofList pattern))
    | none => .pass

end SensitiveFiles

def isGitMetadataPath (path workingDir : PathText) : Bool :=
  let rel := pathForMatching path workingDir
  containsText ".git/".toList rel || ".git".toList.isPrefixOf rel || rel = ".git".toList

def gitPathAskPolicy : PermissionPolicy := fun ctx =>
  match (extractToolPaths ctx.toolInput).find? (isGitMetadataPath · ctx.workingDir) with
  | some path =>
    .ask ("Access git metadata at `" ++ String.ofList path ++ "`?") (some "git-path")
  | none => .pass

def processRuleKey (toolName : String) : String :=
  "process-resource:" ++ if toolName = "shell_poll" then "shell" else toolName

def commandText (input : Json) : Option String :=
  (((Json.get? "command" input).or (Json.get? "cmd" input)).bind Json.asStr?).filter (· ≠ "")

def processResourceAskPolicy : PermissionPolicy := fun ctx =>
  if ctx.resourceAccesses.contains (.host .process) then
    .ask
      (match commandText ctx.toolInput with
        | some command =>
          "Allow tool `" ++ ctx.toolName ++ "` to run a process?\n" ++ command
        | none => "Allow tool `" ++ ctx.toolName ++ "` to control a process?")
      (some (processRuleKey ctx.toolName))
  else .pass

def opaqueResourceAskPolicy : PermissionPolicy := fun ctx =>
  if ctx.resourceAccesses.contains .opaqueEffect then
    .ask
      ("Tool `" ++ ctx.toolName ++
        "` may perform external side effects that AstrCode cannot scope")
      (some ("opaque-resource:" ++ ctx.toolName))
  else .pass

def defaultReadApprovePolicy : PermissionPolicy := fun ctx =>
  if ctx.toolName = "read" ∨ ctx.toolName = "grep" ∨ ctx.toolName = "glob" then .allow else .pass

/-- `hostpaths::is_path_within`: by what the file system makes of the paths, where it knows
them or one of their ancestors. -/
def isPathWithin (fs : FileSystem) (candidate root : PathText) : Bool :=
  match fs.canonicalize root with
  | none =>
    startsWithPath (normalizeComponents (components candidate))
      (normalizeComponents (components root))
  | some root =>
    match fs.canonicalize candidate with
    | some candidate => startsWithPath (components candidate) (components root)
    | none =>
      (((ancestors candidate).find? fs.pathExists).bind fs.canonicalize).any fun ancestor =>
        startsWithPath (components ancestor) (components root)

def gitCwdWriteApprovePolicy (fs : FileSystem) : PermissionPolicy := fun ctx =>
  if ctx.toolName = "write" ∨ ctx.toolName = "edit" ∨ ctx.toolName = "patch" then
    let paths := extractToolPaths ctx.toolInput
    if paths.isEmpty then .pass
    else if paths.all fun path => isPathWithin fs (joinPath ctx.workingDir path) ctx.workingDir then
      .allow
    else .pass
  else .pass

def fallbackAllowPolicy : PermissionPolicy := fun _ => .allow

/-! ### The chain -/

/-- Evaluates the policies in order, with the requirements collected so far. -/
def decideFrom (ctx : PermissionContext) (history : ApprovalHistory)
    (requirements : List PermissionRequirement) : List PermissionPolicy → PermissionResolution
  | [] => .deny "permission chain has no terminal allow policy"
  | policy :: policies =>
    match policy ctx with
    | .ask prompt (some ruleKey) =>
      if history.isDeniedAlways ruleKey then
        .deny ("Denied by session approval memory (" ++ ruleKey ++ ")")
      else if history.isAllowedAlways ruleKey then decideFrom ctx history requirements policies
      else decideFrom ctx history (requirements ++ [⟨prompt, some ruleKey⟩]) policies
    | .ask prompt none => decideFrom ctx history (requirements ++ [⟨prompt, none⟩]) policies
    | .deny reason => .deny reason
    | .allow => if requirements.isEmpty then .allow else .ask requirements
    | .pass => decideFrom ctx history requirements policies

def decidePermission (policies : List PermissionPolicy) (ctx : PermissionContext)
    (history : ApprovalHistory) : PermissionResolution :=
  decideFrom ctx history [] policies

def buildDefaultChain (engine : GlobEngine) (fs : FileSystem) (permissions : PermissionsSection) :
    List PermissionPolicy :=
  [configuredPolicy engine permissions.deny .deny,
    sessionToolSelectionPolicy,
    yoloModeApprovePolicy,
    configuredPolicy engine permissions.allow .allow,
    configuredPolicy engine permissions.ask .ask,
    sensitiveFileAskPolicy engine,
    gitPathAskPolicy,
    processResourceAskPolicy,
    opaqueResourceAskPolicy,
    defaultReadApprovePolicy,
    gitCwdWriteApprovePolicy fs,
    fallbackAllowPolicy]

end Astrcode
