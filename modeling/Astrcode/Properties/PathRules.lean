import Astrcode.Properties.PermissionChain

/-!
# Rules, paths and spellings

What the permission chain makes of the paths in a call's arguments. A rule with a path
pattern matches a call as soon as one of the paths matches, so an allow rule can let
through paths it was not written for; and all policies compare spellings, so two calls
for one file can be answered differently. Both results say exactly when that happens.
-/
namespace Astrcode

open Library

section Rules

variable (engine : GlobEngine) (fs : FileSystem)

/-! ### Allow rules with a path pattern -/

/-- Tool and text pattern of a rule fit the call. -/
def ruleApplies (rule : PermissionRule) (ctx : PermissionContext) : Bool :=
  (rule.tool = ctx.toolName || rule.tool = "*") &&
    rule.pattern.all fun pattern => containsText pattern.toList ctx.toolInput.render

/-- A pattern that does not compile restricts nothing; otherwise one path is enough. -/
theorem ruleMatches_of_path {rule : PermissionRule} {pattern : String} (ctx : PermissionContext)
    (restricted : rule.path = some pattern) :
    ruleMatches (compileRule engine rule) ctx =
      (ruleApplies rule ctx && (buildGlobset engine pattern).all fun globset =>
        (extractToolPaths ctx.toolInput).any (pathMatchesGlob engine · ctx.workingDir globset)) := by
  have compiled : (compileRule engine rule).pathGlob = buildGlobset engine pattern := by
    simp [compileRule, restricted]
  have text : (compileRule engine rule).pattern = rule.pattern := rfl
  have tool : (compileRule engine rule).tool = rule.tool := rfl
  unfold ruleMatches ruleApplies
  rw [compiled, text, tool]
  by_cases named : rule.tool = ctx.toolName ∨ rule.tool = "*"
  · have kept : ¬(rule.tool ≠ ctx.toolName ∧ rule.tool ≠ "*") := by tauto
    have fits : (decide (rule.tool = ctx.toolName) || decide (rule.tool = "*")) = true := by
      simpa using named
    rw [if_neg kept, fits]
    cases rule.pattern with
    | none | some => cases buildGlobset engine pattern <;> simp
  · have dropped : rule.tool ≠ ctx.toolName ∧ rule.tool ≠ "*" := by tauto
    simp [dropped]

/-- Every path the arguments name matches the pattern, which compiles. -/
def EveryPathMatches (pattern : String) (ctx : PermissionContext) : Prop :=
  ∃ globset, buildGlobset engine pattern = some globset ∧
    ∀ path ∈ collectPaths ctx.toolInput, pathMatchesGlob engine path ctx.workingDir globset = true

/-- If the call is allowed with the rule and not without it, the rule's pattern covers it. -/
def RuleStaysNarrow (deny ask before after : List PermissionRule) (rule : PermissionRule)
    (ctx : PermissionContext) (history : ApprovalHistory) : Prop :=
  ∀ pattern, rule.path = some pattern →
    decidePermission (buildDefaultChain engine fs ⟨deny, ask, before ++ rule :: after⟩) ctx history
      = .allow →
    decidePermission (buildDefaultChain engine fs ⟨deny, ask, before ++ after⟩) ctx history
      ≠ .allow →
    EveryPathMatches engine pattern ctx

/-- Nothing denies the call, and neither the other allow rules nor remembered answers allow it. -/
structure NeedsAllowRule (deny ask others : List PermissionRule) (ctx : PermissionContext)
    (history : ApprovalHistory) : Prop where
  notDenied : rulesMatch engine deny ctx = false
  selected : selectionExcludes ctx = false
  noOther : rulesMatch engine others ctx = false
  unanswered : answeredKind history (askKeys (askPolicies engine ask) ctx) ≠ .allow

variable {engine} {ctx : PermissionContext}

/-- The rule makes the difference exactly when it is needed and matches. -/
private theorem rule_decides_iff {deny ask before after : List PermissionRule}
    {rule : PermissionRule} {history : ApprovalHistory} (manual : ctx.approvalMode = .manual) :
    (decidePermission (buildDefaultChain engine fs ⟨deny, ask, before ++ rule :: after⟩) ctx history
        = .allow ∧
      decidePermission (buildDefaultChain engine fs ⟨deny, ask, before ++ after⟩) ctx history
        ≠ .allow) ↔
    NeedsAllowRule engine deny ask (before ++ after) ctx history ∧
      ruleMatches (compileRule engine rule) ctx = true := by
  have inserted : rulesMatch engine (before ++ rule :: after) ctx =
      (ruleMatches (compileRule engine rule) ctx || rulesMatch engine (before ++ after) ctx) := by
    simp only [rulesMatch, List.any_append, List.any_cons]
    ac_rfl
  rw [Ne, decide_allow_iff fs _ _ manual, decide_allow_iff fs _ _ manual, inserted]
  constructor
  · rintro ⟨⟨notDenied, selected, allowed⟩, without⟩
    have noOther : rulesMatch engine (before ++ after) ctx = false := by
      by_contra other
      exact without ⟨notDenied, selected, Or.inl (by simpa using other)⟩
    have unanswered : answeredKind history (askKeys (askPolicies engine ask) ctx) ≠ .allow :=
      fun answered => without ⟨notDenied, selected, Or.inr answered⟩
    refine ⟨⟨notDenied, selected, noOther, unanswered⟩, ?_⟩
    simpa [noOther, unanswered] using allowed
  · rintro ⟨⟨notDenied, selected, noOther, unanswered⟩, found⟩
    refine ⟨⟨notDenied, selected, Or.inl (by simp [found])⟩, ?_⟩
    rintro ⟨-, -, other | answered⟩
    · simp [noOther] at other
    · exact unanswered answered

variable (engine)

/-- In manual mode an allow rule with a path pattern stays narrow exactly when, for a call that
needs it and that it applies to, its pattern compiles and matches none of the paths or all. -/
theorem rule_stays_narrow_iff (deny ask before after : List PermissionRule) (rule : PermissionRule)
    (ctx : PermissionContext) (history : ApprovalHistory) (manual : ctx.approvalMode = .manual) :
    RuleStaysNarrow engine fs deny ask before after rule ctx history ↔
      ∀ pattern, rule.path = some pattern →
        NeedsAllowRule engine deny ask (before ++ after) ctx history →
        ruleApplies rule ctx = true →
        ∃ globset, buildGlobset engine pattern = some globset ∧
          ((∀ path ∈ extractToolPaths ctx.toolInput,
              pathMatchesGlob engine path ctx.workingDir globset = false) ∨
            ∀ path ∈ collectPaths ctx.toolInput,
              pathMatchesGlob engine path ctx.workingDir globset = true) := by
  refine forall₂_congr fun pattern restricted => ?_
  have matching := ruleMatches_of_path engine ctx restricted
  constructor
  · intro narrow needed applies
    have covered : ruleMatches (compileRule engine rule) ctx = true →
        EveryPathMatches engine pattern ctx := fun found =>
      have decides := (rule_decides_iff fs manual).mpr ⟨needed, found⟩
      narrow decides.1 decides.2
    cases compiled : buildGlobset engine pattern with
    | none =>
      -- the rule then matches whatever the paths are
      obtain ⟨globset, same, -⟩ := covered (by simp [matching, applies, compiled])
      simp [compiled] at same
    | some globset =>
      refine ⟨globset, rfl, ?_⟩
      by_cases some : (extractToolPaths ctx.toolInput).any
          (pathMatchesGlob engine · ctx.workingDir globset) = true
      · obtain ⟨other, same, every⟩ := covered (by simp [matching, applies, compiled, some])
        rw [compiled, Option.some_inj] at same
        exact Or.inr (same ▸ every)
      · exact Or.inl (by simpa using some)
  · intro condition allowed without
    obtain ⟨needed, found⟩ := (rule_decides_iff fs manual).mp ⟨allowed, without⟩
    rw [matching, Bool.and_eq_true] at found
    obtain ⟨globset, compiled, none | every⟩ := condition needed found.1
    · have one := found.2
      rw [compiled] at one
      simp only [Option.all_some, List.any_eq_true] at one
      obtain ⟨path, member, hit⟩ := one
      simp [none path member] at hit
    · exact ⟨globset, compiled, every⟩

end Rules

def sampleRead (input : Json) : PermissionContext where
  toolName := "read"
  toolInput := input
  workingDir := "/w".toList
  resourceAccesses := [.file .read "/w/a".toList false]
  approvalMode := .manual
  toolSelection := none

def askForAll : List PermissionRule := [⟨"*", none, none⟩]

def sourceRule (pattern : String) : PermissionRule := ⟨"read", none, some pattern⟩

def sourceGlob : SimpleGlob := ⟨false, "src".toList.map .literal, true⟩

private theorem sourceGlob_compiled : buildGlobset simpleEngine "src/**" = some [sourceGlob] := by
  change ["src/**".toList].mapM parseSimpleGlob = some [sourceGlob]
  decide +kernel

/-- A rule for the sources that lets a call through to a second path, and a rule whose pattern
does not compile and lets everything through. -/
theorem path_rule_widens :
    ¬RuleStaysNarrow simpleEngine emptyFileSystem [] askForAll [] [] (sourceRule "src/**")
        (sampleRead (.object [("paths", .array [.string "src/a.rs", .string ".env"])])) noAnswers ∧
      ¬RuleStaysNarrow simpleEngine emptyFileSystem [] askForAll [] [] (sourceRule "[")
        (sampleRead (.object [("path", .string ".env")])) noAnswers := by
  constructor
  · intro narrow
    obtain ⟨globset, compiled, every⟩ := narrow _ rfl (by decide +kernel) (by decide +kernel)
    obtain rfl := Option.some_inj.mp (sourceGlob_compiled.symm.trans compiled)
    have matched := every ".env".toList (by decide +kernel)
    revert matched
    decide +kernel
  · intro narrow
    obtain ⟨globset, compiled, -⟩ := narrow _ rfl (by decide +kernel) (by decide +kernel)
    have refused : buildGlobset simpleEngine "[" = none := by decide +kernel
    simp [refused] at compiled

/-- One path, which the rule names and which only the rule lets through. -/
theorem source_rule_narrow :
    NeedsAllowRule simpleEngine [] askForAll []
        (sampleRead (.object [("path", .string "src/a.rs")])) noAnswers ∧
      RuleStaysNarrow simpleEngine emptyFileSystem [] askForAll [] [] (sourceRule "src/**")
        (sampleRead (.object [("path", .string "src/a.rs")])) noAnswers := by
  refine ⟨⟨rfl, rfl, rfl, by decide +kernel⟩, ?_⟩
  refine (rule_stays_narrow_iff simpleEngine emptyFileSystem [] askForAll [] [] _ _ _ rfl).mpr ?_
  intro pattern named _ _
  obtain rfl := Option.some_inj.mp named
  exact ⟨_, sourceGlob_compiled, Or.inr (by decide +kernel)⟩

/-! ### Spellings -/

/-- The file a path value names as far as text can tell. -/
def resolvedPath (workingDir path : PathText) : List PathComponent :=
  normalizeComponents (components (joinPath workingDir path))

/-- Equal values, or two paths that name one file. -/
def SamePathValue (workingDir : PathText) (a b : Json) : Prop :=
  a = b ∨ ∃ p q, a = .string p ∧ b = .string q ∧ p ≠ "" ∧ q ≠ "" ∧
    resolvedPath workingDir p.toList = resolvedPath workingDir q.toList

/-- The values of `paths` and `files`: equal, or lists that differ in spellings only. -/
def SameListedPaths (workingDir : PathText) (a b : Json) : Prop :=
  a = b ∨ ∃ xs ys, a = .array xs ∧ b = .array ys ∧ List.Forall₂ (SamePathValue workingDir) xs ys

mutual

/-- The two arguments differ only in how the paths in them are spelled. -/
def SameArguments (workingDir : PathText) : Json → Json → Prop
  | .object members, .object others => SameMembers workingDir members others
  | .array items, .array others => SameItems workingDir items others
  | a, b => a = b

def SameItems (workingDir : PathText) : List Json → List Json → Prop
  | [], [] => True
  | item :: items, other :: others =>
    SameArguments workingDir item other ∧ SameItems workingDir items others
  | _, _ => False

def SameMembers (workingDir : PathText) : List (String × Json) → List (String × Json) → Prop
  | [], [] => True
  | (key, value) :: members, (key', value') :: others =>
    key = key' ∧
      (if pathKeys.contains key then SamePathValue workingDir value value'
        else if key = "paths" ∨ key = "files" then SameListedPaths workingDir value value'
        else SameArguments workingDir value value') ∧
      SameMembers workingDir members others
  | _, _ => False

end

section Spellings

variable (engine : GlobEngine) (fs : FileSystem) (permissions : PermissionsSection)
  (ctx : PermissionContext)

/-- For every history and mode the chain resolves a call and its other spelling alike. -/
def SpellingInvariant (other : Json) :
    Prop :=
  SameArguments ctx.workingDir ctx.toolInput other → ∀ history mode,
    (decidePermission (buildDefaultChain engine fs permissions)
        { ctx with approvalMode := mode } history).kind =
      (decidePermission (buildDefaultChain engine fs permissions)
        { ctx with toolInput := other, approvalMode := mode } history).kind

/-- The keys of the approvals a call needs that no allow rule lets through. -/
def pendingKeys : List String :=
  if rulesMatch engine permissions.allow ctx then []
  else askKeys (askPolicies engine permissions.ask) ctx

/-- The chain in terms of the approvals that are pending. -/
private theorem decide_kind_pending (history : ApprovalHistory) (mode : ApprovalMode) :
    (decidePermission (buildDefaultChain engine fs permissions)
        { ctx with approvalMode := mode } history).kind =
      if rulesMatch engine permissions.deny ctx || selectionExcludes ctx then .deny
      else if mode = .yolo then .allow
      else answeredKind history (pendingKeys engine permissions ctx) := by
  rw [decide_kind]
  -- neither the rules nor the keys of the asks look at the mode
  have rules : ∀ rules, rulesMatch engine rules { ctx with approvalMode := mode } =
      rulesMatch engine rules ctx := fun _ => rfl
  have excludes : selectionExcludes { ctx with approvalMode := mode } = selectionExcludes ctx := rfl
  have keys : askKeys (askPolicies engine permissions.ask) { ctx with approvalMode := mode } =
      askKeys (askPolicies engine permissions.ask) ctx := rfl
  rw [rules, rules, excludes, keys]
  refine if_congr Iff.rfl rfl ?_
  unfold pendingKeys
  cases rulesMatch engine permissions.allow ctx with
  | true => simp [answeredKind]
  | false => simp

/-- A history that denies one key tells lists with and without the key apart. -/
private theorem pending_subset {keys others : List String}
    (same : ∀ history, answeredKind history keys = answeredKind history others) :
    ∀ key ∈ keys, key ∈ others := by
  intro key member
  have denied : answeredKind ⟨[], [key]⟩ keys = .deny :=
    answeredKind_deny_iff.mpr ⟨key, member, by simp [ApprovalHistory.isDeniedAlways]⟩
  rw [same, answeredKind_deny_iff] at denied
  obtain ⟨found, inside, is⟩ := denied
  have this : found = key := by simpa [ApprovalHistory.isDeniedAlways] using is
  exact this ▸ inside

private theorem answers_agree_iff {denied denied' excluded : Bool} {keys keys' : List String} :
    (∀ (history : ApprovalHistory) (mode : ApprovalMode),
      (if denied || excluded then .deny
        else if mode = .yolo then .allow else answeredKind history keys) =
      if denied' || excluded then .deny
        else if mode = .yolo then .allow else answeredKind history keys') ↔
      excluded = true ∨ denied = denied' ∧ (denied = true ∨ ∀ key, key ∈ keys ↔ key ∈ keys') := by
  cases excluded with
  | true => simp
  | false =>
    simp only [Bool.or_false, Bool.false_eq_true, false_or]
    constructor
    · intro agree
      have manual := agree noAnswers .manual
      cases denied <;> cases denied'
      · have alike : ∀ history, answeredKind history keys = answeredKind history keys' := by
          intro history
          simpa using agree history .manual
        exact ⟨rfl, Or.inr fun key =>
          ⟨pending_subset alike key, pending_subset (fun history => (alike history).symm) key⟩⟩
      · exact absurd (by simpa using manual) answeredKind_noAnswers
      · exact absurd (by simpa using manual.symm) answeredKind_noAnswers
      · exact ⟨rfl, Or.inl rfl⟩
    · rintro ⟨rfl, rfl | same⟩ history mode
      · rfl
      · rw [answeredKind_congr same]

/-- A rule set answers a call and its other spelling alike, for every history and mode, exactly
when the selection excludes the tool, or the deny rules treat both alike and, unless they
deny, the same approvals are pending for both. -/
theorem spelling_invariant_iff (permissions : PermissionsSection) (ctx : PermissionContext)
    (other : Json) :
    SpellingInvariant engine fs permissions ctx other ↔
      (SameArguments ctx.workingDir ctx.toolInput other →
        selectionExcludes ctx = true ∨
          rulesMatch engine permissions.deny ctx =
              rulesMatch engine permissions.deny { ctx with toolInput := other } ∧
            (rulesMatch engine permissions.deny ctx = true ∨
              ∀ key, key ∈ pendingKeys engine permissions ctx ↔
                key ∈ pendingKeys engine permissions { ctx with toolInput := other })) := by
  refine imp_congr_right fun _ => ?_
  have first := decide_kind_pending engine fs permissions ctx
  have second := decide_kind_pending engine fs permissions { ctx with toolInput := other }
  simp only [first, second]
  exact answers_agree_iff

end Spellings

/-- One file, and a leading dot makes the difference: the patterns for environment files are
compared with the spelling. -/
theorem dotted_path_not_asked :
    ¬SpellingInvariant simpleEngine emptyFileSystem noRules
      (sampleRead (.object [("path", .string ".env")])) (.object [("path", .string "./.env")]) := by
  intro invariant
  have oneFile : SamePathValue "/w".toList (.string ".env") (.string "./.env") :=
    Or.inr ⟨".env", "./.env", rfl, rfl, by decide, by decide, by decide +kernel⟩
  have answers := invariant ⟨rfl, oneFile, trivial⟩ noAnswers .manual
  revert answers
  decide +kernel

end Astrcode
