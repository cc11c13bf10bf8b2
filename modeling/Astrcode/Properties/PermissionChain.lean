import Astrcode.Session.Permission

/-!
# What the permission chain decides

The twelve policies of the default chain amount to a short case distinction. A matching
deny rule or a tool outside the selection denies the call; otherwise yolo mode or a
matching allow rule allows it; otherwise the answers remembered for the asks that apply
decide. Everything else about the chain is derived from that.
-/
namespace Astrcode

variable {keys : List String} {history : ApprovalHistory}

open Library List

/-! ### Kinds of resolutions -/

inductive ResolutionKind where
  | allow
  | deny
  | ask
  deriving DecidableEq

def PermissionResolution.kind : PermissionResolution → ResolutionKind
  | .allow => .allow
  | .deny _ => .deny
  | .ask _ => .ask

theorem PermissionResolution.kind_allow_iff {resolution : PermissionResolution} :
    resolution.kind = .allow ↔ resolution = .allow := by
  cases resolution <;> simp [kind]

/-- The key of an ask. -/
@[simp] def PolicyDecision.askKey? : PolicyDecision → Option String
  | .ask _ key => key
  | _ => none

/-- The policy passes or asks for something that can be remembered. -/
def AsksOnly (policy : PermissionPolicy) (ctx : PermissionContext) : Prop :=
  policy ctx = .pass ∨ ∃ prompt key, policy ctx = .ask prompt (some key)

def askKeys (policies : List PermissionPolicy) (ctx : PermissionContext) : List String :=
  policies.filterMap fun policy => (policy ctx).askKey?

/-- What the remembered answers make of the asks that apply. -/
def answeredKind (history : ApprovalHistory) (keys : List String) : ResolutionKind :=
  if keys.any history.isDeniedAlways then .deny
  else if keys.all history.isAllowedAlways then .allow
  else .ask

theorem answeredKind_deny_iff :
    answeredKind history keys = .deny ↔ ∃ key ∈ keys, history.isDeniedAlways key = true := by
  unfold answeredKind
  split
  next denied => simpa using denied
  next none =>
    have free : ¬∃ key ∈ keys, history.isDeniedAlways key = true := by simpa using none
    split <;> simp [free]

/-- The remembered answers only look at which keys there are. -/
theorem answeredKind_congr {others : List String} (same : ∀ key, key ∈ keys ↔ key ∈ others) :
    answeredKind history keys = answeredKind history others := by
  simp [answeredKind, any_eq_true, all_eq_true, same]

def noAnswers : ApprovalHistory := ⟨[], []⟩

theorem answeredKind_noAnswers : answeredKind noAnswers keys ≠ .deny := by
  rw [Ne, answeredKind_deny_iff]
  rintro ⟨key, -, denied⟩
  simp [noAnswers, ApprovalHistory.isDeniedAlways] at denied

section Chain

variable {ctx : PermissionContext} {history : ApprovalHistory}

private theorem decideFrom_pass {policy : PermissionPolicy} {requirements : List PermissionRequirement}
    {policies : List PermissionPolicy} (passes : policy ctx = .pass) :
    decideFrom ctx history requirements (policy :: policies) =
      decideFrom ctx history requirements policies := by
  rw [decideFrom, passes]

/-- Asks in front of policies that settle the call. -/
private theorem decideFrom_asks {asks rest : List PermissionPolicy}
    (only : ∀ policy ∈ asks, AsksOnly policy ctx)
    (settles : ∀ requirements, (decideFrom ctx history requirements rest).kind =
      if requirements.isEmpty then .allow else .ask) (requirements : List PermissionRequirement) :
    (decideFrom ctx history requirements (asks ++ rest)).kind =
      if (askKeys asks ctx).any history.isDeniedAlways then .deny
      else if requirements.isEmpty && (askKeys asks ctx).all history.isAllowedAlways then .allow
      else .ask := by
  induction asks generalizing requirements with
  | nil => simp [askKeys, settles]
  | cons policy asks ih =>
    have others := ih (forall_mem_cons.mp only).2
    obtain passes | ⟨prompt, key, asked⟩ := only policy mem_cons_self
    · have keys : askKeys (policy :: asks) ctx = askKeys asks ctx := by
        simp [askKeys, passes]
      rw [cons_append, decideFrom_pass passes, others, keys]
    · have keys : askKeys (policy :: asks) ctx = key :: askKeys asks ctx := by
        simp [askKeys, asked]
      rw [cons_append, decideFrom, asked, keys]
      by_cases denied : history.isDeniedAlways key = true
      · simp [denied, PermissionResolution.kind]
      · by_cases allowed : history.isAllowedAlways key = true
        all_goals simp [denied, allowed, others]

end Chain

/-! ### The default chain -/

section DefaultChain

variable {rules : List PermissionRule} (engine : GlobEngine) (fs : FileSystem)

def rulesMatch (rules : List PermissionRule) (ctx : PermissionContext) : Bool :=
  rules.any fun rule => ruleMatches (compileRule engine rule) ctx

def selectionExcludes (ctx : PermissionContext) : Bool :=
  ctx.toolSelection.any fun selection => !selection.allows ctx.toolName

/-- The policies that can ask, in order. -/
def askPolicies (ask : List PermissionRule) : List PermissionPolicy :=
  [configuredPolicy engine ask .ask, sensitiveFileAskPolicy engine, gitPathAskPolicy,
    processResourceAskPolicy, opaqueResourceAskPolicy]

private theorem configuredPolicy_pass {effect : ConfiguredEffect}
    (none : rulesMatch engine rules ctx = false) :
    configuredPolicy engine rules effect ctx = .pass := by
  have nothing : (rules.map (compileRule engine)).find? (ruleMatches · ctx) = .none := by
    simpa [rulesMatch] using none
  rw [configuredPolicy, nothing]

private theorem configuredPolicy_match (effect : ConfiguredEffect)
    (found : rulesMatch engine rules ctx = true) :
    ∃ rule : CompiledRule engine,
      configuredPolicy engine rules effect ctx = configuredDecision effect ctx rule := by
  have some : ((rules.map (compileRule engine)).find? (ruleMatches · ctx)).isSome = true := by
    simpa [rulesMatch] using found
  obtain ⟨rule, same⟩ := Option.isSome_iff_exists.mp some
  exact ⟨rule, by rw [configuredPolicy, same]⟩

private theorem sessionToolSelectionPolicy_pass (included : selectionExcludes ctx = false) :
    sessionToolSelectionPolicy ctx = .pass := by
  unfold sessionToolSelectionPolicy
  unfold selectionExcludes at included
  cases selection : ctx.toolSelection with
  | none => rfl
  | some selection => simp_all

private theorem sessionToolSelectionPolicy_excludes (excluded : selectionExcludes ctx = true) :
    sessionToolSelectionPolicy ctx =
      .deny ("Tool '" ++ ctx.toolName ++ "' is outside this session's selection") := by
  unfold sessionToolSelectionPolicy
  unfold selectionExcludes at excluded
  cases selection : ctx.toolSelection with
  | none => simp [selection] at excluded
  | some selection => simp_all

private theorem askPolicies_only (ask : List PermissionRule) (ctx : PermissionContext) :
    ∀ policy ∈ askPolicies engine ask, AsksOnly policy ctx := by
  intro policy member
  simp only [askPolicies, mem_cons, not_mem_nil, or_false] at member
  obtain rfl | rfl | rfl | rfl | rfl := member
  · cases found : rulesMatch engine ask ctx with
    | false => exact Or.inl (configuredPolicy_pass engine found)
    | true =>
      obtain ⟨rule, same⟩ := configuredPolicy_match engine .ask found
      exact Or.inr ⟨_, _, same⟩
  · unfold AsksOnly sensitiveFileAskPolicy
    split
    · exact Or.inr ⟨_, _, rfl⟩
    · split
      · exact Or.inr ⟨_, _, rfl⟩
      · exact Or.inl rfl
  · unfold AsksOnly gitPathAskPolicy
    split
    · exact Or.inr ⟨_, _, rfl⟩
    · exact Or.inl rfl
  · unfold AsksOnly processResourceAskPolicy
    split
    · exact Or.inr ⟨_, _, rfl⟩
    · exact Or.inl rfl
  · unfold AsksOnly opaqueResourceAskPolicy
    split
    · exact Or.inr ⟨_, _, rfl⟩
    · exact Or.inl rfl

/-- The policies behind the asks allow in the end, whichever of them does. -/
private theorem settling_policies (ctx : PermissionContext) (history : ApprovalHistory)
    (requirements : List PermissionRequirement) :
    (decideFrom ctx history requirements
      [defaultReadApprovePolicy, gitCwdWriteApprovePolicy fs, fallbackAllowPolicy]).kind =
        if requirements.isEmpty then .allow else .ask := by
  have passOrAllow : ∀ policy ∈ [defaultReadApprovePolicy, gitCwdWriteApprovePolicy fs],
      policy ctx = .pass ∨ policy ctx = .allow := by
    intro policy member
    simp only [mem_cons, not_mem_nil, or_false] at member
    obtain rfl | rfl := member
    · unfold defaultReadApprovePolicy
      split <;> simp
    · unfold gitCwdWriteApprovePolicy
      split
      · simp only []
        split
        · simp
        · split <;> simp
      · simp
  have settled : ∀ resolution : PermissionResolution,
      resolution = (if requirements.isEmpty then .allow else .ask requirements) →
      resolution.kind = if requirements.isEmpty then .allow else .ask := by
    rintro _ rfl
    split <;> rfl
  apply settled
  simp only [decideFrom]
  obtain first | first := passOrAllow _ mem_cons_self
  · rw [first]
    obtain second | second := passOrAllow (gitCwdWriteApprovePolicy fs) (by simp)
    · simp [second, fallbackAllowPolicy]
    · simp [second]
  · rw [first]

variable (permissions : PermissionsSection)

/-- The whole chain as one case distinction. -/
theorem decide_kind (ctx : PermissionContext) (history : ApprovalHistory) :
    (decidePermission (buildDefaultChain engine fs permissions) ctx history).kind =
      if rulesMatch engine permissions.deny ctx || selectionExcludes ctx then .deny
      else if ctx.approvalMode = .yolo || rulesMatch engine permissions.allow ctx then .allow
      else answeredKind history (askKeys (askPolicies engine permissions.ask) ctx) := by
  unfold decidePermission buildDefaultChain
  cases denied : rulesMatch engine permissions.deny ctx with
  | true =>
    obtain ⟨rule, found⟩ := configuredPolicy_match engine .deny denied
    rw [decideFrom, found]
    rfl
  | false =>
    rw [decideFrom_pass (configuredPolicy_pass engine denied)]
    cases excluded : selectionExcludes ctx with
    | true =>
      rw [decideFrom, sessionToolSelectionPolicy_excludes excluded]
      rfl
    | false =>
      rw [decideFrom_pass (sessionToolSelectionPolicy_pass excluded)]
      by_cases yolo : ctx.approvalMode = .yolo
      · have allows : yoloModeApprovePolicy ctx = .allow := if_pos yolo
        rw [decideFrom, allows]
        simp [yolo, PermissionResolution.kind]
      · have passes : yoloModeApprovePolicy ctx = .pass := if_neg yolo
        rw [decideFrom_pass passes]
        cases allowed : rulesMatch engine permissions.allow ctx with
        | true =>
          obtain ⟨rule, found⟩ := configuredPolicy_match engine .allow allowed
          rw [decideFrom, found]
          simp [configuredDecision, PermissionResolution.kind]
        | false =>
          rw [decideFrom_pass (configuredPolicy_pass engine allowed)]
          have asks := decideFrom_asks (askPolicies_only engine permissions.ask ctx)
            (settling_policies fs ctx history) []
          simpa [yolo, answeredKind, askPolicies] using asks

variable {engine} {ctx : PermissionContext}

/-- In manual mode a call is allowed by an allow rule or by the answers remembered. -/
theorem decide_allow_iff (history : ApprovalHistory) (manual : ctx.approvalMode = .manual) :
    decidePermission (buildDefaultChain engine fs permissions) ctx history = .allow ↔
      rulesMatch engine permissions.deny ctx = false ∧ selectionExcludes ctx = false ∧
        (rulesMatch engine permissions.allow ctx = true ∨
          answeredKind history (askKeys (askPolicies engine permissions.ask) ctx) = .allow) := by
  rw [← PermissionResolution.kind_allow_iff, decide_kind]
  cases rulesMatch engine permissions.deny ctx
  · cases selectionExcludes ctx
    · cases rulesMatch engine permissions.allow ctx <;> simp [manual]
    · simp
  · simp

def noRules : PermissionsSection := ⟨[], [], []⟩

/-- Without rules and answers a call in manual mode is allowed if no policy asks. -/
theorem decide_allow_noRules (selected : selectionExcludes ctx = false)
    (manual : ctx.approvalMode = .manual) :
    decidePermission (buildDefaultChain engine fs noRules) ctx noAnswers = .allow ↔
      askKeys (askPolicies engine []) ctx = [] := by
  rw [decide_allow_iff fs _ _ manual]
  have none : rulesMatch engine [] ctx = false := rfl
  have answered : answeredKind noAnswers (askKeys (askPolicies engine []) ctx) = .allow ↔
      askKeys (askPolicies engine []) ctx = [] := by
    cases askKeys (askPolicies engine []) ctx with
    | nil => simp [answeredKind]
    | cons key keys =>
      simp [answeredKind, noAnswers, ApprovalHistory.isDeniedAlways,
        ApprovalHistory.isAllowedAlways]
  simp only [noRules, none, selected, answered]
  simp

end DefaultChain

/-- A file system that knows no path. -/
def emptyFileSystem : FileSystem := ⟨fun _ => none, fun _ => false⟩

end Astrcode
