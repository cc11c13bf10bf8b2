import Astrcode.Server.Fork

/-!
# The tools of a session tree

The selection a turn starts with allows exactly what the session and all its ancestors
allow at that time, however the tree was built and configured; where an ancestor is
missing or the parents form a cycle, the turn does not start. A fork is a new root with
every tool, so it gains whatever its source was not allowed.
-/
namespace Astrcode

open Library Relation

namespace SessionRepository

variable {model : SessionReadModel} (repository : SessionRepository)

/-- The session is `ancestor` or one of its descendants. -/
def BelongsTo (sessionId ancestor : SessionId) : Prop :=
  ReflTransGen repository.genealogy.Link sessionId ancestor

/-- The session and all its ancestors are there and allow the tool. -/
def AllowedFor (sessionId : SessionId) (tool : String) : Prop :=
  ∀ ancestor, repository.BelongsTo sessionId ancestor →
    ∃ model, repository.sessionReadModel ancestor = .ok model ∧
      model.identity.toolSelection.allows tool = true

/-! ### The selection of a turn -/

private theorem narrowed_allows (chain : List (SessionId × SessionReadModel))
    (selection : SessionToolSelection) :
    ∃ narrowed, chain.foldl (fun selection entry =>
        SessionToolSelection.intersect (some entry.2.identity.toolSelection) selection)
        (some selection) = some narrowed ∧
      ∀ tool, narrowed.allows tool = true ↔
        selection.allows tool = true ∧
          ∀ entry ∈ chain, entry.2.identity.toolSelection.allows tool = true := by
  induction chain generalizing selection with
  | nil => exact ⟨selection, rfl, by simp⟩
  | cons entry chain ih =>
    obtain ⟨narrowed, folded, allows⟩ :=
      ih (entry.2.identity.toolSelection.intersection selection)
    refine ⟨narrowed, folded, fun tool => ?_⟩
    rw [allows, SessionToolSelection.allows_intersection, Bool.and_eq_true, List.forall_mem_cons]
    tauto

variable {repository} {sessionId : SessionId} {chain : List (SessionId × SessionReadModel)}
  {selection : SessionToolSelection}

section

variable (read : repository.sessionReadModel sessionId = .ok model)

include read

private theorem link_parent {parent : ParentSessionRef} (up : model.identity.parent = some parent) :
    repository.genealogy.Link sessionId parent.sessionId :=
  ⟨model, read, by simp [up]⟩

/-- The selection can be resolved exactly along a whole chain of ancestors. -/
private theorem resolveEffective_chain {selection : Option SessionToolSelection}
    (resolved : repository.resolveEffectiveToolSelection sessionId model = .ok selection) :
    ∃ chain, repository.genealogy.Chain sessionId chain := by
  simp only [resolveEffectiveToolSelection] at resolved
  cases up : model.identity.parent with
  | none => exact ⟨_, .root read (by simp [up])⟩
  | some parent =>
    have link := link_parent read up
    simp only [up, mapError_ok_iff] at resolved
    rw [Genealogy.walk_ok_iff _ _ _ (by simpa using TransGen.single link)] at resolved
    obtain ⟨rest, upper, -⟩ := resolved
    exact ⟨_, .step read (by simp [up]) upper⟩

private theorem resolveEffective_allows (whole : repository.genealogy.Chain sessionId chain) :
    ∃ narrowed, repository.resolveEffectiveToolSelection sessionId model = .ok (some narrowed) ∧
      ∀ tool, narrowed.allows tool = true ↔
        ∀ entry ∈ chain, entry.2.identity.toolSelection.allows tool = true := by
  simp only [resolveEffectiveToolSelection]
  cases up : model.identity.parent with
  | none =>
    have single : chain = [(sessionId, model)] :=
      whole.unique (.root read (by simp [up]))
    exact ⟨_, rfl, by simp [single]⟩
  | some parent =>
    have link := link_parent read up
    obtain ⟨m, rest, upper, rfl⟩ := whole.parent link
    obtain ⟨narrowed, folded, allows⟩ := narrowed_allows rest model.identity.toolSelection
    obtain rfl : model = m := by
      have same := whole.read_of_mem List.mem_cons_self
      exact Except.ok.inj (read.symm.trans same)
    refine ⟨narrowed, ?_, fun tool => by rw [allows, List.forall_mem_cons]⟩
    rw [mapError_ok_iff, Genealogy.walk_ok_iff _ _ _ (by simpa using TransGen.single link)]
    exact ⟨rest, upper, folded.symm⟩

end

theorem turnToolSelection_ok_iff :
    repository.turnToolSelection sessionId = .ok selection ↔
      ∃ model, repository.sessionReadModel sessionId = .ok model ∧
        ∃ resolved, repository.resolveEffectiveToolSelection sessionId model = .ok resolved ∧
          resolved.getD (.all []) = selection := by
  simp [turnToolSelection, bind_ok_iff, readModel, mapError_ok_iff]

/-- A turn starts exactly if the session has a whole chain of ancestors. -/
theorem turnToolSelection_starts_iff :
    (∃ selection, repository.turnToolSelection sessionId = .ok selection) ↔
      ∃ chain, repository.genealogy.Chain sessionId chain := by
  constructor
  · rintro ⟨selection, started⟩
    obtain ⟨model, read, resolved, done, -⟩ := turnToolSelection_ok_iff.mp started
    exact resolveEffective_chain read done
  · rintro ⟨chain, whole⟩
    obtain ⟨⟨_, model⟩, member, rfl⟩ := List.mem_map.mp whole.mem_self
    have read := whole.read_of_mem member
    obtain ⟨narrowed, resolved, -⟩ := resolveEffective_allows read whole
    exact ⟨_, turnToolSelection_ok_iff.mpr ⟨model, read, _, resolved, rfl⟩⟩

/-- The selection of a turn allows what the whole chain allows. -/
theorem turnToolSelection_allows
    (started : repository.turnToolSelection sessionId = .ok selection) (tool : String) :
    selection.allows tool = true ↔ repository.AllowedFor sessionId tool := by
  obtain ⟨model, read, resolved, done, rfl⟩ := turnToolSelection_ok_iff.mp started
  obtain ⟨chain, whole⟩ := resolveEffective_chain read done
  obtain ⟨narrowed, done', allows⟩ := resolveEffective_allows read whole
  obtain rfl := Except.ok.inj (done.symm.trans done')
  simp only [Option.getD_some, allows]
  constructor
  · intro every ancestor reached
    obtain ⟨⟨_, m⟩, member, rfl⟩ := List.mem_map.mp (whole.mem_iff.mpr reached)
    exact ⟨m, whole.read_of_mem member, every _ member⟩
  · rintro every ⟨ancestor, m⟩ member
    obtain ⟨n, same, allowed⟩ :=
      every ancestor (whole.mem_iff.mp (List.mem_map_of_mem (f := (·.1)) member))
    have read := whole.read_of_mem member
    obtain rfl := Except.ok.inj (read.symm.trans same)
    exact allowed

/-! ### Runs -/

/-- What changes a tree of sessions. -/
inductive TreeOperation where
  | create (params : SessionCreateParams)
  | spawnChild (parentId : SessionId) (params : SpawnChildParams)
  | configureTools (sessionId : SessionId) (requested : SessionToolSelection) (stamp : Stamp)
  | fork (request : ForkRequest)

variable (repository)

/-- An operation that fails changes nothing. -/
def TreeOperation.perform : TreeOperation → SessionRepository
  | .create params => (repository.createWithParams params).toOption.getD repository
  | .spawnChild parentId params => (repository.spawnChild parentId params).toOption.getD repository
  | .configureTools sessionId requested stamp =>
    (repository.configureTools sessionId requested stamp).toOption.getD repository
  | .fork request => (repository.fork request).toOption.getD repository

def performAll (operations : List TreeOperation) :
    SessionRepository :=
  operations.foldl TreeOperation.perform repository

/-- Every active session has a whole chain of ancestors. -/
def Intact : Prop :=
  ∀ sessionId ∈ repository.active, ∃ chain, repository.genealogy.Chain sessionId chain

variable {repository} {repository' : SessionRepository} {event : DurableEvent}

/-- A new session leaves the chains of the others alone. -/
private theorem chain_create (created : repository.create event = .ok repository')
    (whole : repository.genealogy.Chain sessionId chain) :
    ∃ chain', repository'.genealogy.Chain sessionId chain' := by
  refine whole.transfer fun x m member => ⟨m, ?_, rfl⟩
  have read : repository.sessionReadModel x = .ok m := whole.read_of_mem member
  have other : x ≠ event.sessionId := by
    rintro rfl
    exact (create_ok created).2.2.1 (mem_active_of_read read)
  exact (sessionReadModel_create_other created other).trans read

section

variable {params : SessionCreateParams} {parentId : SessionId} (intact : repository.Intact)

include intact

theorem Intact.create {started : SessionStarted}
    (created : repository.create event = .ok repository')
    (first : event.payload = .sessionStarted started)
    (upper : ∀ parent, started.parent = some parent →
      ∃ chain, repository.genealogy.Chain parent.sessionId chain) : repository'.Intact := by
  intro sessionId present
  have own := sessionReadModel_create_self created first
  by_cases new : sessionId = event.sessionId
  · subst new
    cases up : started.parent with
    | none =>
      refine ⟨_, .root own ?_⟩
      simp [up]
    | some parent =>
      obtain ⟨chain, whole⟩ := upper parent up
      obtain ⟨chain', whole'⟩ := chain_create created whole
      refine ⟨_, .step own ?_ whole'⟩
      simp [up]
  · have before : sessionId ∈ repository.active := by
      obtain ⟨-, -, -, rfl⟩ := create_ok created
      exact ((AList.mem_insert _).mp present).resolve_left new
    obtain ⟨chain, whole⟩ := intact sessionId before
    exact chain_create created whole

omit intact in
private theorem identityAfter_parent (event : StoredEvent) (identity : SessionIdentity) :
    (identityAfter event identity).parent = identity.parent := by
  unfold identityAfter
  split <;> rfl

theorem Intact.append (appended : repository.append event = .ok repository') :
    repository'.Intact := by
  intro sessionId present
  have before : sessionId ∈ repository.active := by
    obtain ⟨events, model, batch, found, -, -, rfl⟩ := append_ok appended
    obtain rfl | old := (AList.mem_insert _).mp present
    · exact AList.lookup_isSome.mp (by simp [found])
    · exact old
  obtain ⟨chain, whole⟩ := intact sessionId before
  refine whole.transfer fun x m member => ?_
  have read : repository.sessionReadModel x = .ok m := whole.read_of_mem member
  by_cases changed : x = event.sessionId
  · subst changed
    obtain ⟨model, seq, read', after⟩ := sessionReadModel_append_self appended
    obtain rfl := Except.ok.inj (read.symm.trans read')
    refine ⟨_, after, ?_⟩
    simp [identityAfter_parent]
  · exact ⟨m, (sessionReadModel_append_other appended changed).trans read, rfl⟩

omit intact in
private theorem resolveInitial_chain {requested selection : Option SessionToolSelection}
    (resolved : repository.resolveInitialToolSelection (some parentId) requested = .ok selection) :
    ∃ chain, repository.genealogy.Chain parentId chain := by
  obtain ⟨parent, read, resolved⟩ := bind_ok_iff.mp resolved
  obtain ⟨parentSelection, effective, -⟩ := bind_ok_iff.mp resolved
  exact resolveEffective_chain (mapError_ok read) effective

private theorem Intact.createPersisted (upper : ∀ parentId, params.parentSessionId = some parentId →
      ∃ chain, repository.genealogy.Chain parentId chain)
    (created : repository.createPersisted params = .ok repository') : repository'.Intact := by
  refine intact.create (mapError_ok created) rfl fun parent named => ?_
  obtain ⟨parentId, given, rfl⟩ := Option.map_eq_some_iff.mp named
  exact upper parentId given

private theorem Intact.createWithParams
    (created : repository.createWithParams params = .ok repository') : repository'.Intact := by
  obtain ⟨selection, resolved, created⟩ := bind_ok_iff.mp created
  refine intact.createPersisted (fun parentId given => ?_) created
  rw [given] at resolved
  exact resolveInitial_chain resolved

private theorem Intact.spawnChild {params : SpawnChildParams}
    (spawned : repository.spawnChild parentId params = .ok repository') : repository'.Intact := by
  obtain ⟨selection, resolved, spawned⟩ := bind_ok_iff.mp spawned
  obtain ⟨middle, created, linked⟩ := bind_ok_iff.mp spawned
  have child : middle.Intact := by
    refine intact.createPersisted (fun given same => ?_) created
    obtain rfl : parentId = given := Option.some_inj.mp same
    exact resolveInitial_chain resolved
  exact child.append (mapError_ok linked)

private theorem Intact.configureTools {requested : SessionToolSelection} {stamp : Stamp}
    (configured : repository.configureTools sessionId requested stamp = .ok repository') :
    repository'.Intact := by
  obtain ⟨model, -, configured⟩ := bind_ok_iff.mp configured
  obtain ⟨parentSelection, -, emitted⟩ := bind_ok_iff.mp configured
  exact intact.append (mapError_ok emitted)

private theorem Intact.fork {request : ForkRequest}
    (forked : repository.fork request = .ok repository') : repository'.Intact := by
  simp only [SessionRepository.fork, bind_ok_iff] at forked
  obtain ⟨source, -, point, -, middle, created, emitted⟩ := forked
  exact (intact.createWithParams (mapError_ok created)).append (mapError_ok (mapError_ok emitted))

omit intact in
/-- What a successful operation keeps, every operation keeps. -/
private theorem getD_toOption {ε : Type} {P : SessionRepository → Prop} (holds : P repository)
    (result : Except ε SessionRepository) (kept : ∀ changed, result = .ok changed → P changed) :
    P (result.toOption.getD repository) := by
  cases result with
  | error e => exact holds
  | ok changed => exact kept changed rfl

theorem Intact.perform (operation : TreeOperation) : (operation.perform repository).Intact := by
  cases operation with
  | create params => exact getD_toOption intact _ fun _ => intact.createWithParams
  | spawnChild parentId params => exact getD_toOption intact _ fun _ => intact.spawnChild
  | configureTools sessionId requested stamp =>
    exact getD_toOption intact _ fun _ => intact.configureTools
  | fork request => exact getD_toOption intact _ fun _ => intact.fork

theorem Intact.performAll (operations : List TreeOperation) :
    (repository.performAll operations).Intact := by
  induction operations generalizing repository with
  | nil => exact intact
  | cons operation operations ih => exact ih (intact.perform operation)

end

variable (repository)

/-- After any operations on any store, the selection a turn starts with allows exactly what the
session and all its ancestors allow now. A turn starts exactly if all ancestors can be read and
none is its own ancestor, and from an intact store that stays so for every session. -/
theorem turn_selection_exact (operations : List TreeOperation) (sessionId : SessionId) :
    let now := repository.performAll operations
    (∀ selection, now.turnToolSelection sessionId = .ok selection →
      ∀ tool, selection.allows tool = true ↔ now.AllowedFor sessionId tool) ∧
    ((∃ selection, now.turnToolSelection sessionId = .ok selection) ↔
      (∀ ancestor, now.BelongsTo sessionId ancestor →
        ∃ model, now.sessionReadModel ancestor = .ok model) ∧
      ¬∃ ancestor, now.BelongsTo sessionId ancestor ∧
        TransGen now.genealogy.Link ancestor ancestor) ∧
    (repository.Intact → sessionId ∈ now.active →
      ∃ selection, now.turnToolSelection sessionId = .ok selection) := by
  intro now
  refine ⟨fun selection started => turnToolSelection_allows started, ?_, fun intact present => ?_⟩
  · rw [turnToolSelection_starts_iff, Genealogy.exists_chain_iff]
    rfl
  · exact turnToolSelection_starts_iff.mpr (intact.performAll operations sessionId present)

end SessionRepository

open SessionRepository

/-! ### A small tree -/

def sampleStamp : Stamp := ⟨"event", ⟨0⟩⟩

def emptyRepository : SessionRepository := ⟨∅, ∅⟩

variable (toolSelection : Option SessionToolSelection)

def sampleRoot : SessionCreateParams where
  sessionId := "root"
  workingDir := "/work"
  modelId := "model"
  parentSessionId := none
  toolSelection := toolSelection
  sourceExtension := none
  initialSystemPrompt := ⟨"system", "", none, .native⟩
  stamp := sampleStamp

def sampleChild : SpawnChildParams where
  workingDir := "/work"
  modelId := "model"
  agentName := "agent"
  task := "task"
  toolSelection := toolSelection
  sourceExtension := some "agents"
  toolCallId := none
  initialSystemPrompt := ⟨"system", "", none, .native⟩
  childSessionId := "child"
  childStamp := sampleStamp
  linkStamp := sampleStamp

/-- A parent that is narrowed later narrows its child. -/
def narrowedTree : List TreeOperation :=
  [.create (sampleRoot none), .spawnChild "root" (sampleChild (some (.only ["read", "write"]))),
    .configureTools "root" (.all ["write"]) sampleStamp]

theorem narrowed_parent_narrows_child :
    (emptyRepository.performAll narrowedTree).turnToolSelection "child" = .ok (.only ["read"]) ∧
      (emptyRepository.performAll narrowedTree).AllowedFor "child" "read" ∧
      ¬(emptyRepository.performAll narrowedTree).AllowedFor "child" "write" := by
  have started : (emptyRepository.performAll narrowedTree).turnToolSelection "child" =
      .ok (.only ["read"]) := by decide +kernel
  have exact := (turn_selection_exact emptyRepository narrowedTree "child").1 _ started
  refine ⟨started, (exact "read").mp (by decide), fun allowed => ?_⟩
  exact absurd ((exact "write").mpr allowed) (by decide)

/-! ### Forks -/

namespace SessionRepository

variable (repository : SessionRepository) {repository' : SessionRepository}

/-- A turn of the session starts and may use the tool. -/
def MayUse (sessionId : SessionId) (tool : String) : Prop :=
  ∃ selection, repository.turnToolSelection sessionId = .ok selection ∧
    selection.allows tool = true

variable {repository}

/-- A fork starts its turns with every tool. -/
theorem fork_selection {request : ForkRequest} (forked : repository.fork request = .ok repository') :
    repository'.turnToolSelection request.sessionId = .ok (.all []) := by
  simp only [SessionRepository.fork, bind_ok_iff] at forked
  obtain ⟨source, -, point, -, middle, created, emitted⟩ := forked
  obtain ⟨selection, resolved, created⟩ := bind_ok_iff.mp (mapError_ok created)
  -- neither a parent nor a request narrows the selection
  obtain rfl : none = selection := Except.ok.inj resolved
  have first := sessionReadModel_create_self (mapError_ok created) rfl
  obtain ⟨model, seq, read, after⟩ :=
    sessionReadModel_append_self (mapError_ok (mapError_ok emitted))
  obtain rfl := Except.ok.inj (first.symm.trans read)
  exact turnToolSelection_ok_iff.mpr ⟨_, after, _, rfl, rfl⟩

/-- A fork gains no tool exactly when there is none to gain: when every registered tool is
allowed for the source by its own selection and by those of all its ancestors. -/
theorem fork_gains_no_tool_iff {request : ForkRequest} (registered : String → Prop)
    (forked : repository.fork request = .ok repository') :
    (∀ tool, registered tool → repository'.MayUse request.sessionId tool →
      repository.AllowedFor request.sourceId tool) ↔
    ∀ tool, registered tool → repository.AllowedFor request.sourceId tool := by
  have every : ∀ tool, repository'.MayUse request.sessionId tool := fun tool =>
    ⟨_, fork_selection forked, by simp⟩
  exact forall₂_congr fun tool _ => ⟨fun kept => kept (every tool), fun allowed _ => allowed⟩

end SessionRepository

def sampleFork (sourceId : SessionId) : ForkRequest :=
  ⟨sourceId, none, none, "fork", sampleStamp, sampleStamp⟩

def rootTree (toolSelection : Option SessionToolSelection) : SessionRepository :=
  emptyRepository.performAll [.create (sampleRoot toolSelection)]

/-- A session that may only read is forked, and the fork may run the shell. -/
theorem fork_gains_shell :
    ∃ forked, (rootTree (some (.only ["read"]))).fork (sampleFork "root") = .ok forked ∧
      forked.MayUse "fork" "shell" ∧
      ¬(rootTree (some (.only ["read"]))).AllowedFor "root" "shell" := by
  obtain ⟨forked, done⟩ : ∃ forked,
      (rootTree (some (.only ["read"]))).fork (sampleFork "root") = .ok forked :=
    exists_of_isOk (by decide +kernel)
  have source : (rootTree (some (.only ["read"]))).turnToolSelection "root" = .ok (.only ["read"]) := by
    decide +kernel
  refine ⟨forked, done, ⟨_, fork_selection done, by decide⟩, fun allowed => ?_⟩
  exact absurd ((turnToolSelection_allows source "shell").mpr allowed) (by decide)

/-- The fork of a session with every tool gains none. -/
theorem unrestricted_fork_gains_nothing :
    ∃ forked, (rootTree none).fork (sampleFork "root") = .ok forked ∧
      ∀ tool, True → forked.MayUse "fork" tool → (rootTree none).AllowedFor "root" tool := by
  obtain ⟨forked, done⟩ : ∃ forked, (rootTree none).fork (sampleFork "root") = .ok forked :=
    exists_of_isOk (by decide +kernel)
  have source : (rootTree none).turnToolSelection "root" = .ok (.all []) := by decide +kernel
  refine ⟨forked, done, (fork_gains_no_tool_iff (fun _ => True) done).mpr fun tool _ => ?_⟩
  exact (turnToolSelection_allows source tool).mp (by simp)

end Astrcode
