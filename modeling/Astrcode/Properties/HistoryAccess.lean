import Astrcode.Extensions.SessionHistory
import Astrcode.Properties.ToolScope

/-!
# Listing and reading session histories

The listing closes the child relation downwards over the active sessions; the check of the
reading operations walks from a target upwards, through recycled sessions as well. In a
forest both stand for the descendants of the caller, but the listing leaves out those that
are recycled; and a cycle stops the listing only if it lies among active sessions.
-/
namespace Astrcode

variable {sessionId : SessionId}

open Library Relation List

/-! ### The table of parents -/

private theorem insertParents_ok {parents : ParentTable} {summaries : List SessionSummary}
    (distinct : (summaries.map (·.sessionId)).Nodup)
    (fresh : ∀ summary ∈ summaries, summary.sessionId ∉ parents) :
    ∃ table, insertParents parents summaries = .ok table ∧
      ∀ sessionId parent, table.lookup sessionId = some parent ↔
        parents.lookup sessionId = some parent ∨
          ∃ summary ∈ summaries, summary.sessionId = sessionId ∧
            summary.parentSessionId = parent := by
  induction summaries generalizing parents with
  | nil => exact ⟨parents, rfl, by simp⟩
  | cons summary summaries ih =>
    rw [map_cons, nodup_cons] at distinct
    have others : ∀ other ∈ summaries,
        other.sessionId ∉ parents.insert summary.sessionId summary.parentSessionId := by
      intro other member
      rw [AList.mem_insert]
      rintro (same | before)
      · exact distinct.1 (same ▸ mem_map_of_mem member)
      · exact fresh other (mem_cons_of_mem _ member) before
    obtain ⟨table, inserted, found⟩ := ih distinct.2 others
    refine ⟨table, ?_, fun sessionId parent => ?_⟩
    · rw [insertParents, if_neg (fresh summary mem_cons_self), inserted]
    · rw [found]
      have absent : parents.lookup summary.sessionId = none :=
        AList.lookup_eq_none.mpr (fresh summary mem_cons_self)
      by_cases same : sessionId = summary.sessionId
      · subst same
        simp [AList.lookup_insert, absent, exists_eq_or_imp]
      · rw [AList.lookup_insert_ne same]
        have other : summary.sessionId ≠ sessionId := fun h => same h.symm
        simp [other]

/-! ### Cycles among the parents -/

section Paths

variable {resolved : List SessionId} {parents : ParentTable} {m : Option SessionId}

private theorem path_link_iff {a b : SessionId} :
    (pathGenealogy parents []).Link a b ↔ parents.lookup a = some (some b) := by
  simp [Genealogy.Link, pathGenealogy, Option.join_eq_some_iff]

/-- Beyond what is resolved the walk reads the table. -/
private theorem path_read {a : SessionId} (unseen : a ∉ resolved)
    (read : (pathGenealogy parents resolved).read a = .ok m) :
    (pathGenealogy parents []).read a = .ok m := by
  simpa [pathGenealogy, unseen] using read

private theorem path_unseen {a b : SessionId}
    (read : (pathGenealogy parents resolved).read a = .ok m) (up : m = some b) : a ∉ resolved := by
  intro seen
  simp [pathGenealogy, seen, up] at read

/-- What is walked above resolved sessions leads to whole chains, if theirs are whole. -/
private theorem path_chain {start : SessionId} {chain : List (SessionId × Option SessionId)}
    (whole : (pathGenealogy parents resolved).Chain start chain)
    (before : ∀ x ∈ resolved, ∃ c, (pathGenealogy parents []).Chain x c) :
    ∀ x ∈ chain.map (·.1), ∃ c, (pathGenealogy parents []).Chain x c := by
  induction whole with
  | @root a m read last =>
    intro x member
    obtain rfl : x = a := by simpa using member
    by_cases seen : x ∈ resolved
    · exact before x seen
    · exact ⟨_, .root (path_read seen read) last⟩
  | @step a b m rest read up upper ih =>
    intro x member
    obtain rfl | inside := mem_cons.mp member
    · obtain ⟨c, continued⟩ := ih b upper.mem_self
      exact ⟨_, .step (path_read (path_unseen read up) read) up continued⟩
    · exact ih x inside

private theorem resolvePaths_ok {result sessionIds : List SessionId}
    (before : ∀ x ∈ resolved, ∃ c, (pathGenealogy parents []).Chain x c)
    (done : resolvePaths parents resolved sessionIds = .ok result) :
    ∀ x ∈ sessionIds, ∃ c, (pathGenealogy parents []).Chain x c := by
  induction sessionIds generalizing resolved with
  | nil => simp
  | cons sessionId sessionIds ih =>
    rw [resolvePaths] at done
    split at done
    · next seen =>
      rintro x member
      obtain rfl | inside := mem_cons.mp member
      · exact before x seen
      · exact ih before done x inside
    · obtain ⟨path, collected, done⟩ := bind_ok_iff.mp done
      obtain ⟨chain, whole, rfl⟩ :=
        (Genealogy.collectParentChain_ok_iff _).mp (mapError_ok collected)
      have chains := path_chain whole before
      have after : ∀ x ∈ resolved ++ chain.map (·.1),
          ∃ c, (pathGenealogy parents []).Chain x c := by
        intro x member
        obtain old | new := mem_append.mp member
        · exact before x old
        · exact chains x new
      rintro x member
      obtain rfl | inside := mem_cons.mp member
      · exact chains x whole.mem_self
      · exact ih after done x inside

private theorem resolvePaths_error {sessionIds : List SessionId} {e : ErrorPayload}
    (stopped : resolvePaths parents resolved sessionIds = .error e) :
    ∃ x, TransGen (pathGenealogy parents []).Link x x := by
  induction sessionIds generalizing resolved with
  | nil => cases stopped
  | cons sessionId sessionIds ih =>
    rw [resolvePaths] at stopped
    split at stopped
    · exact ih stopped
    · cases collected : (pathGenealogy parents resolved).collectParentChain sessionId with
      | ok path =>
        rw [collected] at stopped
        exact ih stopped
      | error walked =>
        obtain ⟨node⟩ | ⟨⟨⟩⟩ := walked
        have loop := Genealogy.collectParentChain_cycle _ collected
        refine ⟨node, TransGen.mono (fun a b link => ?_) node node loop⟩
        -- a link that is not cut off is a link of the table
        obtain ⟨m, read, up⟩ := link
        exact ⟨m, path_read (path_unseen read up) read, up⟩

/-- The search for cycles fails exactly if there is one. -/
private theorem resolvePaths_error_iff :
    (∃ e, resolvePaths parents [] parents.keys = .error e) ↔
      ∃ x, TransGen (pathGenealogy parents []).Link x x := by
  constructor
  · rintro ⟨e, stopped⟩
    exact resolvePaths_error stopped
  · rintro ⟨x, loop⟩
    cases done : resolvePaths parents [] parents.keys with
    | error e => exact ⟨e, rfl⟩
    | ok result =>
      obtain ⟨b, link, -⟩ := TransGen.head'_iff.mp loop
      have known : x ∈ parents.keys :=
        AList.mem_keys.mp (AList.lookup_isSome.mp (by simp [path_link_iff.mp link]))
      obtain ⟨c, whole⟩ := resolvePaths_ok (by simp) done x known
      exact absurd loop whole.acyclic

/-- The closure downwards finds the sessions from which a path leads up to the caller. -/
private theorem mem_visit_childGraph {caller sessionId : SessionId} :
    sessionId ∈ (childGraph parents).visit [] [caller] ↔
      ReflTransGen (pathGenealogy parents []).Link sessionId caller := by
  rw [FiniteGraph.mem_visit_iff, ← reflTransGen_swap]
  have edges : (childGraph parents).Edge = Function.swap (pathGenealogy parents []).Link := by
    funext parent child
    simp only [FiniteGraph.Edge, childGraph, List.mem_filter, decide_eq_true_eq, Function.swap,
      path_link_iff, eq_iff_iff, and_iff_right_iff_imp]
    intro found
    exact AList.mem_keys.mp (AList.lookup_isSome.mp (by simp [found]))
  rw [edges]

end Paths

namespace SessionRepository

variable {sessionId target : SessionId} {scope : SessionAccessScope}
  (repository : SessionRepository)

/-- The table of the listing holds the active sessions that can be read, with their parents. -/
private theorem parentTable_ok :
    ∃ table, insertParents ∅ repository.listAllSessionSummaries = .ok table ∧
      ∀ sessionId parent, table.lookup sessionId = some parent ↔
        ∃ model, repository.sessionReadModel sessionId = .ok model ∧
          model.parentSessionId = parent := by
  have fresh : ∀ summary ∈ repository.listAllSessionSummaries,
      summary.sessionId ∉ (∅ : ParentTable) := by simp
  obtain ⟨table, inserted, found⟩ :=
    insertParents_ok repository.nodup_listAllSessionSummaries fresh
  refine ⟨table, inserted, fun sessionId parent => ?_⟩
  rw [found]
  constructor
  · rintro (absurd | ⟨summary, member, rfl, rfl⟩)
    · simp at absurd
    · obtain ⟨model, read, same⟩ := mem_listAllSessionSummaries.mp member
      exact ⟨model, read, by rw [same]; rfl⟩
  · rintro ⟨model, read, rfl⟩
    have own : model.toSummary.sessionId = sessionId := tableModel_sessionId read
    refine Or.inr ⟨model.toSummary, mem_listAllSessionSummaries.mpr ⟨model, ?_, rfl⟩, own, rfl⟩
    rw [own, read]

variable {repository} {caller : SessionId} {activeTurn : SessionId → Option TurnId}
  {model : SessionReadModel}

private theorem parentTable_link {table : ParentTable}
    (found : ∀ sessionId parent, table.lookup sessionId = some parent ↔
      ∃ model, repository.sessionReadModel sessionId = .ok model ∧
        model.parentSessionId = parent) :
    (pathGenealogy table []).Link = repository.genealogy.Link := by
  funext a b
  rw [eq_iff_iff, path_link_iff, found]
  rfl

/-- The listing fails exactly if active sessions form a cycle. -/
theorem historyList_error_iff :
    (∃ e, repository.historyList caller = .error e) ↔
      ∃ x, TransGen repository.genealogy.Link x x := by
  obtain ⟨table, inserted, found⟩ := repository.parentTable_ok
  rw [← parentTable_link found, ← resolvePaths_error_iff]
  simp only [historyList, inserted, visibleHistorySessions]
  cases searched : resolvePaths table [] table.keys with
  | error e => simp [searched]
  | ok resolved => simp [searched]

/-- The listing holds the active sessions below the caller. -/
theorem historyList_mem_iff {listed : List HostSessionSummary}
    (done : repository.historyList caller = .ok listed) :
    sessionId ∈ listed.map (·.sessionId) ↔
      (∃ model, repository.sessionReadModel sessionId = .ok model) ∧
        ReflTransGen repository.genealogy.Link sessionId caller := by
  obtain ⟨table, inserted, found⟩ := repository.parentTable_ok
  obtain ⟨parents, inserted', done⟩ := bind_ok_iff.mp done
  obtain rfl := Except.ok.inj (inserted.symm.trans inserted')
  obtain ⟨visible, closed, done⟩ := bind_ok_iff.mp done
  obtain ⟨resolved, -, closed⟩ := bind_ok_iff.mp closed
  cases done
  cases closed
  rw [← parentTable_link found]
  simp only [List.map_map, List.mem_map, List.mem_filter, List.contains_eq_mem, decide_eq_true_eq,
    Function.comp_def, SessionSummary.toHost, mem_visit_childGraph]
  constructor
  · rintro ⟨summary, ⟨member, below⟩, rfl⟩
    obtain ⟨model, read, -⟩ := mem_listAllSessionSummaries.mp member
    exact ⟨⟨model, read⟩, below⟩
  · rintro ⟨⟨model, read⟩, below⟩
    have own : model.toSummary.sessionId = sessionId := tableModel_sessionId read
    refine ⟨model.toSummary, ⟨mem_listAllSessionSummaries.mpr ⟨model, ?_, rfl⟩, ?_⟩, own⟩
    · rw [own, read]
    · rwa [own]

/-! ### Reading -/

/-- The check of the reading operations lets the caller see the target. -/
def Granted (repository : SessionRepository) (activeTurn : SessionId → Option TurnId)
    (caller target : SessionId) : Prop :=
  authorizeHistoryTarget (some (repository.sessionState activeTurn)) caller target = .ok ()

/-- The scope of the walk follows from where the target is found. -/
def targetScope (repository : SessionRepository) (target : SessionId) : Option SessionAccessScope :=
  match repository.sessionReadModel target with
  | .ok _ => some .active
  | .error (.notFound _) => some .activeOrRecycled
  | .error _ => none

section

variable (other : caller ≠ target)

include other

private theorem verifyAccess_ok_iff :
    repository.verifyAccessInScope caller target scope = .ok () ↔
      (∃ chain, (repository.accessGenealogy scope).Chain target chain) ∧
        ReflTransGen (repository.accessGenealogy scope).Link target caller := by
  have tail_iff : ∀ chain, (repository.accessGenealogy scope).Chain target chain →
      (caller ∈ (chain.map (·.1)).tail ↔
        ReflTransGen (repository.accessGenealogy scope).Link target caller) := by
    intro chain whole
    rw [← whole.mem_iff]
    cases whole with
    | root | step => simp [other]
  simp only [verifyAccessInScope, if_neg other, bind_ok_iff, mapError_ok_iff,
    Genealogy.collectParentChain_ok_iff, List.contains_eq_mem, decide_eq_true_eq]
  constructor
  · rintro ⟨names, ⟨chain, whole, rfl⟩, checked⟩
    refine ⟨⟨chain, whole⟩, (tail_iff chain whole).mp ?_⟩
    by_contra outside
    rw [if_neg outside] at checked
    cases checked
  · rintro ⟨⟨chain, whole⟩, below⟩
    exact ⟨_, ⟨chain, whole, rfl⟩, if_pos ((tail_iff chain whole).mpr below)⟩

private theorem granted_iff_state :
    repository.Granted activeTurn caller target ↔
      ∃ state, repository.sessionState activeTurn caller target = .ok state := by
  simp only [Granted, authorizeHistoryTarget, historyTargetIsVisible, if_neg other]
  cases repository.sessionState activeTurn caller target with
  | ok state => simp
  | error e => cases e <;> simp

private theorem granted_iff :
    repository.Granted activeTurn caller target ↔
      ∃ scope, repository.targetScope target = some scope ∧
        (∃ chain, (repository.accessGenealogy scope).Chain target chain) ∧
        ReflTransGen (repository.accessGenealogy scope).Link target caller := by
  rw [granted_iff_state other]
  simp only [← verifyAccess_ok_iff other, sessionState, targetScope]
  cases read : repository.sessionReadModel target with
  | ok model =>
    simp only [bind_ok_iff, Option.some_inj, exists_eq_left']
    constructor
    · rintro ⟨state, ⟨⟩, verified, -⟩
      exact verified
    · intro verified
      exact ⟨_, (), verified, rfl⟩
  | error e =>
    cases e with
    | notFound sessionId =>
      simp only [bind_ok_iff, mapError_ok_iff, Option.some_inj, exists_eq_left']
      constructor
      · rintro ⟨state, ⟨⟩, verified, -⟩
        exact verified
      · intro verified
        obtain ⟨⟨chain, whole⟩, -⟩ := (verifyAccess_ok_iff other).mp verified
        obtain ⟨⟨_, model⟩, member, rfl⟩ := List.mem_map.mp whole.mem_self
        obtain active | ⟨-, -, recycled⟩ := readAccessModel_ok_iff.mp (whole.read_of_mem member)
        · rw [read] at active; cases active
        · exact ⟨_, (), verified, model, recycled, rfl⟩
    | _ => simp

end

/-! ### Agreement -/

/-- The session is active or recycled. -/
def Known (repository : SessionRepository) (sessionId : SessionId) : Prop :=
  sessionId ∈ repository.active ∨ sessionId ∈ repository.recycled

/-- The parent of a session, active or recycled. -/
def ParentOf (repository : SessionRepository) : SessionId → SessionId → Prop :=
  (repository.accessGenealogy .activeOrRecycled).Link

/-- All logs can be read, every session has a whole chain of ancestors, and those of an active
session are active. -/
structure Forest (repository : SessionRepository) : Prop where
  activeRead : ∀ sessionId ∈ repository.active,
    ∃ model, repository.sessionReadModel sessionId = .ok model
  recycledRead : ∀ sessionId ∈ repository.recycled,
    ∃ model, repository.recycledSessionReadModel sessionId = .ok model
  rooted : ∀ sessionId, repository.Known sessionId →
    ∃ chain, (repository.accessGenealogy .activeOrRecycled).Chain sessionId chain
  upward : ∀ child parent, child ∈ repository.active → repository.ParentOf child parent →
    parent ∈ repository.active

/-- Listing and reading grant the same sessions: in a forest the caller and its descendants; with
a cycle the listing fails, and reading grants nothing through the cycle. -/
structure HistoryAgrees (repository : SessionRepository)
    (activeTurn : SessionId → Option TurnId) (caller : SessionId) : Prop where
  forest : repository.Forest → repository.Known caller →
    (∀ target, repository.Granted activeTurn caller target ↔
      repository.Known target ∧ ReflTransGen repository.ParentOf target caller) ∧
    ∃ listed, repository.historyList caller = .ok listed ∧
      ∀ target, target ∈ listed.map (·.sessionId) ↔ repository.Granted activeTurn caller target
  cycle : (∃ x, TransGen repository.ParentOf x x) →
    (∃ e, repository.historyList caller = .error e) ∧
    ∀ target, target ≠ caller →
      (∃ x, ReflTransGen repository.ParentOf target x ∧ TransGen repository.ParentOf x x) →
      ¬repository.Granted activeTurn caller target

/-- Whatever a walk in the active scope reads, a walk in the wider scope reads as well. -/
private theorem read_wider (read : repository.readAccessModel scope sessionId = .ok model) :
    repository.readAccessModel .activeOrRecycled sessionId = .ok model := by
  apply readAccessModel_ok_iff.mpr
  obtain active | ⟨-, missing, recycled⟩ := readAccessModel_ok_iff.mp read
  · exact Or.inl active
  · exact Or.inr ⟨rfl, missing, recycled⟩

private theorem access_chain {chain : List (SessionId × SessionReadModel)}
    (whole : (repository.accessGenealogy scope).Chain sessionId chain) :
    (repository.accessGenealogy .activeOrRecycled).Chain sessionId chain :=
  whole.mono fun _ _ member => ⟨read_wider (whole.read_of_mem member), rfl⟩

private theorem access_link {a b : SessionId} (link : (repository.accessGenealogy scope).Link a b) :
    repository.ParentOf a b := by
  obtain ⟨m, read, up⟩ := link
  exact ⟨m, read_wider read, up⟩

private theorem genealogy_link_iff {a b : SessionId} :
    repository.genealogy.Link a b ↔ (repository.accessGenealogy .active).Link a b := by
  refine exists_congr fun m => and_congr_left fun _ => ?_
  exact ⟨fun read => readAccessModel_ok_iff.mpr (Or.inl read), fun read => by
    obtain active | ⟨wrong, -⟩ := readAccessModel_ok_iff.mp read
    · exact active
    · cases wrong⟩

private theorem sessionReadModel_missing
    (recycled : repository.recycledSessionReadModel sessionId = .ok model)
    (inactive : sessionId ∉ repository.active) :
    repository.sessionReadModel sessionId = .error (.notFound sessionId) := by
  obtain ⟨valid, -⟩ := tableModel_ok_iff.mp recycled
  simp only [sessionReadModel, tableModel, tableEvents, valid, AList.lookup_eq_none.mpr inactive]
  rfl

namespace Forest

variable (forest : repository.Forest)
include forest

/-- The chain of an active session is read in the active scope. -/
private theorem active_chain (active : sessionId ∈ repository.active) :
    ∃ chain, (repository.accessGenealogy .active).Chain sessionId chain ∧
      (repository.accessGenealogy .activeOrRecycled).Chain sessionId chain := by
  obtain ⟨chain, whole⟩ := forest.rooted sessionId (Or.inl active)
  refine ⟨chain, whole.mono fun x m member => ⟨?_, rfl⟩, whole⟩
  have reached : ReflTransGen repository.ParentOf sessionId x :=
    whole.mem_iff.mp (mem_map_of_mem (f := (·.1)) member)
  have inside : x ∈ repository.active := by
    clear member
    induction reached with
    | refl => exact active
    | tail _ link ih => exact forest.upward _ _ ih link
  obtain ⟨model, read⟩ := forest.activeRead x inside
  have wide : repository.readAccessModel .activeOrRecycled x = .ok model :=
    readAccessModel_ok_iff.mpr (Or.inl read)
  obtain rfl : model = m := Except.ok.inj (wide.symm.trans (whole.read_of_mem member))
  exact readAccessModel_ok_iff.mpr (Or.inl read)

private theorem active_below_iff {sessionId ancestor : SessionId}
    (active : sessionId ∈ repository.active) :
    ReflTransGen (repository.accessGenealogy .active).Link sessionId ancestor ↔
      ReflTransGen repository.ParentOf sessionId ancestor := by
  obtain ⟨chain, narrow, wide⟩ := forest.active_chain active
  rw [← narrow.mem_iff, wide.mem_iff]
  rfl

/-- In a forest reading is granted for the caller and its descendants. -/
theorem granted_iff (known : repository.Known caller) (target : SessionId) :
    repository.Granted activeTurn caller target ↔
      repository.Known target ∧ ReflTransGen repository.ParentOf target caller := by
  by_cases same : caller = target
  · subst same
    exact iff_of_true (by simp [Granted, authorizeHistoryTarget, historyTargetIsVisible]) ⟨known, .refl⟩
  rw [SessionRepository.granted_iff same]
  constructor
  · rintro ⟨scope, -, ⟨chain, whole⟩, below⟩
    refine ⟨?_, ReflTransGen.mono (fun _ _ => access_link) _ _ below⟩
    obtain ⟨⟨_, model⟩, member, rfl⟩ := List.mem_map.mp whole.mem_self
    obtain active | ⟨-, -, recycled⟩ := readAccessModel_ok_iff.mp (whole.read_of_mem member)
    · exact Or.inl (mem_active_of_read active)
    · obtain ⟨-, events, found, -⟩ := tableModel_ok_iff.mp recycled
      exact Or.inr (AList.lookup_isSome.mp (by simp [found]))
  · rintro ⟨found, below⟩
    by_cases active : target ∈ repository.active
    · obtain ⟨model, read⟩ := forest.activeRead target active
      obtain ⟨chain, narrow, -⟩ := forest.active_chain active
      exact ⟨.active, by simp [targetScope, read], ⟨chain, narrow⟩,
        (forest.active_below_iff active).mpr below⟩
    · obtain ⟨model, recycled⟩ := forest.recycledRead target (found.resolve_left active)
      have missing := sessionReadModel_missing recycled active
      exact ⟨.activeOrRecycled, by simp [targetScope, missing], forest.rooted target found, below⟩

/-- In a forest the listing holds the active ones among the caller and its descendants. -/
theorem listed_iff (caller : SessionId) :
    ∃ listed, repository.historyList caller = .ok listed ∧
      ∀ target, target ∈ listed.map (·.sessionId) ↔
        target ∈ repository.active ∧ ReflTransGen repository.ParentOf target caller := by
  cases done : repository.historyList caller with
  | error e =>
    obtain ⟨x, loop⟩ := historyList_error_iff.mp ⟨e, done⟩
    obtain ⟨b, ⟨m, read, -⟩, -⟩ := TransGen.head'_iff.mp loop
    obtain ⟨chain, narrow, -⟩ := forest.active_chain (mem_active_of_read read)
    exact absurd (TransGen.mono (fun _ _ => genealogy_link_iff.mp) x x loop) narrow.acyclic
  | ok listed =>
    refine ⟨listed, rfl, fun target => ?_⟩
    rw [historyList_mem_iff done]
    have links : repository.genealogy.Link = (repository.accessGenealogy .active).Link := by
      funext a b
      exact propext genealogy_link_iff
    rw [links]
    constructor
    · rintro ⟨⟨model, read⟩, below⟩
      have active := mem_active_of_read read
      exact ⟨active, (forest.active_below_iff active).mp below⟩
    · rintro ⟨active, below⟩
      exact ⟨forest.activeRead target active, (forest.active_below_iff active).mpr below⟩

end Forest

variable (repository) (activeTurn : SessionId → Option TurnId) (caller)

/-- Listing and reading agree exactly when, in a forest, no session below the caller is recycled
and, with a cycle, there is one among the active sessions. -/
theorem history_agrees_iff :
    repository.HistoryAgrees activeTurn caller ↔
      (repository.Forest → repository.Known caller → ∀ target, repository.Known target →
        ReflTransGen repository.ParentOf target caller → target ∈ repository.active) ∧
      ((∃ x, TransGen repository.ParentOf x x) →
        ∃ x, TransGen repository.genealogy.Link x x) := by
  constructor
  · intro agrees
    refine ⟨fun forest known target found below => ?_, fun cyclic => ?_⟩
    · obtain ⟨granted, listed, done, same⟩ := agrees.forest forest known
      obtain ⟨listed', done', active⟩ := forest.listed_iff caller
      obtain rfl := Except.ok.inj (done.symm.trans done')
      exact ((active target).mp ((same target).mpr ((granted target).mpr ⟨found, below⟩))).1
    · exact historyList_error_iff.mp (agrees.cycle cyclic).1
  · rintro ⟨kept, looped⟩
    refine ⟨fun forest known => ⟨forest.granted_iff known, ?_⟩, fun cyclic => ⟨?_, ?_⟩⟩
    · obtain ⟨listed, done, active⟩ := forest.listed_iff caller
      refine ⟨listed, done, fun target => ?_⟩
      rw [active, forest.granted_iff known]
      exact ⟨fun ⟨inside, below⟩ => ⟨Or.inl inside, below⟩,
        fun ⟨found, below⟩ => ⟨kept forest known target found below, below⟩⟩
    · exact historyList_error_iff.mpr (looped cyclic)
    · rintro target other ⟨x, reached, loop⟩ granted
      -- a target whose walk ends has no cycle above it
      obtain ⟨scope, -, ⟨chain, whole⟩, -⟩ := (granted_iff other.symm).mp granted
      obtain ⟨rest, upper⟩ := (access_chain whole).above reached
      exact upper.acyclic loop

end SessionRepository

open SessionRepository

/-- A root with one child, which is recycled. -/
def recycledTree : SessionRepository :=
  let grown := emptyRepository.performAll
    [.create (sampleRoot none), .spawnChild "root" (sampleChild none)]
  ⟨grown.active.erase "child", (grown.active.lookup "child").elim ∅ (AList.insert "child" · ∅)⟩

private theorem recycledTree_active :
    sessionId ∈ recycledTree.active ↔ sessionId = "root" := by
  have keys : recycledTree.active.keys = ["root"] := by decide +kernel
  rw [AList.mem_keys, keys, mem_singleton]

private theorem recycledTree_recycled :
    sessionId ∈ recycledTree.recycled ↔ sessionId = "child" := by
  have keys : recycledTree.recycled.keys = ["child"] := by decide +kernel
  rw [AList.mem_keys, keys, mem_singleton]

theorem recycledTree_forest : recycledTree.Forest where
  activeRead sessionId active := by
    obtain rfl := recycledTree_active.mp active
    exact exists_of_isOk (by decide +kernel)
  recycledRead sessionId recycled := by
    obtain rfl := recycledTree_recycled.mp recycled
    exact exists_of_isOk (by decide +kernel)
  rooted sessionId known := by
    rw [Known, recycledTree_active, recycledTree_recycled] at known
    have walked : ((recycledTree.accessGenealogy .activeOrRecycled).collectParentChain
        sessionId).isOk = true := by
      obtain rfl | rfl := known
      all_goals decide +kernel
    obtain ⟨names, done⟩ := exists_of_isOk walked
    obtain ⟨chain, whole, -⟩ := (Genealogy.collectParentChain_ok_iff _).mp done
    exact ⟨chain, whole⟩
  upward child parent active link := by
    obtain rfl := recycledTree_active.mp active
    have top : (recycledTree.readAccessModel .activeOrRecycled "root").toOption.bind
        SessionReadModel.parentSessionId = none := by decide +kernel
    obtain ⟨m, read, up⟩ := link
    change recycledTree.readAccessModel .activeOrRecycled "root" = .ok m at read
    rw [read] at top
    cases up.symm.trans top

/-- The recycled child can be read but is not listed. -/
theorem recycled_child_not_listed :
    recycledTree.Granted (fun _ => none) "root" "child" ∧
      (∃ listed, recycledTree.historyList "root" = .ok listed ∧
        "child" ∉ listed.map (·.sessionId)) ∧
      ¬recycledTree.HistoryAgrees (fun _ => none) "root" := by
  have granted : recycledTree.Granted (fun _ => none) "root" "child" := by
    rw [Granted]
    decide +kernel
  obtain ⟨listed, done, active⟩ := recycledTree_forest.listed_iff "root"
  have unlisted : "child" ∉ listed.map (·.sessionId) := by
    intro member
    have inside := recycledTree_active.mp ((active "child").mp member).1
    exact absurd inside (by decide)
  refine ⟨granted, ⟨listed, done, unlisted⟩, fun agrees => ?_⟩
  obtain ⟨-, listed', done', same⟩ :=
    agrees.forest recycledTree_forest (Or.inl (recycledTree_active.mpr rfl))
  obtain rfl := Except.ok.inj (done.symm.trans done')
  exact unlisted ((same "child").mpr granted)

end Astrcode
