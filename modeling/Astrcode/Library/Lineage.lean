import Mathlib.Data.List.Perm.Subperm

/-!
# Parent chains

Records that name a parent, and the walk from a record to its root. The links may be
damaged: a parent may be missing, and links may form a cycle. The walk keeps the nodes
it has visited and stops at the first one it meets again, so over finitely many links
it always ends: with the whole chain, at a record that cannot be read, or at a cycle.
-/
namespace Astrcode.Library

open Relation List

/-- Records of type `μ` by their names, of which only finitely many have a parent. -/
structure Genealogy (α μ ε : Type) where
  read : α → Except ε μ
  parent : μ → Option α
  linked : List α
  linked_of_parent : ∀ {a m b}, read a = .ok m → parent m = some b → a ∈ linked

inductive WalkError (α ε : Type) where
  | cycle (node : α)
  | resolve (error : ε)
  deriving DecidableEq

namespace Genealogy

variable {α μ ε σ : Type} (g : Genealogy α μ ε)

/-- The record of `a` can be read and names `b` as its parent. -/
def Link (a b : α) : Prop := ∃ m, g.read a = .ok m ∧ g.parent m = some b

/-! ### The chain of a record -/

/-- The records from `a` to its root, each with its name. -/
inductive Chain : α → List (α × μ) → Prop
  | root {a : α} {m : μ} : g.read a = .ok m → g.parent m = none → Chain a [(a, m)]
  | step {a b : α} {m : μ} {rest : List (α × μ)} :
      g.read a = .ok m → g.parent m = some b → Chain b rest → Chain a ((a, m) :: rest)

variable {g} {a b : α} {chain : List (α × μ)}

namespace Chain

theorem unique {other : List (α × μ)} (first : g.Chain a chain) (second : g.Chain a other) :
    chain = other := by
  induction first generalizing other with
  | root read none =>
    cases second with
    | root read' _ =>
      cases read.symm.trans read'
      rfl
    | step read' some _ =>
      cases read.symm.trans read'
      cases none.symm.trans some
  | step read some _ ih =>
    cases second with
    | root read' none =>
      cases read.symm.trans read'
      cases some.symm.trans none
    | step read' some' rest =>
      cases read.symm.trans read'
      cases some.symm.trans some'
      rw [ih rest]

variable (whole : g.Chain a chain)

include whole

theorem read_of_mem {x : α} {m : μ} (member : (x, m) ∈ chain) : g.read x = .ok m := by
  induction whole with
  | root read none =>
    obtain ⟨rfl, rfl⟩ : x = _ ∧ m = _ := by simpa using member
    exact read
  | step read some _ ih =>
    obtain same | inside := mem_cons.mp member
    · cases same
      exact read
    · exact ih inside

theorem mem_self : a ∈ chain.map (·.1) := by
  cases whole with
  | root | step => simp

/-- The chain from the parent on. -/
theorem parent (link : g.Link a b) : ∃ m rest, g.Chain b rest ∧ chain = (a, m) :: rest := by
  obtain ⟨m, read, parent⟩ := link
  cases whole with
  | root read' none =>
    cases read.symm.trans read'
    cases parent.symm.trans none
  | step read' some rest =>
    cases read.symm.trans read'
    cases parent.symm.trans some
    exact ⟨_, _, rest, rfl⟩

/-- A proper ancestor has a shorter chain. -/
theorem shorter (above : TransGen g.Link a b) :
    ∃ rest, g.Chain b rest ∧ rest.length < chain.length := by
  induction above with
  | single link =>
    obtain ⟨m, rest, upper, rfl⟩ := whole.parent link
    exact ⟨rest, upper, by simp⟩
  | tail _ link ih =>
    obtain ⟨middle, upper, shorter⟩ := ih
    obtain ⟨m, rest, last, rfl⟩ := upper.parent link
    refine ⟨rest, last, ?_⟩
    simp only [length_cons] at shorter
    omega

theorem above (reached : ReflTransGen g.Link a b) : ∃ rest, g.Chain b rest := by
  obtain rfl | above := reflTransGen_iff_eq_or_transGen.mp reached
  · exact ⟨chain, whole⟩
  · obtain ⟨rest, upper, -⟩ := whole.shorter above
    exact ⟨rest, upper⟩

theorem acyclic : ¬TransGen g.Link a a := by
  intro loop
  obtain ⟨rest, again, shorter⟩ := whole.shorter loop
  rw [whole.unique again] at shorter
  exact Nat.lt_irrefl _ shorter

/-- The chain holds the record and its ancestors. -/
theorem mem_iff : b ∈ chain.map (·.1) ↔ ReflTransGen g.Link a b := by
  constructor
  · intro member
    induction whole with
    | root _ _ =>
      obtain rfl : b = _ := by simpa using member
      exact .refl
    | step read some _ ih =>
      obtain rfl | inside := mem_cons.mp member
      · exact .refl
      · exact .head ⟨_, read, some⟩ (ih inside)
  · intro reached
    induction reached using ReflTransGen.head_induction_on generalizing chain with
    | refl => exact whole.mem_self
    | head link _ ih =>
      obtain ⟨m, rest, upper, rfl⟩ := whole.parent link
      exact mem_cons_of_mem _ (ih upper)

/-- A chain stays one wherever its records are read the same. -/
theorem mono {ε' : Type} {h : Genealogy α μ ε'}
    (kept : ∀ x m, (x, m) ∈ chain → h.read x = .ok m ∧ h.parent m = g.parent m) :
    h.Chain a chain := by
  induction whole with
  | @root a m read last =>
    obtain ⟨read', same⟩ := kept a m (by simp)
    exact .root read' (same.trans last)
  | @step a b m rest read up _ ih =>
    obtain ⟨read', same⟩ := kept a m (by simp)
    exact .step read' (same.trans up)
      (ih fun x m inside => kept x m (mem_cons_of_mem _ inside))

/-- Records may change as long as they keep their parents. -/
theorem transfer {h : Genealogy α μ ε}
    (kept : ∀ x m, (x, m) ∈ chain → ∃ n, h.read x = .ok n ∧ h.parent n = g.parent m) :
    ∃ rest, h.Chain a rest := by
  induction whole with
  | @root a m read last =>
    obtain ⟨n, read', same⟩ := kept a m (by simp)
    exact ⟨_, .root read' (same.trans last)⟩
  | @step a b m rest read up _ ih =>
    obtain ⟨n, read', same⟩ := kept a m (by simp)
    obtain ⟨upper, continued⟩ := ih fun x m inside => kept x m (mem_cons_of_mem _ inside)
    exact ⟨_, .step read' (same.trans up) continued⟩

end Chain

/-! ### The walk -/

section Walk

variable [DecidableEq α] (g) (combine : σ → α → μ → σ)

private theorem walk_decreases (known : current ∈ g.linked) (fresh : current ∉ visited) :
    (g.linked.filter (· ∉ current :: visited)).length < (g.linked.filter (· ∉ visited)).length := by
  have sub : (g.linked.filter (· ∉ current :: visited)).Sublist (g.linked.filter (· ∉ visited)) :=
    monotone_filter_right _ fun x => by simp
  refine Nat.lt_of_le_of_ne sub.length_le fun same => ?_
  have inside : current ∈ g.linked.filter (· ∉ visited) := by simp [known, fresh]
  rw [← sub.eq_of_length same] at inside
  simp at inside

/-- Walks from `current` to its root and combines the records on the way. -/
def walk (visited : List α) (state : σ) (current : α) : Except (WalkError α ε) σ :=
  if _fresh : current ∈ visited then .error (.cycle current)
  else match _read : g.read current with
    | .error e => .error (.resolve e)
    | .ok model =>
      match _next : g.parent model with
      | none => .ok (combine state current model)
      | some above => walk (current :: visited) (combine state current model) above
termination_by (g.linked.filter (· ∉ visited)).length
decreasing_by exact g.walk_decreases (g.linked_of_parent _read _next) _fresh

variable {g combine} {visited : List α} {state : σ} {current : α}

theorem walk_eq :
    g.walk combine visited state current =
      if current ∈ visited then .error (.cycle current)
      else match g.read current with
        | .error e => .error (.resolve e)
        | .ok model =>
          match g.parent model with
          | none => .ok (combine state current model)
          | some above =>
            g.walk combine (current :: visited) (combine state current model) above := by
  by_cases seen : current ∈ visited
  · rw [walk, dif_pos seen, if_pos seen]
  · rw [walk, dif_neg seen, if_neg seen]
    split
    · next found => rw [found]
    · next found =>
      rw [found]
      split
      all_goals next up => simp only [up]

theorem walk_step {m : μ} {above : α} (fresh : current ∉ visited) (read : g.read current = .ok m)
    (up : g.parent m = some above) :
    g.walk combine visited state current =
      g.walk combine (current :: visited) (combine state current m) above := by
  rw [walk_eq, if_neg fresh, read]
  simp only [up]

/-- A walk along a chain of fresh records combines all of them. -/
theorem Chain.walk {chain : List (α × μ)} (whole : g.Chain current chain)
    (fresh : ∀ x ∈ chain.map (·.1), x ∉ visited) :
    g.walk combine visited state current =
      .ok (chain.foldl (fun state entry => combine state entry.1 entry.2) state) := by
  induction whole generalizing visited state with
  | root read last => simp [walk_eq, fresh, read, last]
  | @step a b m rest read up upper ih =>
    rw [walk_step (fresh a (by simp)) read up]
    refine ih fun x inside seen => ?_
    obtain rfl | before := mem_cons.mp seen
    · -- the record would be its own ancestor
      have whole : g.Chain x ((x, m) :: rest) := .step read up upper
      exact whole.acyclic (.head' ⟨m, read, up⟩ (upper.mem_iff.mp inside))
    · exact fresh x (by simp [inside]) before

variable (g combine state)

/-- How a walk ends, if every visited record leads to the current one. -/
theorem walk_cases (path : ∀ v ∈ visited, TransGen g.Link v current) :
    (∃ chain, g.Chain current chain) ∨
      (∃ x, g.walk combine visited state current = .error (.cycle x) ∧
        ReflTransGen g.Link current x ∧ TransGen g.Link x x) ∨
      ∃ x e, g.walk combine visited state current = .error (.resolve e) ∧
        ReflTransGen g.Link current x ∧ g.read x = .error e := by
  induction visited, state, current using walk.induct g combine with
  | case1 visited state current again =>
    exact Or.inr (Or.inl ⟨current, by rw [walk_eq, if_pos again], .refl, path _ again⟩)
  | case2 visited state current fresh e unread =>
    exact Or.inr (Or.inr ⟨current, e, by simp [walk_eq, fresh, unread], .refl, unread⟩)
  | case3 visited state current fresh m read last => exact Or.inl ⟨_, .root read last⟩
  | case4 visited state current fresh m read above up ih =>
    have link : g.Link current above := ⟨m, read, up⟩
    have longer : ∀ v ∈ current :: visited, TransGen g.Link v above := by
      intro v seen
      obtain rfl | before := mem_cons.mp seen
      · exact .single link
      · exact (path v before).tail link
    rw [walk_step fresh read up]
    obtain ⟨chain, upper⟩ | ⟨x, stopped, reached, loop⟩ | ⟨x, e, stopped, reached, unread⟩ := ih longer
    · exact Or.inl ⟨_, .step read up upper⟩
    · exact Or.inr (Or.inl ⟨x, stopped, .head link reached, loop⟩)
    · exact Or.inr (Or.inr ⟨x, e, stopped, .head link reached, unread⟩)

/-- A walk succeeds exactly on a chain, and combines it. -/
theorem walk_ok_iff {result : σ} (path : ∀ v ∈ visited, TransGen g.Link v current) :
    g.walk combine visited state current = .ok result ↔
      ∃ chain, g.Chain current chain ∧
        result = chain.foldl (fun state entry => combine state entry.1 entry.2) state := by
  have fresh : ∀ chain, g.Chain current chain → ∀ x ∈ chain.map (·.1), x ∉ visited := by
    intro chain whole x inside seen
    obtain ⟨rest, upper⟩ := whole.above (whole.mem_iff.mp inside)
    exact upper.acyclic ((path x seen).trans_left (whole.mem_iff.mp inside))
  constructor
  · intro walked
    obtain ⟨chain, whole⟩ | ⟨x, stopped, -⟩ | ⟨x, e, stopped, -⟩ := g.walk_cases combine state path
    · rw [whole.walk (fresh chain whole), Except.ok.injEq] at walked
      exact ⟨chain, whole, walked.symm⟩
    all_goals rw [stopped] at walked; cases walked
  · rintro ⟨chain, whole, rfl⟩
    exact whole.walk (fresh chain whole)

variable (current)

/-- A record has a chain exactly when it and its ancestors can be read and none of them is its
own ancestor. -/
theorem exists_chain_iff :
    (∃ chain, g.Chain current chain) ↔
      (∀ x, ReflTransGen g.Link current x → ∃ m, g.read x = .ok m) ∧
        ¬∃ x, ReflTransGen g.Link current x ∧ TransGen g.Link x x := by
  constructor
  · rintro ⟨chain, whole⟩
    refine ⟨fun x reached => ?_, ?_⟩
    · obtain ⟨⟨_, m⟩, member, rfl⟩ := mem_map.mp (whole.mem_iff.mpr reached)
      exact ⟨m, whole.read_of_mem member⟩
    · rintro ⟨x, reached, loop⟩
      obtain ⟨rest, upper⟩ := whole.above reached
      exact upper.acyclic loop
  · rintro ⟨readable, acyclic⟩
    obtain found | ⟨x, -, reached, loop⟩ | ⟨x, e, -, reached, unread⟩ :=
      g.walk_cases (fun _ _ _ => ()) () (by simp : ∀ v ∈ [], TransGen g.Link v current)
    · exact found
    · exact absurd ⟨x, reached, loop⟩ acyclic
    · obtain ⟨m, read⟩ := readable x reached
      rw [unread] at read
      cases read

/-! ### The names on the way -/

/-- Collects the names from `start` to its root. -/
def collectParentChain (start : α) : Except (WalkError α ε) (List α) :=
  g.walk (fun chain current _ => chain ++ [current]) [] [] start

omit [DecidableEq α] in
private theorem foldl_names (chain : List (α × μ)) (names : List α) :
    chain.foldl (fun names entry => names ++ [entry.1]) names = names ++ chain.map (·.1) := by
  induction chain generalizing names with
  | nil => simp
  | cons entry chain ih => simp [ih]

theorem collectParentChain_ok_iff {start : α} {names : List α} :
    g.collectParentChain start = .ok names ↔
      ∃ chain, g.Chain start chain ∧ names = chain.map (·.1) := by
  have path : ∀ v ∈ [], TransGen g.Link v start := by simp
  simp only [collectParentChain, g.walk_ok_iff _ _ path, foldl_names, nil_append]

theorem collectParentChain_cycle {start node : α}
    (stopped : g.collectParentChain start = .error (.cycle node)) :
    TransGen g.Link node node := by
  obtain ⟨chain, whole⟩ | ⟨x, stopped', -, loop⟩ | ⟨x, e, stopped', -⟩ :=
    g.walk_cases (fun chain current _ => chain ++ [current]) []
      (by simp : ∀ v ∈ [], TransGen g.Link v start)
  · have ok := (g.collectParentChain_ok_iff).mpr ⟨chain, whole, rfl⟩
    rw [stopped] at ok
    cases ok
  · have same := stopped.symm.trans stopped'
    cases same
    exact loop
  · cases stopped.symm.trans stopped'

end Walk

end Genealogy

end Astrcode.Library
