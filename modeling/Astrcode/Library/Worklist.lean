import Mathlib.Data.Finset.Card

/-!
# Worklists

Everything that can be reached in a finite graph, collected with a stack of nodes still to
be looked at. A node is expanded once, so the search ends; it finds exactly the nodes a
path leads to.
-/
namespace Astrcode.Library

open Relation List

/-- Successors that lie in a finite set of nodes. -/
structure FiniteGraph (α : Type) where
  next : α → List α
  nodes : List α
  next_mem : ∀ {a b}, b ∈ next a → b ∈ nodes

namespace FiniteGraph

variable {α : Type} [DecidableEq α] (graph : FiniteGraph α)

def Edge (a b : α) : Prop := b ∈ graph.next a

/-- The stack with the successors of a node on top, the last one first. -/
def push (current : α) (pending : List α) : List α := (graph.next current).reverse ++ pending

/-- The nodes that may still be added. -/
def unvisited (visited pending : List α) : Finset α :=
  (pending ++ graph.nodes).toFinset \ visited.toFinset

private theorem unvisited_pop (visited : List α) (current : α) (pending : List α) :
    graph.unvisited visited pending ⊆ graph.unvisited visited (current :: pending) := by
  intro x
  simp only [unvisited, Finset.mem_sdiff, mem_toFinset, cons_append, mem_cons]
  tauto

private theorem unvisited_expand {current : α} (fresh : current ∉ visited) (pending : List α) :
    graph.unvisited (current :: visited) (graph.push current pending) ⊂
      graph.unvisited visited (current :: pending) := by
  refine Finset.ssubset_iff_of_subset ?_ |>.mpr ⟨current, ?_, ?_⟩
  · intro x
    simp only [unvisited, push, Finset.mem_sdiff, mem_toFinset, mem_append,
      mem_reverse, mem_cons, cons_append]
    rintro ⟨(successor | inside) | known, new⟩
    · exact ⟨Or.inr (Or.inr (graph.next_mem successor)), by tauto⟩
    · exact ⟨Or.inr (Or.inl inside), by tauto⟩
    · exact ⟨Or.inr (Or.inr known), by tauto⟩
  · simp [unvisited, fresh]
  · simp [unvisited]

/-- Expands the node on top of the stack unless it was expanded before. -/
def visit (visited : List α) : List α → List α
  | [] => visited
  | current :: pending =>
    if _again : current ∈ visited then visit visited pending
    else visit (current :: visited) (graph.push current pending)
termination_by pending => ((graph.unvisited visited pending).card, pending.length)
decreasing_by
  · apply Prod.Lex.right'
    · exact Finset.card_le_card (graph.unvisited_pop visited current pending)
    · exact Nat.lt_succ_self pending.length
  · apply Prod.Lex.left
    exact Finset.card_lt_card (graph.unvisited_expand _again pending)

variable {graph} {visited pending : List α}

/-- What is found was found before or can be reached from the stack. -/
private theorem visit_sound {x : α} (found : x ∈ graph.visit visited pending) :
    x ∈ visited ∨ ∃ a ∈ pending, ReflTransGen graph.Edge a x := by
  fun_induction visit graph visited pending with
  | case1 visited => exact Or.inl found
  | case2 visited current pending again ih =>
    obtain before | ⟨a, member, path⟩ := ih found
    · exact Or.inl before
    · exact Or.inr ⟨a, mem_cons_of_mem _ member, path⟩
  | case3 visited current pending fresh ih =>
    obtain before | ⟨a, member, path⟩ := ih found
    · obtain rfl | before := mem_cons.mp before
      · exact Or.inr ⟨x, mem_cons_self, .refl⟩
      · exact Or.inl before
    · obtain successor | member := mem_append.mp member
      · exact Or.inr ⟨current, mem_cons_self, .head (mem_reverse.mp successor) path⟩
      · exact Or.inr ⟨a, mem_cons_of_mem _ member, path⟩

/-- The result holds the stack and is closed under successors, if what was expanded before has
its successors there or on the stack. -/
private theorem visit_closed
    (expanded : ∀ a ∈ visited, ∀ b ∈ graph.next a, b ∈ visited ∨ b ∈ pending) :
    (∀ a ∈ visited ++ pending, a ∈ graph.visit visited pending) ∧
      ∀ a ∈ graph.visit visited pending, ∀ b ∈ graph.next a, b ∈ graph.visit visited pending := by
  fun_induction visit graph visited pending with
  | case1 visited => simpa using expanded
  | case2 visited current pending again ih =>
    obtain ⟨holds, closed⟩ := ih fun a member b edge => by
      obtain inside | waiting := expanded a member b edge
      · exact Or.inl inside
      · obtain rfl | waiting := mem_cons.mp waiting
        · exact Or.inl again
        · exact Or.inr waiting
    refine ⟨fun a member => holds a ?_, closed⟩
    obtain inside | waiting := mem_append.mp member
    · exact mem_append_left _ inside
    · obtain rfl | waiting := mem_cons.mp waiting
      · exact mem_append_left _ again
      · exact mem_append_right _ waiting
  | case3 visited current pending fresh ih =>
    obtain ⟨holds, closed⟩ := ih fun a member b edge => by
      simp only [push, mem_cons, mem_append, mem_reverse] at member ⊢
      obtain rfl | member := member
      · exact Or.inr (Or.inl edge)
      · have place := expanded a member b edge
        simp only [mem_cons] at place
        tauto
    refine ⟨fun a member => holds a ?_, closed⟩
    simp only [push, mem_append, mem_cons] at member ⊢
    tauto

/-- From one node the search finds exactly what a path leads to. -/
theorem mem_visit_iff {a x : α} :
    x ∈ graph.visit [] [a] ↔ ReflTransGen graph.Edge a x := by
  constructor
  · intro found
    obtain before | ⟨b, member, path⟩ := visit_sound found
    · cases before
    · rwa [mem_singleton.mp member] at path
  · intro path
    have start : ∀ v ∈ [], ∀ b ∈ graph.next v, b ∈ [] ∨ b ∈ [a] := by simp
    obtain ⟨holds, closed⟩ := visit_closed start
    induction path with
    | refl => exact holds a (by simp)
    | tail _ edge ih => exact closed _ ih _ edge

end FiniteGraph

end Astrcode.Library
