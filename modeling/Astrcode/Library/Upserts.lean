import Mathlib.Data.List.Induction

/-!
# Lists with one element for each key

A list is built up by writing elements into it: an element whose key is new goes to the end, and
one whose key is there already changes the element in place. The keys of such a list are in the
order in which they were first written, and each element is what all the writes to its key have
made of the first one.
-/
namespace Astrcode.Library

open List

variable {α κ : Type} [DecidableEq κ] (key : α → κ) (update : α → α → α)

/-- Writes an element; `update` gets the old element first. -/
def upsert (a : α) : List α → List α
  | [] => [a]
  | b :: rest => if key b = key a then update b a :: rest else b :: upsert a rest

/-- Writes the elements one after the other. -/
def upsertAll (as : List α) (l : List α) : List α :=
  as.foldl (fun l a => upsert key update a l) l

def collect (as : List α) : List α := upsertAll key update as []

/-- An update does not change the key. -/
def KeepsKey : Prop := ∀ a b, key b = key a → key (update b a) = key b

variable {key update} {l : List α} {a : α}

theorem upsertAll_append (as bs l : List α) :
    upsertAll key update (as ++ bs) l = upsertAll key update bs (upsertAll key update as l) :=
  foldl_append

theorem collect_concat (as : List α) (a : α) :
    collect key update (as ++ [a]) = upsert key update a (collect key update as) :=
  upsertAll_append as [a] []

theorem upsert_of_not_mem (new : key a ∉ l.map key) :
    upsert key update a l = l ++ [a] := by
  induction l with
  | nil => rfl
  | cons b rest ih =>
    rw [map_cons, mem_cons, not_or] at new
    rw [upsert, if_neg (Ne.symm new.1), ih new.2, cons_append]

/-- What a projection that updates keep sees of a write. -/
theorem map_upsert_of_mem {β : Type} {f : α → β}
    (kept : ∀ a b, key b = key a → f (update b a) = f b)
    (old : key a ∈ l.map key) : (upsert key update a l).map f = l.map f := by
  induction l with
  | nil => cases old
  | cons b rest ih =>
    rw [upsert]
    split
    · next same => rw [map_cons, map_cons, kept a b same]
    · next other =>
      rw [map_cons, mem_cons] at old
      rw [map_cons, map_cons, ih (old.resolve_left fun same => other same.symm)]

/-- The elements of the collection, seen by a projection that updates keep, are some of those
written. -/
theorem map_collect_sublist {β : Type} {f : α → β}
    (kept : ∀ a b, key b = key a → f (update b a) = f b) (as : List α) :
    ((collect key update as).map f).Sublist (as.map f) := by
  induction as using reverseRecOn with
  | nil => exact .refl _
  | append_singleton as a ih =>
    rw [collect_concat, map_append]
    by_cases old : key a ∈ (collect key update as).map key
    · rw [map_upsert_of_mem kept old]
      exact ih.trans (sublist_append_left _ _)
    · rw [upsert_of_not_mem old, map_append]
      exact ih.append (.refl _)

theorem find?_eq_some_of_mem (nodup : (l.map key).Nodup) (member : a ∈ l) :
    l.find? (key · = key a) = some a := by
  induction l with
  | nil => cases member
  | cons b rest ih =>
    rw [map_cons, nodup_cons] at nodup
    rcases mem_cons.mp member with rfl | member
    · simp
    · have different : key b ≠ key a := fun equal =>
        nodup.1 (equal ▸ mem_map_of_mem member)
      rw [find?_cons_of_neg (by simpa using different), ih nodup.2 member]

section Keys

variable {a : α} {l : List α} (keeps : KeepsKey key update)

include keeps

/-- The keys after a write. -/
theorem map_key_upsert :
    (upsert key update a l).map key =
      if key a ∈ l.map key then l.map key else l.map key ++ [key a] := by
  split
  · next old => exact map_upsert_of_mem keeps old
  · next new => rw [upsert_of_not_mem new, map_append, map_singleton]

theorem nodup_collect (as : List α) : ((collect key update as).map key).Nodup := by
  induction as using reverseRecOn with
  | nil => exact nodup_nil
  | append_singleton as a ih =>
    rw [collect_concat, map_key_upsert keeps]
    split
    · exact ih
    · next new => simpa [nodup_append, ih] using new

/-- What is found under a key after a write. -/
theorem find?_upsert {k : κ} :
    (upsert key update a l).find? (key · = k) =
      if key a = k then some ((l.find? (key · = k)).elim a (update · a))
      else l.find? (key · = k) := by
  induction l with
  | nil => by_cases same : key a = k <;> simp [upsert, same]
  | cons b rest ih =>
    rw [upsert]
    split
    · next old =>
      have new : key (update b a) = key a := (keeps a b old).trans old
      by_cases same : key a = k
      all_goals simp [old, new, same]
    · next other =>
      by_cases found : key b = k
      · have different : key a ≠ k := fun same => other (found.trans same.symm)
        simp [found, different]
      · rw [find?_cons_of_neg (by simp [found]), find?_cons_of_neg (by simp [found]), ih]

/-- Under a key stands what the writes to it have made of the first of them. -/
theorem find?_collect (as : List α) (k : κ) :
    (collect key update as).find? (key · = k) =
      match as.filter (key · = k) with
      | [] => none
      | first :: rest => some (rest.foldl update first) := by
  induction as using reverseRecOn with
  | nil => rfl
  | append_singleton as a ih =>
    rw [collect_concat, find?_upsert keeps, ih, filter_append]
    by_cases same : key a = k
    · cases as.filter (key · = k) <;> simp [same]
    · simp [same]

/-- Each element is what the writes to its key have made of the first of them. -/
theorem mem_collect {as : List α} {x : α} :
    x ∈ collect key update as ↔
      ∃ first rest, as.filter (key · = key x) = first :: rest ∧ x = rest.foldl update first := by
  have found : x ∈ collect key update as ↔
      (collect key update as).find? (key · = key x) = some x :=
    ⟨find?_eq_some_of_mem (nodup_collect keeps as), mem_of_find?_eq_some⟩
  rw [found, find?_collect keeps]
  cases as.filter (key · = key x) with
  | nil => simp
  | cons first rest => simp [eq_comm]

end Keys

/-- Two lists with one element for each key are the same if they have the same keys and the same
elements under them. -/
theorem eq_of_find?_eq {m : List α} (nodup : (l.map key).Nodup) (keys : l.map key = m.map key)
    (same : ∀ k ∈ l.map key, l.find? (key · = k) = m.find? (key · = k)) : l = m := by
  induction l generalizing m with
  | nil => exact (map_eq_nil_iff.mp keys.symm).symm
  | cons a rest ih =>
    obtain ⟨b, others, rfl⟩ : ∃ b others, m = b :: others := by
      cases m with
      | nil => cases keys
      | cons b others => exact ⟨b, others, rfl⟩
    simp only [map_cons, cons.injEq] at keys
    rw [map_cons, nodup_cons] at nodup
    have first := same (key a) (by simp)
    simp only [find?_cons, keys.1, decide_true, Option.some.injEq] at first
    rw [first, ih nodup.2 keys.2]
    intro k member
    have different : key a ≠ k := fun equal => nodup.1 (equal ▸ member)
    have tail := same k (mem_cons_of_mem _ member)
    rwa [find?_cons_of_neg (by simpa using different),
      find?_cons_of_neg (by simpa [← keys.1] using different)] at tail

end Astrcode.Library
