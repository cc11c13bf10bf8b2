import Mathlib.Logic.Basic

/-!
# Runs of a fallible step

A state that takes one input at a time and stops at the first input it refuses.
What holds of one accepted step carries over to a whole run by `runAll_invariant`.
-/
namespace Astrcode.Library

variable {σ ε α β : Type} {x : Except ε α} {a : α} {f : ε → β}

@[simp] theorem ok_bind (f : α → Except ε β) : (.ok a >>= f : Except ε β) = f a := rfl

@[simp] theorem error_bind (e : ε) (f : α → Except ε β) :
    (.error e >>= f : Except ε β) = .error e := rfl

@[simp] theorem pure_eq_ok : (pure a : Except ε α) = .ok a := rfl

theorem bind_ok_iff {f : α → Except ε β} {b : β} :
    x >>= f = .ok b ↔ ∃ a, x = .ok a ∧ f a = .ok b := by
  cases x with
  | error | ok => simp

/-- A check that fails with an error. -/
def ensure (holds : Prop) [Decidable holds] (error : ε) : Except ε Unit :=
  if holds then .ok () else .error error

theorem ensure_ok_iff {holds : Prop} [Decidable holds] {error : ε} {u : Unit} :
    ensure holds error = .ok u ↔ holds := by
  rw [ensure]
  split
  · next holds => simp [holds]
  · next fails => simp [fails]

theorem forM_ok {check : α → Except ε Unit} {items : List α}
    (passed : items.forM check = .ok ()) : ∀ item ∈ items, check item = .ok () := by
  induction items with
  | nil => exact fun item member => nomatch member
  | cons first rest ih =>
    obtain ⟨_, firstPassed, restPassed⟩ := bind_ok_iff.mp passed
    intro item member
    rcases List.mem_cons.mp member with rfl | later
    · exact firstPassed
    · exact ih restPassed item later

theorem mapError_ok_iff :
    x.mapError f = .ok a ↔ x = .ok a := by
  cases x with
  | error e =>
    constructor
    all_goals
      intro failed
      cases failed
  | ok b =>
    constructor
    all_goals
      intro same
      cases same
      rfl

theorem mapError_ok (ok : x.mapError f = .ok a) :
    x = .ok a :=
  mapError_ok_iff.mp ok

/-- An outcome that evaluates to success has a value. -/
theorem exists_of_isOk (ok : x.isOk = true) : ∃ a, x = .ok a := by
  cases x with
  | error e => cases ok
  | ok a => exact ⟨a, rfl⟩

/-- A test that an outcome passes finds a value in it. -/
theorem exists_of_any {p : α → Bool} (passes : x.toOption.any p = true) :
    ∃ a, x = .ok a ∧ p a = true := by
  cases x with
  | error e => cases passes
  | ok a => exact ⟨a, rfl, passes⟩

/-- Feeds the inputs to `step` one after the other. -/
def runAll (step : α → σ → Except ε σ) : List α → σ → Except ε σ
  | [], s => .ok s
  | a :: as, s => do
    let s ← step a s
    runAll step as s

variable {step : α → σ → Except ε σ} {as : List α} {P : σ → Prop}

theorem runAll_nil {s s' : σ} : runAll step [] s = .ok s' ↔ s' = s := by
  simp [runAll, eq_comm]

theorem runAll_cons {s s' : σ} :
    runAll step (a :: as) s = .ok s' ↔ ∃ mid, step a s = .ok mid ∧ runAll step as mid = .ok s' :=
  bind_ok_iff

theorem runAll_append {bs : List α} {s s' : σ} :
    runAll step (as ++ bs) s = .ok s' ↔
      ∃ mid, runAll step as s = .ok mid ∧ runAll step bs mid = .ok s' := by
  induction as generalizing s with
  | nil => simp [runAll]
  | cons a as ih =>
    simp only [List.cons_append, runAll_cons, ih]
    constructor
    · rintro ⟨first, head, mid, middle, rest⟩
      exact ⟨mid, ⟨first, head, middle⟩, rest⟩
    · rintro ⟨mid, ⟨first, head, middle⟩, rest⟩
      exact ⟨first, head, mid, middle, rest⟩

/-- What every accepted step on inputs of one kind preserves, a run on such inputs
preserves. -/
theorem runAll_invariant_of {Q : α → Prop}
    (preserved : ∀ a s s', Q a → step a s = .ok s' → P s → P s')
    {s s' : σ} (inputs : ∀ a ∈ as, Q a) (run : runAll step as s = .ok s') (start : P s) : P s' := by
  induction as generalizing s with
  | nil =>
    rw [runAll_nil.mp run]
    exact start
  | cons a as ih =>
    obtain ⟨mid, head, rest⟩ := runAll_cons.mp run
    exact ih (List.forall_mem_cons.mp inputs).2 rest
      (preserved a s mid (inputs a (by simp)) head start)

/-- What every accepted step preserves, every accepted run preserves. -/
theorem runAll_invariant (preserved : ∀ a s s', step a s = .ok s' → P s → P s')
    {s s' : σ} (run : runAll step as s = .ok s') (start : P s) : P s' :=
  runAll_invariant_of (Q := fun _ => True) (fun a s s' _ => preserved a s s')
    (fun _ _ => trivial) run start

/-- A property of every step of a run that nothing stops. -/
def Along (step : σ → α → σ) (P : σ → α → Prop) : σ → List α → Prop
  | _, [] => True
  | s, a :: as => P s a ∧ Along step P (step s a) as

instance Along.decidable {step : σ → α → σ} {P : σ → α → Prop} [∀ s a, Decidable (P s a)] :
    ∀ s as, Decidable (Along step P s as)
  | _, [] => isTrue trivial
  | s, a :: as =>
    have : Decidable (Along step P (step s a) as) := Along.decidable (step s a) as
    inferInstanceAs (Decidable (P s a ∧ Along step P (step s a) as))

/-- What the steps of a run have in common may rest on an invariant that they keep. -/
theorem Along.mono {step : σ → α → σ} {P Q : σ → α → Prop} {I : σ → Prop} {s : σ}
    (keeps : ∀ s a, I s → P s a → I (step s a)) (gives : ∀ s a, I s → P s a → Q s a) (start : I s)
    (along : Along step P s as) : Along step Q s as := by
  induction as generalizing s with
  | nil => trivial
  | cons a as ih => exact ⟨gives s a start along.1, ih (keeps s a start along.1) along.2⟩

end Astrcode.Library
