import Astrcode.Library.Runs
import Astrcode.Session.CircuitBreaker

/-!
# One probe at a time

Between the moment at which the breaker hands out a permit in the half-open state and the moment
at which it gets that permit back, it is meant to hand out no other. But it takes the end of any
attempt for the end of the probe, and so also the drop of the permit that a refused acquire has
built: after it, the next acquire only has to wait for the cooldown. A failure that comes late
when the breaker is open restarts the cooldown.
-/
namespace Astrcode

open Library CompactCircuitBreaker List

namespace CompactAttempts

/-- While a probe is under way no permit is handed out. -/
def OneProbe (s : CompactAttempts) (step : CompactAttemptStep) : Prop :=
  (∃ p ∈ s.permits, p.probe = true) → (s.step step).issued = s.issued

/-- The result of an attempt from before the breaker opened neither ends the probe nor restarts
the cooldown. -/
def LateResultsIgnored (s : CompactAttempts) (step : CompactAttemptStep) : Prop :=
  ∀ p ∈ s.permits, p.opened < s.opened → ∀ outcome, step.gives = some (p.id, outcome) →
    (s.breaker.state = .halfOpen → (s.step step).breaker.state = .halfOpen) ∧
      ∀ before after, s.breaker.state = .openUntil before →
        (s.step step).breaker.state = .openUntil after → after = before

/-- No attempt from before the breaker opened ends in the half-open state, or fails in the open
state when the failures have reached the threshold and the cooldown would end at another time. -/
def NoLateResult (s : CompactAttempts) (step : CompactAttemptStep) : Prop :=
  ∀ p ∈ s.permits, p.opened < s.opened → ∀ outcome, step.gives = some (p.id, outcome) →
    s.breaker.state ≠ .halfOpen ∧
      ∀ before, s.breaker.state = .openUntil before → outcome = .failed →
        s.breaker.threshold ≤ s.breaker.countFailure.consecutiveLlmFailures →
          s.now + s.breaker.cooldown = before

/-- The cooldown is under way. -/
def Cooling (s : CompactAttempts) : Prop :=
  ∃ instant, s.breaker.state = .openUntil instant ∧ s.now < instant

/-- While a probe is under way that the breaker has opened beside, as it does when the permit of a
refused acquire is dropped in the half-open state, an acquire only comes during the cooldown. -/
def AcquiresWait (s : CompactAttempts) (step : CompactAttemptStep) : Prop :=
  step = .acquire → (∃ p ∈ s.permits, p.probe = true ∧ p.opened < s.opened) → s.Cooling

variable {s : CompactAttempts} {step : CompactAttemptStep} {id : Nat} {outcome : LlmCompactAttempt}
  {p : CompactAttemptPermit}

theorem step_gives (gives : step.gives = some (id, outcome)) :
    s.step step = s.giveBack id outcome := by
  cases step <;> cases gives <;> rfl

theorem giveBack_held (held : p ∈ s.permits) :
    s.giveBack p.id outcome = { s.withBreaker (s.breaker.finishAttempt s.now outcome) with
      permits := s.permits.filter (·.id ≠ p.id) } := by
  have found : s.permits.any (·.id = p.id) = true := any_eq_true.mpr ⟨p, held, by simp⟩
  rw [giveBack, if_pos found]

theorem finishAttempt_not_halfOpen (now : Nat) (breaker : CompactCircuitBreaker)
    (outcome : LlmCompactAttempt) : (breaker.finishAttempt now outcome).state ≠ .halfOpen := by
  cases outcome with
  | succeeded => simp [finishAttempt]
  | failed | notAttempted =>
    simp only [finishAttempt]
    split
    · simp [startCooldown]
    · next stays => simp_all

theorem configure_not_halfOpen {now threshold cooldown : Nat} {breaker : CompactCircuitBreaker}
    (notHalf : breaker.state ≠ .halfOpen) :
    (breaker.configure now threshold cooldown).state ≠ .halfOpen := by
  simp only [configure]
  split
  · simp [startCooldown]
  · exact notHalf

theorem finishAttempt_failed (notHalf : s.breaker.state ≠ .halfOpen) :
    (s.breaker.finishAttempt s.now .failed).state =
      if s.breaker.threshold ≤ s.breaker.countFailure.consecutiveLlmFailures then
        .openUntil (s.now + s.breaker.cooldown)
      else s.breaker.state := by
  by_cases many : s.breaker.threshold ≤ s.breaker.countFailure.consecutiveLlmFailures
  · rw [finishAttempt, if_pos (.inr many), if_pos many]
    rfl
  · have stays : ¬ (s.breaker.countFailure.state = .halfOpen ∨
        s.breaker.countFailure.threshold ≤ s.breaker.countFailure.consecutiveLlmFailures) :=
      not_or.mpr ⟨notHalf, many⟩
    rw [finishAttempt, if_neg stays, if_neg many]
    rfl

/-- What makes a late result harmless. -/
theorem lateResultsIgnored_iff : s.LateResultsIgnored step ↔ s.NoLateResult step := by
  refine forall₂_congr fun p held => forall₃_congr fun late outcome gives => ?_
  rw [step_gives gives, giveBack_held held]
  simp only [withBreaker, finishAttempt_not_halfOpen, imp_false]
  refine and_congr_right fun notHalf => forall_congr' fun before => ?_
  have stays : ∀ after, s.breaker.state = .openUntil before → s.breaker.state = .openUntil after →
      after = before := by
    intro after was same
    rw [was, CircuitState.openUntil.injEq] at same
    exact same.symm
  cases outcome with
  | succeeded => simp [finishAttempt]
  | notAttempted => simpa [finishAttempt, notHalf] using stays
  | failed =>
    rw [finishAttempt_failed notHalf]
    split
    · next many => simp [many, eq_comm]
    · next few => simpa [few] using stays

/-- The order that the steps keep: at most one probe is under way, the breaker is half-open until
it opens beside the probe, and all other permits of a breaker that is not closed are from before it
opened. -/
structure Orderly (s : CompactAttempts) : Prop where
  inFlight : s.breaker.state = .halfOpen → s.breaker.halfOpenAttemptInFlight = true
  probing : ∀ p ∈ s.permits, p.probe = true → (s.breaker.state = .halfOpen ↔ p.opened = s.opened)
  single : ∀ p ∈ s.permits, ∀ q ∈ s.permits, p.probe = true → q.probe = true → p.id = q.id
  late : s.breaker.state ≠ .closed → ∀ p ∈ s.permits, p.probe = false → p.opened < s.opened
  past : ∀ p ∈ s.permits, p.opened ≤ s.opened

theorem opened_le_withBreaker (breaker : CompactCircuitBreaker) :
    s.opened ≤ (s.withBreaker breaker).opened := by
  simp only [withBreaker]
  split <;> omega

/-- What an acquire does: a refused one changes no more than the number of its kind, and a permit
is handed out in the closed state, or as the probe when the cooldown is over. -/
theorem acquire_cases (inFlight : s.breaker.state = .halfOpen →
      s.breaker.halfOpenAttemptInFlight = true) :
    (s.breaker.state = .halfOpen ∨ s.Cooling) ∧ s.acquire = { s with refused := s.refused + 1 } ∨
      s.breaker.state ≠ .halfOpen ∧ ¬ s.Cooling ∧ ∃ breaker probe,
        s.acquire = { s with
          breaker, permits := ⟨s.issued, probe, s.opened⟩ :: s.permits, issued := s.issued + 1 } ∧
        (breaker = s.breaker ∧ s.breaker.state = .closed ∧ probe = false ∨
          breaker.state = .halfOpen ∧ breaker.halfOpenAttemptInFlight = true ∧ probe = true ∧
            s.breaker.state ≠ .closed) := by
  have same : s.withBreaker s.breaker = s := by simp [CompactAttempts.withBreaker]
  rw [CompactAttempts.acquire, shouldAttempt, Cooling]
  cases isState : s.breaker.state with
  | closed =>
    refine .inr ⟨by simp, by simp, s.breaker, false, ?_, .inl ⟨rfl, rfl, rfl⟩⟩
    simp [same, isState]
  | openUntil instant =>
    dsimp only
    split
    · next cooling => exact .inl ⟨.inr ⟨instant, rfl, cooling⟩, by simp [same]⟩
    · next exceeded =>
      refine .inr ⟨by simp, by simpa using exceeded,
        { s.breaker with state := .halfOpen, halfOpenAttemptInFlight := true }, true, ?_,
        .inr ⟨rfl, rfl, rfl, by simp⟩⟩
      simp [allowHalfOpenAttempt, CompactAttempts.withBreaker]
  | halfOpen => exact .inl ⟨.inl rfl, by simp [allowHalfOpenAttempt, inFlight isState, same]⟩

namespace Orderly

variable (orderly : Orderly s)

include orderly

/-- Beside a probe that is under way in another state the breaker has opened. -/
theorem outlived (notHalf : s.breaker.state ≠ .halfOpen) :
    ∀ p ∈ s.permits, p.probe = true → p.opened < s.opened := by
  intro p held probe
  have other : p.opened ≠ s.opened := mt (orderly.probing p held probe).mpr notHalf
  exact Nat.lt_of_le_of_ne (orderly.past p held) other

/-- The breaker may go anywhere but to the half-open state, if the probes it then has are from
before it opened. -/
theorem withBreaker {breaker : CompactCircuitBreaker} {permits : List CompactAttemptPermit}
    (fewer : permits ⊆ s.permits) (notHalf : breaker.state ≠ .halfOpen)
    (outlived : ∀ p ∈ permits, p.probe = true → p.opened < (s.withBreaker breaker).opened) :
    Orderly { s.withBreaker breaker with permits } where
  inFlight half := absurd half notHalf
  probing p held probe :=
    iff_of_false notHalf (Nat.ne_of_lt (outlived p held probe))
  single p pHeld q qHeld := orderly.single p (fewer pHeld) q (fewer qHeld)
  late notClosed p held isOther := by
    have before := orderly.past p (fewer held)
    have later := fun notClosed => orderly.late notClosed p (fewer held) isOther
    simp only [CompactAttempts.withBreaker]
    cases was : s.breaker.state with
    | openUntil instant =>
      simpa using later (by simp [was])
    | closed | halfOpen =>
      -- the breaker opens now
      have opens : breaker.state.isOpen = true := by
        cases isState : breaker.state with
        | openUntil => rfl
        | closed => exact absurd isState notClosed
        | halfOpen => exact absurd isState notHalf
      rw [if_pos (by rw [opens]; rfl)]
      exact Nat.lt_succ_of_le before
  past p held := Nat.le_trans (orderly.past p (fewer held)) (opened_le_withBreaker breaker)

/-- In particular from any other state. -/
theorem withBreaker_of_not_halfOpen {breaker : CompactCircuitBreaker}
    {permits : List CompactAttemptPermit} (fewer : permits ⊆ s.permits)
    (was : s.breaker.state ≠ .halfOpen) (notHalf : breaker.state ≠ .halfOpen) :
    Orderly { s.withBreaker breaker with permits } :=
  orderly.withBreaker fewer notHalf fun p held probe =>
    Nat.lt_of_lt_of_le (orderly.outlived was p (fewer held) probe) (opened_le_withBreaker breaker)

/-- A permit is handed out beside a probe exactly if the acquire does not wait. -/
theorem oneProbe_iff : s.OneProbe step ↔ s.AcquiresWait step := by
  cases step with
  | acquire =>
    simp only [OneProbe, AcquiresWait, CompactAttempts.step, forall_true_left]
    rcases acquire_cases orderly.inFlight with
      ⟨waits, refused⟩ | ⟨notHalf, notCooling, breaker, probe, acquired, -⟩
    · rw [refused]
      refine iff_of_true (fun _ => rfl) ?_
      rintro ⟨p, held, probe, outlived⟩
      refine waits.resolve_left fun half => ?_
      exact Nat.ne_of_lt outlived ((orderly.probing p held probe).mp half)
    · simp only [acquired, Nat.succ_ne_self, notCooling, imp_false, not_iff_not]
      constructor
      · rintro ⟨p, held, probe⟩
        exact ⟨p, held, probe, orderly.outlived notHalf p held probe⟩
      · rintro ⟨p, held, probe, -⟩
        exact ⟨p, held, probe⟩
  | finish | drop =>
    refine iff_of_true (fun _ => ?_) nofun
    rw [CompactAttempts.step, CompactAttempts.giveBack]
    split <;> rfl
  | dropRefused =>
    refine iff_of_true (fun _ => ?_) nofun
    rw [CompactAttempts.step, CompactAttempts.dropRefused]
    split <;> rfl
  | configure | elapse => exact iff_of_true (fun _ => rfl) nofun

theorem acquire (oneProbe : s.OneProbe .acquire) : Orderly s.acquire := by
  rcases acquire_cases orderly.inFlight with
    ⟨-, refused⟩ | ⟨notHalf, -, breaker, probe, acquired, which⟩
  · rw [refused]
    exact { orderly with }
  have none : ∀ p ∈ s.permits, p.probe = false := by
    intro p held
    by_contra probe
    have same : s.acquire.issued = s.issued := oneProbe ⟨p, held, by simpa using probe⟩
    simp [acquired] at same
  rw [acquired]
  constructor
  case single => simp +contextual [none]
  case past => simpa using orderly.past
  all_goals
    rcases which with ⟨rfl, closed, rfl⟩ | ⟨half, flying, rfl, notClosed⟩
  case inFlight.inl => simp [closed]
  case inFlight.inr => simp [flying]
  case probing.inl => simp +contextual [none]
  case probing.inr => simp +contextual [half, none]
  case late.inl => simp [closed]
  case late.inr => simpa using fun _ => orderly.late notClosed

/-- The drop of a refused acquire's permit opens a half-open breaker, beside its probe. -/
theorem dropRefused : Orderly s.dropRefused := by
  rw [CompactAttempts.dropRefused]
  split
  · have notHalf := finishAttempt_not_halfOpen s.now s.breaker .notAttempted
    by_cases half : s.breaker.state = .halfOpen
    · have opens : (s.withBreaker (s.breaker.finishAttempt s.now .notAttempted)).opened =
          s.opened + 1 := by
        simp [CompactAttempts.withBreaker, finishAttempt, startCooldown, half]
      have outlived : ∀ p ∈ s.permits, p.probe = true →
          p.opened < (s.withBreaker (s.breaker.finishAttempt s.now .notAttempted)).opened :=
        fun p held _ => opens ▸ Nat.lt_succ_of_le (orderly.past p held)
      exact { orderly.withBreaker (Subset.refl _) notHalf outlived with }
    · exact { orderly.withBreaker_of_not_halfOpen (Subset.refl _) half notHalf with }
  · exact orderly

theorem giveBack (id : Nat) (outcome : LlmCompactAttempt)
    (noLate : ∀ p ∈ s.permits, p.id = id → p.opened < s.opened → s.breaker.state ≠ .halfOpen) :
    Orderly (s.giveBack id outcome) := by
  by_cases held : ∃ p ∈ s.permits, p.id = id
  · rcases held with ⟨p, held, rfl⟩
    rw [giveBack_held held]
    have notHalf := finishAttempt_not_halfOpen s.now s.breaker outcome
    by_cases half : s.breaker.state = .halfOpen
    · -- the permit given back is the probe, which is the only one
      have isProbe : p.probe = true := by
        by_contra isOther
        rw [Bool.not_eq_true] at isOther
        exact noLate p held rfl (orderly.late (by simp [half]) p held isOther) half
      refine orderly.withBreaker (filter_subset_self _) notHalf fun q remains probe => ?_
      rw [mem_filter, decide_eq_true_eq] at remains
      exact absurd (orderly.single q remains.1 p held probe isProbe) remains.2
    · exact orderly.withBreaker_of_not_halfOpen (filter_subset_self _) half notHalf
  · have noSuch : ¬ s.permits.any (·.id = id) := by simpa using held
    rwa [CompactAttempts.giveBack, if_neg noSuch]

/-- The steps that leave the probe alone keep the order. -/
theorem next (alone : s.OneProbe step ∧ s.LateResultsIgnored step) : Orderly (s.step step) := by
  have noLate := lateResultsIgnored_iff.mp alone.2
  cases step with
  | acquire => exact orderly.acquire alone.1
  | dropRefused => exact orderly.dropRefused
  | finish id outcome =>
    refine orderly.giveBack id outcome fun p held isId late => ?_
    exact (noLate p held late outcome (by rw [isId]; rfl)).1
  | drop id =>
    refine orderly.giveBack id .notAttempted fun p held isId late => ?_
    exact (noLate p held late .notAttempted (by rw [isId]; rfl)).1
  | configure threshold cooldown =>
    by_cases half : s.breaker.state = .halfOpen
    · have stays : s.step (.configure threshold cooldown) =
          { s with breaker := { s.breaker with threshold := max threshold 1, cooldown } } := by
        simp [CompactAttempts.step, CompactCircuitBreaker.configure, CompactAttempts.withBreaker,
          half]
      rw [stays]
      exact { orderly with }
    · exact orderly.withBreaker_of_not_halfOpen (Subset.refl _) half (configure_not_halfOpen half)
  | elapse time => exact { orderly with }

/-- What a step has to meet to leave the probe alone. -/
theorem alone_iff : s.OneProbe step ∧ s.LateResultsIgnored step ↔
    s.NoLateResult step ∧ s.AcquiresWait step := by
  rw [orderly.oneProbe_iff, lateResultsIgnored_iff, and_comm]

end Orderly

/-- The breaker of a session that is being set up. -/
def start (threshold cooldown now : Nat) : CompactAttempts :=
  { breaker := .new threshold cooldown, now }

instance (s : CompactAttempts) (step : CompactAttemptStep) : Decidable (s.OneProbe step) :=
  inferInstanceAs (Decidable ((∃ p ∈ s.permits, p.probe = true) → (s.step step).issued = s.issued))

end CompactAttempts

open CompactAttempts

end Astrcode
