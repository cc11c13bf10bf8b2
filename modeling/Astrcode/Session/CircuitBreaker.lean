import Mathlib.Data.List.Basic

/-!
# The circuit breaker of automatic compactions

The attempts to compact by the language model share one breaker. Enough failures in a row open
it, and after the cooldown it lets one attempt through, the probe. The breaker learns how an
attempt ended, not which one it was. Every step holds its lock throughout, so that a run is a
list of steps; instants are numbers on one clock. An acquire that is refused takes two of them:
`then_some` has built a permit all the same, and its drop takes the lock again.
-/
namespace Astrcode

inductive CircuitState where
  | closed
  | openUntil (instant : Nat)
  | halfOpen
  deriving DecidableEq

inductive LlmCompactAttempt where
  | notAttempted
  | succeeded
  | failed
  deriving DecidableEq

structure CompactCircuitBreaker where
  state : CircuitState
  consecutiveLlmFailures : Nat
  threshold : Nat
  cooldown : Nat
  halfOpenAttemptInFlight : Bool

namespace CompactCircuitBreaker

def new (threshold cooldown : Nat) : CompactCircuitBreaker :=
  ⟨.closed, 0, max threshold 1, cooldown, false⟩

variable (now : Nat) (breaker : CompactCircuitBreaker)

def startCooldown : CompactCircuitBreaker :=
  { breaker with
    state := .openUntil (now + breaker.cooldown)
    halfOpenAttemptInFlight := false }

def configure (threshold cooldown : Nat) : CompactCircuitBreaker :=
  let breaker := { breaker with threshold := max threshold 1, cooldown }
  if breaker.state = .closed ∧ breaker.threshold ≤ breaker.consecutiveLlmFailures then
    breaker.startCooldown now
  else breaker

def allowHalfOpenAttempt : Bool × CompactCircuitBreaker :=
  if breaker.halfOpenAttemptInFlight then (false, breaker)
  else (true, { breaker with halfOpenAttemptInFlight := true })

def shouldAttempt : Bool × CompactCircuitBreaker :=
  match breaker.state with
  | .closed => (true, breaker)
  | .openUntil instant =>
    if now < instant then (false, breaker)
    else allowHalfOpenAttempt
      { breaker with state := .halfOpen, halfOpenAttemptInFlight := false }
  | .halfOpen => breaker.allowHalfOpenAttempt

/-- The failures are counted in a `u32`, up to its last value. -/
def countFailure : CompactCircuitBreaker :=
  { breaker with consecutiveLlmFailures := min (breaker.consecutiveLlmFailures + 1) 4294967295 }

def finishAttempt : LlmCompactAttempt → CompactCircuitBreaker
  | .failed =>
    let breaker := breaker.countFailure
    if breaker.state = .halfOpen ∨ breaker.threshold ≤ breaker.consecutiveLlmFailures then
      breaker.startCooldown now
    else breaker
  | .succeeded =>
    { breaker with
      state := .closed
      consecutiveLlmFailures := 0
      halfOpenAttemptInFlight := false }
  | .notAttempted => if breaker.state = .halfOpen then breaker.startCooldown now else breaker

end CompactCircuitBreaker

/-- A permit in use. The breaker sees nothing of it: its number, whether it was handed out in the
half-open state and how often the breaker had opened by then are there for the statements. -/
structure CompactAttemptPermit where
  id : Nat
  probe : Bool
  opened : Nat

/-- The breaker with the permits in use. -/
structure CompactAttempts where
  breaker : CompactCircuitBreaker
  now : Nat
  permits : List CompactAttemptPermit := []
  issued : Nat := 0
  /-- The permits of refused acquires that are still to be dropped. -/
  refused : Nat := 0
  /-- How often the breaker has opened. -/
  opened : Nat := 0

inductive CompactAttemptStep where
  | acquire
  | dropRefused
  | finish (id : Nat) (outcome : LlmCompactAttempt)
  | drop (id : Nat)
  | configure (threshold cooldown : Nat)
  | elapse (time : Nat)

@[simp] def CircuitState.isOpen : CircuitState → Bool
  | .openUntil _ => true
  | .closed | .halfOpen => false

/-- The permit that a step gives back, and the outcome that the breaker is told. -/
def CompactAttemptStep.gives : CompactAttemptStep → Option (Nat × LlmCompactAttempt)
  | .finish id outcome => some (id, outcome)
  | .drop id => some (id, .notAttempted)
  | .acquire | .dropRefused | .configure _ _ | .elapse _ => none

namespace CompactAttempts

variable (s : CompactAttempts)

def withBreaker (breaker : CompactCircuitBreaker) : CompactAttempts :=
  { s with
    breaker
    opened := if breaker.state.isOpen && !s.breaker.state.isOpen then s.opened + 1 else s.opened }

def acquire : CompactAttempts :=
  let (allowed, breaker) := s.breaker.shouldAttempt s.now
  let s := s.withBreaker breaker
  if allowed then
    { s with
      permits := ⟨s.issued, breaker.state = .halfOpen, s.opened⟩ :: s.permits
      issued := s.issued + 1 }
  else { s with refused := s.refused + 1 }

def dropRefused : CompactAttempts :=
  if 0 < s.refused then
    { s.withBreaker (s.breaker.finishAttempt s.now .notAttempted) with refused := s.refused - 1 }
  else s

/-- `finish`, or with `NotAttempted` the drop of a permit. -/
def giveBack (id : Nat) (outcome : LlmCompactAttempt) : CompactAttempts :=
  if s.permits.any (·.id = id) then
    { s.withBreaker (s.breaker.finishAttempt s.now outcome) with
      permits := s.permits.filter (·.id ≠ id) }
  else s

def step : CompactAttemptStep → CompactAttempts
  | .acquire => s.acquire
  | .dropRefused => s.dropRefused
  | .finish id outcome => s.giveBack id outcome
  | .drop id => s.giveBack id .notAttempted
  | .configure threshold cooldown =>
    s.withBreaker (s.breaker.configure s.now threshold cooldown)
  | .elapse time => { s with now := s.now + time }

end CompactAttempts

end Astrcode
