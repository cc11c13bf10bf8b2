import Astrcode.Ai.Retries
import Mathlib.Tactic.Linarith

/-!
# Requests that are repeated

Whatever the server does, the number of requests is bounded by the two limits of the policy, an
answer that has started a tool call is not asked for again, and every further request is announced
once. The waiting times are right as long as they can be computed: the base delay is doubled with
every attempt before the limit for a delay is applied, so that a policy with many attempts leaves
the 64 bits of the arithmetic.
-/
namespace Astrcode

open List

variable {Line : Type} {policy : RetryPolicy} {parser : StreamParser Line}

namespace RetryPolicy

/-- The delay of an attempt without jitter. -/
def plainDelay (policy : RetryPolicy) (attempt : Nat) : Nat :=
  min (policy.baseDelayMs.toNat * 2 ^ (attempt - 1)) policy.maxDelayMs.toNat

/-- No waiting time of the attempt overflows. -/
structure Fits (policy : RetryPolicy) (attempt : Nat) : Prop where
  power : 2 ^ (attempt - 1) < u64Limit
  exponential : policy.baseDelayMs.toNat * 2 ^ (attempt - 1) < u64Limit
  longest : policy.plainDelay attempt + policy.plainDelay attempt / 4 < u64Limit

/-- At most a quarter away from the plain delay. -/
def OnTime (policy : RetryPolicy) (attempt ms : Nat) : Prop :=
  3 * policy.plainDelay attempt ≤ 4 * ms ∧ 4 * ms ≤ 5 * policy.plainDelay attempt

private theorem randomJitter_le (span : Nat) (random : Option UInt64) :
    randomJitter span random ≤ span := by
  unfold randomJitter
  split_ifs
  · simp
  · cases random with
    | none => exact Nat.div_le_self span 2
    | some bytes => exact Nat.le_of_lt_succ (Nat.mod_lt _ (by simp))

private theorem plainDelay_lt (policy : RetryPolicy) (attempt : Nat) :
    policy.plainDelay attempt < u64Limit :=
  lt_of_le_of_lt (min_le_right _ _) policy.maxDelayMs.toNat_lt

private theorem delay_eq_some {attempt ms : Nat} {random : Option UInt64} :
    policy.delay attempt random = some ms ↔
      (2 ^ (attempt - 1) < u64Limit ∧ policy.baseDelayMs.toNat * 2 ^ (attempt - 1) < u64Limit) ∧
      let plain := policy.plainDelay attempt
      plain - plain / 4 + randomJitter (plain / 4 * 2) random < u64Limit ∧
        ms = plain - plain / 4 + randomJitter (plain / 4 * 2) random := by
  -- the product is below the bound at which it would be cut off
  have span :
      min (policy.plainDelay attempt / 4 * 2) u64Max = policy.plainDelay attempt / 4 * 2 := by
    have := plainDelay_lt policy attempt
    simp only [u64Max]
    omega
  rw [delay, Option.ite_none_right_eq_some, ← checkedAdd_eq_some, ← span]
  rfl

private theorem delay_onTime {attempt : Nat} (fits : policy.Fits attempt)
    (random : Option UInt64) :
    ∃ ms, policy.delay attempt random = some ms ∧ policy.OnTime attempt ms := by
  have jitter := randomJitter_le (policy.plainDelay attempt / 4 * 2) random
  have longest := fits.longest
  refine ⟨_, delay_eq_some.mpr ⟨⟨fits.power, fits.exponential⟩, by omega, rfl⟩, ?_⟩
  unfold OnTime
  omega

private theorem randomJitter_self {span : Nat} (small : span < u64Limit) :
    randomJitter span (some (UInt64.ofNat span)) = span := by
  unfold randomJitter
  split_ifs with zero
  · exact zero.symm
  · have same : (UInt64.ofNat span).toNat = span := UInt64.toNat_ofNat_of_lt' small
    simp [same]

/-- With the largest offset the waiting time is the longest one of the attempt. -/
private theorem fits_of_delay {attempt : Nat}
    (computed : ∀ random, policy.delay attempt random ≠ none) : policy.Fits attempt := by
  have within := plainDelay_lt policy attempt
  have offset : randomJitter (policy.plainDelay attempt / 4 * 2) _ = _ :=
    randomJitter_self (by omega)
  obtain ⟨ms, longest⟩ := Option.ne_none_iff_exists'.mp (computed (some _))
  obtain ⟨⟨power, exponential⟩, room, -⟩ := delay_eq_some.mp longest
  rw [offset] at room
  exact ⟨power, exponential, by omega⟩

end RetryPolicy

/-! ### One round -/

/-- Some line was read after which the parser has started a tool call. -/
def Response.StartsToolCall (parser : StreamParser Line) : Response Line → Prop
  | .success lines _ => ∃ read, read <+: lines ∧ read ≠ [] ∧
      parser.hasStartedToolCall (read.foldl parser.processSseLine parser.initial) = true
  | _ => False

private theorem parseStream_spec (accumulator : parser.State) (lines : List Line)
    (state : RetryState) :
    let read := parseStream parser accumulator lines state
    (read.streamReplaySafe = true → state.streamReplaySafe = true ∧
        ∀ seen, seen <+: lines → seen ≠ [] →
          parser.hasStartedToolCall (seen.foldl parser.processSseLine accumulator) = false) ∧
      (read.streamStarted = false → state.streamStarted = false ∧ lines = []) ∧
      read.httpRetryAttempt = state.httpRetryAttempt ∧
      read.transportRetryAttempt = state.transportRetryAttempt := by
  induction lines generalizing accumulator state with
  | nil => simp [parseStream]
  | cons line rest ih =>
    obtain ⟨safe, started, http, transport⟩ := ih (parser.processSseLine accumulator line) _
    refine ⟨fun replayable => ?_, fun untouched => ?_, http, transport⟩
    · obtain ⟨here, later⟩ := safe replayable
      simp only [Bool.and_eq_true, Bool.not_eq_true'] at here
      refine ⟨here.1, fun seen start visible => ?_⟩
      obtain ⟨more, rfl, inside⟩ := (prefix_cons_iff.mp start).resolve_left visible
      by_cases only : more = []
      · simp [only, here.2]
      · exact later more inside only
    · cases (started untouched).1

/-- The further requests that the two limits allow. -/
private def remaining (policy : RetryPolicy) (state : RetryState) : Nat :=
  (policy.maxRetries.toNat - state.httpRetryAttempt) +
    (policy.maxTransportRetries.toNat - state.transportRetryAttempt)

variable {state state' : RetryState} {response : Response Line} {retry : Retry}

private theorem retryTransport_retry (again : retryTransport policy state = (state', some retry)) :
    1 ≤ retry.attempt ∧ retry.attempt ≤ policy.maxTransportRetries.toNat ∧
      remaining policy state' + 1 = remaining policy state := by
  simp only [retryTransport, Prod.mk.injEq, Option.ite_none_right_eq_some,
    RetryPolicy.shouldRetryTransport, decide_eq_true_eq, Option.some.injEq] at again
  obtain ⟨rfl, allowed, rfl⟩ := again
  simp only [remaining]
  omega

private theorem afterResponse_retry
    (again : afterResponse policy parser state response = (state', some retry)) :
    ¬response.StartsToolCall parser ∧ 1 ≤ retry.attempt ∧
      retry.attempt ≤ max policy.maxRetries.toNat policy.maxTransportRetries.toNat ∧
      remaining policy state' + 1 = remaining policy state := by
  cases response with
  | unreachable =>
    obtain ⟨positive, allowed, left⟩ := retryTransport_retry again
    exact ⟨id, positive, le_max_of_le_right allowed, left⟩
  | status code =>
    simp only [afterResponse, Prod.mk.injEq, Option.ite_none_right_eq_some,
      Option.some.injEq] at again
    obtain ⟨rfl, ⟨allowed, -⟩, rfl⟩ := again
    refine ⟨id, by simp, le_max_of_le_left allowed, ?_⟩
    simp only [remaining]
    omega
  | success lines ending =>
    obtain ⟨safe, started, http, transport⟩ := parseStream_spec parser.initial lines state
    rw [afterResponse] at again
    split at again
    · next replay =>
      obtain ⟨positive, allowed, left⟩ := retryTransport_retry again
      refine ⟨?_, positive, le_max_of_le_right allowed, left.trans ?_⟩
      · rintro ⟨seen, start, visible, tool⟩
        simp only [Bool.or_eq_true, Bool.not_eq_true'] at replay
        obtain ⟨-, untouched | replayable⟩ := replay
        · rw [(started untouched).2, prefix_nil] at start
          exact visible start
        · rw [(safe replayable).2 seen start visible] at tool
          cases tool
      · simp only [remaining, http, transport]
    · cases again

/-! ### Whole requests -/

def LlmEvent.isRetrying : LlmEvent → Bool
  | .retrying .. => true
  | .retryRecovered => false

/-- What is promised of the rounds of a request; all but the last are followed by a further one. -/
structure Disciplined (policy : RetryPolicy) (parser : StreamParser Line)
    (rounds : List (Round Line)) : Prop where
  bounded : rounds.length ≤ 1 + policy.maxRetries.toNat + policy.maxTransportRetries.toNat
  safe : ∀ round ∈ rounds.dropLast, ¬round.response.StartsToolCall parser
  reported : ∀ round ∈ rounds.dropLast, (round.events.filter LlmEvent.isRetrying).length = 1
  onTime : ∀ round ∈ rounds, ∀ attempt waited, round.wait = some (attempt, waited) →
    ∃ ms, waited = some ms ∧ policy.OnTime attempt ms

private theorem filter_recoveryEvents (state : RetryState) (response : Response Line) :
    (recoveryEvents state response).filter LlmEvent.isRetrying = [] := by
  unfold recoveryEvents
  split
  · split_ifs <;> rfl
  · rfl

private theorem mem_dropLast_cons {first round : Round Line} {later : List (Round Line)}
    (member : round ∈ (first :: later).dropLast) : round = first ∨ round ∈ later.dropLast := by
  cases later with
  | nil => cases member
  | cons second rest => simpa using member

/-- From any state on, as far as the limits go. -/
private theorem rounds_disciplined
    (fits : ∀ attempt, 1 ≤ attempt →
      attempt ≤ max policy.maxRetries.toNat policy.maxTransportRetries.toNat →
      policy.Fits attempt)
    (responses : List (Response Line × Option UInt64)) (state : RetryState) :
    let rounds := requestWithRetries policy parser state responses
    rounds.length ≤ 1 + remaining policy state ∧
      (∀ round ∈ rounds.dropLast, ¬round.response.StartsToolCall parser ∧
        (round.events.filter LlmEvent.isRetrying).length = 1) ∧
      ∀ round ∈ rounds, ∀ attempt waited, round.wait = some (attempt, waited) →
        ∃ ms, waited = some ms ∧ policy.OnTime attempt ms := by
  induction responses generalizing state with
  | nil => simp [requestWithRetries]
  | cons first later ih =>
    obtain ⟨response, random⟩ := first
    rw [requestWithRetries]
    split
    · simp
    · next state' retry again =>
      obtain ⟨safe, positive, allowed, left⟩ := afterResponse_retry again
      obtain ⟨ms, computed, onTime⟩ := RetryPolicy.delay_onTime (fits _ positive allowed) random
      obtain ⟨bounded, followed, waits⟩ := ih { state' with retryReported := true }
      simp only [computed]
      refine ⟨?_, fun round member => ?_, fun round member => ?_⟩
      · change _ ≤ 1 + remaining policy state' at bounded
        rw [length_cons]
        omega
      · obtain rfl | member := mem_dropLast_cons member
        · refine ⟨safe, ?_⟩
          rw [filter_append, filter_recoveryEvents]
          rfl
        · exact followed round member
      · obtain rfl | member := mem_cons.mp member
        · rintro attempt waited ⟨⟩
          exact ⟨ms, rfl, onTime⟩
        · exact waits round member

/-- A response that is repeated counts one attempt after the other, and each one is waited for. -/
private theorem delay_ne_none (response : Response Line) (counter : RetryState → Nat) {limit : Nat}
    {random : Option UInt64} (counts : ∀ state, counter state < limit → ∃ state' retry,
      afterResponse policy parser state response = (state', some retry) ∧
        retry.attempt = counter state + 1 ∧
        counter { state' with retryReported := true } = counter state + 1)
    (n : Nat) (state : RetryState) (inside : counter state + n < limit)
    (waits : ∀ round ∈ requestWithRetries policy parser state
      (replicate (n + 1) (response, random)), ∀ attempt waited,
        round.wait = some (attempt, waited) → waited ≠ none) :
    policy.delay (counter state + n + 1) random ≠ none := by
  induction n generalizing state with
  | zero =>
    obtain ⟨state', retry, again, attempt, -⟩ := counts state (by omega)
    intro overflow
    rw [Nat.add_zero, ← attempt] at overflow
    simp [replicate_succ, requestWithRetries, again, overflow] at waits
  | succ n ih =>
    obtain ⟨state', retry, again, attempt, next⟩ := counts state (by omega)
    have later := ih { state' with retryReported := true } (by omega) fun round member => ?_
    · rwa [next, show counter state + 1 + n + 1 = counter state + (n + 1) + 1 by omega] at later
    · refine waits round ?_
      rw [replicate_succ, requestWithRetries]
      simp only [again]
      cases computed : policy.delay retry.attempt random with
      | none => simp [replicate_succ, requestWithRetries, again, computed] at waits
      | some ms => exact mem_cons_of_mem _ member

/-- The promises hold for every behaviour of the server exactly when no delay overflows. -/
theorem retries_disciplined_iff (policy : RetryPolicy) (parser : StreamParser Line) :
    (∀ responses, Disciplined policy parser (requestWithRetries policy parser {} responses)) ↔
      ∀ attempt, 1 ≤ attempt →
        attempt ≤ max policy.maxRetries.toNat policy.maxTransportRetries.toNat →
        policy.Fits attempt := by
  constructor
  · intro disciplined attempt positive allowed
    obtain ⟨n, rfl⟩ := Nat.exists_eq_add_of_le' positive
    refine RetryPolicy.fits_of_delay fun random => ?_
    have waits : ∀ (response : Response Line), ∀ round ∈ requestWithRetries policy parser {}
        (replicate (n + 1) (response, random)), ∀ attempt waited,
          round.wait = some (attempt, waited) → waited ≠ none := by
      intro response round member attempt waited isWait overflow
      obtain ⟨ms, computed, -⟩ := (disciplined _).onTime round member attempt waited isWait
      rw [overflow] at computed
      cases computed
    obtain http | transport := le_max_iff.mp allowed
    · have counts : ∀ state : RetryState, state.httpRetryAttempt < policy.maxRetries.toNat →
          ∃ state' retry, afterResponse policy parser state (.status 429) = (state', some retry) ∧
            retry.attempt = state.httpRetryAttempt + 1 ∧
            state'.httpRetryAttempt = state.httpRetryAttempt + 1 := by
        intro state inside
        simp [afterResponse, isRetryable, Nat.succ_le_of_lt inside]
      simpa using delay_ne_none _ RetryState.httpRetryAttempt counts n {} (by simp; omega) (waits _)
    · have counts : ∀ state : RetryState,
          state.transportRetryAttempt < policy.maxTransportRetries.toNat →
          ∃ state' retry, afterResponse policy parser state .unreachable = (state', some retry) ∧
            retry.attempt = state.transportRetryAttempt + 1 ∧
            state'.transportRetryAttempt = state.transportRetryAttempt + 1 := by
        intro state inside
        simp [afterResponse, retryTransport, RetryPolicy.shouldRetryTransport,
          Nat.succ_le_of_lt inside]
      simpa using delay_ne_none _ RetryState.transportRetryAttempt counts n {} (by simp; omega)
        (waits _)
  · intro fits responses
    obtain ⟨bounded, followed, waits⟩ := rounds_disciplined fits responses {}
    exact ⟨by simpa [remaining, Nat.add_assoc] using bounded,
      fun round member => (followed round member).1,
      fun round member => (followed round member).2, waits⟩

/-- A delay of one second, doubled for the fifty-sixth time. -/
theorem delay_overflows :
    ((requestWithRetries ⟨56, 1000, 30000, 0⟩ ⟨Unit, (), fun _ (_ : Unit) => (), fun _ => false⟩ {}
      (replicate 56 (.status 503, none))).getLast?.bind Round.wait) = some (56, none) := by
  decide +kernel

end Astrcode
