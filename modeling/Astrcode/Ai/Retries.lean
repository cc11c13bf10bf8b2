import Astrcode.Core.Primitives
import Mathlib.Data.UInt

/-!
# Requests with retries

`request_with_retries` of `astrcode-ai/src/common.rs`, as streamed requests (`run`) call it, with
the delays of `retry.rs`. A request that fails is sent again after a waiting time, within one
limit for statuses of the server and another one for failures of the transport.

Arithmetic is checked, as the development build has it: `none` is an overflow. The release build
goes on with the remainder. A counter of attempts is a `Nat`: the power of two in `delay` overflows
long before 32 bits are used up.
-/
namespace Astrcode

structure RetryPolicy where
  maxRetries : UInt32
  baseDelayMs : UInt64
  maxDelayMs : UInt64
  maxTransportRetries : UInt32

namespace RetryPolicy

variable (policy : RetryPolicy)

def shouldRetryTransport (attempt : Nat) : Bool := attempt ≤ policy.maxTransportRetries.toNat

/-- A number up to the span; `none` is a failing random source. -/
def randomJitter (span : Nat) (random : Option UInt64) : Nat :=
  if span = 0 then 0
  else match random with
    | none => span / 2
    | some bytes => bytes.toNat % (span + 1)

/-- The base delay doubled with every attempt, before the limit and the jitter. -/
def exponential (attempt : Nat) : Nat := policy.baseDelayMs.toNat * 2 ^ (attempt - 1)

def delay (attempt : Nat) (random : Option UInt64) : Option Nat :=
  if 2 ^ (attempt - 1) < u64Limit ∧ policy.exponential attempt < u64Limit then
    let base := min (policy.exponential attempt) policy.maxDelayMs.toNat
    let jitter := base / 4
    checkedAdd (base - jitter) (randomJitter (min (jitter * 2) u64Max) random)
  else none

end RetryPolicy

/-- The events of the transport itself; those of the answer are left out. -/
inductive LlmEvent where
  | retrying (status : Option Nat) (attempt maxRetries delayMs : Nat)
  | retryRecovered

/-- The part of a wire parser that the retries depend on. -/
structure StreamParser (Line : Type) where
  State : Type
  initial : State
  processSseLine : State → Line → State
  hasStartedToolCall : State → Bool

/-- How the body of a successful response ends: read to the end, cut off, or not understood. -/
inductive StreamEnd where
  | complete
  | transportError
  | otherError
  deriving DecidableEq

/-- What a request comes to. -/
inductive Response (Line : Type) where
  | unreachable
  | status (code : Nat)
  | success (lines : List Line) (ending : StreamEnd)

/-- `retry_classification` and `LlmError::is_retryable`. -/
def isRetryable (status : Nat) : Bool := status ∈ [429, 408, 500, 502, 503, 504]

structure RetryState where
  httpRetryAttempt : Nat := 0
  transportRetryAttempt : Nat := 0
  retryReported : Bool := false
  streamStarted : Bool := false
  streamReplaySafe : Bool := true

/-- A decision to send the request again. -/
structure Retry where
  status : Option Nat
  attempt : Nat
  maxRetries : Nat

section Requests

variable {Line : Type} (policy : RetryPolicy) (parser : StreamParser Line)

/-- `parse_stream`: what reading the lines does to the flags. The lines are those that arrive
while someone listens. -/
def parseStream : parser.State → List Line → RetryState → RetryState
  | _, [], state => state
  | accumulator, line :: rest, state =>
    let accumulator := parser.processSseLine accumulator line
    parseStream accumulator rest { state with
      streamStarted := true
      streamReplaySafe := state.streamReplaySafe && !parser.hasStartedToolCall accumulator }

def retryTransport (state : RetryState) : RetryState × Option Retry :=
  let attempt := state.transportRetryAttempt + 1
  ({ state with transportRetryAttempt := attempt },
    if policy.shouldRetryTransport attempt then
      some ⟨none, attempt, policy.maxTransportRetries.toNat⟩
    else none)

/-- What follows from a response: nothing more, or another request. -/
def afterResponse (state : RetryState) : Response Line → RetryState × Option Retry
  | .unreachable => retryTransport policy state
  | .success lines ending =>
    let state := parseStream parser parser.initial lines state
    if ending = .transportError ∧ (!state.streamStarted || state.streamReplaySafe) = true then
      retryTransport policy { state with streamStarted := false, streamReplaySafe := true }
    else (state, none)
  | .status code =>
    let attempt := state.httpRetryAttempt + 1
    ({ state with httpRetryAttempt := attempt },
      if attempt ≤ policy.maxRetries.toNat ∧ isRetryable code = true then
        some ⟨some code, attempt, policy.maxRetries.toNat⟩
      else none)

/-- One request with what follows it: the events, and the attempt that is waited for with the
waiting time. -/
structure Round (Line : Type) where
  response : Response Line
  events : List LlmEvent := []
  wait : Option (Nat × Option Nat) := none

/-- A successful response ends what was reported as a retry. -/
def recoveryEvents (state : RetryState) : Response Line → List LlmEvent
  | .success .. => if state.retryReported then [.retryRecovered] else []
  | _ => []

/-- `request_with_retries`, for what the server does and the random source gives in each round. -/
def requestWithRetries (state : RetryState) :
    List (Response Line × Option UInt64) → List (Round Line)
  | [] => []
  | (response, random) :: later =>
    let recovered := recoveryEvents state response
    match afterResponse policy parser state response with
    | (_, none) => [⟨response, recovered, none⟩]
    | (state, some retry) =>
      match policy.delay retry.attempt random with
      | none => [⟨response, recovered, some (retry.attempt, none)⟩]
      | some ms =>
        ⟨response, recovered ++ [.retrying retry.status retry.attempt retry.maxRetries ms],
          some (retry.attempt, some ms)⟩ ::
          requestWithRetries { state with retryReported := true } later

end Requests

end Astrcode
