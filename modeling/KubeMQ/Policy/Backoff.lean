import Mathlib.Algebra.Order.Field.Rat
import Mathlib.Tactic.Common

/-!
# Backoff policies

`include/kubemq/reconnect_policy.h`, `include/kubemq/retry_policy.h`, `src/internal/types/jitter.cc`
and the functions `CalculateBackoff` of `src/internal/transport/reconnect.cc` and
`src/internal/middleware/retry.cc`. Delays are in milliseconds; the `double` arithmetic is exact
rational arithmetic here, and the conversion to `int64_t` truncates towards zero. A draw of
`std::uniform_int_distribution` is a function of its two bounds.
-/

namespace KubeMQ

inductive JitterMode where
  | kNone | kFull | kEqual
  deriving DecidableEq

structure ReconnectPolicy where
  maxAttempts : Int := 0
  initialDelay : Int := 1000
  maxDelay : Int := 30000
  backoffMultiplier : ℚ := 2
  jitter : JitterMode := .kFull

structure RetryPolicy where
  maxRetries : Int := 3
  initialBackoff : Int := 100
  maxBackoff : Int := 10000
  multiplier : ℚ := 2
  jitter : JitterMode := .kFull

/-- `ApplyJitter`. -/
def applyJitter (draw : Int → Int → Int) (delay : Int) (mode : JitterMode) : Int :=
  if mode = .kNone ∨ delay ≤ 0 then delay
  else
    match mode with
    | .kFull => draw 0 (delay - 1)
    | .kEqual =>
      let half := delay.tdiv 2
      if half ≤ 0 then delay else half + draw 0 (half - 1)
    | .kNone => delay

/-- `static_cast<int64_t>` of a `double`. -/
def truncate (q : ℚ) : Int := q.num.tdiv q.den

lemma truncate_intCast (n : ℤ) : truncate n = n := Int.tdiv_one n

/-- The delay that both functions `CalculateBackoff` pass to `ApplyJitter`. -/
def backoffDelay (initial : Int) (multiplier : ℚ) (bound : Int) (attempt : ℕ) : Int :=
  truncate (min ((initial : ℚ) * multiplier ^ attempt) bound)

/-- `CalculateBackoff` of `reconnect.cc`. -/
def ReconnectPolicy.calculateBackoff (policy : ReconnectPolicy) (draw : Int → Int → Int)
    (attempt : ℕ) : Int :=
  applyJitter draw
    (backoffDelay policy.initialDelay policy.backoffMultiplier policy.maxDelay attempt)
    policy.jitter

/-- `CalculateBackoff` of `retry.cc`. -/
def RetryPolicy.calculateBackoff (policy : RetryPolicy) (draw : Int → Int → Int)
    (attempt : ℕ) : Int :=
  applyJitter draw (backoffDelay policy.initialBackoff policy.multiplier policy.maxBackoff attempt)
    policy.jitter

@[simp]
lemma applyJitter_kNone (draw : Int → Int → Int) (delay : Int) :
    applyJitter draw delay .kNone = delay := by
  simp [applyJitter]

/-- Without jitter the delay does not depend on a draw. -/
lemma ReconnectPolicy.calculateBackoff_kNone {policy : ReconnectPolicy}
    (hj : policy.jitter = .kNone) (draw : Int → Int → Int) (attempt : ℕ) :
    policy.calculateBackoff draw attempt =
      backoffDelay policy.initialDelay policy.backoffMultiplier policy.maxDelay attempt := by
  simp [calculateBackoff, hj]

end KubeMQ
