import KubeMQ.Policy.Backoff
import KubeMQ.Retry.Loop
import KubeMQ.Types.Status

/-!
# The retry helper

`src/internal/middleware/retry.cc`. An operation passes a state along; `sleep` is the effect of
`std::this_thread::sleep_for` on it, and `draw n` the draws of the jitter of the `n`-th pause.
-/

namespace KubeMQ

/-- `ShouldRetry`: operations that are not idempotent are not retried on a timeout. -/
def shouldRetry (code : ErrorCode) (isIdempotent : Bool) : Bool :=
  if !isRetryable code then false
  else if !isIdempotent && code == .kTimeout then false
  else true

@[simp]
lemma shouldRetry_kOk (isIdempotent : Bool) : shouldRetry .kOk isIdempotent = false := rfl

@[simp]
lemma shouldRetry_kFatal (isIdempotent : Bool) : shouldRetry .kFatal isIdempotent = false := rfl

section

variable {σ α : Type} (sleep : Int → σ → σ) (draw : ℕ → Int → Int → Int) (policy : RetryPolicy)
  (isIdempotent : Bool)

/-- A failed attempt that is worth another. -/
def Status.wantsRetry (st : Status) : Bool := !st.ok && shouldRetry st.code isIdempotent

/-- The pause after attempt `n`. -/
def retryPause (n : ℕ) : σ → σ := sleep (policy.calculateBackoff (draw n) n)

/-- `RetryUnary`. -/
def retryUnary (operation : σ → Status × σ) (s : σ) : Status × σ :=
  if policy.maxRetries ≤ 0 then operation s
  else
    Retry.loop (·.wantsRetry isIdempotent) (retryPause sleep draw policy) operation
      policy.maxRetries.toNat 0 s

/-- `RetryUnaryOr`. -/
def retryUnaryOr (operation : σ → StatusOr α × σ) (s : σ) : StatusOr α × σ :=
  if policy.maxRetries ≤ 0 then operation s
  else
    Retry.loop (·.status.wantsRetry isIdempotent) (retryPause sleep draw policy) operation
      policy.maxRetries.toNat 0 s

end

/-- An OK code is never retried, so the test for OK is only a shortcut. -/
@[simp]
lemma Status.wantsRetry_eq (st : Status) (isIdempotent : Bool) :
    st.wantsRetry isIdempotent = shouldRetry st.code isIdempotent := by
  unfold Status.wantsRetry Status.ok
  by_cases h : st.code = .kOk <;> simp [h]

end KubeMQ
