import KubeMQ.Middleware.Retry

/-!
# The attempts of the retry helper

The two functions of `src/internal/middleware/retry.cc` with their `for` loops as they stand there
(`retryFrom`), `last` being the variable that the loop assigns. They are the functions of
`Middleware/Retry.lean`, so the rules of `Retry/Loop.lean` say which attempt is the last one, and
`attempts` records the calls and the pauses that lead to it.
-/

namespace KubeMQ

section

variable {σ α : Type} (sleep : Int → σ → σ) (draw : ℕ → Int → Int → Int) (policy : RetryPolicy)
  (isIdempotent : Bool)

/-- The loop from `attempt` on; `ok` and `code` read the result of a call. -/
def retryFrom (ok : α → Bool) (code : α → ErrorCode) (operation : σ → α × σ) (attempt : ℕ)
    (last : α) (s : σ) : α × σ :=
  if attempt ≤ policy.maxRetries then
    let r := operation s
    if ok r.1 then r
    else if attempt < policy.maxRetries ∧ shouldRetry (code r.1) isIdempotent then
      let backoff := policy.calculateBackoff (draw attempt) attempt
      retryFrom ok code operation (attempt + 1) r.1 (sleep backoff r.2)
    else r
  else (last, s)
termination_by (policy.maxRetries + 1 - attempt).toNat

/-- `RetryUnary`, where `last_status` starts as an OK status. -/
def retryUnaryFor (operation : σ → Status × σ) (s : σ) : Status × σ :=
  if policy.maxRetries ≤ 0 then operation s
  else retryFrom sleep draw policy isIdempotent Status.ok Status.code operation 0 .okStatus s

/-- `RetryUnaryOr`, where `last_result` starts as a status of its own. -/
def retryUnaryOrFor (operation : σ → StatusOr α × σ) (s : σ) : StatusOr α × σ :=
  if policy.maxRetries ≤ 0 then operation s
  else
    retryFrom sleep draw policy isIdempotent StatusOr.ok (·.status.code) operation 0
      (.error ⟨.kFatal, "retry loop did not execute", "", "", ""⟩) s

variable {sleep draw policy isIdempotent}

/-- The `for` loop is the loop on its remaining budget. -/
lemma retryFrom_eq {ok : α → Bool} {code : α → ErrorCode} {again : α → Bool}
    (hagain : ∀ a, again a = (!ok a && shouldRetry (code a) isIdempotent))
    (operation : σ → α × σ) {left attempt : ℕ} (h : policy.maxRetries = attempt + left) (last : α)
    (s : σ) :
    retryFrom sleep draw policy isIdempotent ok code operation attempt last s =
      Retry.loop again (retryPause sleep draw policy) operation left attempt s := by
  induction left generalizing attempt last s with
  | zero =>
    rw [retryFrom]
    have hle : (attempt : Int) ≤ policy.maxRetries := by omega
    have hlt : ¬(attempt : Int) < policy.maxRetries := by omega
    simp only [hle, hlt, if_true, false_and, if_false, ite_self, Retry.loop]
  | succ left ih =>
    rw [retryFrom]
    have hle : (attempt : Int) ≤ policy.maxRetries := by omega
    have hlt : (attempt : Int) < policy.maxRetries := by omega
    have hnext : policy.maxRetries = (attempt + 1 : ℕ) + left := by omega
    simp only [hle, hlt, if_true, true_and, Retry.loop, hagain, ih hnext]
    cases ok (operation s).1 <;> rfl

/-- The variable of the loop is assigned before it is read. -/
lemma retryUnaryFor_eq :
    retryUnaryFor sleep draw policy isIdempotent = retryUnary sleep draw policy isIdempotent := by
  funext operation s
  unfold retryUnaryFor retryUnary
  split
  · rfl
  · apply retryFrom_eq (fun _ => rfl)
    omega

lemma retryUnaryOrFor_eq :
    retryUnaryOrFor (α := α) sleep draw policy isIdempotent =
      retryUnaryOr sleep draw policy isIdempotent := by
  funext operation s
  unfold retryUnaryOrFor retryUnaryOr
  split
  · rfl
  · refine retryFrom_eq (fun r => ?_) operation (by omega) _ s
    cases r with
    | value a => rfl
    | error st => simp

end

/-- What can be observed of a function that tries an operation again. -/
inductive RetryEvent where
  | call
  | sleep (delay : Int)
  deriving DecidableEq

namespace RetryEvent

variable {α : Type}

/-- An operation with the given outcomes; the log of events is its state. -/
def attempts (outcomes : ℕ → α) (log : List RetryEvent) : α × List RetryEvent :=
  (outcomes (log.count .call), log ++ [.call])

/-- `std::this_thread::sleep_for`. -/
def sleepFor (delay : Int) (log : List RetryEvent) : List RetryEvent := log ++ [.sleep delay]

/-- A call and the pause after it, for each of the attempts from `n` on. -/
def rounds (backoff : ℕ → Int) (n : ℕ) : ℕ → List RetryEvent
  | 0 => []
  | k + 1 => .call :: .sleep (backoff n) :: rounds backoff (n + 1) k

/-- The events up to call `k`, with a pause between two calls. -/
def history (backoff : ℕ → Int) (k : ℕ) : List RetryEvent := rounds backoff 0 k ++ [.call]

@[simp]
lemma rounds_count (backoff : ℕ → Int) (n k : ℕ) : (rounds backoff n k).count .call = k := by
  induction k generalizing n with
  | zero => rfl
  | succ k ih => simp [rounds, ih]

/-- The log before a call, when all the calls up to it are made. -/
lemma before_attempts (draw : ℕ → Int → Int → Int) (policy : RetryPolicy) (outcomes : ℕ → α)
    (n : ℕ) (log : List RetryEvent) (k : ℕ) :
    Retry.before (retryPause sleepFor draw policy) (attempts outcomes) n log k =
      log ++ rounds (fun i => policy.calculateBackoff (draw i) i) n k := by
  induction k generalizing n log with
  | zero => simp [Retry.before, rounds]
  | succ k ih => simp [Retry.before, rounds, ih, attempts, retryPause, sleepFor]

/-- Outcome `k` is the last one: it is OK, it is not worth another try, or the budget is used up. -/
def Ends (policy : RetryPolicy) (isIdempotent : Bool) (statuses : ℕ → Status) (k : ℕ) : Prop :=
  (statuses k).ok = true ∨ isRetryable (statuses k).code = false ∨
    ((statuses k).code = .kTimeout ∧ isIdempotent = false) ∨ (k : Int) = max policy.maxRetries 0

lemma shouldRetry_eq_false {code : ErrorCode} {isIdempotent : Bool} :
    shouldRetry code isIdempotent = false ↔
      isRetryable code = false ∨ (code = .kTimeout ∧ isIdempotent = false) := by
  cases code <;> cases isIdempotent <;> decide

/-- Whether an outcome ends the loop, as the loop tests it. -/
lemma ends_iff {policy : RetryPolicy} {isIdempotent : Bool} {statuses : ℕ → Status} {k : ℕ} :
    Ends policy isIdempotent statuses k ↔
      k = policy.maxRetries.toNat ∨ (statuses k).wantsRetry isIdempotent = false := by
  have hbudget : (k : Int) = max policy.maxRetries 0 ↔ k = policy.maxRetries.toNat := by omega
  have hok : (statuses k).ok = true → isRetryable (statuses k).code = false := by
    intro h
    have hcode : (statuses k).code = .kOk := by simpa [Status.ok] using h
    rw [hcode]
    rfl
  unfold Ends
  rw [hbudget, Status.wantsRetry_eq, shouldRetry_eq_false]
  tauto

/-- The loop on operations with given outcomes. -/
lemma loop_attempts {draw : ℕ → Int → Int → Int} {policy : RetryPolicy} {isIdempotent : Bool}
    {again : α → Bool} (status : α → Status)
    (hagain : ∀ a, again a = (status a).wantsRetry isIdempotent) (outcomes : ℕ → α) :
    ∃ k, IsLeast {k | Ends policy isIdempotent (fun i => status (outcomes i)) k} k ∧
      Retry.loop again (retryPause sleepFor draw policy) (attempts outcomes)
          policy.maxRetries.toNat 0 [] =
        (outcomes k, history (fun i => policy.calculateBackoff (draw i) i) k) := by
  obtain ⟨k, hleast, heq⟩ := Retry.loop_least again (retryPause sleepFor draw policy)
    (attempts outcomes) policy.maxRetries.toNat 0 []
  have hcall : ∀ j, attempts outcomes
      (Retry.before (retryPause sleepFor draw policy) (attempts outcomes) 0 [] j) =
        (outcomes j, history (fun i => policy.calculateBackoff (draw i) i) j) := by
    intro j
    rw [before_attempts]
    simp [attempts, history]
  refine ⟨k, ?_, ?_⟩
  · simpa only [ends_iff, hcall, hagain] using hleast
  · rw [heq, hcall]

end RetryEvent

open RetryEvent

/-- Without a budget the loop makes the one call that the functions make before it. -/
lemma ite_loop {σ α : Type} {again : α → Bool} {pause : ℕ → σ → σ} {operation : σ → α × σ}
    {maxRetries : Int} (s : σ) :
    (if maxRetries ≤ 0 then operation s
      else Retry.loop again pause operation maxRetries.toNat 0 s) =
      Retry.loop again pause operation maxRetries.toNat 0 s := by
  split
  · next h =>
    rw [Int.toNat_of_nonpos h]
    rfl
  · rfl

/-- Both functions make `k + 1` calls with a pause between two of them, and return outcome `k`,
for the least `k` whose outcome is the last one. -/
theorem retry_semantics (draw : ℕ → Int → Int → Int) (policy : RetryPolicy) (isIdempotent : Bool) :
    (∀ outcomes : ℕ → Status,
      ∃ k, IsLeast {k | Ends policy isIdempotent outcomes k} k ∧
        retryUnaryFor sleepFor draw policy isIdempotent (attempts outcomes) [] =
          (outcomes k, history (fun i => policy.calculateBackoff (draw i) i) k) ∧
        (history (fun i => policy.calculateBackoff (draw i) i) k).count .call = k + 1) ∧
    (∀ (α : Type) (outcomes : ℕ → StatusOr α),
      ∃ k, IsLeast {k | Ends policy isIdempotent (fun i => (outcomes i).status) k} k ∧
        retryUnaryOrFor sleepFor draw policy isIdempotent (attempts outcomes) [] =
          (outcomes k,
            (retryUnaryFor sleepFor draw policy isIdempotent
              (attempts fun i => (outcomes i).status) []).2) ∧
        (retryUnaryFor sleepFor draw policy isIdempotent
          (attempts fun i => (outcomes i).status) []).2 =
          history (fun i => policy.calculateBackoff (draw i) i) k) := by
  rw [retryUnaryFor_eq]
  have hunary : ∀ outcomes : ℕ → Status,
      ∃ k, IsLeast {k | Ends policy isIdempotent outcomes k} k ∧
        retryUnary sleepFor draw policy isIdempotent (attempts outcomes) [] =
          (outcomes k, history (fun i => policy.calculateBackoff (draw i) i) k) := by
    intro outcomes
    unfold retryUnary
    rw [ite_loop]
    exact loop_attempts id (fun _ => rfl) outcomes
  constructor
  · intro outcomes
    obtain ⟨k, hleast, heq⟩ := hunary outcomes
    exact ⟨k, hleast, heq, by simp [history]⟩
  · intro α outcomes
    obtain ⟨k, hleast, heq⟩ := hunary fun i => (outcomes i).status
    have hor : ∃ j, IsLeast {j | Ends policy isIdempotent (fun i => (outcomes i).status) j} j ∧
        retryUnaryOr sleepFor draw policy isIdempotent (attempts outcomes) [] =
          (outcomes j, history (fun i => policy.calculateBackoff (draw i) i) j) := by
      unfold retryUnaryOr
      rw [ite_loop]
      exact loop_attempts StatusOr.status (fun _ => rfl) outcomes
    obtain ⟨j, hleast', heq'⟩ := hor
    have hjk : j = k := hleast'.unique hleast
    subst hjk
    rw [retryUnaryOrFor_eq, heq', heq]
    exact ⟨j, hleast, rfl, rfl⟩

end KubeMQ
