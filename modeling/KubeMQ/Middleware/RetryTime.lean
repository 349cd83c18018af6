import KubeMQ.Middleware.Retry
import KubeMQ.Policy.Schedule

/-!
# The pauses of a call

How long `RetryUnary` and `RetryUnaryOr` pause at most, whatever the attempts return and the jitter
draws (`retry_pauses`).
-/

namespace KubeMQ

/-- The longest pause after attempt `n`. -/
def RetryPolicy.longestPause (policy : RetryPolicy) (n : ℕ) : Int :=
  max 0 (backoffDelay policy.initialBackoff policy.multiplier policy.maxBackoff n)

/-- What the pauses of a call add up to at most. -/
def RetryPolicy.longestWait (policy : RetryPolicy) : Int :=
  ((List.range' 0 policy.maxRetries.toNat).map policy.longestPause).sum

lemma truncate_le {q : ℚ} {b : Int} (h : q ≤ b) : truncate q ≤ max 0 b := by
  rcases le_or_gt 0 q with hq | hq
  · rw [truncate_eq_floor hq]
    apply le_max_of_le_right
    exact_mod_cast (Int.floor_le q).trans h
  · apply le_max_of_le_left
    have hnum := Rat.num_neg.mpr hq
    have hneg : 0 ≤ (-q.num).tdiv q.den := Int.tdiv_nonneg (by omega) (Int.natCast_nonneg q.den)
    rw [Int.neg_tdiv] at hneg
    unfold truncate
    omega

/-- A pause is never longer than `max_backoff`, whatever the policy. -/
lemma RetryPolicy.longestPause_le (policy : RetryPolicy) (n : ℕ) :
    policy.longestPause n ≤ max 0 policy.maxBackoff :=
  max_le (le_max_left 0 _) (truncate_le (min_le_right _ _))

lemma applyJitter_le (draw : UniformInt) (d : Int) (mode : JitterMode) :
    applyJitter draw.next d mode ≤ max 0 d := by
  by_cases hd : d ≤ 0
  · rw [applyJitter_of_nonpos draw hd]
    exact le_max_right 0 d
  · apply le_max_of_le_right
    cases mode with
    | kNone => rw [applyJitter_kNone]
    | kFull => exact (applyJitter_kFull draw (by omega)).2.le
    | kEqual =>
      by_cases h2 : d < 2
      · rw [applyJitter_kEqual_small draw h2]
      · exact (applyJitter_kEqual draw (by omega)).2.le

lemma RetryPolicy.longestWait_le (policy : RetryPolicy) :
    policy.longestWait ≤ policy.maxRetries.toNat * max 0 policy.maxBackoff := by
  have h := List.sum_le_card_nsmul ((List.range' 0 policy.maxRetries.toNat).map policy.longestPause)
    (max 0 policy.maxBackoff) ?_
  · simpa [longestWait] using h
  · intro x hx
    obtain ⟨n, -, rfl⟩ := List.mem_map.mp hx
    exact policy.longestPause_le n

/-- What a clock that counts the pauses shows after a call. -/
structure RetryPolicy.Waits (policy : RetryPolicy) (before after : Int) : Prop where
  low : before ≤ after
  high : after ≤ before + policy.longestWait
  bound : after ≤ before + policy.maxRetries.toNat * max 0 policy.maxBackoff

section

variable {σ : Type} {clock : σ → Int} {sleep : Int → σ → σ}

lemma retryPause_cost (hsleep : ∀ d s, clock (sleep d s) = clock s + max 0 d)
    (draw : ℕ → UniformInt) (policy : RetryPolicy) (n : ℕ) (s : σ) :
    clock s ≤ clock (retryPause sleep (fun n => (draw n).next) policy n s) ∧
      clock (retryPause sleep (fun n => (draw n).next) policy n s) ≤
        clock s + policy.longestPause n := by
  have hjitter := applyJitter_le (draw n)
    (backoffDelay policy.initialBackoff policy.multiplier policy.maxBackoff n) policy.jitter
  have hclock : clock (retryPause sleep (fun n => (draw n).next) policy n s) = clock s + max 0
      (applyJitter (draw n).next
        (backoffDelay policy.initialBackoff policy.multiplier policy.maxBackoff n) policy.jitter) :=
    hsleep _ s
  unfold RetryPolicy.longestPause
  rw [hclock]
  omega

lemma RetryPolicy.Waits.of_le {policy : RetryPolicy} {before after : Int} (low : before ≤ after)
    (high : after ≤ before + policy.longestWait) : policy.Waits before after :=
  ⟨low, high, high.trans (Int.add_le_add_left policy.longestWait_le before)⟩

/-- A call of `RetryUnary` or `RetryUnaryOr` pauses at most `max_retries` times, the `k`-th time at most
for the `k`-th delay of the policy, and never longer than `max_backoff`: whatever the attempts return,
and whatever the jitter draws. -/
theorem retry_pauses {α : Type} (clock : σ → Int)
    (hsleep : ∀ d s, clock (sleep d s) = clock s + max 0 d)
    (draw : ℕ → UniformInt) (policy : RetryPolicy) (isIdempotent : Bool) :
    (∀ operation : σ → Status × σ, (∀ s, clock (operation s).2 = clock s) → ∀ s,
      policy.Waits (clock s)
        (clock (retryUnary sleep (fun n => (draw n).next) policy isIdempotent operation s).2)) ∧
    ∀ operation : σ → StatusOr α × σ, (∀ s, clock (operation s).2 = clock s) → ∀ s,
      policy.Waits (clock s)
        (clock (retryUnaryOr sleep (fun n => (draw n).next) policy isIdempotent operation s).2) := by
  have hloop {β : Type} (again : β → Bool) (operation : σ → β × σ)
      (hop : ∀ s, clock (operation s).2 = clock s) (s : σ) :
      policy.Waits (clock s)
        (clock (if policy.maxRetries ≤ 0 then operation s
          else Retry.loop again (retryPause sleep (fun n => (draw n).next) policy) operation
            policy.maxRetries.toNat 0 s).2) := by
    split
    next h =>
      rw [hop]
      refine .of_le (Int.le_refl _) ?_
      rw [RetryPolicy.longestWait, Int.toNat_of_nonpos h]
      exact (Int.add_zero _).ge
    next =>
      obtain ⟨hlow, hhigh⟩ := Retry.loop_cost clock policy.longestPause hop
        (retryPause_cost hsleep draw policy) policy.maxRetries.toNat 0 s
      exact .of_le hlow hhigh
  exact ⟨hloop _, hloop _⟩

/-- An operation that always times out, with the default policy and a clock that starts at zero. -/
theorem retry_pauses_timeout :
    let after := (retryUnary (fun d s => s + max 0 d) (fun _ => UniformInt.lowest.next) {} true
      (fun s => ({ Status.okStatus with code := .kTimeout }, s)) (0 : Int)).2
    0 ≤ after ∧ after ≤ 30000 := by
  intro after
  have h := (retry_pauses (α := Unit) (id : Int → Int) (fun _ _ => rfl)
    (fun _ => UniformInt.lowest) {} true).1 (fun s => ({ Status.okStatus with code := .kTimeout }, s))
    (fun _ => rfl) 0
  exact ⟨h.low, by simpa using h.bound⟩

end

end KubeMQ
