import Mathlib.Data.Int.ConditionallyCompleteOrder
import Mathlib.Data.Rat.Floor
import KubeMQ.Policy.Backoff

/-!
# The schedule of the backoffs

The delays that a policy waits, attempt after attempt: a geometric sequence up to a bound, rounded
down, from which `ApplyJitter` draws. `ReconnectLoop::CalculateBackoff` writes the formula of the
free function once more.
-/

namespace KubeMQ

/-- `std::uniform_int_distribution`: a draw lies between the two bounds when these are ordered. -/
structure UniformInt where
  next : Int → Int → Int
  mem_Icc : ∀ lo hi, lo ≤ hi → next lo hi ∈ Set.Icc lo hi

/-- The bounds of the distributions that `ApplyJitter` builds. -/
def jitterBounds (delay : Int) (mode : JitterMode) : List (Int × Int) :=
  if mode = .kNone ∨ delay ≤ 0 then []
  else
    match mode with
    | .kFull => [(0, delay - 1)]
    | .kEqual =>
      let half := delay.tdiv 2
      if half ≤ 0 then [] else [(0, half - 1)]
    | .kNone => []

/-- `ReconnectLoop::CalculateBackoff`, over the loop's own policy. -/
def ReconnectLoop.calculateBackoff (policy_ : ReconnectPolicy) (draw : Int → Int → Int)
    (attempt : ℕ) : Int :=
  let base_ms : ℚ := policy_.initialDelay
  let computed := base_ms * policy_.backoffMultiplier ^ attempt
  let max_ms : ℚ := policy_.maxDelay
  let capped := min computed max_ms
  let delay := truncate capped
  applyJitter draw delay policy_.jitter

/-- A retry policy and a reconnect policy with the same parameters. -/
structure RetryPolicy.SameAs (retry : RetryPolicy) (policy : ReconnectPolicy) : Prop where
  initial : retry.initialBackoff = policy.initialDelay
  bound : retry.maxBackoff = policy.maxDelay
  multiplier : retry.multiplier = policy.backoffMultiplier
  jitter : retry.jitter = policy.jitter

/-- The delay of an attempt before jitter: `initial * multiplier ^ attempt` up to the maximum. -/
def ReconnectPolicy.delay (policy : ReconnectPolicy) (attempt : ℕ) : Int :=
  ⌊min ((policy.initialDelay : ℚ) * policy.backoffMultiplier ^ attempt) policy.maxDelay⌋

/-- Delays that are not negative and a multiplier that does not shrink them. -/
structure ReconnectPolicy.Regular (policy : ReconnectPolicy) : Prop where
  initial_nonneg : 0 ≤ policy.initialDelay
  max_nonneg : 0 ≤ policy.maxDelay
  one_le_multiplier : 1 ≤ policy.backoffMultiplier

section
variable {K : Type} [Field K] [LinearOrder K] [IsStrictOrderedRing K] [FloorRing K]

/-- A capped geometric sequence that does not shrink, rounded down, is monotone. -/
lemma monotone_floor_capped {x m : K} (hx : 0 ≤ x) (hm : 1 ≤ m) (bound : K) :
    Monotone (fun k : ℕ => ⌊min (x * m ^ k) bound⌋) := by
  intro j k hjk
  apply Int.floor_le_floor
  apply min_le_min_right
  apply mul_le_mul_of_nonneg_left _ hx
  exact pow_le_pow_right₀ hm hjk

lemma floor_capped_nonneg {x m bound : K} (hx : 0 ≤ x) (hm : 0 ≤ m) (hb : 0 ≤ bound) (k : ℕ) :
    0 ≤ ⌊min (x * m ^ k) bound⌋ := by
  apply Int.floor_nonneg.mpr
  apply le_min _ hb
  exact mul_nonneg hx (pow_nonneg hm k)

end

/-- On numbers that are not negative the conversion of a `double` rounds down. -/
lemma truncate_eq_floor {q : ℚ} (hq : 0 ≤ q) : truncate q = ⌊q⌋ := by
  rw [Rat.floor_def', truncate]
  exact Int.tdiv_eq_ediv_of_nonneg (Rat.num_nonneg.mpr hq)

namespace ReconnectPolicy
variable {policy : ReconnectPolicy}

lemma Regular.backoffDelay_eq (h : policy.Regular) (k : ℕ) :
    backoffDelay policy.initialDelay policy.backoffMultiplier policy.maxDelay k =
      policy.delay k := by
  unfold backoffDelay
  apply truncate_eq_floor
  apply le_min
  · apply mul_nonneg
    · exact_mod_cast h.initial_nonneg
    · exact pow_nonneg (zero_le_one.trans h.one_le_multiplier) k
  · exact_mod_cast h.max_nonneg

lemma Regular.calculateBackoff_eq (h : policy.Regular) (draw : Int → Int → Int) (k : ℕ) :
    policy.calculateBackoff draw k = applyJitter draw (policy.delay k) policy.jitter := by
  rw [calculateBackoff, h.backoffDelay_eq]

lemma Regular.monotone_delay (h : policy.Regular) : Monotone policy.delay := by
  apply monotone_floor_capped
  · exact_mod_cast h.initial_nonneg
  · exact h.one_le_multiplier

lemma Regular.delay_nonneg (h : policy.Regular) (k : ℕ) : 0 ≤ policy.delay k := by
  apply floor_capped_nonneg
  · exact_mod_cast h.initial_nonneg
  · exact zero_le_one.trans h.one_le_multiplier
  · exact_mod_cast h.max_nonneg

lemma delay_le_max (k : ℕ) : policy.delay k ≤ policy.maxDelay := by
  have hle : (⌊min ((policy.initialDelay : ℚ) * policy.backoffMultiplier ^ k) policy.maxDelay⌋ : ℚ)
      ≤ policy.maxDelay := (Int.floor_le _).trans (min_le_right _ _)
  exact_mod_cast hle

end ReconnectPolicy

section
variable (draw : UniformInt) {d : Int}

lemma applyJitter_of_nonpos (hd : d ≤ 0) (mode : JitterMode) :
    applyJitter draw.next d mode = d := by
  simp [applyJitter, hd]

lemma applyJitter_kFull (hd : 0 < d) :
    0 ≤ applyJitter draw.next d .kFull ∧ applyJitter draw.next d .kFull < d := by
  have hvalue : applyJitter draw.next d .kFull = draw.next 0 (d - 1) := by
    simp [applyJitter, Int.not_le.mpr hd]
  obtain ⟨hlo, hhi⟩ := draw.mem_Icc 0 (d - 1) (by omega)
  rw [hvalue]
  exact ⟨hlo, by omega⟩

lemma applyJitter_kEqual (hd : 2 ≤ d) :
    d / 2 ≤ applyJitter draw.next d .kEqual ∧ applyJitter draw.next d .kEqual < d := by
  have hhalf : d.tdiv 2 = d / 2 := Int.tdiv_eq_ediv_of_nonneg (by omega)
  have hvalue : applyJitter draw.next d .kEqual = d / 2 + draw.next 0 (d / 2 - 1) := by
    have hpos : ¬d ≤ 0 := by omega
    have hhalfPos : ¬d / 2 ≤ 0 := by omega
    simp [applyJitter, hhalf, hpos, hhalfPos]
  obtain ⟨hlo, hhi⟩ := draw.mem_Icc 0 (d / 2 - 1) (by omega)
  rw [hvalue]
  omega

/-- A delay of one millisecond has no half to draw from. -/
lemma applyJitter_kEqual_small (hd : d < 2) : applyJitter draw.next d .kEqual = d := by
  by_cases hpos : d ≤ 0
  · exact applyJitter_of_nonpos draw hpos .kEqual
  · obtain rfl : d = 1 := by omega
    rfl

lemma applyJitter_nonneg (hd : 0 ≤ d) (mode : JitterMode) : 0 ≤ applyJitter draw.next d mode := by
  obtain hd | rfl := Int.lt_or_eq_of_le hd
  · cases mode with
    | kNone =>
      rw [applyJitter_kNone]
      exact hd.le
    | kFull => exact (applyJitter_kFull draw hd).1
    | kEqual =>
      by_cases h2 : d < 2
      · rw [applyJitter_kEqual_small draw h2]
        exact hd.le
      · have := (applyJitter_kEqual draw (d := d) (by omega)).1
        omega
  · rw [applyJitter_of_nonpos draw (Int.le_refl 0)]

end

/-- A distribution is only built over ordered bounds. -/
lemma jitterBounds_ordered (d : Int) (mode : JitterMode) : ∀ p ∈ jitterBounds d mode, p.1 ≤ p.2 := by
  intro p hp
  unfold jitterBounds at hp
  split at hp
  next => simp at hp
  next hpos =>
    have hd : 0 < d := by
      rw [not_or] at hpos
      exact Int.not_le.mp hpos.2
    cases mode with
    | kNone => simp at hp
    | kFull =>
      obtain rfl := List.mem_singleton.mp hp
      show 0 ≤ d - 1
      omega
    | kEqual =>
      simp only at hp
      split at hp
      next => simp at hp
      next hhalf =>
        obtain rfl := List.mem_singleton.mp hp
        show 0 ≤ d.tdiv 2 - 1
        omega

/-- The jitter depends on the draws over these bounds and on no others. -/
lemma applyJitter_congr {draw draw' : Int → Int → Int} (d : Int) (mode : JitterMode)
    (h : ∀ p ∈ jitterBounds d mode, draw p.1 p.2 = draw' p.1 p.2) :
    applyJitter draw d mode = applyJitter draw' d mode := by
  unfold applyJitter
  unfold jitterBounds at h
  split
  next => rfl
  next hpos =>
    rw [if_neg hpos] at h
    cases mode with
    | kNone => rfl
    | kFull => exact h _ (List.mem_singleton.mpr rfl)
    | kEqual =>
      simp only at h ⊢
      split
      next => rfl
      next hhalf =>
        rw [if_neg hhalf] at h
        rw [h _ (List.mem_singleton.mpr rfl)]

/-- The three functions `CalculateBackoff` agree on equal parameters. -/
lemma RetryPolicy.SameAs.calculateBackoff_eq {retry : RetryPolicy} {policy : ReconnectPolicy}
    (h : retry.SameAs policy) (draw : Int → Int → Int) (k : ℕ) :
    retry.calculateBackoff draw k = policy.calculateBackoff draw k := by
  unfold RetryPolicy.calculateBackoff ReconnectPolicy.calculateBackoff
  rw [h.initial, h.bound, h.multiplier, h.jitter]

lemma ReconnectLoop.calculateBackoff_eq (policy : ReconnectPolicy) (draw : Int → Int → Int)
    (k : ℕ) : ReconnectLoop.calculateBackoff policy draw k = policy.calculateBackoff draw k :=
  rfl

theorem backoff_schedule (policy : ReconnectPolicy) (h : policy.Regular) :
    Monotone policy.delay ∧ (∀ k, policy.delay k ≤ policy.maxDelay) ∧
    ∀ (k : ℕ) (draw : UniformInt),
      (policy.jitter = .kNone → policy.calculateBackoff draw.next k = policy.delay k) ∧
      (policy.jitter = .kFull → 0 < policy.delay k →
        policy.calculateBackoff draw.next k ∈ Set.Ico 0 (policy.delay k)) ∧
      (policy.jitter = .kEqual → 2 ≤ policy.delay k →
        policy.calculateBackoff draw.next k ∈ Set.Ico (policy.delay k / 2) (policy.delay k)) ∧
      (policy.jitter = .kEqual → policy.delay k < 2 →
        policy.calculateBackoff draw.next k = policy.delay k) ∧
      0 ≤ policy.calculateBackoff draw.next k ∧
      (∀ p ∈ jitterBounds (policy.delay k) policy.jitter, p.1 ≤ p.2) ∧
      (∀ draw' : Int → Int → Int,
        (∀ p ∈ jitterBounds (policy.delay k) policy.jitter, draw.next p.1 p.2 = draw' p.1 p.2) →
        policy.calculateBackoff draw.next k = policy.calculateBackoff draw' k) ∧
      ReconnectLoop.calculateBackoff policy draw.next k = policy.calculateBackoff draw.next k ∧
      ∀ retry : RetryPolicy, retry.SameAs policy →
        retry.calculateBackoff draw.next k = policy.calculateBackoff draw.next k := by
  refine ⟨h.monotone_delay, ReconnectPolicy.delay_le_max, fun k draw => ?_⟩
  have hcalc := fun draw' => h.calculateBackoff_eq draw' k
  refine ⟨?_, ?_, ?_, ?_, ?_, jitterBounds_ordered _ _, ?_,
    ReconnectLoop.calculateBackoff_eq policy draw.next k,
    fun retry hretry => hretry.calculateBackoff_eq draw.next k⟩
  · intro hjitter
    rw [hcalc, hjitter, applyJitter_kNone]
  · intro hjitter hd
    rw [hcalc, hjitter]
    exact applyJitter_kFull draw hd
  · intro hjitter hd
    rw [hcalc, hjitter]
    exact applyJitter_kEqual draw hd
  · intro hjitter hd
    rw [hcalc, hjitter]
    exact applyJitter_kEqual_small draw hd
  · rw [hcalc]
    exact applyJitter_nonneg draw (h.delay_nonneg k) _
  · intro draw' hagree
    rw [hcalc, hcalc]
    exact applyJitter_congr _ _ hagree

/-- The lower bound of every draw. -/
def UniformInt.lowest : UniformInt where
  next lo _ := lo
  mem_Icc _ _ h := Set.left_mem_Icc.mpr h

theorem backoff_schedule_equalJitter :
    (ReconnectPolicy.mk 0 100 30000 2 .kEqual).calculateBackoff UniformInt.lowest.next 3 ∈
      Set.Ico 400 800 := by
  have hregular : (ReconnectPolicy.mk 0 100 30000 2 .kEqual).Regular :=
    ⟨by decide, by decide, by norm_num⟩
  have hdelay : (ReconnectPolicy.mk 0 100 30000 2 .kEqual).delay 3 = 800 := by
    unfold ReconnectPolicy.delay
    norm_num
  have h := ((backoff_schedule _ hregular).2.2 3 UniformInt.lowest).2.2.1 rfl (by
    rw [hdelay]
    decide)
  rw [hdelay] at h
  exact h

end KubeMQ
