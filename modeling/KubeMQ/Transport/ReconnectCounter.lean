import KubeMQ.Num.Checked
import KubeMQ.Num.Double
import KubeMQ.Transport.ReconnectAttempts

/-!
# The attempt counter of the reconnect loop

`attempt` in `ReconnectLoop::Run` is an `int` that is incremented at every failure of the function,
and the exponent of `CalculateBackoff`, whose result is a `double` before it is converted to
milliseconds. Here a run of the loop in which the function keeps failing carries that `int` and those
conversions, and ends where the increment overflows or a conversion is undefined. The multiplier is
given as the `double` that it is: it may be an infinity or no number.
-/

namespace KubeMQ.ReconnectCounter

open Checked (int)
open ReconnectRun (Action Run)

/-- The `double` that `CalculateBackoff` of an `int` converts to milliseconds. -/
def capped (policy_ : ReconnectPolicy) (multiplier : Double) (attempt : ℤ) : Double :=
  let base_ms := Double.ofInt64 policy_.initialDelay
  let computed := base_ms.mul (multiplier.pow attempt)
  let max_ms := Double.ofInt64 policy_.maxDelay
  computed.min max_ms

/-- `CalculateBackoff`; there is no result when its conversion to milliseconds is undefined. -/
def calculateBackoff (policy_ : ReconnectPolicy) (multiplier : Double) (draw : Int → Int → Int)
    (attempt : ℤ) : Option Int :=
  (capped policy_ multiplier attempt).toInt64.map fun delay => applyJitter draw delay policy_.jitter

structure Counter where
  run : Run
  /-- Absent after an overflow or a conversion that is undefined. -/
  attempt : Option ℤ
  failures : ℕ
  /-- The calls of `CalculateBackoff`, with what they returned. -/
  backoffs : List (ℤ × Option Int)

/-- The function returns with a failure. -/
def fails (s : Run) : Action → Bool
  | .run =>
    match s.pc with
    | .connecting _ => true
    | _ => false
  | _ => false

section
variable (policy : ReconnectPolicy) (multiplier : Double) (draw : ℕ → Int → Int → Int)

def next (s : Counter) (a : Action) : Option Counter :=
  s.attempt.bind fun attempt =>
    (ReconnectRun.next policy (fun _ => false) draw s.run a).map fun t =>
      if fails s.run a then
        let backoff := calculateBackoff policy multiplier (draw s.failures) attempt
        { run := t
          attempt := backoff.bind fun _ => int.add attempt 1
          failures := s.failures + 1
          backoffs := s.backoffs ++ [(attempt, backoff)] }
      else { s with run := t }

def begin : Counter := ⟨ReconnectRun.begin, some 0, 0, []⟩

def sys : Lts.Sys Counter Action where
  init s := s = begin
  next := next policy multiplier draw

/-- What is asked of every state: the counter is the number of failures, no exponent is negative,
every conversion to milliseconds is defined, and a delay that has reached the maximum stays
there. -/
structure CounterRight (s : Counter) : Prop where
  counts : s.attempt = some (s.failures : ℤ)
  exponents : ∀ e ∈ s.backoffs, 0 ≤ e.1
  converted : ∀ e ∈ s.backoffs, (capped policy multiplier e.1).toInt64.isSome = true
  stays : (Double.finite 1).le multiplier = true → 0 < policy.initialDelay →
    policy.jitter = .kNone →
    ∀ (i j : ℕ) (d e : ℤ × Option Int), i ≤ j → s.backoffs[i]? = some d →
      s.backoffs[j]? = some e → d.2 = some policy.maxDelay → e.2 = some policy.maxDelay

/-- The delays are counts of an `int64_t`. -/
structure Counts : Prop where
  initial : -9223372036854775808 ≤ policy.initialDelay ∧ policy.initialDelay ≤ 9223372036854775807
  max : -9223372036854775808 ≤ policy.maxDelay ∧ policy.maxDelay ≤ 9223372036854775807

/-- The initial delay, scaled by `p` and cut off at the maximum, is in the range of `int64_t`: it is
not zero times an infinity, not below that range, and not above it together with the maximum. -/
def InRange (p : ℚ) : Prop :=
  (policy.initialDelay = 0 → |p| < Double.threshold) ∧
    -9223372036854776832 ≤ policy.initialDelay * p ∧
    (policy.initialDelay * p < 9223372036854775296 ∨ policy.maxDelay < 9223372036854775296)

/-- The policies whose backoff after `k` failures can be converted: the scaled delay is in range, or
it is an infinity above a maximum that is in range. -/
def Convertible (k : ℕ) : Prop :=
  match multiplier with
  | .finite m => InRange policy (m ^ k)
  | .infinite negative =>
    if k = 0 then InRange policy 1
    else
      0 < (if negative ∧ k % 2 = 1 then -policy.initialDelay else policy.initialDelay) ∧
        policy.maxDelay < 9223372036854775296
  | .nan => k = 0 ∧ InRange policy 1

/-- As many failures as an `int` counts, each with a backoff that can be converted. -/
def Fits (failures : ℕ) : Prop :=
  failures ≤ 2147483647 ∧ ∀ k < failures, Convertible policy multiplier k

/-- The counter is the number of failures as long as nothing has gone wrong. -/
structure Inv (s : Counter) : Prop where
  attempt : (s.attempt = some (s.failures : ℤ) ∧ Fits policy multiplier s.failures) ∨
    (s.attempt = none ∧ ¬ Fits policy multiplier s.failures)
  backoffs : s.backoffs = (List.range s.failures).map fun (k : ℕ) =>
    ((k : ℤ), calculateBackoff policy multiplier (draw k) k)

end

variable {policy : ReconnectPolicy} {multiplier : Double} {draw : ℕ → Int → Int → Int}
  {s t : Counter} {a : Action}

/-- Without an exponent every multiplier counts as one. -/
lemma pow_ofNat_zero : multiplier.pow ((0 : ℕ) : ℤ) = .ofExact 1 := by
  have hone : |(1 : ℚ)| < Double.threshold := lt_trans (by norm_num) Double.lt_threshold
  rw [Double.ofExact_of_lt hone]
  exact Double.pow_of_zero multiplier

section Conversion

variable (hc : Counts policy)
include hc

/-- What is converted, when the power is a number. -/
lemma toInt64_capped {k : ℤ} {p : ℚ} (hp : multiplier.pow k = .ofExact p) :
    ((capped policy multiplier k).toInt64.isSome = true ↔ InRange policy p) ∧
      (InRange policy p → (capped policy multiplier k).toInt64 =
        some (max (-9223372036854775808)
          (truncate (min (policy.initialDelay * p) policy.maxDelay)))) := by
  unfold capped InRange
  rw [hp]
  by_cases hz : policy.initialDelay = 0 → |p| < Double.threshold
  · simp only [Double.mul_ofInt64_ofExact hz, Double.toInt64_min_ofExact hc.max.1 hc.max.2]
    constructor
    · split
      next h => exact ⟨fun _ => ⟨hz, h⟩, fun _ => rfl⟩
      next h => exact ⟨nofun, fun h' => absurd h'.2 h⟩
    · rintro ⟨-, h⟩
      rw [if_pos h]
      rfl
  · have hzero : policy.initialDelay = 0 := by
      by_contra hne
      exact hz fun h => absurd h hne
    have hle : Double.threshold ≤ |p| := not_lt.mp fun h => hz fun _ => h
    simp only [hzero, Double.ofExact_of_le hle, Double.mul_zero_infinite, Double.min_nan]
    refine ⟨⟨nofun, ?_⟩, ?_⟩
    · rintro ⟨h, -⟩
      exact absurd (h trivial) (not_lt.mpr hle)
    · rintro ⟨h, -⟩
      exact absurd (h trivial) (not_lt.mpr hle)

/-- With an infinite multiplier the scaled delay is an infinity, or no number when it is zero. -/
lemma toInt64_capped_infinite {k : ℕ} (hk : k ≠ 0) (negative : Bool) :
    (capped policy (.infinite negative) k).toInt64.isSome = true ↔
      0 < (if negative ∧ k % 2 = 1 then -policy.initialDelay else policy.initialDelay) ∧
        policy.maxDelay < 9223372036854775296 := by
  have hpow : (Double.infinite negative).pow k =
      .infinite (negative && decide ((k : ℤ) % 2 ≠ 0)) := by
    rw [Double.pow, if_neg (by omega)]
    exact if_neg (by omega)
  simp only [capped, hpow]
  by_cases hb : policy.initialDelay = 0
  · simp [hb, Double.mul_zero_infinite, Double.toInt64]
  · rw [Double.mul_ofInt64_infinite hb, Double.toInt64_min_infinite hc.max.1]
    apply and_congr_left
    intro _
    have hodd : decide ((k : ℤ) % 2 ≠ 0) = decide (k % 2 = 1) := by
      rw [decide_eq_decide]
      omega
    rw [hodd]
    cases negative <;> by_cases hk2 : k % 2 = 1 <;> simp [hk2] <;> omega

/-- The backoff after `k` failures can be converted. -/
lemma convertible_iff (k : ℕ) : (capped policy multiplier k).toInt64.isSome = true ↔
    Convertible policy multiplier k := by
  cases multiplier with
  | finite m => exact (toInt64_capped hc (Double.pow_finite m k)).1
  | infinite negative =>
    by_cases hk : k = 0
    · subst hk
      exact (toInt64_capped hc pow_ofNat_zero).1
    · simp only [Convertible, if_neg hk]
      exact toInt64_capped_infinite hc hk negative
  | nan =>
    by_cases hk : k = 0
    · subst hk
      simp only [Convertible, true_and]
      exact (toInt64_capped hc pow_ofNat_zero).1
    · have hpow : Double.nan.pow k = .nan := if_neg (by omega)
      simp only [Convertible, hk, false_and, iff_false, capped, hpow]
      exact nofun

end Conversion

lemma calculateBackoff_isSome (draw : Int → Int → Int) (k : ℤ) :
    (calculateBackoff policy multiplier draw k).isSome =
      (capped policy multiplier k).toInt64.isSome :=
  Option.isSome_map

/-- Once the delay is at the maximum it stays there. -/
lemma backoffDelay_stays {m : ℚ} (hm : 1 ≤ m) (hi : 0 < policy.initialDelay)
    {i j : ℕ} (hij : i ≤ j)
    (h : backoffDelay policy.initialDelay m policy.maxDelay i = policy.maxDelay) :
    backoffDelay policy.initialDelay m policy.maxDelay j = policy.maxDelay := by
  by_cases hmax : 0 ≤ policy.maxDelay
  · let policy' : ReconnectPolicy := { policy with backoffMultiplier := m }
    have hreg : policy'.Regular := ⟨hi.le, hmax, hm⟩
    have heq := hreg.backoffDelay_eq
    dsimp only [policy'] at heq
    rw [heq] at h ⊢
    apply le_antisymm (ReconnectPolicy.delay_le_max j)
    calc policy.maxDelay = policy'.delay i := h.symm
      _ ≤ policy'.delay j := hreg.monotone_delay hij
  · -- a negative maximum is below every delay
    have hneg : (policy.maxDelay : ℚ) ≤ 0 := by exact_mod_cast (Int.not_le.mp hmax).le
    have hpos : (0 : ℚ) ≤ policy.initialDelay * m ^ j := by
      apply mul_nonneg
      · exact_mod_cast hi.le
      · exact pow_nonneg (zero_le_one.trans hm) j
    unfold backoffDelay
    rw [min_eq_right (hneg.trans hpos)]
    exact truncate_intCast _

/-- A delay that is not negative is not cut off below. -/
lemma clip_backoffDelay (hc : Counts policy) {m : ℚ} (hm : 1 ≤ m) (hi : 0 < policy.initialDelay)
    (k : ℕ) :
    max (-9223372036854775808)
        (truncate (min ((policy.initialDelay : ℚ) * m ^ k) policy.maxDelay)) =
      backoffDelay policy.initialDelay m policy.maxDelay k := by
  have hpos : (0 : ℚ) ≤ policy.initialDelay * m ^ k := by
    apply mul_nonneg
    · exact_mod_cast hi.le
    · exact pow_nonneg (zero_le_one.trans hm) k
  apply max_eq_right
  rcases le_total 0 policy.maxDelay with hmax | hmax
  · have hmin : (0 : ℚ) ≤ min ((policy.initialDelay : ℚ) * m ^ k) policy.maxDelay :=
      le_min hpos (by exact_mod_cast hmax)
    rw [truncate_eq_floor hmin]
    have hfloor := Int.floor_nonneg.mpr hmin
    omega
  · have hle : (policy.maxDelay : ℚ) ≤ 0 := by exact_mod_cast hmax
    rw [min_eq_right (hle.trans hpos), truncate_intCast]
    exact hc.max.1

/-- With an infinite multiplier the delay is at the maximum from the second attempt on. -/
lemma capped_infinite {k : ℕ} (hk : k ≠ 0) (hi : 0 < policy.initialDelay) :
    capped policy (.infinite false) k = .ofInt64 policy.maxDelay := by
  have hpow : (Double.infinite false).pow k = .infinite false := by
    rw [Double.pow, if_neg (by omega)]
    exact if_neg (by omega)
  simp only [capped, hpow]
  rw [Double.mul_ofInt64_infinite hi.ne', decide_eq_false hi.not_gt]
  rfl

/-- What is converted at the maximum stays there. -/
lemma toInt64_stays (hc : Counts policy) (hm : (Double.finite 1).le multiplier = true)
    (hi : 0 < policy.initialDelay) {i j : ℕ} (hij : i ≤ j)
    (hdef : (capped policy multiplier j).toInt64.isSome = true)
    (h : (capped policy multiplier i).toInt64 = some policy.maxDelay) :
    (capped policy multiplier j).toInt64 = some policy.maxDelay := by
  cases multiplier with
  | finite m =>
    have hm : 1 ≤ m := by
      simp only [Double.le, Double.lt, Bool.or_eq_true, decide_eq_true_eq, Bool.and_eq_true,
        beq_iff_eq, Double.finite.injEq] at hm
      rcases hm with hm | ⟨-, hm⟩
      · exact hm.le
      · exact hm.le
    obtain ⟨hsomei, hi'⟩ := toInt64_capped hc (Double.pow_finite m i)
    obtain ⟨hsomej, hj'⟩ := toInt64_capped hc (Double.pow_finite m j)
    have hini := hsomei.mp (by rw [h]; rfl)
    rw [hi' hini, clip_backoffDelay hc hm hi] at h
    rw [hj' (hsomej.mp hdef), clip_backoffDelay hc hm hi,
      backoffDelay_stays hm hi hij (Option.some.inj h)]
  | infinite negative =>
    obtain rfl : negative = false := by
      cases negative with
      | false => rfl
      | true => cases hm
    by_cases hj : j = 0
    · obtain rfl : i = j := by omega
      exact h
    · rw [capped_infinite hj hi, Double.ofInt64, Double.toInt64] at hdef ⊢
      split at hdef
      next hr =>
        rw [if_pos hr]
        show some (max _ (truncate policy.maxDelay)) = _
        rw [truncate_intCast, max_eq_right hc.max.1]
      next => cases hdef
  | nan => cases hm

lemma inv_begin : Inv policy multiplier draw begin :=
  ⟨.inl ⟨rfl, Nat.zero_le _, fun _ hk => absurd hk (Nat.not_lt_zero _)⟩, rfl⟩

/-- What a step does to the counter. -/
lemma next_cases (hn : next policy multiplier draw s a = some t) :
    ∃ k, s.attempt = some k ∧
      ((fails s.run a = true ∧ t.failures = s.failures + 1 ∧
          t.attempt = (calculateBackoff policy multiplier (draw s.failures) k).bind
            (fun _ => int.add k 1) ∧
          t.backoffs = s.backoffs ++ [(k, calculateBackoff policy multiplier (draw s.failures) k)]) ∨
        (fails s.run a = false ∧ t.failures = s.failures ∧ t.attempt = s.attempt ∧
          t.backoffs = s.backoffs)) := by
  obtain ⟨k, hk, hn⟩ := Option.bind_eq_some_iff.mp hn
  obtain ⟨r, -, rfl⟩ := Option.map_eq_some_iff.mp hn
  refine ⟨k, hk, ?_⟩
  cases hf : fails s.run a with
  | true => exact .inl ⟨rfl, rfl, rfl, rfl⟩
  | false => exact .inr ⟨rfl, rfl, rfl, rfl⟩

/-- One failure more. -/
lemma fits_succ {n : ℕ} : Fits policy multiplier (n + 1) ↔
    Fits policy multiplier n ∧ n < 2147483647 ∧ Convertible policy multiplier n := by
  constructor
  · rintro ⟨hle, hall⟩
    refine ⟨⟨by omega, fun k hk => hall k (by omega)⟩, by omega, hall n (Nat.lt_succ_self n)⟩
  · rintro ⟨⟨-, hall⟩, hlt, hn⟩
    refine ⟨by omega, fun k hk => ?_⟩
    rcases Nat.lt_succ_iff_lt_or_eq.mp hk with hk | rfl
    · exact hall k hk
    · exact hn

lemma Inv.next (hc : Counts policy) (inv : Inv policy multiplier draw s)
    (hn : next policy multiplier draw s a = some t) : Inv policy multiplier draw t := by
  obtain ⟨k, hk, hcases⟩ := next_cases hn
  obtain ⟨hattempt, hfits⟩ : k = s.failures ∧ Fits policy multiplier s.failures := by
    rcases inv.attempt with ⟨ha, hf⟩ | ⟨ha, -⟩
    · exact ⟨Option.some.inj (hk.symm.trans ha), hf⟩
    · exact absurd (hk.symm.trans ha) nofun
  subst hattempt
  obtain ⟨-, hfail, hattempt, hback⟩ | ⟨-, hfail, hattempt, hback⟩ := hcases
  · constructor
    · rw [hfail, hattempt, fits_succ]
      have hconv : (capped policy multiplier s.failures).toInt64.isSome = true ↔
          Convertible policy multiplier s.failures := convertible_iff hc s.failures
      rw [← calculateBackoff_isSome (draw s.failures)] at hconv
      cases hb : calculateBackoff policy multiplier (draw s.failures) s.failures with
      | none =>
        right
        refine ⟨rfl, fun h => ?_⟩
        have hsome := hconv.mpr h.2.2
        rw [hb] at hsome
        cases hsome
      | some d =>
        have hd := hconv.mp (by rw [hb]; rfl)
        rw [Option.bind_some]
        by_cases hlt : s.failures < 2147483647
        · left
          refine ⟨?_, hfits, hlt, hd⟩
          rw [Checked.int_add (by omega) (by omega), Nat.cast_add_one]
        · right
          refine ⟨Checked.Signed.exact_of_not_fits fun h => ?_, fun h => hlt h.2.1⟩
          have hmax := h.2
          simp only [int] at hmax
          omega
    · rw [hback, hfail, inv.backoffs, List.range_succ, List.map_append]
      rfl
  · constructor
    · rw [hattempt, hfail]
      exact inv.attempt
    · rw [hback, hfail, inv.backoffs]

lemma reachable_inv (hc : Counts policy) (h : (sys policy multiplier draw).Reachable s) :
    Inv policy multiplier draw s := by
  apply h.invariant (I := Inv policy multiplier draw)
  · rintro s rfl
    exact inv_begin
  · intro s a t _ inv _ hn
    exact inv.next hc hn

lemma Inv.getElem?_backoffs (inv : Inv policy multiplier draw s) {i : ℕ} {e : ℤ × Option Int}
    (h : s.backoffs[i]? = some e) :
    i < s.failures ∧ e = ((i : ℤ), calculateBackoff policy multiplier (draw i) i) := by
  rw [inv.backoffs, List.getElem?_map] at h
  obtain ⟨k, hk, rfl⟩ := Option.map_eq_some_iff.mp h
  obtain ⟨hlt, rfl⟩ := List.getElem?_eq_some_iff.mp hk
  rw [List.length_range] at hlt
  rw [List.getElem_range]
  exact ⟨hlt, rfl⟩

lemma Inv.counterRight (hc : Counts policy) (inv : Inv policy multiplier draw s)
    (hfits : Fits policy multiplier s.failures) : CounterRight policy multiplier s where
  counts := by
    rcases inv.attempt with ⟨ha, -⟩ | ⟨-, hno⟩
    · exact ha
    · exact absurd hfits hno
  exponents := by
    intro e he
    rw [inv.backoffs] at he
    obtain ⟨k, -, rfl⟩ := List.mem_map.mp he
    exact Int.natCast_nonneg k
  converted := by
    intro e he
    rw [inv.backoffs] at he
    obtain ⟨k, hk, rfl⟩ := List.mem_map.mp he
    exact (convertible_iff hc k).mpr (hfits.2 k (List.mem_range.mp hk))
  stays := by
    intro hm hi hj i j d e hij hd he hmax
    obtain ⟨-, rfl⟩ := inv.getElem?_backoffs hd
    obtain ⟨hlt, rfl⟩ := inv.getElem?_backoffs he
    -- without jitter the delay is what was converted
    have hid : (fun delay => applyJitter (draw j) delay policy.jitter) = id := by
      funext delay
      rw [hj, applyJitter_kNone]
      rfl
    have hid' : (fun delay => applyJitter (draw i) delay policy.jitter) = id := by
      funext delay
      rw [hj, applyJitter_kNone]
      rfl
    simp only [calculateBackoff, hid, hid', Option.map_id] at hmax ⊢
    exact toInt64_stays hc hm hi hij ((convertible_iff hc j).mpr (hfits.2 j hlt)) hmax

/-- The thread stands at `pc`, nobody holds `mu_` and no stop is requested. -/
structure At (s : Counter) (pc : ReconnectLoop.RunPc) : Prop where
  pc : s.run.pc = pc
  mu : s.run.mem.mu = none
  flag : s.run.mem.stopRequested = false

/-- From the test of the flag to the return of the function. -/
lemma exec_fail (hmax : policy.maxAttempts ≤ 0) {n : ℕ} {k : ℤ} (h : At s (.check n))
    (hk : s.attempt = some k) :
    ∃ t, (sys policy multiplier draw).exec s (List.replicate 3 .run) = some t ∧
      At t (.lock (n + 1)) ∧ t.failures = s.failures + 1 ∧
      t.attempt = (calculateBackoff policy multiplier (draw s.failures) k).bind
        (fun _ => int.add k 1) := by
  obtain ⟨⟨⟨mu, running, stopRequested, thread, runs, crashed, log⟩, pc, c, w, l⟩, attempt, f, b⟩ :=
    s
  obtain ⟨hpc, hmu, hflag⟩ := h
  dsimp only at hpc hmu hflag hk
  subst hpc hmu hflag hk
  have hex : ReconnectLoop.exhausted policy n = false := by
    simp [ReconnectLoop.exhausted, Int.not_lt.mpr hmax]
  let r : Run :=
    ⟨⟨none, running, false, thread, runs, crashed, log⟩, .check n, c, w, l⟩
  have hgo : (sys policy multiplier draw).next ⟨r, some k, f, b⟩ .run =
      some ⟨{ r with pc := .connect n }, some k, f, b⟩ := by
    simp [sys, next, ReconnectRun.next, ReconnectRun.runWith, ReconnectRun.label,
      ReconnectLoop.runNext, fails, hex, r]
  obtain ⟨t, ht, hrest⟩ : ∃ t, (sys policy multiplier draw).exec
      ⟨{ r with pc := .connect n }, some k, f, b⟩ (List.replicate 2 .run) = some t ∧
      At t (.lock (n + 1)) ∧ t.failures = f + 1 ∧
      t.attempt = (calculateBackoff policy multiplier (draw f) k).bind (fun _ => int.add k 1) :=
    ⟨_, rfl, ⟨rfl, rfl, rfl⟩, rfl, rfl⟩
  refine ⟨t, ?_, hrest⟩
  show ((sys policy multiplier draw).next _ .run).bind _ = some t
  rw [hgo]
  exact ht

/-- The backoff passes in full. -/
lemma exec_wait {n : ℕ} {k : ℤ} (h : At s (.lock n)) (hk : s.attempt = some k) :
    ∃ t, (sys policy multiplier draw).exec s (List.replicate 4 .run) = some t ∧ At t (.check n) ∧
      t.failures = s.failures := by
  obtain ⟨⟨⟨mu, running, stopRequested, thread, runs, crashed, log⟩, pc, c, w, l⟩, attempt, f, b⟩ :=
    s
  obtain ⟨hpc, hmu, hflag⟩ := h
  dsimp only at hpc hmu hflag hk
  subst hpc hmu hflag hk
  exact ⟨_, rfl, ⟨rfl, rfl, rfl⟩, rfl⟩

section Failing

variable (hc : Counts policy) (hconv : ∀ k, Convertible policy multiplier k)
  (hmax : policy.maxAttempts ≤ 0)
include hc hconv hmax

/-- Any number of failures that is an `int` is reached. -/
lemma exists_failures {n : ℕ} (hn : n ≤ 2147483647) :
    ∃ s, (sys policy multiplier draw).Reachable s ∧ At s (.check n) ∧ s.failures = n ∧
      s.attempt = some (n : ℤ) := by
  induction n with
  | zero =>
    have hbegin : (sys policy multiplier draw).Reachable begin := .init rfl
    have hrelease : (sys policy multiplier draw).next begin .release =
        some { begin with run.mem.mu := none } := rfl
    exact ⟨_, hbegin.step trivial hrelease, ⟨rfl, rfl, rfl⟩, rfl, rfl⟩
  | succ n ih =>
    obtain ⟨s, hs, hat, hf, hk⟩ := ih (by omega)
    obtain ⟨t, hst, hlock, hft, hattempt⟩ := exec_fail hmax hat hk
    have ht : (sys policy multiplier draw).Reachable t := hs.exec _ hst
    have hfits : Fits policy multiplier t.failures := ⟨by omega, fun k _ => hconv k⟩
    have hkt := (reachable_inv hc ht).counterRight hc hfits |>.counts
    obtain ⟨u, htu, hcheck, hfu⟩ := exec_wait hlock hkt
    have hu : (sys policy multiplier draw).Reachable u := ht.exec _ htu
    have hfail : u.failures = n + 1 := by rw [hfu, hft, hf]
    have hfits' : Fits policy multiplier u.failures := ⟨by omega, fun k _ => hconv k⟩
    have hku := (reachable_inv hc hu).counterRight hc hfits' |>.counts
    exact ⟨u, hu, hcheck, hfail, by rw [hku, hfail]⟩

/-- One failure more does not fit. -/
lemma exists_overflow : ∃ s, (sys policy multiplier draw).Reachable s ∧ s.attempt = none := by
  obtain ⟨s, hs, hat, hf, hk⟩ : ∃ s, (sys policy multiplier draw).Reachable s ∧
      At s (.check 2147483647) ∧ s.failures = 2147483647 ∧ s.attempt = some 2147483647 :=
    exists_failures hc hconv hmax (le_refl _)
  obtain ⟨t, hst, -, hft, -⟩ := exec_fail hmax hat hk
  have ht : (sys policy multiplier draw).Reachable t := hs.exec _ hst
  refine ⟨t, ht, ?_⟩
  rcases (reachable_inv hc ht).attempt with ⟨-, hle, -⟩ | ⟨hnone, -⟩
  · omega
  · exact hnone

end Failing

/-- Without an initial delay the backoff after 1024 failures is zero times an infinity. -/
example : ¬ Convertible { initialDelay := 0 } (.finite 2) 1024 := by
  rintro ⟨h, -⟩
  have hlt : |(2 : ℚ) ^ 1024| < Double.threshold := h rfl
  have hpos : (0 : ℚ) < 2 ^ 970 := pow_pos two_pos 970
  rw [abs_of_pos (pow_pos two_pos 1024), Double.threshold] at hlt
  exact absurd (sub_lt_self _ hpos) hlt.not_gt

end KubeMQ.ReconnectCounter
