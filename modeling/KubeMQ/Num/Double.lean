import Mathlib.Algebra.Order.Field.Power
import Mathlib.Algebra.Order.Field.Rat
import Mathlib.Tactic.Common
import Mathlib.Tactic.Linarith
import Mathlib.Tactic.NormNum

/-!
# The range of `double`

A `double` is a rational, an infinity or no number. A result is rounded only where this decides
what becomes of it: from `2 ^ 1024 - 2 ^ 970` on it is an infinity, and at the ends of `int64_t`,
where `2 ^ 63 - 512` and what follows is `2 ^ 63`. The sign of a zero is left out.
`toInt64_min_ofExact` and `mul_ofInt64_ofExact` are the rules for a scaled number that is cut off at
a bound and converted to an integer.
-/

inductive Double where
  | finite (q : ℚ)
  | infinite (negative : Bool)
  | nan
  deriving DecidableEq

namespace Double

/-- What has at least this magnitude is rounded to an infinity. -/
def threshold : ℚ := 2 ^ 1024 - 2 ^ 970

/-- The result of an operation whose exact value is `q`. -/
def ofExact (q : ℚ) : Double :=
  if |q| < threshold then .finite q else .infinite (decide (q < 0))

def mul : Double → Double → Double
  | .finite a, .finite b => ofExact (a * b)
  | .finite a, .infinite negative =>
    if a = 0 then .nan else .infinite (decide (a < 0) ^^ negative)
  | .infinite negative, .finite b =>
    if b = 0 then .nan else .infinite (negative ^^ decide (b < 0))
  | .infinite a, .infinite b => .infinite (a ^^ b)
  | _, _ => .nan

/-- `std::pow` with an integer exponent. -/
def pow (x : Double) (k : ℤ) : Double :=
  if k = 0 then .finite 1
  else
    match x with
    | .finite q => if q = 0 ∧ k < 0 then .infinite false else ofExact (q ^ k)
    | .infinite negative =>
      if k < 0 then .finite 0 else .infinite (negative && decide (k % 2 ≠ 0))
    | .nan => .nan

/-- The comparison `<`, false for what is no number. -/
def lt : Double → Double → Bool
  | .finite a, .finite b => decide (a < b)
  | .finite _, .infinite negative => !negative
  | .infinite negative, .finite _ => negative
  | .infinite a, .infinite b => a && !b
  | _, _ => false

/-- The comparison `<=`. -/
def le (x y : Double) : Bool := x.lt y || (x != .nan && x == y)

/-- `std::min`. -/
def min (x y : Double) : Double := if y.lt x then y else x

/-- `static_cast<double>` of an `int64_t`. -/
def ofInt64 (n : ℤ) : Double := .finite n

/-- Truncation towards zero. -/
def trunc (q : ℚ) : ℤ := q.num.tdiv q.den

/-- `static_cast<int64_t>`; it is undefined for what is not in the range of that type. -/
def toInt64 : Double → Option ℤ
  | .finite q =>
    if -9223372036854776832 ≤ q ∧ q < 9223372036854775296 then
      some (max (-9223372036854775808) (trunc q))
    else none
  | _ => none

section

variable {a b : ℤ} {p v : ℚ}

/-- Every integer of 64 bits is below the threshold. -/
lemma lt_threshold : (18446744073709551616 : ℚ) < threshold := by
  have hsplit : (2 : ℚ) ^ 1024 = 2 ^ 970 * 2 ^ 54 := pow_add 2 970 54
  have hle : (2 : ℚ) ^ 64 ≤ 2 ^ 970 := pow_le_pow_right₀ one_le_two (by decide)
  have h64 : (2 : ℚ) ^ 64 = 18446744073709551616 := by norm_num
  have h54 : (2 : ℚ) ^ 54 = 18014398509481984 := by norm_num
  rw [threshold, hsplit, h54]
  rw [h64] at hle
  generalize (2 : ℚ) ^ 970 = x at hle
  linarith

lemma threshold_pos : 0 < threshold := lt_trans (by norm_num) lt_threshold

lemma ofExact_of_lt (h : |v| < threshold) : ofExact v = .finite v := if_pos h

lemma ofExact_of_le (h : threshold ≤ |v|) : ofExact v = .infinite (decide (v < 0)) :=
  if_neg (not_lt.mpr h)

@[simp] lemma pow_of_zero (x : Double) : x.pow 0 = .finite 1 := if_pos rfl

/-- A power of a number is that of the rational. -/
lemma pow_finite (q : ℚ) (k : ℕ) : (Double.finite q).pow k = ofExact (q ^ k) := by
  cases k with
  | zero =>
    have hone : |(1 : ℚ)| < threshold := lt_trans (by norm_num) lt_threshold
    rw [pow_zero, ofExact_of_lt hone]
    rfl
  | succ k =>
    have hne : ¬ ((k + 1 : ℕ) : ℤ) = 0 := by omega
    have hpos : ¬ (q = 0 ∧ ((k + 1 : ℕ) : ℤ) < 0) := by omega
    simp only [pow, if_neg hne, if_neg hpos, zpow_natCast]

/-- A multiple of a power; only zero times an infinity is no number. -/
lemma mul_ofInt64_ofExact (h : b = 0 → |p| < threshold) :
    mul (ofInt64 b) (ofExact p) = ofExact (b * p) := by
  rcases lt_or_ge |p| threshold with hp | hp
  · rw [ofExact_of_lt hp]
    rfl
  · have hb : b ≠ 0 := fun hb => absurd (h hb) (not_lt.mpr hp)
    have hone : (1 : ℚ) ≤ |(b : ℚ)| := by exact_mod_cast Int.one_le_abs hb
    have hle : threshold ≤ |(b : ℚ) * p| := by
      rw [abs_mul]
      exact hp.trans (le_mul_of_one_le_left (abs_nonneg p) hone)
    have hpne : p ≠ 0 := by
      rintro rfl
      rw [abs_zero] at hp
      exact absurd threshold_pos (not_lt.mpr hp)
    have hbq : (b : ℚ) ≠ 0 := by exact_mod_cast hb
    have hsign : (decide ((b : ℚ) < 0) ^^ decide (p < 0)) = decide ((b : ℚ) * p < 0) := by
      rcases lt_or_gt_of_ne hbq with hb' | hb' <;> rcases lt_or_gt_of_ne hpne with hp' | hp'
      · rw [decide_eq_true hb', decide_eq_true hp',
          decide_eq_false (mul_pos_of_neg_of_neg hb' hp').not_gt]
        rfl
      · rw [decide_eq_true hb', decide_eq_false hp'.not_gt,
          decide_eq_true (mul_neg_of_neg_of_pos hb' hp')]
        rfl
      · rw [decide_eq_false hb'.not_gt, decide_eq_true hp',
          decide_eq_true (mul_neg_of_pos_of_neg hb' hp')]
        rfl
      · rw [decide_eq_false hb'.not_gt, decide_eq_false hp'.not_gt,
          decide_eq_false (mul_pos hb' hp').not_gt]
        rfl
    rw [ofExact_of_le hp, ofExact_of_le hle, ← hsign]
    exact if_neg hbq

lemma mul_ofInt64_infinite (hb : b ≠ 0) (negative : Bool) :
    mul (ofInt64 b) (.infinite negative) = .infinite (decide (b < 0) ^^ negative) := by
  have hbq : (b : ℚ) ≠ 0 := by exact_mod_cast hb
  have hsign : decide ((b : ℚ) < 0) = decide (b < 0) := by norm_cast
  rw [← hsign]
  exact if_neg hbq

/-- Zero times an infinity. -/
lemma mul_zero_infinite (negative : Bool) : mul (ofInt64 0) (.infinite negative) = .nan := rfl

@[simp] lemma min_nan (x : Double) : min .nan x = .nan := by
  cases x <;> rfl

/-- What the conversion of a number that is cut off at a bound gives. -/
lemma toInt64_min_ofExact (ha : -9223372036854775808 ≤ a) (ha' : a ≤ 9223372036854775807) :
    toInt64 (min (ofExact v) (ofInt64 a)) =
      if -9223372036854776832 ≤ v ∧ (v < 9223372036854775296 ∨ a < 9223372036854775296) then
        some (max (-9223372036854775808) (trunc (Min.min v a)))
      else none := by
  have hlow : (-9223372036854775808 : ℚ) ≤ a := by exact_mod_cast ha
  have hhigh : (a : ℚ) ≤ 9223372036854775807 := by exact_mod_cast ha'
  have ha64 : (a : ℚ) < 9223372036854775296 ↔ a < 9223372036854775296 := by norm_cast
  have hbig := lt_threshold
  rcases lt_or_ge |v| threshold with hv | hv
  · -- a number: the smaller of the two
    have hmin : min (ofExact v) (ofInt64 a) = .finite (Min.min v a) := by
      rw [ofExact_of_lt hv]
      simp only [min, ofInt64, lt, decide_eq_true_eq]
      split
      next h => rw [min_eq_right h.le]
      next h => rw [min_eq_left (not_lt.mp h)]
    rw [hmin, toInt64]
    apply ite_congr _ (fun _ => rfl) (fun _ => rfl)
    rw [le_min_iff, min_lt_iff, ha64]
    apply propext
    constructor
    · rintro ⟨⟨h, -⟩, h'⟩
      exact ⟨h, h'⟩
    · rintro ⟨h, h'⟩
      exact ⟨⟨h, by linarith⟩, h'⟩
  · have hne : v ≠ 0 := by
      rintro rfl
      rw [abs_zero] at hv
      exact absurd threshold_pos (not_lt.mpr hv)
    rw [ofExact_of_le hv]
    rcases lt_or_gt_of_ne hne with hneg | hpos
    · -- minus infinity is not converted
      rw [abs_of_neg hneg] at hv
      have hout : ¬ (-9223372036854776832 ≤ v ∧
          (v < 9223372036854775296 ∨ a < 9223372036854775296)) := by
        rintro ⟨h, -⟩
        linarith
      rw [if_neg hout, decide_eq_true hneg]
      rfl
    · -- of infinity and the bound it is the bound
      rw [abs_of_pos hpos] at hv
      have hmin : Min.min v (a : ℚ) = a := min_eq_right (by linarith)
      rw [decide_eq_false hpos.not_gt, hmin]
      show toInt64 (.finite a) = _
      rw [toInt64]
      apply ite_congr _ (fun _ => rfl) (fun _ => rfl)
      rw [ha64]
      apply propext
      constructor
      · rintro ⟨-, h⟩
        exact ⟨by linarith, .inr h⟩
      · rintro ⟨-, h | h⟩
        · linarith
        · exact ⟨by linarith, h⟩

/-- An infinity that is cut off at a bound is converted when the bound is. -/
lemma toInt64_min_infinite (ha : -9223372036854775808 ≤ a) (negative : Bool) :
    (toInt64 (min (.infinite negative) (ofInt64 a))).isSome = true ↔
      negative = false ∧ a < 9223372036854775296 := by
  have hlow : (-9223372036854776832 : ℚ) ≤ a := by
    have hcast : (-9223372036854775808 : ℚ) ≤ a := by exact_mod_cast ha
    linarith
  have hhigh : (a : ℚ) < 9223372036854775296 ↔ a < 9223372036854775296 := by norm_cast
  cases negative with
  | true => exact ⟨nofun, nofun⟩
  | false =>
    show (toInt64 (.finite a)).isSome = true ↔ _
    rw [toInt64]
    split
    next h => exact ⟨fun _ => ⟨rfl, hhigh.mp h.2⟩, fun _ => rfl⟩
    next h => exact ⟨nofun, fun h' => absurd ⟨hlow, hhigh.mpr h'.2⟩ h⟩

end

end Double
