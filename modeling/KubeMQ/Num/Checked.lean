import Mathlib.Algebra.Order.Ring.Int
import Mathlib.Tactic.Common

/-!
# Checked integer arithmetic

Signed integers between two bounds. An operation gives the exact result, or nothing when that
result is out of bounds: in C++ the behaviour is undefined then. `foldlM_mulAdd` is the rule for a
loop that accumulates a numeral: when every term is non-negative, an overflow on the way shows in
the total.
-/

namespace Checked

/-- A signed integer type. -/
structure Signed where
  min : ℤ
  max : ℤ
  min_nonpos : min ≤ 0
  max_nonneg : 0 ≤ max

/-- `int`. -/
def int : Signed := ⟨-2147483648, 2147483647, by decide, by decide⟩

namespace Signed

variable (T : Signed)

def Fits (v : ℤ) : Prop := T.min ≤ v ∧ v ≤ T.max

instance (v : ℤ) : Decidable (T.Fits v) := inferInstanceAs (Decidable (_ ∧ _))

/-- The result of an operation whose exact value is `v`. -/
def exact (v : ℤ) : Option ℤ := if T.Fits v then some v else none

def add (a b : ℤ) : Option ℤ := T.exact (a + b)

def sub (a b : ℤ) : Option ℤ := T.exact (a - b)

def mul (a b : ℤ) : Option ℤ := T.exact (a * b)

/-- The remainder, defined where the quotient is. -/
def rem (a b : ℤ) : Option ℤ := if b ≠ 0 ∧ T.Fits (a.tdiv b) then some (a.tmod b) else none

variable {T} {v r : ℤ}

lemma exact_of_fits (h : T.Fits v) : T.exact v = some v := if_pos h

lemma exact_of_not_fits (h : ¬T.Fits v) : T.exact v = none := if_neg h

lemma exact_eq_some_iff : T.exact v = some r ↔ T.Fits v ∧ r = v := by
  by_cases h : T.Fits v
  · rw [exact_of_fits h, Option.some.injEq]
    exact ⟨fun e => ⟨h, e.symm⟩, fun e => e.2.symm⟩
  · rw [exact_of_not_fits h]
    exact ⟨nofun, fun e => absurd e.1 h⟩

/-- On non-negative values only the upper bound matters. -/
lemma fits_iff_of_nonneg (hv : 0 ≤ v) : T.Fits v ↔ v ≤ T.max :=
  ⟨And.right, fun h => ⟨T.min_nonpos.trans hv, h⟩⟩

lemma fits_of_le (h0 : 0 ≤ v) (h : v ≤ T.max) : T.Fits v := (fits_iff_of_nonneg h0).mpr h

lemma not_fits_of_le (hv : 0 ≤ v) (h : ¬T.Fits v) (hle : v ≤ r) : ¬T.Fits r := by
  rw [fits_iff_of_nonneg hv] at h
  intro hr
  exact h (hle.trans hr.2)

lemma rem_of_nonneg {a b : ℤ} (ha : 0 ≤ a) (hfits : T.Fits a) (hb : 0 < b) :
    T.rem a b = some (a.tmod b) := by
  apply if_pos
  have hquot : 0 ≤ a.tdiv b := Int.tdiv_nonneg ha hb.le
  have hle : a.tdiv b ≤ a := Int.tdiv_le_self b ha
  exact ⟨hb.ne', T.min_nonpos.trans hquot, hle.trans hfits.2⟩

/-- One step of the value of a numeral. -/
def mulAdd (T : Signed) (b n d : ℤ) : Option ℤ := do
  let m ← T.mul n b
  T.add m d

section
variable {b n d : ℤ} (hb : 1 ≤ b)
include hb

lemma mulAdd_eq (hn : 0 ≤ n) (hd : 0 ≤ d) : T.mulAdd b n d = T.exact (n * b + d) := by
  have hmul : 0 ≤ n * b := mul_nonneg hn (by omega)
  by_cases h : T.Fits (n * b)
  · show (T.exact (n * b)).bind _ = _
    rw [exact_of_fits h]
    rfl
  · show (T.exact (n * b)).bind _ = _
    rw [exact_of_not_fits h, exact_of_not_fits (not_fits_of_le hmul h (by omega))]
    rfl

lemma le_foldl_mulAdd {ds : List ℤ} (hn : 0 ≤ n) (hds : ∀ d ∈ ds, 0 ≤ d) :
    n ≤ ds.foldl (fun n d => n * b + d) n := by
  induction ds generalizing n with
  | nil => exact le_refl n
  | cons d ds ih =>
    have hd : 0 ≤ d := hds d List.mem_cons_self
    have hmul : n ≤ n * b := le_mul_of_one_le_right hn hb
    have hrest := ih (n := n * b + d) (by omega) fun d hd => hds d (List.mem_cons_of_mem _ hd)
    rw [List.foldl_cons]
    omega

/-- The checked value of a numeral is its exact value, checked once at the end. -/
lemma foldlM_mulAdd {ds : List ℤ} (hn : 0 ≤ n) (hfits : T.Fits n) (hds : ∀ d ∈ ds, 0 ≤ d) :
    ds.foldlM (T.mulAdd b) n = T.exact (ds.foldl (fun n d => n * b + d) n) := by
  induction ds generalizing n with
  | nil => exact (exact_of_fits hfits).symm
  | cons d ds ih =>
    have hd : 0 ≤ d := hds d List.mem_cons_self
    have hrest : ∀ d ∈ ds, 0 ≤ d := fun d hd => hds d (List.mem_cons_of_mem _ hd)
    have hnext : 0 ≤ n * b + d :=
      Int.add_nonneg (mul_nonneg hn (by omega)) hd
    rw [List.foldlM_cons, List.foldl_cons, mulAdd_eq hb hn hd]
    by_cases h : T.Fits (n * b + d)
    · rw [exact_of_fits h]
      exact ih hnext h hrest
    · have hle := le_foldl_mulAdd hb hnext hrest
      rw [exact_of_not_fits h, exact_of_not_fits (not_fits_of_le hnext h hle)]
      rfl

end

end Signed

section
variable {a b : ℤ}

/-- Results of `int` arithmetic that are not negative. -/
lemma int_exact (h0 : 0 ≤ a) (h : a ≤ 2147483647) : int.exact a = some a :=
  Signed.exact_of_fits (Signed.fits_of_le h0 h)

lemma int_add (h0 : 0 ≤ a + b) (h : a + b ≤ 2147483647) : int.add a b = some (a + b) :=
  int_exact h0 h

lemma int_sub (h0 : 0 ≤ a - b) (h : a - b ≤ 2147483647) : int.sub a b = some (a - b) :=
  int_exact h0 h

end

end Checked
