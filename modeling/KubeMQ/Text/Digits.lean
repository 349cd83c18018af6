import Mathlib.Data.Nat.Notation
import Mathlib.Algebra.Group.Nat.Defs
import Mathlib.Tactic.Common
import Mathlib.Tactic.Ring

/-!
# Positional digits

Numerals over the sixteen digit characters `0`..`9`, `a`..`f`, in a base of at most sixteen: the
value that a string of digits reads as, and what reading the digits of a number gives back.
-/

namespace Digits

/-- The value of a digit character. -/
def digitValue (c : Char) : ℕ :=
  if c.toNat < 'a'.toNat then c.toNat - '0'.toNat else c.toNat - 'a'.toNat + 10

/-- The digits of a base. -/
def IsDigit (b : ℕ) (c : Char) : Prop :=
  ∃ d < b, c = Nat.digitChar d

/-- The number that a string of digits denotes. -/
def value (b : ℕ) (cs : List Char) : ℕ :=
  cs.foldl (fun n c => b * n + digitValue c) 0

/-- The digits of `n`, filled up with zeros to a width. -/
def padded (b w n : ℕ) : List Char :=
  List.replicate (w - (Nat.toDigits b n).length) '0' ++ Nat.toDigits b n

lemma digitValue_digitChar {d : ℕ} (h : d < 16) : digitValue (Nat.digitChar d) = d := by
  revert d
  decide

@[simp] lemma value_nil (b : ℕ) : value b [] = 0 := rfl

lemma foldl_value (b : ℕ) (cs : List Char) (n : ℕ) :
    cs.foldl (fun n c => b * n + digitValue c) n = n * b ^ cs.length + value b cs := by
  induction cs generalizing n with
  | nil => simp
  | cons c cs ih =>
    have h0 : value b (c :: cs) = (b * 0 + digitValue c) * b ^ cs.length + value b cs :=
      ih (b * 0 + digitValue c)
    rw [List.foldl_cons, ih, h0, List.length_cons, pow_succ]
    ring

lemma value_append (b : ℕ) (cs ds : List Char) :
    value b (cs ++ ds) = value b cs * b ^ ds.length + value b ds := by
  unfold value
  rw [List.foldl_append]
  exact foldl_value b ds _

lemma value_cons (b : ℕ) (c : Char) (cs : List Char) :
    value b (c :: cs) = digitValue c * b ^ cs.length + value b cs := by
  have h := value_append b [c] cs
  simpa [value] using h

@[simp] lemma value_singleton (b : ℕ) (c : Char) : value b [c] = digitValue c := by
  simp [value]

/-- Leading zeros do not count. -/
lemma value_zeros (b k : ℕ) (cs : List Char) : value b (List.replicate k '0' ++ cs) = value b cs := by
  induction k with
  | zero => rfl
  | succ k ih =>
    rw [List.replicate_succ, List.cons_append, value_cons, ih]
    simp [digitValue]

section
variable {b : ℕ}

lemma IsDigit.value_lt {c : Char} (hb : b ≤ 16) (h : IsDigit b c) : digitValue c < b := by
  obtain ⟨d, hd, rfl⟩ := h
  rw [digitValue_digitChar (by omega)]
  exact hd

/-- A digit is determined by its value. -/
lemma IsDigit.eq_digitChar {c : Char} (hb : b ≤ 16) (h : IsDigit b c) :
    c = Nat.digitChar (digitValue c) := by
  obtain ⟨d, hd, rfl⟩ := h
  rw [digitValue_digitChar (by omega)]

lemma value_lt {cs : List Char} (hb : b ≤ 16) (h : ∀ c ∈ cs, IsDigit b c) :
    value b cs < b ^ cs.length := by
  induction cs with
  | nil => simp
  | cons c cs ih =>
    have hc : digitValue c < b := (h c List.mem_cons_self).value_lt hb
    have hcs : value b cs < b ^ cs.length := ih (fun c hc => h c (List.mem_cons_of_mem _ hc))
    rw [value_cons, List.length_cons, pow_succ]
    calc digitValue c * b ^ cs.length + value b cs
        < digitValue c * b ^ cs.length + b ^ cs.length := by omega
      _ = (digitValue c + 1) * b ^ cs.length := by ring
      _ ≤ b * b ^ cs.length := Nat.mul_le_mul_right _ hc
      _ = b ^ cs.length * b := Nat.mul_comm _ _

/-- The first digit is what the value holds above the remaining ones. -/
lemma digitValue_head {c : Char} {cs : List Char} (hb : b ≤ 16) (h : ∀ c ∈ cs, IsDigit b c) :
    digitValue c = value b (c :: cs) / b ^ cs.length := by
  have hlt := value_lt hb h
  rw [value_cons, Nat.mul_comm, Nat.mul_add_div (by omega), Nat.div_eq_of_lt hlt, Nat.add_zero]

variable (hb1 : 1 < b) (hb : b ≤ 16)
include hb1

lemma isDigit_toDigits (n : ℕ) : ∀ c ∈ Nat.toDigits b n, IsDigit b c := by
  induction n using Nat.strongRecOn with
  | ind n ih =>
    intro c hc
    rw [Nat.toDigits_eq_if hb1] at hc
    split at hc
    next hn => exact ⟨n, hn, List.mem_singleton.mp hc⟩
    next hn =>
      obtain hc | hc := List.mem_append.mp hc
      · exact ih (n / b) (Nat.div_lt_self (by omega) hb1) c hc
      · exact ⟨n % b, Nat.mod_lt n (by omega), List.mem_singleton.mp hc⟩

include hb

/-- Reading the digits of a number gives the number. -/
lemma value_toDigits (n : ℕ) : value b (Nat.toDigits b n) = n := by
  induction n using Nat.strongRecOn with
  | ind n ih =>
    rw [Nat.toDigits_eq_if hb1]
    split
    next hn => simp [digitValue_digitChar (Nat.lt_of_lt_of_le hn hb)]
    next hn =>
      have hmod : n % b < b := Nat.mod_lt n (by omega)
      rw [value_append, ih (n / b) (Nat.div_lt_self (by omega) hb1), value_singleton,
        digitValue_digitChar (by omega), List.length_singleton, pow_one, Nat.mul_comm]
      exact Nat.div_add_mod n b

@[simp] lemma value_padded (w n : ℕ) : value b (padded b w n) = n := by
  rw [padded, value_zeros, value_toDigits hb1 hb]

omit hb

lemma isDigit_padded (w n : ℕ) : ∀ c ∈ padded b w n, IsDigit b c := by
  intro c hc
  obtain hc | hc := List.mem_append.mp hc
  · exact ⟨0, by omega, List.eq_of_mem_replicate hc⟩
  · exact isDigit_toDigits hb1 n c hc

/-- A number below `b ^ w` fills its width exactly. -/
lemma length_padded {w n : ℕ} (hw : 0 < w) (hn : n < b ^ w) : (padded b w n).length = w := by
  have hlen : (Nat.toDigits b n).length ≤ w := (Nat.length_toDigits_le_iff hb1 hw).mpr hn
  rw [padded, List.length_append, List.length_replicate]
  omega

end

end Digits
