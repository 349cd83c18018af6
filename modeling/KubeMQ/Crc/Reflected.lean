import Mathlib.Data.Nat.Notation
import Mathlib.Logic.Function.Iterate
import Mathlib.Tactic.Common

/-!
# Reflected cyclic redundancy codes

The remainder of a message under a polynomial, with the low bit first. `feed` takes one bit of the
message. `shifts_xor` is what makes tables work: shifting `r ^^^ x` feeds the low bits of `x` to `r`
and moves the other bits of `x` down.
-/

namespace Crc

variable {w : ℕ} (poly : BitVec w)

/-- One shift of the remainder. -/
def shift (r : BitVec w) : BitVec w :=
  if r.getLsbD 0 then (r >>> 1) ^^^ poly else r >>> 1

def shifts (n : ℕ) (r : BitVec w) : BitVec w := (shift poly)^[n] r

/-- One bit of the message. -/
def feed (r : BitVec w) (b : Bool) : BitVec w :=
  if r.getLsbD 0 ^^ b then (r >>> 1) ^^^ poly else r >>> 1

/-- The remainder after a message. -/
def remainder (r : BitVec w) (message : List Bool) : BitVec w :=
  message.foldl (feed poly) r

/-- The low bits of a word, the lowest first. -/
def bits (n : ℕ) {m : ℕ} (x : BitVec m) : List Bool := (List.range n).map x.getLsbD

lemma shifts_succ (n : ℕ) (r : BitVec w) :
    shifts poly (n + 1) r = shift poly (shifts poly n r) :=
  Function.iterate_succ_apply' _ n r

/-- The remainder of a message in two parts. -/
lemma remainder_append (r : BitVec w) (xs ys : List Bool) :
    remainder poly r (xs ++ ys) = remainder poly (remainder poly r xs) ys :=
  List.foldl_append

lemma bits_succ {m : ℕ} (n : ℕ) (x : BitVec m) : bits (n + 1) x = bits n x ++ [x.getLsbD n] := by
  simp [bits, List.range_succ]

lemma bits_congr {n m m' : ℕ} {x : BitVec m} {y : BitVec m'}
    (h : ∀ i < n, x.getLsbD i = y.getLsbD i) : bits n x = bits n y := by
  apply List.map_congr_left
  intro i hi
  exact h i (List.mem_range.mp hi)

/-- A shift of `r ^^^ x` feeds the lowest bit of `x` to `r`. -/
lemma shift_xor (r x : BitVec w) :
    shift poly (r ^^^ x) = feed poly r (x.getLsbD 0) ^^^ (x >>> 1) := by
  unfold shift feed
  rw [BitVec.getLsbD_xor, BitVec.ushiftRight_xor_distrib]
  by_cases h : (r.getLsbD 0 ^^ x.getLsbD 0) = true
  · rw [if_pos h, if_pos h, BitVec.xor_assoc, BitVec.xor_comm (x >>> 1), ← BitVec.xor_assoc]
  · rw [if_neg h, if_neg h]

lemma shifts_xor (n : ℕ) (r x : BitVec w) :
    shifts poly n (r ^^^ x) = remainder poly r (bits n x) ^^^ (x >>> n) := by
  induction n with
  | zero => rw [BitVec.ushiftRight_zero]; rfl
  | succ n ih =>
    have hbit : (x >>> n).getLsbD 0 = x.getLsbD n := by
      rw [BitVec.getLsbD_ushiftRight, Nat.add_zero]
    rw [shifts_succ, ih, shift_xor, hbit, bits_succ, remainder_append, BitVec.shiftRight_add]
    rfl

section
variable {n : ℕ} {r x low : BitVec w}

/-- A word of `n` bits is fed by `n` shifts. -/
lemma shifts_xor_word (hx : x >>> n = 0#w) :
    shifts poly n (r ^^^ x) = remainder poly r (bits n x) := by
  rw [shifts_xor, hx, BitVec.xor_zero]

/-- The shifts of a word are those of its low bits, and its other bits moved down. -/
lemma shifts_eq_low (hlow : low >>> n = 0#w) (h : ∀ i < n, low.getLsbD i = x.getLsbD i) :
    shifts poly n x = shifts poly n low ^^^ (x >>> n) := by
  have hx := shifts_xor poly n 0#w x
  have hl := shifts_xor poly n 0#w low
  rw [BitVec.zero_xor] at hx hl
  rw [hx, hl, hlow, BitVec.xor_zero, bits_congr h]

/-- A word of `n` bits is fed by looking up the shifts of the low bits. -/
lemma remainder_bits (hx : x >>> n = 0#w) (hlow : low >>> n = 0#w)
    (h : ∀ i < n, low.getLsbD i = (r ^^^ x).getLsbD i) :
    remainder poly r (bits n x) = shifts poly n low ^^^ (r >>> n) := by
  rw [← shifts_xor_word poly hx, shifts_eq_low poly hlow h, BitVec.ushiftRight_xor_distrib, hx,
    BitVec.xor_zero]

end

end Crc
