import Mathlib.Data.List.Basic
import Mathlib.Data.Nat.ModEq
import Mathlib.Logic.Function.Basic

/-!
# Ring buffers

`ring slot cap head n` reads `n` slots of a buffer with `cap` places, starting at `head` and
wrapping around. The rules say what a read sees after the slot behind the last one was written,
after the first slot was given up, and after a slot outside of the read was changed.
-/

namespace Queue

variable {α : Type*} {slot slot' : ℕ → α} {cap head n i j : ℕ}

/-- `n` slots from `head`, modulo `cap`. -/
def ring (slot : ℕ → α) (cap head n : ℕ) : List α :=
  (List.range n).map fun i => slot ((head + i) % cap)

@[simp] lemma ring_zero : ring slot cap head 0 = [] := rfl

@[simp] lemma length_ring : (ring slot cap head n).length = n := by
  simp [ring]

/-- The head may be kept modulo the capacity. -/
lemma ring_mod : ring slot cap (head % cap) n = ring slot cap head n := by
  apply List.map_congr_left
  intro i _
  rw [Nat.mod_add_mod]

/-- Reading one more slot at the end. -/
lemma ring_concat : ring slot cap head (n + 1) = ring slot cap head n ++ [slot ((head + n) % cap)] := by
  simp [ring, List.range_succ]

/-- The first slot comes first. -/
lemma ring_cons :
    ring slot cap head (n + 1) = slot (head % cap) :: ring slot cap (head + 1) n := by
  induction n with
  | zero => simp [ring_concat]
  | succ n ih =>
    rw [ring_concat, ih, ring_concat]
    have e : head + 1 + n = head + (n + 1) := by omega
    rw [e]
    rfl

/-- Two slots less than one round apart are different places. -/
lemma mod_add_inj (hi : i < cap) (hj : j < cap) (h : (head + i) % cap = (head + j) % cap) :
    i = j := by
  have hmod : i % cap = j % cap := Nat.ModEq.add_left_cancel' head h
  rwa [Nat.mod_eq_of_lt hi, Nat.mod_eq_of_lt hj] at hmod

/-- Only the slots that are read matter. -/
lemma ring_congr (h : ∀ i < n, slot ((head + i) % cap) = slot' ((head + i) % cap)) :
    ring slot cap head n = ring slot' cap head n := by
  apply List.map_congr_left
  intro i hi
  exact h i (List.mem_range.mp hi)

/-- Writing the slot behind the last one appends to what is read. -/
lemma ring_write (h : n < cap) (x : α) :
    ring (Function.update slot ((head + n) % cap) x) cap head (n + 1) = ring slot cap head n ++ [x] := by
  rw [ring_concat, Function.update_self]
  congr 1
  apply ring_congr
  intro i hi
  apply Function.update_of_ne
  intro e
  have hin := mod_add_inj (Nat.lt_trans hi h) h e
  omega

/-- When every slot is in use, the slot behind the last one is the first, which is given up. -/
lemma ring_overwrite (h : 0 < cap) (x : α) :
    ring (Function.update slot ((head + cap) % cap) x) cap (head + 1) cap
      = (ring slot cap head cap).tail ++ [x] := by
  obtain ⟨k, rfl⟩ := Nat.exists_eq_succ_of_ne_zero (Nat.ne_of_gt h)
  have e : head + (k + 1) = head + 1 + k := by omega
  rw [Nat.succ_eq_add_one, e, ring_write (Nat.lt_succ_self k), ring_cons]
  rfl

/-- After the first slot was given up, what was written to it is not read. -/
lemma ring_skip (h : n < cap) (x : α) :
    ring (Function.update slot (head % cap) x) cap (head + 1) n = ring slot cap (head + 1) n := by
  apply ring_congr
  intro i hi
  apply Function.update_of_ne
  intro e
  have e' : (head + (1 + i)) % cap = (head + 0) % cap := by
    rw [← Nat.add_assoc]
    exact e
  have hin := mod_add_inj (by omega) (by omega) e'
  omega

/-- Writing the first slot changes the first element only. -/
lemma ring_rewrite (h : n < cap) (x : α) :
    ring (Function.update slot (head % cap) x) cap head (n + 1) = x :: ring slot cap (head + 1) n := by
  rw [ring_cons, Function.update_self, ring_skip h]

end Queue
