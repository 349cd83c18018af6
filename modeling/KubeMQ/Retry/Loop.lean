import Mathlib.Algebra.Order.BigOperators.Group.List
import Mathlib.Algebra.Ring.Int.Defs
import Mathlib.Data.Nat.Find
import Mathlib.Data.Nat.Notation
import Mathlib.Order.Bounds.Defs
import Mathlib.Order.Nat
import Mathlib.Tactic.Common

/-!
# Retry loops

An operation passes a state of type `σ` along and returns a result in `α`. `loop` calls it, and
calls it again as long as the test `again` asks for it and the budget lasts, with a `pause` between
two calls that may depend on how many there have been. `before` is the state before the call with
a given index when all the calls up to it are made; `loop_eq` says at which call the loop ends,
`loop_count` counts the calls and `loop_cost` adds up the pauses.
-/

namespace Retry

variable {σ α : Type*}

/-- At most `left + 1` calls of `op`; `n` counts the pauses made before. -/
def loop (again : α → Bool) (pause : ℕ → σ → σ) (op : σ → α × σ) : ℕ → ℕ → σ → α × σ
  | 0, _, s => op s
  | left + 1, n, s =>
    let r := op s
    if again r.1 then loop again pause op left (n + 1) (pause n r.2) else r

/-- The state before call `k`, when every call before it is followed by another. -/
def before (pause : ℕ → σ → σ) (op : σ → α × σ) (n : ℕ) (s : σ) : ℕ → σ
  | 0 => s
  | k + 1 => before pause op (n + 1) (pause n (op s).2) k

variable {again : α → Bool} {pause : ℕ → σ → σ} {op : σ → α × σ}

/-- The loop ends with the first call that does not ask for another, or when its budget does. -/
theorem loop_eq {left k n : ℕ} {s : σ} (hk : k ≤ left)
    (asked : ∀ i < k, again (op (before pause op n s i)).1 = true)
    (ended : k = left ∨ again (op (before pause op n s k)).1 = false) :
    loop again pause op left n s = op (before pause op n s k) := by
  induction left generalizing k n s with
  | zero =>
    cases Nat.le_zero.mp hk
    rfl
  | succ left ih =>
    cases k with
    | zero =>
      have hstop : again (op s).1 = false := ended.resolve_left (Nat.succ_ne_zero left).symm
      simp only [loop, hstop, Bool.false_eq_true, if_false]
      rfl
    | succ k =>
      have hasked : again (op s).1 = true := asked 0 (Nat.succ_pos k)
      simp only [loop, hasked, if_true]
      refine ih (Nat.le_of_succ_le_succ hk) (fun i hi => ?_) ?_
      · exact asked (i + 1) (Nat.succ_lt_succ hi)
      · rcases ended with h | h
        · exact .inl (Nat.succ.inj h)
        · exact .inr h

/-- The call the loop ends with is the least that uses the budget up or does not ask for another. -/
theorem loop_least (again : α → Bool) (pause : ℕ → σ → σ) (op : σ → α × σ) (left n : ℕ) (s : σ) :
    ∃ k, IsLeast {k | k = left ∨ again (op (before pause op n s k)).1 = false} k ∧
      loop again pause op left n s = op (before pause op n s k) := by
  have hex : ∃ k, k = left ∨ again (op (before pause op n s k)).1 = false := ⟨left, .inl rfl⟩
  have hle : Nat.find hex ≤ left := Nat.find_min' hex (.inl rfl)
  refine ⟨Nat.find hex, ⟨Nat.find_spec hex, fun j hj => Nat.find_min' hex hj⟩, ?_⟩
  apply loop_eq hle
  · intro i hi
    have hnot := Nat.find_min hex hi
    have : again (op (before pause op n s i)).1 ≠ false := fun h => hnot (.inr h)
    exact eq_true_of_ne_false this
  · exact Nat.find_spec hex

/-- A first call that does not ask for another is the only one. -/
lemma loop_of_stop {left n : ℕ} {s : σ} (h : again (op s).1 = false) :
    loop again pause op left n s = op s :=
  loop_eq (k := 0) (Nat.zero_le left) nofun (.inr h)

section Count

variable (count : σ → ℕ)

/-- What every call raises by one and no pause changes counts the calls. -/
lemma loop_count (call : ∀ s, count (op s).2 = count s + 1)
    (keep : ∀ n s, count (pause n s) = count s) (left n : ℕ) (s : σ) : count s + 1 ≤ count (loop again pause op left n s).2 := by
  induction left generalizing n s with
  | zero => exact Nat.le_of_eq (call s).symm
  | succ left ih =>
    have := ih (n + 1) (pause n (op s).2)
    have := keep n (op s).2
    have := call s
    simp only [loop]
    split <;> omega

/-- When the first call asks for another, there are at least two. -/
lemma loop_count_of_again (call : ∀ s, count (op s).2 = count s + 1)
    (keep : ∀ n s, count (pause n s) = count s) {left n : ℕ} {s : σ} (hl : 0 < left)
    (h : again (op s).1 = true) : count s + 2 ≤ count (loop again pause op left n s).2 := by
  obtain ⟨left, rfl⟩ := Nat.exists_eq_succ_of_ne_zero (Nat.ne_of_gt hl)
  have : _ ≤ count (loop again pause op left (n + 1) (pause n (op s).2)).2 :=
    loop_count count call keep left (n + 1) (pause n (op s).2)
  have := keep n (op s).2
  have := call s
  simp only [loop, h, if_true]
  omega

end Count

/-- Where a call costs nothing and the pause `n` at most `bound n`, the loop costs at most what the
bounds of its pauses add up to. -/
lemma loop_cost (cost : σ → Int) (bound : ℕ → Int) (call : ∀ s, cost (op s).2 = cost s)
    (pays : ∀ n s, cost s ≤ cost (pause n s) ∧ cost (pause n s) ≤ cost s + bound n) (left n : ℕ)
    (s : σ) :
    cost s ≤ cost (loop again pause op left n s).2 ∧
      cost (loop again pause op left n s).2 ≤ cost s + ((List.range' n left).map bound).sum := by
  induction left generalizing n s with
  | zero =>
    have hcall := call s
    exact ⟨hcall.ge, by simpa [loop] using hcall.le⟩
  | succ left ih =>
    have hcall := call s
    obtain ⟨hlow, hhigh⟩ := pays n (op s).2
    obtain ⟨hrest, hrest'⟩ := ih (n + 1) (pause n (op s).2)
    simp only [loop, List.range'_succ, List.map_cons, List.sum_cons]
    split
    · omega
    · -- no further pause is made
      have hnonneg : 0 ≤ ((List.range' (n + 1) left).map bound).sum := by
        apply List.sum_nonneg
        intro x hx
        obtain ⟨m, -, rfl⟩ := List.mem_map.mp hx
        have hm := pays m s
        omega
      omega

end Retry
