import Mathlib.Algebra.BigOperators.Group.List.Basic
import Mathlib.Algebra.Order.Group.Int
import Mathlib.Tactic.Linarith
import Mathlib.Tactic.Ring
import KubeMQ.Lts.Machine

/-!
# Bounded FIFO queues

`Bounded α` is a queue with room for `cap` elements. `push` appends and drops the oldest element
of a full queue, `drain` hands the elements out in order until a consumer declines, `discard`
empties the queue. `conservation` accounts for the elements of a whole run.
-/

namespace Queue

variable {α : Type*}

structure Bounded (α : Type*) where
  cap : ℕ
  pos : 0 < cap
  items : List α
  fits : items.length ≤ cap

/-- How many elements are handed out: up to the first one that is declined, that one included. -/
def taken (ok : ℕ → α → Bool) : ℕ → List α → ℕ
  | _, [] => 0
  | k, x :: xs => if ok k x then taken ok (k + 1) xs + 1 else 1

lemma taken_le (ok : ℕ → α → Bool) (k : ℕ) (xs : List α) : taken ok k xs ≤ xs.length := by
  induction xs generalizing k with
  | nil => exact Nat.le_refl 0
  | cons x xs ih =>
    have := ih (k + 1)
    simp only [taken, List.length_cons]
    split <;> omega

namespace Bounded

def empty (cap : ℕ) (pos : 0 < cap) : Bounded α :=
  ⟨cap, pos, [], Nat.zero_le cap⟩

/-- What is left after a push has made room. -/
def room (q : Bounded α) : List α :=
  if q.items.length = q.cap then q.items.tail else q.items

lemma length_room_lt (q : Bounded α) : q.room.length < q.cap := by
  have := q.pos
  have := q.fits
  unfold room
  split
  · rw [List.length_tail]
    omega
  · omega

def push (q : Bounded α) (x : α) : Bounded α :=
  { q with
    items := q.room ++ [x]
    fits := by
      rw [List.length_append]
      exact q.length_room_lt }

def drain (q : Bounded α) (ok : ℕ → α → Bool) : Bounded α :=
  { q with
    items := q.items.drop (taken ok 0 q.items)
    fits := by
      have := q.fits
      rw [List.length_drop]
      omega }

def discard (q : Bounded α) : Bounded α :=
  empty q.cap q.pos

end Bounded

/-- The operations; a consumer may answer by the number of elements it was handed before. -/
inductive Op (α : Type*) where
  | push (x : α)
  | drain (ok : ℕ → α → Bool)
  | discard

/-- What an operation returns, and for `drain` what the consumer saw. -/
inductive Ret (α : Type*) where
  | push (evicted : ℤ)
  | drain (offered : List α) (n : ℤ)
  | discard (n : ℤ)
  deriving DecidableEq

def Op.pushes : Op α → ℤ
  | .push _ => 1
  | _ => 0

def Ret.evicted : Ret α → ℤ
  | .push n => n
  | _ => 0

def Ret.drained : Ret α → ℤ
  | .drain _ n => n
  | _ => 0

def Ret.discarded : Ret α → ℤ
  | .discard n => n
  | _ => 0

namespace Bounded

def step (q : Bounded α) : Op α → Bounded α × Ret α
  | .push x => (q.push x, .push (if q.items.length = q.cap then 1 else 0))
  | .drain ok =>
    (q.drain ok, .drain (q.items.take (taken ok 0 q.items)) (taken ok 0 q.items))
  | .discard => (q.discard, .discard q.items.length)

/-- One operation loses no count. -/
lemma step_conservation (q : Bounded α) (a : Op α) :
    (q.items.length : ℤ) + a.pushes
      = (q.step a).2.evicted + (q.step a).2.drained + (q.step a).2.discarded
        + (q.step a).1.items.length := by
  cases a with
  | push x =>
    have := q.pos
    simp only [step, push, room, Op.pushes, Ret.evicted, Ret.drained, Ret.discarded]
    split
    · rw [List.length_append, List.length_tail, List.length_singleton]
      omega
    · rw [List.length_append, List.length_singleton]
      omega
  | drain ok =>
    have := taken_le ok 0 q.items
    simp only [step, drain, Op.pushes, Ret.evicted, Ret.drained, Ret.discarded, List.length_drop]
    omega
  | discard => simp [step, discard, empty, Op.pushes, Ret.evicted, Ret.drained, Ret.discarded]

/-- Every pushed element was dropped, handed out, discarded or is still there. -/
theorem conservation (q : Bounded α) (as : List (Op α)) :
    (q.items.length : ℤ) + (as.map Op.pushes).sum
      = ((Lts.runs step q as).2.map Ret.evicted).sum
        + ((Lts.runs step q as).2.map Ret.drained).sum
        + ((Lts.runs step q as).2.map Ret.discarded).sum
        + (Lts.runs step q as).1.items.length := by
  induction as generalizing q with
  | nil => simp
  | cons a as ih =>
    have hstep := q.step_conservation a
    have hrest := ih (q.step a).1
    simp only [Lts.runs_cons, List.map_cons, List.sum_cons]
    linarith

/-- The capacity never changes. -/
lemma step_cap (q : Bounded α) (a : Op α) : (q.step a).1.cap = q.cap := by
  cases a <;> rfl

end Bounded

end Queue
