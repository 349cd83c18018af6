import Mathlib.Data.Int.DivMod
import Mathlib.Algebra.Order.Ring.Int
import KubeMQ.Queue.Ring
import KubeMQ.Queue.Bounded

/-!
# The reconnect buffer

`MessageBuffer` of `internal/transport/message_buffer.{h,cc}`, a ring buffer of message bytes. Every
method holds `mu_` for its whole length, so a run is a sequence of calls. A sender is given the
string in the slot as an rvalue and may do with it what it likes: its answer says whether it
returned or threw and what it left in the string. `Rep` says what the fields mean, and `drain_spec`
what a whole `Drain` does.
-/

namespace KubeMQ

/-- How a call of the sender ends; `left` is the string that the slot is left with. -/
inductive Answer where
  | returned (ok : Bool) (left : String)
  | threw (left : String)
  deriving DecidableEq

/-- A sender, by the number of calls before in the same `Drain` and the message. -/
abbrev Sender := ℕ → String → Answer

structure MessageBuffer where
  buffer : List String
  head : ℤ
  tail : ℤ
  count : ℤ
  capacity : ℤ
  deriving DecidableEq

/-- What is known after a `Drain`; `drained` is absent when the sender's exception left it. -/
structure Drained where
  buffer : MessageBuffer
  calls : List (String × Answer)
  drained : Option ℤ
  deriving DecidableEq

namespace MessageBuffer

/-- The constructor. -/
def new (capacity : ℤ) : MessageBuffer :=
  let capacity := if capacity > 0 then capacity else 1
  ⟨List.replicate capacity.toNat "", 0, 0, 0, capacity⟩

def push (b : MessageBuffer) (message : String) : MessageBuffer × ℤ :=
  let (b, evicted) :=
    if b.count = b.capacity then
      -- the buffer is full: the oldest entry is at `tail` too and is overwritten below
      ({ b with head := (b.head + 1).tmod b.capacity }, 1)
    else ({ b with count := b.count + 1 }, 0)
  ({ b with
      buffer := b.buffer.set b.tail.toNat message
      tail := (b.tail + 1).tmod b.capacity }, evicted)

/-- The `while` loop of `Drain`. -/
def drainLoop (sender : Sender) (calls : List (String × Answer)) (drained : ℤ)
    (b : MessageBuffer) : Drained :=
  if _ : b.count > 0 then
    let idx := b.head.toNat
    let message := b.buffer.getD idx ""
    match sender calls.length message with
    | .threw left =>
      ⟨{ b with buffer := b.buffer.set idx left }, calls ++ [(message, .threw left)], none⟩
    | .returned ok left =>
      let b' := { b with
        buffer := (b.buffer.set idx left).set idx ""
        head := (b.head + 1).tmod b.capacity
        count := b.count - 1 }
      let calls := calls ++ [(message, .returned ok left)]
      if ok then drainLoop sender calls (drained + 1) b' else ⟨b', calls, some (drained + 1)⟩
  else ⟨b, calls, some drained⟩
termination_by b.count.toNat

def drain (b : MessageBuffer) (sender : Sender) : Drained :=
  drainLoop sender [] 0 b

/-- `Discard`. The sum `head_ + i` has no bound here; where it overflows the code has no defined
behaviour, and `discardChecked` no result. -/
def discard (b : MessageBuffer) : MessageBuffer × ℤ :=
  let clear := fun buffer (i : ℕ) => List.set buffer ((b.head + i).tmod b.capacity).toNat ""
  ({ b with
      buffer := (List.range b.count.toNat).foldl clear b.buffer
      head := 0
      tail := 0
      count := 0 }, b.count)

def size (b : MessageBuffer) : ℤ := b.count

def isEmpty (b : MessageBuffer) : Bool := b.count == 0

/-- `count` slots read from `head` modulo `capacity`. -/
def contents (b : MessageBuffer) : List String :=
  (List.range b.count.toNat).map fun (i : ℕ) => b.buffer.getD ((b.head + i).tmod b.capacity).toNat ""

/-- The bounds on the fields. -/
structure Inv (b : MessageBuffer) : Prop where
  count_nonneg : 0 ≤ b.count
  count_le : b.count ≤ b.capacity
  head_nonneg : 0 ≤ b.head
  head_lt : b.head < b.capacity
  tail_nonneg : 0 ≤ b.tail
  tail_lt : b.tail < b.capacity
  tail_eq : b.tail = (b.head + b.count).tmod b.capacity

/-- The fields hold `n` messages from the slot `first` on, in a vector of `cap` slots. -/
structure Rep (b : MessageBuffer) (cap first n : ℕ) : Prop where
  capacity : b.capacity = cap
  head : b.head = first
  count : b.count = n
  tail : b.tail = ((first + n) % cap : ℕ)
  lt : first < cap
  le : n ≤ cap
  length : b.buffer.length = cap

/-- The slots of the vector. -/
def slot (b : MessageBuffer) (i : ℕ) : String := b.buffer.getD i ""

variable {b : MessageBuffer} {cap first n : ℕ}

namespace Rep

lemma pos (r : Rep b cap first n) : 0 < cap :=
  Nat.lt_of_le_of_lt (Nat.zero_le first) r.lt

lemma inv (r : Rep b cap first n) : b.Inv := by
  have hpos := r.pos
  have hle := r.le
  have hlt := r.lt
  have hmod := Nat.mod_lt (first + n) hpos
  refine ⟨?_, ?_, ?_, ?_, ?_, ?_, ?_⟩
  · rw [r.count]
    omega
  · rw [r.count, r.capacity]
    omega
  · rw [r.head]
    omega
  · rw [r.head, r.capacity]
    omega
  · rw [r.tail]
    omega
  · rw [r.tail, r.capacity]
    omega
  · rw [r.tail, r.head, r.count, r.capacity]
    rfl

lemma contents_eq (r : Rep b cap first n) : b.contents = Queue.ring b.slot cap first n := by
  unfold contents Queue.ring
  rw [r.count, r.head, r.capacity]
  rfl

end Rep

lemma slot_set {b' : MessageBuffer} {i : ℕ} {x : String} (hi : i < b.buffer.length)
    (h : b'.buffer = b.buffer.set i x) : b'.slot = Function.update b.slot i x := by
  funext j
  unfold slot
  rw [h, List.getD_eq_getElem?_getD, List.getElem?_set]
  by_cases hij : i = j
  · subst hij
    rw [if_pos rfl, if_pos hi, Function.update_self]
    rfl
  · rw [if_neg hij, Function.update_of_ne (Ne.symm hij), List.getD_eq_getElem?_getD]

/-- `(i + 1) % capacity_` on an index. -/
lemma tmod_succ (i cap : ℕ) : ((i : ℤ) + 1).tmod cap = ((i + 1) % cap : ℕ) := by
  rw [Int.ofNat_tmod, Nat.cast_add_one]

lemma rep_new (capacity : ℤ) : ∃ cap, (new capacity).Rep cap 0 0 := by
  unfold new
  refine ⟨(if capacity > 0 then capacity else 1).toNat, ?_⟩
  constructor <;> simp <;> split <;> omega

/-- A push into a buffer with room appends. -/
lemma push_spec (r : b.Rep cap first n) (h : n < cap) (m : String) :
    (b.push m).1.Rep cap first (n + 1) ∧ (b.push m).1.contents = b.contents ++ [m] ∧
      (b.push m).2 = 0 := by
  have hne : ¬ b.count = b.capacity := by
    rw [r.count, r.capacity]
    omega
  have hrep : (b.push m).1.Rep cap first (n + 1) := by
    simp only [push, if_neg hne]
    refine ⟨r.capacity, r.head, ?_, ?_, r.lt, h, ?_⟩
    · simp [r.count]
    · simp only [r.tail, r.capacity]
      rw [tmod_succ, Nat.mod_add_mod, Nat.add_assoc]
    · simp [r.length]
  have hslot : (b.push m).1.slot = Function.update b.slot ((first + n) % cap) m := by
    apply slot_set
    · rw [r.length]
      exact Nat.mod_lt _ r.pos
    · simp only [push, if_neg hne, r.tail, Int.toNat_natCast]
  refine ⟨hrep, ?_, ?_⟩
  · rw [hrep.contents_eq, r.contents_eq, hslot, Queue.ring_write h]
  · simp only [push, if_neg hne]

/-- A push into a full buffer appends and drops the oldest message. -/
lemma push_spec_full (r : b.Rep cap first cap) (m : String) :
    (b.push m).1.Rep cap ((first + 1) % cap) cap ∧
      (b.push m).1.contents = b.contents.tail ++ [m] ∧ (b.push m).2 = 1 := by
  have hpos := r.pos
  have heq : b.count = b.capacity := by rw [r.count, r.capacity]
  have hrep : (b.push m).1.Rep cap ((first + 1) % cap) cap := by
    simp only [push, if_pos heq]
    refine ⟨r.capacity, ?_, r.count, ?_, Nat.mod_lt _ hpos, Nat.le_refl _, ?_⟩
    · simp only [r.head, r.capacity]
      rw [tmod_succ]
    · simp only [r.tail, r.capacity]
      rw [tmod_succ, Nat.mod_add_mod, Nat.mod_add_mod, Nat.add_right_comm]
    · simp [r.length]
  have hslot : (b.push m).1.slot = Function.update b.slot ((first + cap) % cap) m := by
    apply slot_set
    · rw [r.length]
      exact Nat.mod_lt _ hpos
    · simp only [push, if_pos heq, r.tail, Int.toNat_natCast]
  refine ⟨hrep, ?_, ?_⟩
  · rw [hrep.contents_eq, r.contents_eq, hslot, Queue.ring_mod, Queue.ring_overwrite hpos]
  · simp only [push, if_pos heq]

/-- `Discard` empties the buffer. -/
lemma discard_spec (r : b.Rep cap first n) :
    b.discard.1.Rep cap 0 0 ∧ b.discard.1.contents = [] ∧ b.discard.2 = n := by
  have hlen (is : List ℕ) (l : List String) (f : ℕ → ℕ) :
      (is.foldl (fun l i => l.set (f i) "") l).length = l.length := by
    induction is generalizing l with
    | nil => rfl
    | cons i is ih => rw [List.foldl_cons, ih, List.length_set]
  refine ⟨⟨r.capacity, rfl, rfl, ?_, r.pos, Nat.zero_le _, ?_⟩, rfl, r.count⟩
  · rw [Nat.add_zero, Nat.zero_mod]
    rfl
  · unfold discard
    rw [hlen, r.length]

/-- The slot at `head` holds the oldest message. -/
lemma front_spec (r : b.Rep cap first (n + 1)) :
    b.contents = b.buffer.getD b.head.toNat "" :: b.contents.tail := by
  rw [r.contents_eq, Queue.ring_cons, List.tail_cons, Nat.mod_eq_of_lt r.lt, r.head]
  rfl

/-- The slot at `head` cleared and given up. -/
lemma pop_spec (r : b.Rep cap first (n + 1)) (left : String) {b' : MessageBuffer}
    (h : b' = { b with
      buffer := (b.buffer.set b.head.toNat left).set b.head.toNat ""
      head := (b.head + 1).tmod b.capacity
      count := b.count - 1 }) :
    b'.Rep cap ((first + 1) % cap) n ∧ b'.contents = b.contents.tail := by
  have hle : n < cap := r.le
  have hrep : b'.Rep cap ((first + 1) % cap) n := by
    rw [h]
    refine ⟨r.capacity, ?_, ?_, ?_, Nat.mod_lt _ r.pos, Nat.le_of_lt hle, ?_⟩
    · simp only [r.head, r.capacity]
      rw [tmod_succ]
    · simp only [r.count]
      rw [Nat.cast_add_one, add_sub_cancel_right]
    · simp only [r.tail, Nat.mod_add_mod]
      rw [Nat.add_right_comm, Nat.add_assoc]
    · simp [r.length]
  have hslot : b'.slot = Function.update b.slot (first % cap) "" := by
    apply slot_set
    · rw [r.length]
      exact Nat.mod_lt _ r.pos
    · rw [h, r.head, Int.toNat_natCast, Nat.mod_eq_of_lt r.lt, List.set_set]
  refine ⟨hrep, ?_⟩
  rw [hrep.contents_eq, r.contents_eq, hslot, Queue.ring_mod, Queue.ring_skip hle, Queue.ring_cons,
    List.tail_cons]

/-- The slot at `head` kept, with what a sender that threw left in it. -/
lemma keep_spec (r : b.Rep cap first (n + 1)) (left : String) {b' : MessageBuffer}
    (h : b' = { b with buffer := b.buffer.set b.head.toNat left }) :
    b'.Rep cap first (n + 1) ∧ b'.contents = left :: b.contents.tail := by
  have hrep : b'.Rep cap first (n + 1) := by
    rw [h]
    exact ⟨r.capacity, r.head, r.count, r.tail, r.lt, r.le, by simp [r.length]⟩
  have hslot : b'.slot = Function.update b.slot (first % cap) left := by
    apply slot_set
    · rw [r.length]
      exact Nat.mod_lt _ r.pos
    · rw [h, r.head, Int.toNat_natCast, Nat.mod_eq_of_lt r.lt]
  refine ⟨hrep, ?_⟩
  rw [hrep.contents_eq, r.contents_eq, hslot, Queue.ring_rewrite r.le, Queue.ring_cons,
    List.tail_cons]

/-- The calls of the sender when the messages `q` are buffered. -/
def callsOn (sender : Sender) : ℕ → List String → List (String × Answer)
  | _, [] => []
  | k, m :: q =>
    match sender k m with
    | .returned true left => (m, .returned true left) :: callsOn sender (k + 1) q
    | answer => [(m, answer)]

/-- What is buffered afterwards. -/
def leftOn (sender : Sender) : ℕ → List String → List String
  | _, [] => []
  | k, m :: q =>
    match sender k m with
    | .returned true _ => leftOn sender (k + 1) q
    | .returned false _ => q
    | .threw left => left :: q

/-- What the loop returns when it has drained `drained` messages before. -/
def returnsOn (sender : Sender) : ℕ → ℤ → List String → Option ℤ
  | _, drained, [] => some drained
  | k, drained, m :: q =>
    match sender k m with
    | .returned true _ => returnsOn sender (k + 1) (drained + 1) q
    | .returned false _ => some (drained + 1)
    | .threw _ => none

/-- What the loop of `Drain` does: the induction is on the number of buffered messages. -/
lemma drainLoop_spec (sender : Sender) (r : b.Rep cap first n) (calls : List (String × Answer))
    (drained : ℤ) :
    (drainLoop sender calls drained b).calls = calls ++ callsOn sender calls.length b.contents ∧
      (drainLoop sender calls drained b).drained
        = returnsOn sender calls.length drained b.contents ∧
      (drainLoop sender calls drained b).buffer.contents
        = leftOn sender calls.length b.contents ∧
      ∃ first' n', (drainLoop sender calls drained b).buffer.Rep cap first' n' := by
  induction n generalizing b first calls drained with
  | zero =>
    have hcount : ¬ b.count > 0 := by
      rw [r.count]
      omega
    have hnil : b.contents = [] := r.contents_eq
    rw [drainLoop, dif_neg hcount, hnil]
    exact ⟨(List.append_nil _).symm, rfl, rfl, first, 0, r⟩
  | succ n ih =>
    have hcount : b.count > 0 := by
      rw [r.count]
      omega
    have hfront := front_spec r
    rw [drainLoop, dif_pos hcount, hfront]
    simp only [callsOn, leftOn, returnsOn]
    cases ha : sender calls.length (b.buffer.getD b.head.toNat "") with
    | threw left =>
      obtain ⟨hrep, hcont⟩ := keep_spec r left rfl
      exact ⟨rfl, rfl, hcont, first, n + 1, hrep⟩
    | returned ok left =>
      obtain ⟨hrep, hcont⟩ := pop_spec r left rfl
      cases ok with
      | false => exact ⟨rfl, rfl, hcont, _, n, hrep⟩
      | true =>
        have hlen (x : String × Answer) : (calls ++ [x]).length = calls.length + 1 :=
          List.length_append
        let message := b.buffer.getD b.head.toNat ""
        have hrec := ih hrep (calls ++ [(message, .returned true left)]) (drained + 1)
        rw [hcont, hlen, List.append_assoc] at hrec
        exact hrec

end MessageBuffer

end KubeMQ
