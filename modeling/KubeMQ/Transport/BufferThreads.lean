import KubeMQ.Lts.Monitor
import KubeMQ.Transport.BufferIndices

/-!
# Threads on the reconnect buffer

Any number of threads in `Push`, `Drain`, `Discard`, `Size` and `Empty` of one `MessageBuffer`. Every
method takes `mu_` first and works under it statement by statement; the senders of `Drain` are called
with the lock held. `linearizable` says that what the threads are told is what a bounded FIFO queue
tells them one after the other. `Capacity` takes no lock: `capacity_` never changes. `bodyChecked` is
one statement with its `int` arithmetic checked; in the buffers that threads bring about it is
`body`, up to a capacity of `2 ^ 30`.
-/

namespace KubeMQ.MessageBuffer

open Lts
open Checked (int)

/-- The methods that take the lock. -/
inductive Method where
  | call (op : Op)
  | size
  | isEmpty

/-- What a method returns; a call that an exception leaves returns nothing. -/
inductive Reply where
  | call (r : Option (Queue.Ret String))
  | size (n : ℤ)
  | isEmpty (b : Bool)
  deriving DecidableEq

/-- The next statement of a method. -/
inductive Pc where
  | pushRoom (message : String)
  | pushStore (message : String) (evicted : ℤ)
  | pushAdvance (evicted : ℤ)
  | drainTest (sender : Sender) (calls : List (String × Answer)) (drained : ℤ)
  | drainSend (sender : Sender) (calls : List (String × Answer)) (drained : ℤ)
  | drainPop (sender : Sender) (calls : List (String × Answer)) (drained : ℤ) (ok : Bool)
  | discardClear (i : ℕ)
  | discardReset
  | size
  | isEmpty

namespace Pc

def enter : Method → Pc
  | .call (.push message) => .pushRoom message
  | .call (.drain sender) => .drainTest sender [] 0
  | .call .discard => .discardClear 0
  | .size => .size
  | .isEmpty => .isEmpty

def body (b : MessageBuffer) : Pc → MessageBuffer × (Pc ⊕ Reply)
  | .pushRoom message =>
    if b.count = b.capacity then
      ({ b with head := (b.head + 1).tmod b.capacity }, .inl (.pushStore message 1))
    else ({ b with count := b.count + 1 }, .inl (.pushStore message 0))
  | .pushStore message evicted =>
    ({ b with buffer := b.buffer.set b.tail.toNat message }, .inl (.pushAdvance evicted))
  | .pushAdvance evicted =>
    ({ b with tail := (b.tail + 1).tmod b.capacity }, .inr (.call (some (.push evicted))))
  | .drainTest sender calls drained =>
    if b.count > 0 then (b, .inl (.drainSend sender calls drained))
    else (b, .inr (.call (some (.drain (calls.map Prod.fst) drained))))
  | .drainSend sender calls drained =>
    let idx := b.head.toNat
    let message := b.buffer.getD idx ""
    match sender calls.length message with
    | .threw left => ({ b with buffer := b.buffer.set idx left }, .inr (.call none))
    | .returned ok left =>
      ({ b with buffer := b.buffer.set idx left },
        .inl (.drainPop sender (calls ++ [(message, .returned ok left)]) drained ok))
  | .drainPop sender calls drained ok =>
    let b' := { b with
      buffer := b.buffer.set b.head.toNat ""
      head := (b.head + 1).tmod b.capacity
      count := b.count - 1 }
    if ok then (b', .inl (.drainTest sender calls (drained + 1)))
    else (b', .inr (.call (some (.drain (calls.map Prod.fst) (drained + 1)))))
  | .discardClear i =>
    if (i : ℤ) < b.count then
      ({ b with buffer := b.buffer.set ((b.head + i).tmod b.capacity).toNat "" },
        .inl (.discardClear (i + 1)))
    else (b, .inl .discardReset)
  | .discardReset =>
    ({ b with head := 0, tail := 0, count := 0 }, .inr (.call (some (.discard b.count))))
  | .size => (b, .inr (.size b.size))
  | .isEmpty => (b, .inr (.isEmpty b.isEmpty))

/-- The same with every `int` expression and every index checked. -/
def bodyChecked (b : MessageBuffer) : Pc → Option (MessageBuffer × (Pc ⊕ Reply))
  | .pushRoom message =>
    if b.count = b.capacity then do
      let head ← b.wrapped b.head 1
      some ({ b with head := head }, .inl (.pushStore message 1))
    else do
      let count ← int.add b.count 1
      some ({ b with count := count }, .inl (.pushStore message 0))
  | .pushStore message evicted => do
    let idx ← b.index b.tail
    some ({ b with buffer := b.buffer.set idx message }, .inl (.pushAdvance evicted))
  | .pushAdvance evicted => do
    let tail ← b.wrapped b.tail 1
    some ({ b with tail := tail }, .inr (.call (some (.push evicted))))
  | .drainSend sender calls drained => do
    let idx ← b.index b.head
    let message := b.buffer.getD idx ""
    match sender calls.length message with
    | .threw left => some ({ b with buffer := b.buffer.set idx left }, .inr (.call none))
    | .returned ok left =>
      some ({ b with buffer := b.buffer.set idx left },
        .inl (.drainPop sender (calls ++ [(message, .returned ok left)]) drained ok))
  | .drainPop sender calls drained ok => do
    let idx ← b.index b.head
    let head ← b.wrapped b.head 1
    let count ← int.sub b.count 1
    let drained ← int.add drained 1
    let b' := { b with buffer := b.buffer.set idx "", head := head, count := count }
    if ok then some (b', .inl (.drainTest sender calls drained))
    else some (b', .inr (.call (some (.drain (calls.map Prod.fst) drained))))
  | .discardClear i =>
    if (i : ℤ) < b.count then do
      let buffer ← b.clearChecked b.buffer i
      some ({ b with buffer := buffer }, .inl (.discardClear (i + 1)))
    else some (b, .inl .discardReset)
  | k => some (body b k)

end Pc

/-- The methods of a buffer and its lock. -/
def monitor : Monitor MessageBuffer Method Pc Reply :=
  ⟨Pc.enter, Pc.body⟩

/-- A method as one step. -/
def stepMethod (b : MessageBuffer) : Method → MessageBuffer × Reply
  | .call op => ((b.step op).1, .call (b.step op).2)
  | .size => (b, .size b.size)
  | .isEmpty => (b, .isEmpty b.isEmpty)

/-- What a method answers on the abstract queue. -/
def specMethod (q : Queue.Bounded String) : Method → Queue.Bounded String × Reply
  | .call op => ((q.step op.spec).1, .call (some (q.step op.spec).2))
  | .size => (q, .size q.items.length)
  | .isEmpty => (q, .isEmpty q.items.isEmpty)

/-- The slots after the loop of `Discard`, when it has come to index `i`. -/
def clearFrom (b : MessageBuffer) (i : ℕ) : List String :=
  (List.range' i (b.count.toNat - i)).foldl
    (fun buffer (j : ℕ) => buffer.set ((b.head + j).tmod b.capacity).toNat "") b.buffer

namespace Pc

/-- The rest of a `Drain` from the test of its loop on. -/
def finishDrain (b : MessageBuffer) (sender : Sender) (calls : List (String × Answer))
    (drained : ℤ) : MessageBuffer × Reply :=
  let d := drainLoop sender calls drained b
  (d.buffer, .call (d.drained.map fun n => .drain (d.calls.map Prod.fst) n))

/-- The rest of a `Drain` after the sender has returned. -/
def finishPop (b : MessageBuffer) (sender : Sender) (calls : List (String × Answer))
    (drained : ℤ) (ok : Bool) : MessageBuffer × Reply :=
  let b' := { b with
    buffer := b.buffer.set b.head.toNat ""
    head := (b.head + 1).tmod b.capacity
    count := b.count - 1 }
  if ok then finishDrain b' sender calls (drained + 1)
  else (b', .call (some (.drain (calls.map Prod.fst) (drained + 1))))

/-- What is left to do of a method, at once. -/
def finish (b : MessageBuffer) : Pc → MessageBuffer × Reply
  | .pushRoom message => b.stepMethod (.call (.push message))
  | .pushStore message evicted =>
    ({ b with
        buffer := b.buffer.set b.tail.toNat message
        tail := (b.tail + 1).tmod b.capacity }, .call (some (.push evicted)))
  | .pushAdvance evicted =>
    ({ b with tail := (b.tail + 1).tmod b.capacity }, .call (some (.push evicted)))
  | .drainTest sender calls drained => finishDrain b sender calls drained
  | .drainSend sender calls drained =>
    let idx := b.head.toNat
    let message := b.buffer.getD idx ""
    match sender calls.length message with
    | .threw left => ({ b with buffer := b.buffer.set idx left }, .call none)
    | .returned ok left =>
      finishPop { b with buffer := b.buffer.set idx left } sender
        (calls ++ [(message, .returned ok left)]) drained ok
  | .drainPop sender calls drained ok => finishPop b sender calls drained ok
  | .discardClear i =>
    ({ b with buffer := b.clearFrom i, head := 0, tail := 0, count := 0 },
      .call (some (.discard b.count)))
  | .discardReset =>
    ({ b with head := 0, tail := 0, count := 0 }, .call (some (.discard b.count)))
  | .size => (b, .size b.size)
  | .isEmpty => (b, .isEmpty b.isEmpty)

variable {b : MessageBuffer}

/-- A turn of the loop of `Drain` is its call of the sender with what follows. -/
lemma finishDrain_of_pos (h : b.count > 0) (sender : Sender) (calls : List (String × Answer))
    (drained : ℤ) : finishDrain b sender calls drained = finish b (.drainSend sender calls drained) := by
  unfold finishDrain finish
  rw [drainLoop, dif_pos h]
  dsimp only
  cases sender calls.length (b.buffer.getD b.head.toNat "") with
  | threw left => rfl
  | returned ok left =>
    cases ok with
    | false => rfl
    | true => rfl

/-- The loop of `Discard` clears one slot a turn. -/
lemma clearFrom_of_lt {i : ℕ} (h : (i : ℤ) < b.count) :
    b.clearFrom i = clearFrom { b with
      buffer := b.buffer.set ((b.head + i).tmod b.capacity).toNat "" } (i + 1) := by
  have e : b.count.toNat - i = b.count.toNat - (i + 1) + 1 := by omega
  unfold clearFrom
  rw [e, List.range'_succ, List.foldl_cons]

lemma clearFrom_of_le {i : ℕ} (h : ¬ (i : ℤ) < b.count) : b.clearFrom i = b.buffer := by
  have e : b.count.toNat - i = 0 := by omega
  unfold clearFrom
  rw [e]
  rfl

lemma discard_eq : b.discard.1 = { b with
    buffer := b.clearFrom 0
    head := 0
    tail := 0
    count := 0 } := by
  unfold discard clearFrom
  rw [Nat.sub_zero, List.range_eq_range']

/-- No statement changes what is left to do. -/
lemma resume_body (k : Pc) : Monitor.resume finish (body b k) = finish b k := by
  cases k with
  | pushRoom message =>
    by_cases h : b.count = b.capacity
    · simp [body, Monitor.resume, finish, stepMethod, step, push, h]
    · simp [body, Monitor.resume, finish, stepMethod, step, push, h]
  | drainTest sender calls drained =>
    simp only [body]
    by_cases h : b.count > 0
    · rw [if_pos h]
      exact (finishDrain_of_pos h sender calls drained).symm
    · rw [if_neg h]
      simp only [Monitor.resume, finish, finishDrain]
      rw [drainLoop, dif_neg h]
      rfl
  | drainSend sender calls drained =>
    simp only [body, finish]
    cases sender calls.length (b.buffer.getD b.head.toNat "") with
    | threw left => rfl
    | returned ok left => rfl
  | drainPop sender calls drained ok =>
    cases ok with
    | false => rfl
    | true => rfl
  | discardClear i =>
    simp only [body]
    by_cases h : (i : ℤ) < b.count
    · rw [if_pos h]
      simp only [Monitor.resume, finish]
      rw [clearFrom_of_lt h]
    · rw [if_neg h]
      simp only [Monitor.resume, finish]
      rw [clearFrom_of_le h]
  | _ => rfl

end Pc

/-- Alone with the buffer, every method does what it does at once. -/
lemma monitor_computes : monitor.Computes stepMethod := by
  apply Monitor.Computes.of_finish Pc.finish
  case enter =>
    intro b m
    cases m with
    | call op =>
      cases op with
      | push message => rfl
      | drain sender => rfl
      | discard =>
        simp only [stepMethod, step, Pc.discard_eq]
        rfl
    | size => rfl
    | isEmpty => rfl
  case body =>
    intro b k
    exact Pc.resume_body k

section Fields

variable {b : MessageBuffer} {cap first n : ℕ}

/-- Only the number of slots matters for the fields, not what is in them. -/
lemma Rep.of_fields {b' : MessageBuffer} (r : b.Rep cap first n) (hcap : b'.capacity = b.capacity)
    (hhead : b'.head = b.head) (hcount : b'.count = b.count) (htail : b'.tail = b.tail)
    (hlen : b'.buffer.length = b.buffer.length) : b'.Rep cap first n :=
  ⟨hcap.trans r.capacity, hhead.trans r.head, hcount.trans r.count, htail.trans r.tail, r.lt, r.le,
    hlen.trans r.length⟩

/-- The fields are in order. -/
def Sound (cap : ℕ) (b : MessageBuffer) : Prop := ∃ first n, b.Rep cap first n

/-- The fields before a statement. A `Push` between its two halves has still to advance `tail`; a
`Drain` has still to count what is left. -/
def Pc.Knows (cap : ℕ) (b : MessageBuffer) : Pc → Prop
  | .pushStore _ _ | .pushAdvance _ =>
    0 ≤ b.tail ∧ b.tail < b.capacity ∧ b.capacity = cap ∧
      Sound cap { b with tail := (b.tail + 1).tmod b.capacity }
  | .drainTest _ _ drained =>
    0 ≤ drained ∧ ∃ first n, b.Rep cap first n ∧ drained + n ≤ cap
  | .drainSend _ _ drained | .drainPop _ _ drained _ =>
    0 ≤ drained ∧ ∃ first n, b.Rep cap first (n + 1) ∧ drained + (n + 1) ≤ cap
  | _ => Sound cap b

lemma Sound.enter (h : Sound cap b) (m : Method) : (Pc.enter m).Knows cap b := by
  cases m with
  | call op =>
    cases op with
    | push message => exact h
    | drain sender =>
      obtain ⟨first, n, r⟩ := h
      have hle := r.le
      exact ⟨le_refl 0, first, n, r, by omega⟩
    | discard => exact h
  | size => exact h
  | isEmpty => exact h

/-- `Push` makes room: what is left is to write the slot at `tail` and to advance it. -/
lemma Rep.room (r : b.Rep cap first n) (message : String) :
    Monitor.After (Sound cap) (Pc.Knows cap) (Pc.body b (.pushRoom message)) := by
  have hmod := Nat.mod_lt (first + n) r.pos
  have htail : 0 ≤ b.tail ∧ b.tail < b.capacity := by
    rw [r.tail, r.capacity]
    omega
  by_cases hfull : b.count = b.capacity
  · have hn : n = cap := by
      rw [r.count, r.capacity] at hfull
      exact_mod_cast hfull
    subst hn
    have hpush := (push_spec_full r message).1
    simp only [push, if_pos hfull] at hpush
    simp only [Pc.body, if_pos hfull]
    exact ⟨htail.1, htail.2, r.capacity, _, _, hpush.of_fields rfl rfl rfl rfl (by simp)⟩
  · have hlt : n < cap := by
      have hle := r.le
      rw [r.count, r.capacity] at hfull
      omega
    have hpush := (push_spec r hlt message).1
    simp only [push, if_neg hfull] at hpush
    simp only [Pc.body, if_neg hfull]
    exact ⟨htail.1, htail.2, r.capacity, _, _, hpush.of_fields rfl rfl rfl rfl (by simp)⟩

/-- Every statement leaves the fields as the next one needs them. -/
lemma Pc.knows_body {k : Pc} (h : k.Knows cap b) :
    Monitor.After (Sound cap) (Pc.Knows cap) (body b k) := by
  cases k with
  | pushRoom message =>
    obtain ⟨first, n, r⟩ := h
    exact r.room message
  | pushStore message evicted =>
    obtain ⟨h₀, hlt, hcap, first, n, r⟩ := h
    exact ⟨h₀, hlt, hcap, first, n, r.of_fields rfl rfl rfl rfl (by simp)⟩
  | pushAdvance evicted => exact h.2.2.2
  | drainTest sender calls drained =>
    obtain ⟨h₀, first, n, r, hsum⟩ := h
    simp only [body]
    by_cases hpos : b.count > 0
    · rw [if_pos hpos]
      rw [r.count] at hpos
      obtain ⟨n, rfl⟩ : ∃ m, n = m + 1 := ⟨n - 1, by omega⟩
      exact ⟨h₀, first, n, r, hsum⟩
    · rw [if_neg hpos]
      exact ⟨first, n, r⟩
  | drainSend sender calls drained =>
    obtain ⟨h₀, first, n, r, hsum⟩ := h
    simp only [body]
    cases sender calls.length (b.buffer.getD b.head.toNat "") with
    | threw left => exact ⟨first, n + 1, r.of_fields rfl rfl rfl rfl (by simp)⟩
    | returned ok left =>
      exact ⟨h₀, first, n, r.of_fields rfl rfl rfl rfl (by simp), hsum⟩
  | drainPop sender calls drained ok =>
    obtain ⟨h₀, first, n, r, hsum⟩ := h
    have hpop := (pop_spec r "" rfl).1
    have hrep : Rep { b with
        buffer := b.buffer.set b.head.toNat ""
        head := (b.head + 1).tmod b.capacity
        count := b.count - 1 } cap ((first + 1) % cap) n :=
      hpop.of_fields rfl rfl rfl rfl (by simp)
    cases ok with
    | false => exact ⟨_, _, hrep⟩
    | true => exact ⟨by omega, _, _, hrep, by omega⟩
  | discardClear i =>
    obtain ⟨first, n, r⟩ := h
    simp only [body]
    by_cases hi : (i : ℤ) < b.count
    · rw [if_pos hi]
      exact ⟨first, n, r.of_fields rfl rfl rfl rfl (by simp)⟩
    · rw [if_neg hi]
      exact ⟨first, n, r⟩
  | discardReset =>
    obtain ⟨first, n, r⟩ := h
    have hdiscard := (discard_spec r).1
    exact ⟨0, 0, hdiscard.of_fields rfl rfl rfl rfl (r.length.trans hdiscard.length.symm)⟩
  | size => exact h
  | isEmpty => exact h

/-- Up to a capacity of `2 ^ 30` no statement overflows or misses the vector. -/
lemma Pc.bodyChecked_eq {k : Pc} (h : k.Knows cap b) (hcap : cap ≤ 1073741824) :
    bodyChecked b k = some (body b k) := by
  have hmax : cap ≤ 2147483647 := by omega
  cases k with
  | pushRoom message =>
    obtain ⟨first, n, r⟩ := h
    have hhead := r.wrapped_succ hmax r.lt
    have hcount : int.add b.count 1 = some (b.count + 1) := by
      have hle := r.le
      rw [r.count]
      apply Checked.int_add <;> omega
    rw [← r.head] at hhead
    simp only [bodyChecked, body, hhead, hcount, Option.bind_eq_bind, Option.bind_some]
    split <;> rfl
  | pushStore message evicted =>
    obtain ⟨h₀, hlt, -⟩ := h
    have hidx : b.index b.tail = some b.tail.toNat := if_pos ⟨h₀, hlt⟩
    simp only [bodyChecked, body, hidx, Option.bind_eq_bind, Option.bind_some]
  | pushAdvance evicted =>
    obtain ⟨h₀, hlt, hc, first, n, r⟩ := h
    have hwrap : b.wrapped b.tail 1 = some ((b.tail + 1).tmod b.capacity) :=
      r.wrapped (by omega) (by omega)
    simp only [bodyChecked, body, hwrap, Option.bind_eq_bind, Option.bind_some]
  | drainTest sender calls drained => rfl
  | drainSend sender calls drained =>
    obtain ⟨h₀, first, n, r, hsum⟩ := h
    have hidx := r.index r.lt
    rw [← r.head] at hidx
    have hto : b.head.toNat = first := by
      rw [r.head]
      rfl
    simp only [bodyChecked, body, hidx, hto, Option.bind_eq_bind, Option.bind_some]
    cases sender calls.length (b.buffer.getD first "") <;> rfl
  | drainPop sender calls drained ok =>
    obtain ⟨h₀, first, n, r, hsum⟩ := h
    have hidx := r.index r.lt
    have hhead := r.wrapped_succ hmax r.lt
    rw [← r.head] at hidx hhead
    have hto : b.head.toNat = first := by
      rw [r.head]
      rfl
    have hcount : int.sub b.count 1 = some (b.count - 1) := by
      have hle := r.le
      rw [r.count]
      apply Checked.int_sub <;> omega
    have hdrained : int.add drained 1 = some (drained + 1) := by
      apply Checked.int_add <;> omega
    simp only [bodyChecked, body, hidx, hhead, hto, hcount, hdrained, Option.bind_eq_bind,
      Option.bind_some]
    split <;> rfl
  | discardClear i =>
    obtain ⟨first, n, r⟩ := h
    simp only [bodyChecked, body]
    by_cases hi : (i : ℤ) < b.count
    · rw [if_pos hi, if_pos hi]
      have hin : i < n := by
        rw [r.count] at hi
        exact_mod_cast hi
      have hle := r.le
      have hlt := r.lt
      rw [r.clearChecked b.buffer hin hmax, if_pos (by omega)]
      rfl
    · rw [if_neg hi, if_neg hi]
  | discardReset => rfl
  | size => rfl
  | isEmpty => rfl

end Fields

/-- The sender of the method returns, whatever it answers. -/
def Method.NoThrow : Method → Prop
  | .call op => op.NoThrow
  | _ => True

/-- One method on the buffer and on the queue that it holds. -/
lemma stepMethod_refines {b : MessageBuffer} {q : Queue.Bounded String} {m : Method}
    (hm : m.NoThrow) (h : Refines b q) :
    Refines (b.stepMethod m).1 (specMethod q m).1 ∧ (b.stepMethod m).2 = (specMethod q m).2 := by
  obtain ⟨first, n, r⟩ := h.rep
  have hlen : q.items.length = n := by
    rw [← h.contents, r.contents_eq, Queue.length_ring]
  cases m with
  | call op =>
    obtain ⟨hrefines, hret⟩ := step_refines hm h
    exact ⟨hrefines, congrArg Reply.call hret⟩
  | size =>
    refine ⟨h, congrArg Reply.size ?_⟩
    rw [hlen]
    exact r.count
  | isEmpty =>
    refine ⟨h, congrArg Reply.isEmpty ?_⟩
    rw [isEmpty, r.count, ← hlen]
    cases q.items with
    | nil => rfl
    | cons m ms =>
      rw [List.isEmpty_cons, beq_eq_false_iff_ne, List.length_cons]
      omega

/-- Whatever threads do with one buffer of at most `2 ^ 30` slots, whose senders return, what they
are told is explained by a bounded FIFO queue of its capacity that serves them one after the other,
in an order that respects real time; whenever no thread is inside, the slots read from `head` are
that queue's elements and the fields are within their bounds; and no statement of a thread that is
inside overflows or misses the vector. -/
theorem linearizable {capacity : ℤ} (hcap : capacity ≤ 1073741824)
    {s : Monitor.State MessageBuffer Method Pc Reply}
    (h : (monitor.sys (new capacity)).Reachable s)
    (hs : ∀ i m, .invoke i m ∈ s.history → m.NoThrow) :
    (∃ order, Monitor.Linearized specMethod (emptyQueue capacity) s.history order ∧
      (s.lock = none →
        s.obj.contents = (runs specMethod (emptyQueue capacity) (order.map (·.2.1))).1.items ∧
          s.obj.Inv)) ∧
    ∀ (i : ℕ) (m : Method) (k : Pc), s.calls[i]? = some (.inside m k) →
      Pc.bodyChecked s.obj k = some (Pc.body s.obj k) := by
  constructor
  · obtain ⟨order, hlin, hfree⟩ := Monitor.linearized monitor_computes h
    obtain ⟨hspec, hrefines⟩ := hlin.simulate (fun _ _ _ hm hr => stepMethod_refines hm hr)
      (refines_new capacity) hs
    refine ⟨order, hspec, ?_⟩
    intro hl
    rw [hfree hl]
    obtain ⟨first, n, r⟩ := hrefines.rep
    exact ⟨hrefines.contents, r.inv⟩
  · intro i m k hk
    have hkept := Monitor.kept (I := Sound (new capacity).capacity.toNat)
      (J := Pc.Knows (new capacity).capacity.toNat) ⟨0, 0, rep_new_capacity capacity⟩
      (fun _ m hu => hu.enter m) (fun _ _ hk => Pc.knows_body hk) h
    refine Pc.bodyChecked_eq (hkept.knows i _ hk) ?_
    rw [capacity_new]
    split <;> omega

/-- The sender of `Drain` takes everything. -/
def accept : Sender := fun _ _ => .returned true ""

/-- A message is pushed while the one before it is being drained; the push waits for the lock. -/
def pushDuringDrain : List (Monitor.Action Method) :=
  [.invoke (.call (.push "a")), .acquire 0, .body 0, .body 0, .body 0, .release 0, .respond 0,
    .invoke (.call (.drain accept)), .acquire 1, .body 1, .body 1, .invoke (.call (.push "b")),
    .body 1, .body 1, .release 1, .acquire 2, .body 2, .body 2, .body 2, .release 2, .respond 2]

lemma pushDuringDrain_history :
    ((monitor.sys (new 2)).exec (Monitor.start (new 2)) pushDuringDrain).map (·.history) =
      some [.invoke 0 (.call (.push "a")), .respond 0 (.call (some (.push 0))),
        .invoke 1 (.call (.drain accept)), .invoke 2 (.call (.push "b")),
        .respond 2 (.call (some (.push 0)))] := rfl

/-- The call of `Drain` has not returned yet; the push that it has let in has. -/
theorem linearizable_pushDuringDrain :
    ∃ s, (monitor.sys (new 2)).exec (Monitor.start (new 2)) pushDuringDrain = some s ∧
      ∃ order, Monitor.Linearized specMethod (emptyQueue 2) s.history order := by
  obtain ⟨s, hs, hh⟩ := Option.map_eq_some_iff.mp pushDuringDrain_history
  have hreturns : ∀ i m, .invoke i m ∈ s.history → m.NoThrow := by
    rw [hh]
    intro i m hm
    simp only [List.mem_cons, Monitor.Event.invoke.injEq, reduceCtorEq, List.not_mem_nil, or_false,
      false_or] at hm
    rcases hm with ⟨-, rfl⟩ | ⟨-, rfl⟩ | ⟨-, rfl⟩
    · trivial
    · exact fun _ _ => ⟨true, "", rfl⟩
    · trivial
  obtain ⟨⟨order, hlin, -⟩, -⟩ :=
    @linearizable 2 (by decide) s (.exec (.init rfl) pushDuringDrain hs) hreturns
  exact ⟨s, hs, order, hlin⟩

end KubeMQ.MessageBuffer
