import KubeMQ.Transport.MessageBuffer

/-!
# Runs of the reconnect buffer

A call is an operation of the buffer with what it returns. `runs_refine` compares a run of the buffer
with the run of a bounded FIFO queue: `step_refines` is the simulation of one call. The sums of
indices are integers here, as in `MessageBuffer.lean`; `BufferIndices.lean` tells when they fit.
-/

namespace KubeMQ.MessageBuffer

/-- The calls that change the buffer. -/
inductive Op where
  | push (message : String)
  | drain (sender : Sender)
  | discard

/-- One call: what it returns is absent when an exception leaves it. -/
def step (b : MessageBuffer) : Op → MessageBuffer × Option (Queue.Ret String)
  | .push m => ((b.push m).1, some (.push (b.push m).2))
  | .drain sender =>
    ((b.drain sender).buffer,
      (b.drain sender).drained.map fun n => .drain ((b.drain sender).calls.map Prod.fst) n)
  | .discard => (b.discard.1, some (.discard b.discard.2))

/-- The sender's answer as a flag. -/
def Sender.ok (sender : Sender) (k : ℕ) (m : String) : Bool :=
  match sender k m with
  | .returned ok _ => ok
  | .threw _ => false

/-- The call as an operation of the abstract queue. -/
def Op.spec : Op → Queue.Op String
  | .push m => .push m
  | .drain sender => .drain (Sender.ok sender)
  | .discard => .discard

/-- The sender of the call returns, whatever it answers. -/
def Op.NoThrow : Op → Prop
  | .drain sender => ∀ k m, ∃ ok left, sender k m = .returned ok left
  | _ => True

section NoThrow

variable {sender : Sender} (hs : ∀ k m, ∃ ok left, sender k m = .returned ok left)

lemma callsOn_map_fst (k : ℕ) (q : List String) :
    (callsOn sender k q).map Prod.fst = q.take (Queue.taken (Sender.ok sender) k q) := by
  induction q generalizing k with
  | nil => rfl
  | cons m q ih =>
    have hrec := ih (k + 1)
    unfold callsOn Queue.taken Sender.ok
    cases sender k m with
    | threw left => rfl
    | returned ok left =>
      cases ok with
      | false => rfl
      | true => exact congrArg (m :: ·) hrec

include hs in
lemma leftOn_eq_drop (k : ℕ) (q : List String) :
    leftOn sender k q = q.drop (Queue.taken (Sender.ok sender) k q) := by
  induction q generalizing k with
  | nil => rfl
  | cons m q ih =>
    obtain ⟨ok, left, ha⟩ := hs k m
    have hok : Sender.ok sender k m = ok := by
      unfold Sender.ok
      rw [ha]
    unfold leftOn Queue.taken
    rw [ha, hok]
    cases ok with
    | false => rfl
    | true => exact ih (k + 1)

include hs in
lemma returnsOn_eq_taken (k : ℕ) (drained : ℤ) (q : List String) :
    returnsOn sender k drained q = some (drained + Queue.taken (Sender.ok sender) k q) := by
  induction q generalizing k drained with
  | nil => exact congrArg some (add_zero drained).symm
  | cons m q ih =>
    obtain ⟨ok, left, ha⟩ := hs k m
    have hok : Sender.ok sender k m = ok := by
      unfold Sender.ok
      rw [ha]
    unfold returnsOn Queue.taken
    rw [ha, hok]
    cases ok with
    | false => rfl
    | true =>
      have hrec := ih (k + 1) (drained + 1)
      simp only [if_true]
      rw [hrec, Nat.cast_add_one]
      congr 1
      ring

end NoThrow

/-- The buffer holds the elements of the abstract queue. -/
structure Refines (b : MessageBuffer) (q : Queue.Bounded String) : Prop where
  rep : ∃ first n, b.Rep q.cap first n
  contents : b.contents = q.items

/-- What one call returns and leaves behind. -/
lemma step_refines {b : MessageBuffer} {q : Queue.Bounded String} {a : Op} (ha : a.NoThrow)
    (h : Refines b q) :
    Refines (b.step a).1 (q.step a.spec).1 ∧ (b.step a).2 = some (q.step a.spec).2 := by
  obtain ⟨⟨first, n, r⟩, hcont⟩ := h
  have hlen : q.items.length = n := by
    rw [← hcont, r.contents_eq, Queue.length_ring]
  cases a with
  | push m =>
    by_cases hfull : n = q.cap
    · subst hfull
      obtain ⟨hrep, hc, hret⟩ := push_spec_full r m
      refine ⟨⟨⟨_, _, hrep⟩, ?_⟩, ?_⟩
      · simp only [step, Op.spec, Queue.Bounded.step, Queue.Bounded.push, Queue.Bounded.room]
        rw [hc, hcont, if_pos hlen]
      · simp only [step, Op.spec, Queue.Bounded.step]
        rw [hret, if_pos hlen]
    · have hne : ¬ q.items.length = q.cap := by rwa [hlen]
      obtain ⟨hrep, hc, hret⟩ := push_spec r (Nat.lt_of_le_of_ne r.le hfull) m
      refine ⟨⟨⟨_, _, hrep⟩, ?_⟩, ?_⟩
      · simp only [step, Op.spec, Queue.Bounded.step, Queue.Bounded.push, Queue.Bounded.room]
        rw [hc, hcont, if_neg hne]
      · simp only [step, Op.spec, Queue.Bounded.step]
        rw [hret, if_neg hne]
  | drain sender =>
    obtain ⟨hcalls, hret, hleft, first', n', hrep⟩ := drainLoop_spec sender r [] 0
    have hcalls' : (b.drain sender).calls.map Prod.fst
        = q.items.take (Queue.taken (Sender.ok sender) 0 q.items) := by
      rw [drain, hcalls, List.nil_append, callsOn_map_fst, hcont]
      rfl
    have hret' : (b.drain sender).drained
        = some (Queue.taken (Sender.ok sender) 0 q.items : ℤ) := by
      rw [drain, hret, returnsOn_eq_taken ha, hcont, zero_add]
      rfl
    refine ⟨⟨⟨first', n', hrep⟩, ?_⟩, ?_⟩
    · simp only [step, Op.spec, Queue.Bounded.step, Queue.Bounded.drain]
      rw [drain, hleft, leftOn_eq_drop ha, hcont]
      rfl
    · simp only [step, Op.spec, Queue.Bounded.step]
      rw [hcalls', hret']
      rfl
  | discard =>
    obtain ⟨hrep, hc, hret⟩ := discard_spec r
    refine ⟨⟨⟨0, 0, hrep⟩, hc⟩, ?_⟩
    simp only [step, Op.spec, Queue.Bounded.step]
    rw [hret, hlen]

lemma new_capacity_pos (capacity : ℤ) : 0 < (new capacity).capacity.toNat := by
  unfold new
  simp only
  split <;> omega

/-- The abstract queue that a new buffer holds. -/
def emptyQueue (capacity : ℤ) : Queue.Bounded String :=
  .empty (new capacity).capacity.toNat (new_capacity_pos capacity)

lemma refines_new (capacity : ℤ) : Refines (new capacity) (emptyQueue capacity) := by
  obtain ⟨cap, r⟩ := rep_new capacity
  have hcap : (new capacity).capacity.toNat = cap := by rw [r.capacity, Int.toNat_natCast]
  refine ⟨⟨0, 0, ?_⟩, rfl⟩
  change (new capacity).Rep (new capacity).capacity.toNat 0 0
  rwa [hcap]

lemma pushes_spec (ops : List Op) :
    ((ops.map Op.spec).map Queue.Op.pushes).sum
      = (ops.countP fun | .push _ => true | _ => false : ℕ) := by
  induction ops with
  | nil => rfl
  | cons op ops ih =>
    rw [List.map_cons, List.map_cons, List.sum_cons, ih, List.countP_cons]
    cases op with
    | push m =>
      push_cast
      exact add_comm _ _
    | drain sender => exact zero_add _
    | discard => exact zero_add _

/-- The run of the abstract queue. -/
def specRun (capacity : ℤ) (ops : List Op) : Queue.Bounded String × List (Queue.Ret String) :=
  Lts.runs Queue.Bounded.step (emptyQueue capacity) (ops.map Op.spec)

/-- A run of the buffer is the run of a bounded FIFO queue of its capacity: the same values are
returned, the slots read from `head` are the queue's elements, the fields stay within their bounds,
and what was pushed was evicted, drained, discarded or is still buffered. -/
structure RunRefines (capacity : ℤ) (ops : List Op)
    (run : MessageBuffer × List (Option (Queue.Ret String))) : Prop where
  returned : run.2 = (specRun capacity ops).2.map some
  contents : run.1.contents = (specRun capacity ops).1.items
  size : run.1.size = (specRun capacity ops).1.items.length
  isEmpty : run.1.isEmpty = (specRun capacity ops).1.items.isEmpty
  inv : run.1.Inv
  capacity : run.1.capacity = (new capacity).capacity
  counted : ((ops.countP fun | .push _ => true | _ => false : ℕ) : ℤ)
    = (run.2.reduceOption.map Queue.Ret.evicted).sum
      + (run.2.reduceOption.map Queue.Ret.drained).sum
      + (run.2.reduceOption.map Queue.Ret.discarded).sum + run.1.size

/-- Every run of a buffer whose senders return refines the queue. -/
lemma runs_refine (capacity : ℤ) (ops : List Op) (hs : ∀ op ∈ ops, op.NoThrow) :
    RunRefines capacity ops (Lts.runs step (new capacity) ops) := by
  obtain ⟨hrefines, hret⟩ :=
    Lts.runs_simulation (fun _ _ _ ha h => step_refines ha h) hs (refines_new capacity)
  obtain ⟨⟨first, n, r⟩, hcont⟩ := hrefines
  let run := Lts.runs step (new capacity) ops
  have hlen : (specRun capacity ops).1.items.length = n := by
    rw [specRun, ← hcont, r.contents_eq, Queue.length_ring]
  have hsize : run.1.size = (specRun capacity ops).1.items.length := by
    rw [hlen]
    exact r.count
  have hcap : (specRun capacity ops).1.cap = (new capacity).capacity.toNat :=
    Lts.runs_invariant (fun q : Queue.Bounded String => q.cap = (emptyQueue capacity).cap)
      (fun _ => True) (fun q a _ h => (q.step_cap a).trans h) (fun _ _ => trivial) rfl
  have hreturned : run.2.reduceOption = (specRun capacity ops).2 := by
    calc run.2.reduceOption
      _ = ((specRun capacity ops).2.map some).filterMap id := congrArg List.reduceOption hret
      _ = (specRun capacity ops).2.filterMap some := List.filterMap_map
      _ = (specRun capacity ops).2 := List.filterMap_some
  refine ⟨hret, hcont, hsize, ?_, r.inv, ?_, ?_⟩
  · -- `count_ == 0` and the queue is empty
    rw [isEmpty, r.count, ← hlen]
    cases (specRun capacity ops).1.items with
    | nil => rfl
    | cons m q =>
      rw [List.isEmpty_cons, beq_eq_false_iff_ne, List.length_cons]
      omega
  · have hpos := new_capacity_pos capacity
    rw [r.capacity]
    show ((specRun capacity ops).1.cap : ℤ) = _
    rw [hcap]
    omega
  · have hcons := Queue.Bounded.conservation (emptyQueue capacity) (ops.map Op.spec)
    show _ = (run.2.reduceOption.map _).sum + _ + _ + run.1.size
    rw [hreturned, hsize, ← pushes_spec]
    exact (zero_add _).symm.trans hcons

end KubeMQ.MessageBuffer
