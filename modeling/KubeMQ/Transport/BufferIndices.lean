import KubeMQ.Lts.Basic
import KubeMQ.Num.Checked
import KubeMQ.Transport.Buffering
import Mathlib.Data.List.Induction

/-!
# The index arithmetic of the reconnect buffer

The operations of `MessageBuffer` once more, with every `int` expression and every index of the
vector checked: there is no result when an expression overflows or an index is outside of the
vector. As long as nothing fails they are the operations of `MessageBuffer.lean`, and what holds of
those holds of the code. Only `head_ + i` in `Discard` can fail: `refines_iff` says that the buffer
refines a bounded queue up to a capacity of `2 ^ 30`, and no further.
-/

namespace KubeMQ.MessageBuffer

open Checked (int)

/-- `(x + y) % capacity_`. -/
def wrapped (b : MessageBuffer) (x y : ℤ) : Option ℤ := do
  let sum ← int.add x y
  int.rem sum b.capacity

/-- The vector has a slot at this index. -/
def index (b : MessageBuffer) (i : ℤ) : Option ℕ :=
  if 0 ≤ i ∧ i < b.capacity then some i.toNat else none

def pushChecked (b : MessageBuffer) (message : String) : Option (MessageBuffer × ℤ) := do
  let (b, evicted) ←
    if b.count = b.capacity then do
      let head ← b.wrapped b.head 1
      some ({ b with head := head }, (1 : ℤ))
    else do
      let count ← int.add b.count 1
      some ({ b with count := count }, 0)
  let idx ← b.index b.tail
  let tail ← b.wrapped b.tail 1
  some ({ b with buffer := b.buffer.set idx message, tail := tail }, evicted)

def drainLoopChecked (sender : Sender) (calls : List (String × Answer)) (drained : ℤ)
    (b : MessageBuffer) : Option Drained :=
  if _ : b.count > 0 then
    (b.index b.head).bind fun idx =>
      let message := b.buffer.getD idx ""
      match sender calls.length message with
      | .threw left =>
        some ⟨{ b with buffer := b.buffer.set idx left }, calls ++ [(message, .threw left)], none⟩
      | .returned ok left =>
        (b.wrapped b.head 1).bind fun head =>
          match _ : int.sub b.count 1 with
          | none => none
          | some count =>
            (int.add drained 1).bind fun drained =>
              let b' := { b with
                buffer := (b.buffer.set idx left).set idx "", head := head, count := count }
              let calls := calls ++ [(message, .returned ok left)]
              if ok then drainLoopChecked sender calls drained b'
              else some ⟨b', calls, some drained⟩
  else some ⟨b, calls, some drained⟩
termination_by b.count.toNat
decreasing_by
  have hcount := (Checked.Signed.exact_eq_some_iff.mp ‹int.sub b.count 1 = some count›).2
  omega

def drainChecked (b : MessageBuffer) (sender : Sender) : Option Drained :=
  drainLoopChecked sender [] 0 b

/-- The body of the loop of `Discard`, with the `++i` behind it. -/
def clearChecked (b : MessageBuffer) (buffer : List String) (i : ℕ) : Option (List String) := do
  let sum ← b.wrapped b.head i
  let idx ← b.index sum
  let _ ← int.add i 1
  some (buffer.set idx "")

def discardChecked (b : MessageBuffer) : Option (MessageBuffer × ℤ) := do
  let buffer ← (List.range b.count.toNat).foldlM b.clearChecked b.buffer
  some ({ b with buffer := buffer, head := 0, tail := 0, count := 0 }, b.count)

/-- One call with what it returns, when its behaviour is defined. -/
def callChecked (b : MessageBuffer) : Op → Option (MessageBuffer × Option (Queue.Ret String))
  | .push m => (b.pushChecked m).map fun r => (r.1, some (.push r.2))
  | .drain sender =>
    (b.drainChecked sender).map fun d =>
      (d.buffer, d.drained.map fun n => .drain (d.calls.map Prod.fst) n)
  | .discard => b.discardChecked.map fun r => (r.1, some (.discard r.2))

/-- One call; it has no defined behaviour when there is no next state. -/
def stepChecked (b : MessageBuffer) : Op → Option MessageBuffer
  | .push m => (b.pushChecked m).map Prod.fst
  | .drain sender => (b.drainChecked sender).map Drained.buffer
  | .discard => b.discardChecked.map Prod.fst

/-- A buffer and the calls on it. -/
def checkedSys (capacity : ℤ) : Lts.Sys MessageBuffer Op where
  init b := b = new capacity
  next := stepChecked

variable {b : MessageBuffer} {cap first n : ℕ}

lemma stepChecked_eq (op : Op) : b.stepChecked op = (b.callChecked op).map Prod.fst := by
  cases op with
  | push m => simp [stepChecked, callChecked, Function.comp_def]
  | drain sender => simp [stepChecked, callChecked, Function.comp_def]
  | discard => simp [stepChecked, callChecked, Function.comp_def]

namespace Rep

lemma wrapped (r : Rep b cap first n) {x y : ℤ} (hx : 0 ≤ x + y) (hfits : x + y ≤ 2147483647) :
    b.wrapped x y = some ((x + y).tmod b.capacity) := by
  have hpos := r.pos
  show (int.add x y).bind (int.rem · b.capacity) = _
  rw [Checked.int_add hx hfits, Option.bind_some]
  apply Checked.Signed.rem_of_nonneg hx (Checked.Signed.fits_of_le hx hfits)
  rw [r.capacity]
  omega

/-- A remainder modulo the capacity is an index. -/
lemma index (r : Rep b cap first n) {i : ℕ} (hi : i < cap) : b.index i = some i := by
  unfold MessageBuffer.index
  rw [r.capacity, if_pos (by omega)]
  rfl

variable (hcap : cap ≤ 2147483647)
include hcap

/-- `i + 1` for an index. -/
lemma wrapped_succ (r : Rep b cap first n) {i : ℕ} (hi : i < cap) :
    b.wrapped i 1 = some (((i : ℤ) + 1).tmod b.capacity) := by
  apply r.wrapped <;> omega

lemma pushChecked (r : Rep b cap first n) (m : String) : b.pushChecked m = some (b.push m) := by
  have hmod : (first + n) % cap < cap := Nat.mod_lt _ r.pos
  have hwrite : ∀ b' : MessageBuffer, b'.capacity = b.capacity → b'.tail = b.tail →
      b'.index b'.tail = some b'.tail.toNat ∧
        b'.wrapped b'.tail 1 = some ((b'.tail + 1).tmod b'.capacity) := by
    intro b' hc ht
    have hi := r.index hmod
    have hw := r.wrapped_succ hcap hmod
    rw [← r.tail] at hi hw
    unfold MessageBuffer.index MessageBuffer.wrapped at *
    rw [hc, ht]
    refine ⟨?_, hw⟩
    rw [hi, r.tail]
    rfl
  unfold MessageBuffer.pushChecked push
  by_cases hfull : b.count = b.capacity
  · have hhead := r.wrapped_succ hcap r.lt
    rw [← r.head] at hhead
    obtain ⟨hi, ht⟩ := hwrite { b with head := (b.head + 1).tmod b.capacity } rfl rfl
    simp only [if_pos hfull, hhead, Option.bind_eq_bind, Option.bind_some, hi, ht]
  · have hlt : n < cap := by
      have hle := r.le
      rw [r.count, r.capacity] at hfull
      omega
    have hcount : int.add b.count 1 = some (b.count + 1) := by
      rw [r.count]
      apply Checked.int_add <;> omega
    obtain ⟨hi, ht⟩ := hwrite { b with count := b.count + 1 } rfl rfl
    simp only [if_neg hfull, hcount, Option.bind_eq_bind, Option.bind_some, hi, ht]

/-- Nothing fails in the loop of `Drain`: the messages that are left are still to be counted. -/
lemma drainLoopChecked (r : Rep b cap first n) (sender : Sender) (calls : List (String × Answer))
    {drained : ℤ} (hd : 0 ≤ drained) (hsum : drained + n ≤ 2147483647) :
    drainLoopChecked sender calls drained b = some (drainLoop sender calls drained b) := by
  induction n generalizing b first calls drained with
  | zero =>
    have hcount : ¬b.count > 0 := by
      rw [r.count]
      omega
    rw [MessageBuffer.drainLoopChecked, drainLoop, dif_neg hcount, dif_neg hcount]
  | succ n ih =>
    have hcount : b.count > 0 := by
      rw [r.count]
      omega
    have hidx := r.index r.lt
    have hhead := r.wrapped_succ hcap r.lt
    have hsub : int.sub b.count 1 = some (b.count - 1) := by
      rw [r.count]
      apply Checked.int_sub <;> omega
    have hadd : int.add drained 1 = some (drained + 1) := by
      apply Checked.int_add <;> omega
    have htoNat : b.head.toNat = first := by
      rw [r.head]
      rfl
    rw [← r.head] at hidx hhead
    rw [MessageBuffer.drainLoopChecked, drainLoop, dif_pos hcount, dif_pos hcount, hidx, hhead,
      htoNat]
    simp only [Option.bind_some]
    cases sender calls.length (b.buffer.getD first "") with
    | threw left => rfl
    | returned ok left =>
      simp only
      split
      next hnone => exact absurd (hnone.symm.trans hsub) nofun
      next count hsome =>
        obtain rfl := Option.some.inj (hsome.symm.trans hsub)
        rw [hadd]
        simp only [Option.bind_some]
        cases ok with
        | false => rfl
        | true =>
          obtain ⟨hrep, -⟩ := pop_spec r left rfl
          rw [htoNat] at hrep
          exact ih hrep _ (by omega) (by omega)

lemma drainChecked (r : Rep b cap first n) (sender : Sender) :
    b.drainChecked sender = some (b.drain sender) := by
  apply r.drainLoopChecked hcap sender [] (le_refl 0)
  have hle := r.le
  omega

omit hcap

/-- `head_ + i` fits. -/
lemma clearChecked (r : Rep b cap first n) (buffer : List String) {i : ℕ} (hi : i < n)
    (hcap : cap ≤ 2147483647) :
    b.clearChecked buffer i =
      if first + i ≤ 2147483647 then
        some (buffer.set ((b.head + i).tmod b.capacity).toNat "")
      else none := by
  have hle := r.le
  unfold MessageBuffer.clearChecked
  by_cases h : first + i ≤ 2147483647
  · have hmod : (first + i) % cap < cap := Nat.mod_lt _ r.pos
    have hwrap : b.wrapped b.head i = some (((first + i) % cap : ℕ) : ℤ) := by
      rw [r.head, r.wrapped (by omega) (by omega), r.capacity]
      rfl
    have hnext : int.add i 1 = some ((i : ℤ) + 1) := by
      apply Checked.int_add <;> omega
    have hslot : (b.head + i).tmod b.capacity = (((first + i) % cap : ℕ) : ℤ) := by
      rw [r.head, r.capacity]
      rfl
    simp only [if_pos h, hwrap, hslot, r.index hmod, hnext, Option.bind_eq_bind, Option.bind_some,
      Int.toNat_natCast]
  · have hnone : b.wrapped b.head i = none := by
      show (int.exact (b.head + i)).bind _ = none
      rw [Checked.Signed.exact_of_not_fits]
      · rfl
      · intro hfits
        have hmax := hfits.2
        rw [r.head] at hmax
        simp only [int] at hmax
        omega
    rw [if_neg h, hnone]
    rfl

variable (hcap : cap ≤ 2147483647)
include hcap

/-- The loop of `Discard` over indices whose sums fit. -/
lemma foldlM_clearChecked (r : Rep b cap first n) (buffer : List String) {is : List ℕ}
    (his : ∀ i ∈ is, i < n ∧ first + i ≤ 2147483647) :
    is.foldlM b.clearChecked buffer =
      some (is.foldl
        (fun buffer (i : ℕ) => buffer.set ((b.head + i).tmod b.capacity).toNat "") buffer) := by
  induction is generalizing buffer with
  | nil => rfl
  | cons i is ih =>
    obtain ⟨hi, hsum⟩ := his i List.mem_cons_self
    rw [List.foldlM_cons, r.clearChecked buffer hi hcap, if_pos hsum]
    exact ih _ fun j hj => his j (List.mem_cons_of_mem _ hj)

/-- `Discard` fails exactly when its last sum does not fit. -/
lemma discardChecked (r : Rep b cap first n) :
    b.discardChecked = if first + n ≤ 2147483648 then some b.discard else none := by
  have hlt := r.lt
  have hn : b.count.toNat = n := by
    rw [r.count]
    rfl
  unfold MessageBuffer.discardChecked
  rw [hn]
  by_cases h : first + n ≤ 2147483648
  · have hrange : ∀ i ∈ List.range n, i < n ∧ first + i ≤ 2147483647 := by
      intro i hi
      have hlt := List.mem_range.mp hi
      omega
    have hloop := r.foldlM_clearChecked hcap b.buffer hrange
    rw [if_pos h, hloop]
    unfold discard
    rw [hn]
    rfl
  · obtain ⟨m, rfl⟩ : ∃ m, n = m + 1 := ⟨n - 1, by omega⟩
    have hlast : ∀ buffer, b.clearChecked buffer m = none := by
      intro buffer
      rw [r.clearChecked buffer (Nat.lt_succ_self m) hcap, if_neg (by omega)]
    have hloop : (List.range (m + 1)).foldlM b.clearChecked b.buffer = none := by
      rw [List.range_succ, List.foldlM_append]
      cases (List.range m).foldlM b.clearChecked b.buffer with
      | none => rfl
      | some buffer =>
        show (b.clearChecked buffer m).bind _ = none
        rw [hlast]
        rfl
    rw [if_neg h, hloop]
    rfl

/-- One call fails exactly when it is a `Discard` whose last sum does not fit. -/
lemma callChecked (r : Rep b cap first n) (op : Op) :
    (b.callChecked op = some (b.step op) ∧ (op = .discard → first + n ≤ 2147483648)) ∨
      (b.callChecked op = none ∧ op = .discard ∧ 2147483648 < first + n) := by
  cases op with
  | push m =>
    left
    refine ⟨?_, nofun⟩
    show (b.pushChecked m).map _ = _
    rw [r.pushChecked hcap]
    rfl
  | drain sender =>
    left
    refine ⟨?_, nofun⟩
    show (b.drainChecked sender).map _ = _
    rw [r.drainChecked hcap]
    rfl
  | discard =>
    show (b.discardChecked.map _ = _ ∧ _) ∨ (b.discardChecked.map _ = none ∧ _)
    rw [r.discardChecked hcap]
    by_cases h : first + n ≤ 2147483648
    · left
      rw [if_pos h]
      exact ⟨rfl, fun _ => h⟩
    · right
      rw [if_neg h]
      exact ⟨rfl, rfl, by omega⟩

/-- The same without the value returned. -/
lemma stepChecked (r : Rep b cap first n) (op : Op) :
    (b.stepChecked op = some (b.step op).1 ∧ (op = .discard → first + n ≤ 2147483648)) ∨
      (b.stepChecked op = none ∧ op = .discard ∧ 2147483648 < first + n) := by
  rw [stepChecked_eq]
  obtain ⟨hcall, hsum⟩ | ⟨hcall, hop, hsum⟩ := r.callChecked hcap op
  · left
    rw [hcall]
    exact ⟨rfl, hsum⟩
  · right
    rw [hcall]
    exact ⟨rfl, hop, hsum⟩

omit hcap

/-- A call keeps the fields in order. -/
lemma step (r : Rep b cap first n) (op : Op) :
    ∃ first' n', (b.step op).1.Rep cap first' n' := by
  cases op with
  | push m =>
    by_cases hfull : n = cap
    · subst hfull
      exact ⟨_, _, (push_spec_full r m).1⟩
    · exact ⟨_, _, (push_spec r (Nat.lt_of_le_of_ne r.le hfull) m).1⟩
  | drain sender =>
    obtain ⟨-, -, -, first', n', hrep⟩ := drainLoop_spec sender r [] 0
    exact ⟨first', n', hrep⟩
  | discard => exact ⟨0, 0, (discard_spec r).1⟩

end Rep

lemma capacity_new (capacity : ℤ) :
    (new capacity).capacity = if capacity > 0 then capacity else 1 := rfl

/-- A new buffer, with its capacity. -/
lemma rep_new_capacity (capacity : ℤ) :
    (new capacity).Rep (new capacity).capacity.toNat 0 0 := by
  obtain ⟨cap, r⟩ := rep_new capacity
  have hcap : (new capacity).capacity.toNat = cap := by rw [r.capacity, Int.toNat_natCast]
  rwa [hcap]

/-- Up to a capacity of `2 ^ 30` the sums of `Discard` fit. -/
lemma sum_le {capacity : ℤ} (hle : capacity ≤ 1073741824)
    (r : b.Rep (new capacity).capacity.toNat first n) : first + n ≤ 2147483648 := by
  have hlt := r.lt
  have hn := r.le
  rw [capacity_new] at hlt hn
  split at hlt <;> omega

/-- What a defined run leads to is reached. -/
lemma reachable_of_runsDefined {capacity : ℤ} {ops : List Op}
    {run : MessageBuffer × List (Option (Queue.Ret String))}
    (h : Lts.runsDefined callChecked (new capacity) ops = some run) :
    (checkedSys capacity).Reachable run.1 := by
  induction ops using List.reverseRecOn generalizing run with
  | nil =>
    obtain rfl := Option.some.inj h
    exact .init rfl
  | append_singleton ops op ih =>
    rw [Lts.runsDefined_concat] at h
    obtain ⟨before, hbefore, hcall⟩ := Option.bind_eq_some_iff.mp h
    obtain ⟨r, hr, rfl⟩ := Option.map_eq_some_iff.mp hcall
    have hnext : (checkedSys capacity).next before.1 op = some r.1 := by
      show before.1.stepChecked op = _
      rw [stepChecked_eq, hr]
      rfl
    exact .step (ih hbefore) trivial hnext

/-- The buffer is filled, its head moved to its last slot, and then it is discarded. -/
def fillAndDiscard (capacity : ℤ) : List Op :=
  List.replicate (2 * capacity.toNat - 1) (.push "") ++ [.discard]

lemma noThrow_fillAndDiscard (capacity : ℤ) : ∀ op ∈ fillAndDiscard capacity, op.NoThrow := by
  intro op hop
  rcases List.mem_append.mp hop with hop | hop
  · rw [List.eq_of_mem_replicate hop]
    trivial
  · rw [List.mem_singleton.mp hop]
    trivial

section
variable {capacity : ℤ} (hmax : capacity ≤ 2147483647)
include hmax

lemma capacity_new_le : (new capacity).capacity.toNat ≤ 2147483647 := by
  rw [capacity_new]
  split <;> omega

/-- A run is defined up to a capacity of `2 ^ 30`, and without `Discard` for every capacity. -/
lemma runsDefined_of_le {ops : List Op}
    (hops : ∀ op ∈ ops, op = .discard → capacity ≤ 1073741824) :
    Lts.runsDefined callChecked (new capacity) ops = some (Lts.runs step (new capacity) ops) := by
  apply Lts.runsDefined_eq (fun b => ∃ first n, b.Rep (new capacity).capacity.toNat first n)
    (fun op => op = .discard → capacity ≤ 1073741824) _ hops ⟨0, 0, rep_new_capacity capacity⟩
  rintro b op hop ⟨first, n, r⟩
  obtain ⟨hcall, -⟩ | ⟨-, hdiscard, hsum⟩ := r.callChecked (capacity_new_le hmax) op
  · exact ⟨hcall, r.step op⟩
  · have hle := sum_le (hop hdiscard) r
    omega

end

section
variable {capacity : ℤ} (hpos : 1 ≤ capacity) (hmax : capacity ≤ 2147483647)
include hpos

lemma capacity_new_of_pos : (new capacity).capacity = capacity := if_pos (by omega)

/-- Pushes fill the buffer, and then move its head. -/
lemma rep_pushes (k : ℕ) :
    (Lts.runs step (new capacity) (List.replicate k (.push ""))).1.Rep capacity.toNat
      ((k - capacity.toNat) % capacity.toNat) (min k capacity.toNat) := by
  induction k with
  | zero =>
    have r := rep_new_capacity capacity
    rw [capacity_new_of_pos hpos] at r
    rwa [Nat.zero_sub, Nat.zero_mod, Nat.zero_min]
  | succ k ih =>
    rw [List.replicate_succ', Lts.runs_concat]
    rcases Nat.lt_or_ge k capacity.toNat with hlt | hge
    · have hmin : min (k + 1) capacity.toNat = min k capacity.toNat + 1 := by omega
      have hsub : k + 1 - capacity.toNat = k - capacity.toNat := by omega
      rw [hmin, hsub]
      exact (push_spec ih (by omega) "").1
    · have hmin : min k capacity.toNat = capacity.toNat := by omega
      have hmin' : min (k + 1) capacity.toNat = capacity.toNat := by omega
      have hsub : k + 1 - capacity.toNat = k - capacity.toNat + 1 := by omega
      rw [hmin] at ih
      have hnext := (push_spec_full ih "").1
      rw [Nat.mod_add_mod] at hnext
      rwa [hmin', hsub]

include hmax

/-- The `Discard` overflows when the capacity is above `2 ^ 30`. -/
lemma filled_overflow (hbig : 1073741824 < capacity) :
    ∃ run, Lts.runsDefined callChecked (new capacity)
        (List.replicate (2 * capacity.toNat - 1) (.push "")) = some run ∧
      run.1.callChecked .discard = none := by
  refine ⟨_, runsDefined_of_le hmax ?_, ?_⟩
  · intro op hop hdiscard
    rw [List.eq_of_mem_replicate hop] at hdiscard
    cases hdiscard
  · have r := rep_pushes hpos (2 * capacity.toNat - 1)
    have hlast : 2 * capacity.toNat - 1 - capacity.toNat = capacity.toNat - 1 := by omega
    rw [hlast, Nat.mod_eq_of_lt (by omega)] at r
    obtain ⟨-, hsum⟩ | ⟨hnone, -, -⟩ := r.callChecked (by omega) .discard
    · have hle := hsum rfl
      omega
    · exact hnone

lemma fillAndDiscard_overflow (hbig : 1073741824 < capacity) :
    Lts.runsDefined callChecked (new capacity) (fillAndDiscard capacity) = none := by
  obtain ⟨run, hrun, hnone⟩ := filled_overflow hpos hmax hbig
  rw [fillAndDiscard, Lts.runsDefined_concat, hrun, Option.bind_some, hnone]
  rfl

/-- A full buffer whose head is its last slot is reached. -/
lemma exists_overflow (hbig : 1073741824 < capacity) :
    ∃ b, (checkedSys capacity).Reachable b ∧ b.stepChecked .discard = none := by
  obtain ⟨run, hrun, hnone⟩ := filled_overflow hpos hmax hbig
  refine ⟨run.1, reachable_of_runsDefined hrun, ?_⟩
  rw [stepChecked_eq, hnone]
  rfl

/-- The fields of a buffer that is reached. -/
lemma rep_of_reachable (h : (checkedSys capacity).Reachable b) :
    ∃ first n, b.Rep capacity.toNat first n := by
  apply h.invariant
  · intro b hb
    obtain rfl := hb
    have r := rep_new_capacity capacity
    rw [capacity_new_of_pos hpos] at r
    exact ⟨0, 0, r⟩
  · rintro b op b' - ⟨first, n, r⟩ - hn
    obtain ⟨hsome, -⟩ | ⟨hnone, -, -⟩ := r.stepChecked (by omega) op
    · obtain rfl := Option.some.inj (hsome.symm.trans hn)
      exact r.step op
    · exact absurd (hnone.symm.trans hn) nofun

/-- Every call on every buffer that is reached stays within `int` and within the vector exactly for
the capacities up to `2 ^ 30`. -/
theorem calls_defined_iff :
    (∀ b, (checkedSys capacity).Reachable b → ∀ op, (b.stepChecked op).isSome) ↔
      capacity ≤ 1073741824 := by
  constructor
  · intro h
    by_contra hbig
    obtain ⟨b, hb, hnone⟩ := exists_overflow hpos hmax (by omega)
    have hsome := h b hb .discard
    rw [hnone] at hsome
    exact absurd hsome nofun
  · intro hle b hb op
    obtain ⟨first, n, r⟩ := rep_of_reachable hpos hmax hb
    have hlt := r.lt
    have hn := r.le
    obtain ⟨hsome, -⟩ | ⟨-, -, hsum⟩ := r.stepChecked (by omega) op
    · rw [hsome]
      rfl
    · omega

end

theorem calls_defined_two_pow_30 :
    (∀ b, (checkedSys 1073741824).Reachable b → ∀ op, (b.stepChecked op).isSome) ∧
      ¬∀ b, (checkedSys 1073741825).Reachable b → ∀ op, (b.stepChecked op).isSome := by
  constructor
  · exact (@calls_defined_iff 1073741824 (by decide) (by decide)).mpr (le_refl _)
  · intro h
    exact absurd ((@calls_defined_iff 1073741825 (by decide) (by decide)).mp h) (by decide)

/-- With one slot more `head_ + i` overflows in a `Discard`. -/
theorem discard_overflows :
    ∃ b, (checkedSys 1073741825).Reachable b ∧ b.stepChecked .discard = none :=
  exists_overflow (by decide) (by decide) (by decide)

/-- Every run of calls whose senders return is defined and refines a bounded queue exactly for the
capacities up to `2 ^ 30`. -/
theorem refines_iff {capacity : ℤ} (hmax : capacity ≤ 2147483647) :
    (∀ ops : List Op, (∀ op ∈ ops, op.NoThrow) →
      ∃ run, Lts.runsDefined callChecked (new capacity) ops = some run ∧
        RunRefines capacity ops run) ↔
      capacity ≤ 1073741824 := by
  constructor
  · intro h
    by_contra hbig
    obtain ⟨run, hrun, -⟩ := h _ (noThrow_fillAndDiscard capacity)
    exact nomatch hrun.symm.trans (fillAndDiscard_overflow (by omega) hmax (by omega))
  · intro hle ops hs
    exact ⟨_, runsDefined_of_le hmax fun _ _ _ => hle, runs_refine capacity ops hs⟩

/-- A buffer of two slots: the third push evicts, the drain stops at its first message. -/
theorem refines_iff_wrapped :
    ∃ run, Lts.runsDefined callChecked (new 2)
        [.push "a", .push "b", .push "c", .drain fun _ _ => .returned false "", .push "d"] =
          some run ∧
      run.1.contents = ["c", "d"] ∧ run.1.size = 2 ∧ run.1.Inv := by
  obtain ⟨run, hrun, h⟩ := (@refines_iff 2 (by decide)).mpr (by decide)
    [.push "a", .push "b", .push "c", .drain fun _ _ => .returned false "", .push "d"]
    (by simp [Op.NoThrow])
  exact ⟨run, hrun, h.contents, h.size, h.inv⟩

/-- With `2 ^ 30 + 1` slots, a `Discard` of the full buffer can overflow. -/
theorem filled_buffer_overflows :
    (∀ op ∈ fillAndDiscard 1073741825, op.NoThrow) ∧
      Lts.runsDefined callChecked (new 1073741825) (fillAndDiscard 1073741825) = none :=
  ⟨noThrow_fillAndDiscard _, fillAndDiscard_overflow (by decide) (by decide) (by decide)⟩

end KubeMQ.MessageBuffer
