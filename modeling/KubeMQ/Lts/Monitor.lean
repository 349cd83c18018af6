import KubeMQ.Lts.Basic
import KubeMQ.Lts.Lock
import KubeMQ.Lts.History
import KubeMQ.Lts.Machine

/-!
# Monitors

An object whose operations hold its lock from their first step to their last. Any number of threads
call it: a call waits for the lock, runs in small steps under it, gives it back and returns. The
history of a run records the invocations and the responses. `linearized` says that the history is
explained by the operations one after the other, in the order in which they gave the lock back; an
operation that had returned before another one was invoked comes first. `kept` is the rule for an
invariant of the object with a condition for each point within an operation.
-/

namespace Lts

variable {σ τ ι κ ρ : Type*}

/-- What an operation does once it holds the lock: where it begins, and one step of it, which goes
on or ends with a value. -/
structure Monitor (σ ι κ ρ : Type*) where
  enter : ι → κ
  body : σ → κ → σ × (κ ⊕ ρ)

namespace Monitor

inductive Call (ι κ ρ : Type*) where
  | waiting (op : ι)
  | inside (op : ι) (k : κ)
  | leaving (op : ι) (r : ρ)
  | left (op : ι) (r : ρ)
  | returned (op : ι) (r : ρ)

inductive Event (ι ρ : Type*) where
  | invoke (i : ℕ) (op : ι)
  | respond (i : ℕ) (r : ρ)

structure State (σ ι κ ρ : Type*) where
  obj : σ
  lock : Option ℕ
  calls : List (Call ι κ ρ)
  history : List (Event ι ρ)

inductive Action (ι : Type*) where
  | invoke (op : ι)
  | acquire (i : ℕ)
  | body (i : ℕ)
  | release (i : ℕ)
  | respond (i : ℕ)

/-- The call after one step of its operation. -/
def Call.after (op : ι) : κ ⊕ ρ → Call ι κ ρ
  | .inl k => .inside op k
  | .inr r => .leaving op r

def next (M : Monitor σ ι κ ρ) (s : State σ ι κ ρ) : Action ι → Option (State σ ι κ ρ)
  | .invoke op =>
    some { s with
      calls := s.calls ++ [.waiting op]
      history := s.history ++ [.invoke s.calls.length op] }
  | .acquire i =>
    match s.calls[i]?, s.lock with
    | some (.waiting op), none =>
      some { s with lock := some i, calls := s.calls.set i (.inside op (M.enter op)) }
    | _, _ => none
  | .body i =>
    match s.calls[i]? with
    | some (.inside op k) =>
      let r := M.body s.obj k
      some { s with obj := r.1, calls := s.calls.set i (.after op r.2) }
    | _ => none
  | .release i =>
    match s.calls[i]? with
    | some (.leaving op r) => some { s with lock := none, calls := s.calls.set i (.left op r) }
    | _ => none
  | .respond i =>
    match s.calls[i]? with
    | some (.left op r) =>
      some { s with
        calls := s.calls.set i (.returned op r)
        history := s.history ++ [.respond i r] }
    | _ => none

/-- The object before the first call. -/
def start (s₀ : σ) : State σ ι κ ρ := ⟨s₀, none, [], []⟩

def sys (M : Monitor σ ι κ ρ) (s₀ : σ) : Sys (State σ ι κ ρ) (Action ι) :=
  ⟨(· = start s₀), M.next⟩

variable {M : Monitor σ ι κ ρ} {s t : State σ ι κ ρ} {step : σ → ι → σ × ρ} {s₀ : σ}

/-- The steps of the system. -/
inductive Step (M : Monitor σ ι κ ρ) (s : State σ ι κ ρ) : Action ι → State σ ι κ ρ → Prop where
  | invoke {op} :
    Step M s (.invoke op)
      { s with
        calls := s.calls ++ [.waiting op]
        history := s.history ++ [.invoke s.calls.length op] }
  | acquire {i op} :
    s.calls[i]? = some (.waiting op) →
    s.lock = none →
    Step M s (.acquire i)
      { s with lock := some i, calls := s.calls.set i (.inside op (M.enter op)) }
  | body {i op k} :
    s.calls[i]? = some (.inside op k) →
    Step M s (.body i)
      { s with obj := (M.body s.obj k).1, calls := s.calls.set i (.after op (M.body s.obj k).2) }
  | release {i op r} :
    s.calls[i]? = some (.leaving op r) →
    Step M s (.release i) { s with lock := none, calls := s.calls.set i (.left op r) }
  | respond {i op r} :
    s.calls[i]? = some (.left op r) →
    Step M s (.respond i)
      { s with
        calls := s.calls.set i (.returned op r)
        history := s.history ++ [.respond i r] }

lemma Step.of_next {a : Action ι} (h : M.next s a = some t) : Step M s a t := by
  cases a with
  | invoke op =>
    cases h
    exact .invoke
  | acquire i =>
    simp only [next] at h
    split at h
    · next hc hl =>
      cases h
      exact .acquire hc hl
    · cases h
  | body i =>
    simp only [next] at h
    split at h
    · next hc =>
      cases h
      exact .body hc
    · cases h
  | release i =>
    simp only [next] at h
    split at h
    · next hc =>
      cases h
      exact .release hc
    · cases h
  | respond i =>
    simp only [next] at h
    split at h
    · next hc =>
      cases h
      exact .respond hc
    · cases h

/-- The steps of one operation from the object `u`, begun at `k₀`. -/
inductive Runs (M : Monitor σ ι κ ρ) (u : σ) (k₀ : κ) : σ → κ ⊕ ρ → Prop where
  | start :
    Runs M u k₀ u (.inl k₀)
  | step {v k} :
    Runs M u k₀ v (.inl k) →
    Runs M u k₀ (M.body v k).1 (M.body v k).2

/-- Alone with the object, every operation does what `step` says. -/
def Computes (M : Monitor σ ι κ ρ) (step : σ → ι → σ × ρ) : Prop :=
  ∀ u op v r, M.Runs u (M.enter op) v (.inr r) → step u op = (v, r)

/-- The rest of an operation after one step, when `finish` says what is left to do. -/
def resume (finish : σ → κ → σ × ρ) : σ × (κ ⊕ ρ) → σ × ρ
  | (v, .inl k) => finish v k
  | (v, .inr r) => (v, r)

lemma Runs.resume_eq {finish : σ → κ → σ × ρ} (h : ∀ u k, resume finish (M.body u k) = finish u k)
    {u v : σ} {k₀ : κ} {x : κ ⊕ ρ} (hr : M.Runs u k₀ v x) :
    resume finish (v, x) = finish u k₀ := by
  induction hr with
  | start => rfl
  | step _ ih => exact (h _ _).trans ih

/-- No step changes what an operation has left to do. -/
theorem Computes.of_finish (finish : σ → κ → σ × ρ)
    (enter : ∀ u op, finish u (M.enter op) = step u op)
    (body : ∀ u k, resume finish (M.body u k) = finish u k) : Computes M step := by
  intro u op v r h
  rw [← enter, ← h.resume_eq body, resume]

/-- An operation in a linearization: the call, what it asked and what it was told. -/
abbrev Entry (ι ρ : Type*) := ℕ × ι × ρ

/-- Call `i` comes before call `j` wherever the latter is in the order. -/
def Precedes (order : List (Entry ι ρ)) (i j : ℕ) : Prop :=
  ∀ before e after, order = before ++ e :: after → e.1 = j → i ∈ before.map Prod.fst

/-- Whatever had returned before a call was invoked precedes it. -/
def RealTime (order : List (Entry ι ρ)) (history : List (Event ι ρ)) : Prop :=
  ∀ before x after, history = before ++ x :: after →
    ∀ j op, x = .invoke j op → ∀ i r, .respond i r ∈ before → Precedes order i j

/-- The operations of `order`, one after the other from `s₀`, explain the history. -/
structure Linearized (step : σ → ι → σ × ρ) (s₀ : σ) (history : List (Event ι ρ))
    (order : List (Entry ι ρ)) : Prop where
  nodup : (order.map Prod.fst).Nodup
  legal : (runs step s₀ (order.map (·.2.1))).2 = order.map (·.2.2)
  invoked : ∀ i op r, (i, op, r) ∈ order → .invoke i op ∈ history
  complete : ∀ i r, .respond i r ∈ history → ∃ op, (i, op, r) ∈ order
  realTime : RealTime order history

section Order

variable {order : List (Entry ι ρ)} {history : List (Event ι ρ)} {i j : ℕ}

lemma Precedes.concat {e : Entry ι ρ} (h : Precedes order i j)
    (he : e.1 = j → i ∈ order.map Prod.fst) : Precedes (order ++ [e]) i j := by
  intro before x after hsplit hx
  rcases split_concat hsplit with ⟨rest, hold, -⟩ | ⟨rfl, rfl, -⟩
  · exact h before x rest hold hx
  · exact he hx

/-- Nothing is asked about a call that is not in the order. -/
lemma Precedes.of_not_mem (h : j ∉ order.map Prod.fst) : Precedes order i j := by
  intro before e after ho he
  refine absurd ?_ h
  rw [ho, ← he]
  simp

end Order

/-- What a call has asked. -/
def Call.op : Call ι κ ρ → ι
  | .waiting op | .inside op _ | .leaving op _ | .left op _ | .returned op _ => op

/-- What a call was told, once its operation is over. -/
def Call.result : Call ι κ ρ → Option ρ
  | .waiting _ | .inside _ _ => none
  | .leaving _ r | .left _ r | .returned _ r => some r

/-- The call holds the lock. -/
def Call.holds : Call ι κ ρ → Bool
  | .inside _ _ | .leaving _ _ => true
  | _ => false

/-- The history and the order agree with the calls. -/
structure Recorded (calls : List (Call ι κ ρ)) (history : List (Event ι ρ))
    (order : List (Entry ι ρ)) : Prop where
  nodup : (order.map Prod.fst).Nodup
  mem : ∀ i op r, (i, op, r) ∈ order ↔ ∃ c, calls[i]? = some c ∧ c.op = op ∧ c.result = some r
  responded : ∀ i r, .respond i r ∈ history → ∃ op, calls[i]? = some (.returned op r)
  invoked : ∀ i c, calls[i]? = some c → .invoke i c.op ∈ history
  realTime : RealTime order history

/-- The object is what the order leaves, changed by what the call has done to it so far. -/
def Call.Explains (M : Monitor σ ι κ ρ) (base obj : σ) : Call ι κ ρ → Prop
  | .inside op k => M.Runs base (M.enter op) obj (.inl k)
  | .leaving _ _ => obj = base
  | _ => True

/-- The object is what the order leaves, changed by the call that holds the lock. -/
structure Settled (M : Monitor σ ι κ ρ) (step : σ → ι → σ × ρ) (s₀ : σ) (s : State σ ι κ ρ)
    (order : List (Entry ι ρ)) : Prop where
  legal : (runs step s₀ (order.map (·.2.1))).2 = order.map (·.2.2)
  locked : Locked Call.holds s.lock s.calls
  free : s.lock = none → s.obj = (runs step s₀ (order.map (·.2.1))).1
  explains : ∀ (i : ℕ) (c : Call ι κ ρ), s.calls[i]? = some c →
    c.Explains M (runs step s₀ (order.map (·.2.1))).1 s.obj

section Recorded

variable {calls : List (Call ι κ ρ)} {history : List (Event ι ρ)} {order : List (Entry ι ρ)}
  {c c' : Call ι κ ρ} {i : ℕ} {op : ι} {r : ρ}

lemma Recorded.nil : Recorded ([] : List (Call ι κ ρ)) ([] : List (Event ι ρ)) [] where
  nodup := List.nodup_nil
  mem := by simp
  responded := by simp
  invoked := by simp
  realTime := by simp [RealTime]

lemma Recorded.not_mem (h : Recorded calls history order) (hc : ∀ c, calls[i]? = some c → c.result = none) :
    i ∉ order.map Prod.fst := by
  intro hi
  obtain ⟨⟨j, op, r⟩, he, rfl⟩ := List.mem_map.mp hi
  obtain ⟨c, hget, -, hr⟩ := (h.mem j op r).mp he
  rw [hc c hget] at hr
  cases hr

/-- A call that has returned is in the order. -/
lemma Recorded.mem_of_responded (h : Recorded calls history order) (hr : .respond i r ∈ history) :
    ∃ op, (i, op, r) ∈ order := by
  obtain ⟨op, hc⟩ := h.responded i r hr
  exact ⟨op, (h.mem i op r).mpr ⟨_, hc, rfl, rfl⟩⟩

/-- A new call. -/
lemma Recorded.invoke (h : Recorded calls history order) :
    Recorded (calls ++ [.waiting op]) (history ++ [.invoke calls.length op]) order where
  nodup := h.nodup
  mem := by
    intro i op' r
    rw [h.mem]
    constructor
    · rintro ⟨c, hc, ho, hr⟩
      exact ⟨c, List.getElem?_append_left (List.getElem?_eq_some_iff.mp hc).1 ▸ hc, ho, hr⟩
    · rintro ⟨c, hc, ho, hr⟩
      rcases getElem?_concat_cases hc with hc | ⟨-, rfl⟩
      · exact ⟨c, hc, ho, hr⟩
      · cases hr
  responded := by
    intro i r hr
    rcases List.mem_append.mp hr with hr | hr
    · obtain ⟨op', hc⟩ := h.responded i r hr
      exact ⟨op', List.getElem?_append_left (List.getElem?_eq_some_iff.mp hc).1 ▸ hc⟩
    · simp at hr
  invoked := by
    intro i c hc
    rcases getElem?_concat_cases hc with hc | ⟨rfl, rfl⟩
    · exact List.mem_append_left _ (h.invoked i c hc)
    · exact List.mem_append_right _ List.mem_cons_self
  realTime := by
    apply forall_split_concat h.realTime
    intro j op' hj i r _
    cases hj
    -- the new call has no place in the order yet
    apply Precedes.of_not_mem
    apply h.not_mem
    intro c hc
    have hlt := (List.getElem?_eq_some_iff.mp hc).1
    exact absurd hlt (Nat.lt_irrefl _)

/-- A call moves on, before or after its operation. -/
lemma Recorded.keep (h : Recorded calls history order) (hi : calls[i]? = some c)
    (ho : c'.op = c.op) (hr : c'.result = c.result) (hret : ∀ op r, c ≠ .returned op r) :
    Recorded (calls.set i c') history order where
  nodup := h.nodup
  mem := by
    intro j op r
    rw [h.mem]
    constructor
    · rintro ⟨x, hx, hxo, hxr⟩
      by_cases hij : i = j
      · subst hij
        rw [hi] at hx
        cases hx
        exact ⟨c', List.getElem?_set_self (List.getElem?_eq_some_iff.mp hi).1, ho.trans hxo, hr.trans hxr⟩
      · exact ⟨x, by rwa [List.getElem?_set_ne hij], hxo, hxr⟩
    · rintro ⟨x, hx, hxo, hxr⟩
      rcases getElem?_set_cases hx with ⟨rfl, rfl⟩ | ⟨-, hx⟩
      · exact ⟨c, hi, ho.symm.trans hxo, hr.symm.trans hxr⟩
      · exact ⟨x, hx, hxo, hxr⟩
  responded := by
    intro j r hj
    obtain ⟨op, hc⟩ := h.responded j r hj
    refine ⟨op, ?_⟩
    by_cases hij : i = j
    · subst hij
      rw [hi] at hc
      cases hc
      exact absurd rfl (hret op r)
    · rwa [List.getElem?_set_ne hij]
  invoked := by
    intro j x hx
    rcases getElem?_set_cases hx with ⟨rfl, rfl⟩ | ⟨-, hx⟩
    · rw [ho]
      exact h.invoked j c hi
    · exact h.invoked j x hx
  realTime := h.realTime

/-- An operation is over and takes its place at the end of the order. -/
lemma Recorded.finish (h : Recorded calls history order) {k : κ}
    (hi : calls[i]? = some (.inside op k)) :
    Recorded (calls.set i (.leaving op r)) history (order ++ [(i, op, r)]) where
  nodup := by
    have hnew : i ∉ order.map Prod.fst := by
      apply h.not_mem
      intro c hc
      rw [hi] at hc
      cases hc
      rfl
    rw [List.map_append, List.nodup_append]
    refine ⟨h.nodup, by simp, ?_⟩
    intro x hx y hy hxy
    rw [List.map_singleton, List.mem_singleton] at hy
    rw [hxy, hy] at hx
    exact hnew hx
  mem := by
    intro j op' r'
    rw [List.mem_append, h.mem, List.mem_singleton]
    have hlt := (List.getElem?_eq_some_iff.mp hi).1
    constructor
    · rintro (⟨x, hx, hxo, hxr⟩ | he)
      · have hij : i ≠ j := by
          rintro rfl
          rw [hi] at hx
          cases hx
          cases hxr
        exact ⟨x, by rwa [List.getElem?_set_ne hij], hxo, hxr⟩
      · cases he
        exact ⟨_, List.getElem?_set_self hlt, rfl, rfl⟩
    · rintro ⟨x, hx, hxo, hxr⟩
      rcases getElem?_set_cases hx with ⟨rfl, rfl⟩ | ⟨-, hx⟩
      · cases hxo
        cases hxr
        exact .inr rfl
      · exact .inl ⟨x, hx, hxo, hxr⟩
  responded := by
    intro j r' hj
    obtain ⟨op', hc⟩ := h.responded j r' hj
    refine ⟨op', ?_⟩
    have hij : i ≠ j := by
      rintro rfl
      rw [hi] at hc
      cases hc
    rwa [List.getElem?_set_ne hij]
  invoked := by
    intro j x hx
    rcases getElem?_set_cases hx with ⟨rfl, rfl⟩ | ⟨-, hx⟩
    · exact h.invoked j (.inside op k) hi
    · exact h.invoked j x hx
  realTime := by
    intro before x after hsplit j op' hx j' r' hr
    apply Precedes.concat (h.realTime before x after hsplit j op' hx j' r' hr)
    intro _
    -- whatever has returned by now is in the order already
    have hmem : .respond j' r' ∈ history := by
      rw [hsplit]
      exact List.mem_append_left _ hr
    obtain ⟨op'', he⟩ := h.mem_of_responded hmem
    exact List.mem_map.mpr ⟨_, he, rfl⟩

/-- A call returns. -/
lemma Recorded.respond (h : Recorded calls history order) (hi : calls[i]? = some (.left op r)) :
    Recorded (calls.set i (.returned op r)) (history ++ [.respond i r]) order := by
  have hkeep : Recorded (calls.set i (.returned op r)) history order :=
    h.keep hi rfl rfl nofun
  refine ⟨hkeep.nodup, hkeep.mem, ?_, ?_, ?_⟩
  · intro j r' hj
    rcases List.mem_append.mp hj with hj | hj
    · exact hkeep.responded j r' hj
    · cases List.mem_singleton.mp hj
      exact ⟨op, List.getElem?_set_self (List.getElem?_eq_some_iff.mp hi).1⟩
  · intro j c hc
    exact List.mem_append_left _ (hkeep.invoked j c hc)
  · apply forall_split_concat hkeep.realTime
    intro j op' hj
    cases hj

end Recorded

lemma Call.Explains.of_not_holds {base obj : σ} {c : Call ι κ ρ} (hc : c.holds = false) :
    c.Explains M base obj := by
  cases c with
  | inside op k => cases hc
  | leaving op r => cases hc
  | _ => trivial

/-- When no other call holds the lock, only the one that moves matters. -/
lemma forall_set {P : Call ι κ ρ → Prop} (hP : ∀ c, c.holds = false → P c) {i : ℕ}
    {c' : Call ι κ ρ} {calls : List (Call ι κ ρ)} (h : P c')
    (hother : ∀ j c, j ≠ i → calls[j]? = some c → c.holds = false) :
    ∀ (j : ℕ) (c : Call ι κ ρ), (calls.set i c')[j]? = some c → P c := by
  intro j c hj
  rcases getElem?_set_cases hj with ⟨-, rfl⟩ | ⟨hji, hj⟩
  · exact h
  · exact hP c (hother j c hji hj)

/-- What is known of the other calls while one holds the lock. -/
lemma others_free {lock : Option ℕ} {calls : List (Call ι κ ρ)} {i : ℕ} {c : Call ι κ ρ}
    (h : Locked Call.holds lock calls) (hi : calls[i]? = some c) (hc : c.holds = true) :
    ∀ j x, j ≠ i → calls[j]? = some x → x.holds = false := by
  intro j x hji hj
  cases hx : x.holds with
  | false => rfl
  | true => exact absurd (h.unique hj hx hi hc) hji

/-- Some order explains the state. -/
def Explained (M : Monitor σ ι κ ρ) (step : σ → ι → σ × ρ) (s₀ : σ) (s : State σ ι κ ρ) : Prop :=
  ∃ order, Recorded s.calls s.history order ∧ Settled M step s₀ s order

lemma Explained.start : Explained M step s₀ (start s₀ : State σ ι κ ρ) :=
  ⟨[], Recorded.nil, rfl, Locked.nil, fun _ => rfl, by simp [Monitor.start]⟩

/-- One step, by the kind of step. The order grows when an operation is over. -/
lemma Explained.of_step (hM : Computes M step) (h : Explained M step s₀ s) {a : Action ι}
    (hstep : Step M s a t) : Explained M step s₀ t := by
  obtain ⟨order, hrec, hset⟩ := h
  cases hstep with
  | @invoke op =>
    refine ⟨order, hrec.invoke, hset.legal, hset.locked.append rfl, hset.free, ?_⟩
    intro j c hj
    rcases getElem?_concat_cases hj with hj | ⟨-, rfl⟩
    · exact hset.explains j c hj
    · trivial
  | @acquire i op hi hl =>
    have hlocked := hset.locked
    rw [hl] at hlocked
    refine ⟨order, hrec.keep hi rfl rfl nofun, hset.legal, hlocked.acquire, nofun, forall_set
      (fun _ => .of_not_holds) ?_ ?_⟩
    · have hfree := hset.free hl
      show M.Runs _ _ s.obj _
      rw [hfree]
      exact .start
    · intro j c _ hj
      cases hc : c.holds with
      | false => rfl
      | true => exact absurd (hlocked j c hj hc) nofun
  | @body i op k hi =>
    have hheld := hset.locked i _ hi rfl
    have hruns : M.Runs _ (M.enter op) (M.body s.obj k).1 (M.body s.obj k).2 :=
      .step (hset.explains i _ hi)
    have hothers := others_free hset.locked hi rfl
    cases hr : (M.body s.obj k).2 with
    | inl k' =>
      rw [hr] at hruns
      refine ⟨order, hrec.keep hi rfl rfl nofun, hset.legal, ?_, ?_, forall_set (fun _ => .of_not_holds) hruns hothers⟩
      · exact hset.locked.keep hi fun _ => rfl
      · intro hl
        cases hheld.symm.trans hl
    | inr r =>
      rw [hr] at hruns
      have hop := hM _ op _ r hruns
      have hend : runs step s₀ ((order ++ [(i, op, r)]).map (·.2.1))
          = ((M.body s.obj k).1, (order ++ [(i, op, r)]).map (·.2.2)) := by
        simp only [List.map_append, List.map_cons, List.map_nil]
        rw [runs_concat, hset.legal, hop]
      refine ⟨order ++ [(i, op, r)], hrec.finish hi, ?_, ?_, ?_, forall_set (fun _ => .of_not_holds) ?_ hothers⟩
      · rw [hend]
      · exact hset.locked.keep hi fun _ => rfl
      · intro hl
        cases hheld.symm.trans hl
      · show (M.body s.obj k).1 = _
        rw [hend]
  | @release i op r hi =>
    refine ⟨order, hrec.keep hi rfl rfl nofun, hset.legal, hset.locked.release hi rfl rfl, ?_, ?_⟩
    · intro _
      exact hset.explains i _ hi
    · exact forall_set (fun _ => .of_not_holds) trivial (others_free hset.locked hi rfl)
  | @respond i op r hi =>
    refine ⟨order, hrec.respond hi, hset.legal, hset.locked.keep hi nofun, hset.free, ?_⟩
    intro j c hj
    rcases getElem?_set_cases hj with ⟨-, rfl⟩ | ⟨-, hj⟩
    · trivial
    · exact hset.explains j c hj

/-- The history of every run is explained by one order of the operations. -/
theorem linearized (hM : Computes M step) (h : (M.sys s₀).Reachable s) :
    ∃ order, Linearized step s₀ s.history order ∧
      (s.lock = none → s.obj = (runs step s₀ (order.map (·.2.1))).1) := by
  have hexp : Explained M step s₀ s := by
    refine h.invariant ?_ ?_
    · rintro s rfl
      exact Explained.start
    · intro u a v _ hu _ hn
      exact hu.of_step hM (.of_next hn)
  obtain ⟨order, hrec, hset⟩ := hexp
  refine ⟨order, ⟨hrec.nodup, hset.legal, ?_, ?_, hrec.realTime⟩, hset.free⟩
  · intro i op r he
    obtain ⟨c, hc, rfl, -⟩ := (hrec.mem i op r).mp he
    exact hrec.invoked i c hc
  · intro i r
    exact hrec.mem_of_responded

section Kept

variable {I : σ → Prop} {J : σ → κ → Prop}

/-- What a call that holds the lock knows of the object. -/
def Call.Knows (I : σ → Prop) (J : σ → κ → Prop) (obj : σ) : Call ι κ ρ → Prop
  | .inside _ k => J obj k
  | .leaving _ _ => I obj
  | _ => True

lemma Call.Knows.of_not_holds {obj : σ} {c : Call ι κ ρ} (hc : c.holds = false) :
    c.Knows I J obj := by
  cases c with
  | inside op k => cases hc
  | leaving op r => cases hc
  | _ => trivial

/-- The object is well formed, or the call that holds the lock knows what it has done so far. -/
structure Kept (I : σ → Prop) (J : σ → κ → Prop) (s : State σ ι κ ρ) : Prop where
  locked : Locked Call.holds s.lock s.calls
  free : s.lock = none → I s.obj
  knows : ∀ (i : ℕ) (c : Call ι κ ρ), s.calls[i]? = some c → c.Knows I J s.obj

/-- After one step of an operation that goes on, and of one that is over. -/
def After (I : σ → Prop) (J : σ → κ → Prop) : σ × (κ ⊕ ρ) → Prop
  | (v, .inl k) => J v k
  | (v, .inr _) => I v

lemma Kept.of_step (enter : ∀ u op, I u → J u (M.enter op))
    (body : ∀ u k, J u k → After I J (M.body u k))
    (h : Kept I J s) {a : Action ι} (hstep : Step M s a t) : Kept I J t := by
  cases hstep with
  | @invoke op =>
    refine ⟨h.locked.append rfl, h.free, ?_⟩
    intro j c hj
    rcases getElem?_concat_cases hj with hj | ⟨-, rfl⟩
    · exact h.knows j c hj
    · trivial
  | @acquire i op hi hl =>
    have hlocked := h.locked
    rw [hl] at hlocked
    refine ⟨hlocked.acquire, nofun, forall_set (fun _ => .of_not_holds) ?_ ?_⟩
    · exact enter _ op (h.free hl)
    · intro j c _ hj
      cases hc : c.holds with
      | false => rfl
      | true => exact absurd (hlocked j c hj hc) nofun
  | @body i op k hi =>
    have hheld := h.locked i _ hi rfl
    have hk : J s.obj k := h.knows i _ hi
    have hafter : (Call.after op (M.body s.obj k).2).holds = true ∧
        (Call.after op (M.body s.obj k).2).Knows I J (M.body s.obj k).1 := by
      have hbody := body s.obj k hk
      generalize M.body s.obj k = x at hbody ⊢
      obtain ⟨v, k' | r⟩ := x
      · exact ⟨rfl, hbody⟩
      · exact ⟨rfl, hbody⟩
    refine ⟨h.locked.keep hi fun _ => rfl, ?_,
      forall_set (fun _ => .of_not_holds) hafter.2 (others_free h.locked hi rfl)⟩
    intro hl
    cases hheld.symm.trans hl
  | @release i op r hi =>
    refine ⟨h.locked.release hi rfl rfl, fun _ => h.knows i _ hi, ?_⟩
    exact forall_set (fun _ => .of_not_holds) trivial (others_free h.locked hi rfl)
  | @respond i op r hi =>
    refine ⟨h.locked.keep hi nofun, h.free, ?_⟩
    intro j c hj
    rcases getElem?_set_cases hj with ⟨-, rfl⟩ | ⟨-, hj⟩
    · trivial
    · exact h.knows j c hj

/-- What every operation keeps, by a condition for each point within it. -/
theorem kept (init : I s₀) (enter : ∀ u op, I u → J u (M.enter op))
    (body : ∀ u k, J u k → After I J (M.body u k)) (h : (M.sys s₀).Reachable s) : Kept I J s := by
  refine h.invariant ?_ ?_
  · rintro s rfl
    exact ⟨Locked.nil, fun _ => init, by simp [Monitor.start]⟩
  · intro u a v _ hu _ hn
    exact hu.of_step enter body (.of_next hn)

end Kept

/-- An order for one object is one for another object that gives the same answers. -/
lemma Linearized.simulate {step' : τ → ι → τ × ρ} {t₀ : τ} {R : σ → τ → Prop} {ok : ι → Prop}
    {history : List (Event ι ρ)} {order : List (Entry ι ρ)}
    (h : Linearized step s₀ history order)
    (sim : ∀ s t op, ok op → R s t → R (step s op).1 (step' t op).1 ∧ (step s op).2 = (step' t op).2)
    (init : R s₀ t₀) (hok : ∀ i op, .invoke i op ∈ history → ok op) :
    Linearized step' t₀ history order ∧
      R (runs step s₀ (order.map (·.2.1))).1 (runs step' t₀ (order.map (·.2.1))).1 := by
  have hops : ∀ op ∈ order.map (·.2.1), ok op := by
    intro op hop
    obtain ⟨⟨i, op, r⟩, he, rfl⟩ := List.mem_map.mp hop
    exact hok i op (h.invoked i op r he)
  have hsim := runs_simulation (f := id) (g := id) sim hops init
  rw [List.map_id, List.map_id] at hsim
  refine ⟨⟨h.nodup, ?_, h.invoked, h.complete, h.realTime⟩, hsim.1⟩
  rw [← hsim.2]
  exact h.legal

end Monitor

end Lts
