import KubeMQ.Lts.History
import KubeMQ.Lts.Lock
import KubeMQ.Transport.ReconnectLoop

/-!
# The thread of the reconnect loop

What a caller of `Start` and `Stop` may rely on (`LifecycleKept`): a returned `Stop` has left no
thread behind, at most one thread executes `Run`, and `thread_` is never overwritten or destroyed
while it is joinable. `Stop` returns at once when `running_` is false, which it also is after `Run`
has come to its end by itself: that thread stays joinable. `orderly` excludes this return and two
joins at the same time.
-/

namespace KubeMQ.ReconnectLoop

variable {policy : ReconnectPolicy}

/-- The thread has not exited. -/
def RunPc.active : RunPc → Bool
  | .exited => false
  | _ => true

/-- The calls that hold `mu_`. -/
def CallPc.holding : CallPc → Bool
  | .startCheck => true
  | .startReset => true
  | .startJoinable => true
  | .startJoin => true
  | .startJoining => true
  | .startRunning => true
  | .startSpawn => true
  | .startUnlock => true
  | .stopCheck => true
  | .stopEarly => true
  | .stopRequest => true
  | .stopUnlock => true
  | _ => false

def RunPc.holding : RunPc → Bool
  | .wait _ _ => true
  | .store => true
  | .unlock => true
  | _ => false

/-- The calls of `Start` that have found `thread_` not joinable. -/
def CallPc.starting : CallPc → Bool
  | .startRunning => true
  | .startSpawn => true
  | _ => false

/-- What holds of a loop in every state of its life. -/
structure LifecycleKept (s : Loop) : Prop where
  /-- `thread_` is never overwritten or destroyed while it is joinable. -/
  alive : s.mem.crashed = false
  /-- Every thread has been spawned, and a joined one has exited. -/
  spawned : ∀ k < s.mem.runs.length, .spawned k ∈ s.mem.log
  exited : ∀ k, .joined k ∈ s.mem.log → s.mem.runs[k]? = some .exited
  /-- When `Stop` returns every thread has been joined. -/
  joined : ∀ before i after, s.mem.log = before ++ .stopReturned i :: after →
    ∀ k, .spawned k ∈ before → .joined k ∈ before
  destroyed : s.destroyed = true →
    s.mem.thread = none ∧ ∀ k, .spawned k ∈ s.mem.log → .joined k ∈ s.mem.log
  oneRun : ∀ (j k : ℕ) (pc pc' : RunPc), s.mem.runs[j]? = some pc → pc.active = true →
    s.mem.runs[k]? = some pc' → pc'.active = true → j = k
  /-- After `Stop` has returned, who connects was spawned later. -/
  silent : ∀ before i after, s.mem.log = before ++ .stopReturned i :: after →
    ∀ k, .connect k ∈ after → .spawned k ∈ after

/-- `Stop` returns early only when there is no thread left to join, and no call joins while another
one does. -/
def orderly (s : Loop) : Action → Bool
  | .call i =>
    match s.calls[i]? with
    | some .stopEarly => s.mem.thread.isNone
    | some .startJoin => !s.busy
    | some .stopJoin => !s.busy
    | _ => true
  | _ => true

/-- What the members and the history say about the threads. -/
structure Threads (m : Mem) : Prop where
  spawned : ∀ k < m.runs.length, .spawned k ∈ m.log
  kept : ∀ k, .spawned k ∈ m.log → .joined k ∈ m.log ∨ m.thread = some k
  exited : ∀ k, .joined k ∈ m.log → m.runs[k]? = some .exited
  joined : ∀ before ev after, m.log = before ++ ev :: after →
    ∀ i, ev = .stopReturned i → ∀ k, .spawned k ∈ before → .joined k ∈ before
  silent : ∀ before i after, m.log = before ++ .stopReturned i :: after →
    ∀ k, .connect k ∈ after → .spawned k ∈ after

lemma Threads.nil : Threads create.mem where
  spawned := nofun
  kept := nofun
  exited := nofun
  joined := by
    intro before ev after h
    exact absurd h (by simp [create])
  silent := by
    intro before i after h
    exact absurd h (by simp [create])

/-- A thread that has not exited is the one of `thread_`. -/
lemma Threads.current {m : Mem} (h : Threads m) {k : ℕ} {pc : RunPc} (hpc : m.runs[k]? = some pc)
    (ha : pc.active = true) : m.thread = some k := by
  have hs := h.spawned k (List.getElem?_eq_some_iff.mp hpc).1
  rcases h.kept k hs with hj | ht
  · have hx := h.exited k hj
    rw [hpc] at hx
    cases hx
    cases ha
  · exact ht

/-- Only `thread_`, the threads and the history matter. -/
lemma Threads.congr {m m' : Mem} (h : Threads m) (ht : m'.thread = m.thread)
    (hr : m'.runs = m.runs) (hl : m'.log = m.log) : Threads m' := by
  constructor
  case spawned =>
    rw [hr, hl]
    exact h.spawned
  case kept =>
    rw [ht, hl]
    exact h.kept
  case exited =>
    rw [hr, hl]
    exact h.exited
  case joined =>
    rw [hl]
    exact h.joined
  case silent =>
    rw [hl]
    exact h.silent

/-- An entry that is neither the return of a `Stop` nor a connection keeps the order. -/
lemma silent_append {log : List Event} {ev : Event}
    (h : ∀ before i after, log = before ++ .stopReturned i :: after →
      ∀ k, .connect k ∈ after → .spawned k ∈ after)
    (hev : ∀ k, ev = .connect k → ∀ before i after, log = before ++ .stopReturned i :: after →
      .spawned k ∈ after) :
    ∀ before i after, log ++ [ev] = before ++ .stopReturned i :: after →
      ∀ k, .connect k ∈ after → .spawned k ∈ after := by
  intro before i after heq k hk
  rcases Lts.split_concat heq with ⟨rest, hlog, rfl⟩ | ⟨-, -, rfl⟩
  · rcases List.mem_append.mp hk with hk | hk
    · exact List.mem_append_left _ (h before i rest hlog k hk)
    · have hc := (List.mem_singleton.mp hk).symm
      exact List.mem_append_left _ (hev k hc before i rest hlog)
  · cases hk

section Steps

variable {m : Mem}

/-- A thread goes on. -/
lemma Threads.run (h : Threads m) {k : ℕ} {pc : RunPc} (hpc : m.runs[k]? = some pc)
    (ha : pc.active = true) (pc' : RunPc) : Threads { m with runs := m.runs.set k pc' } := by
  constructor
  case spawned =>
    intro j hj
    apply h.spawned
    simpa using hj
  case kept => exact h.kept
  case exited =>
    intro j hj
    have hx := h.exited j hj
    have hne : k ≠ j := by
      rintro rfl
      rw [hpc] at hx
      cases hx
      cases ha
    show (m.runs.set k pc')[j]? = _
    rw [List.getElem?_set_ne hne]
    exact hx
  case joined => exact h.joined
  case silent => exact h.silent

/-- An entry that is about no thread's start or end. -/
lemma Threads.observe (h : Threads m) {ev : Event} (hspawned : ∀ k, .spawned k ≠ ev)
    (hjoined : ∀ k, .joined k ≠ ev)
    (hstop : ∀ i, ev = .stopReturned i → ∀ k, .spawned k ∈ m.log → .joined k ∈ m.log)
    (hconnect : ∀ k, ev = .connect k → ∀ before i after,
      m.log = before ++ .stopReturned i :: after → .spawned k ∈ after) :
    Threads (m.observe ev) := by
  constructor
  case spawned => exact fun j hj => List.mem_append_left _ (h.spawned j hj)
  case kept =>
    intro j hj
    rcases List.mem_append.mp hj with hj | hj
    · exact (h.kept j hj).imp_left (List.mem_append_left _)
    · exact absurd (List.mem_singleton.mp hj) (hspawned j)
  case exited =>
    intro j hj
    rcases List.mem_append.mp hj with hj | hj
    · exact h.exited j hj
    · exact absurd (List.mem_singleton.mp hj) (hjoined j)
  case joined => exact Lts.forall_split_concat h.joined hstop
  case silent => exact silent_append h.silent hconnect

/-- The function is called by a thread that has not exited, so no `Stop` has returned since that
thread was spawned. -/
lemma Threads.connect (h : Threads m) {k : ℕ} {pc : RunPc} (hpc : m.runs[k]? = some pc)
    (ha : pc.active = true) : Threads (m.observe (.connect k)) := by
  refine h.observe ?_ ?_ ?_ ?_
  · nofun
  · nofun
  · nofun
  intro j hj before i after hlog
  cases hj
  have hspawned := h.spawned k (List.getElem?_eq_some_iff.mp hpc).1
  rw [hlog] at hspawned
  rcases List.mem_append.mp hspawned with hb | hb
  · -- that `Stop` has joined the thread
    have hj := h.joined before _ after hlog i rfl k hb
    have hx := h.exited k (hlog ▸ List.mem_append_left _ hj)
    rw [hpc] at hx
    cases hx
    cases ha
  · rcases List.mem_cons.mp hb with hb | hb
    · cases hb
    · exact hb

/-- `Stop` returns when there is no thread left to join. -/
lemma Threads.stopReturned (h : Threads m) (hnone : m.thread = none) (i : ℕ) :
    Threads (m.observe (.stopReturned i)) := by
  refine h.observe ?_ ?_ ?_ ?_
  · nofun
  · nofun
  · intro _ _ k hk
    rcases h.kept k hk with hj | ht
    · exact hj
    · rw [hnone] at ht
      cases ht
  · nofun

/-- A new thread starts when there is none. -/
lemma Threads.spawn (h : Threads m) (hnone : m.thread = none) :
    Threads ({ m with thread := some m.runs.length, runs := m.runs ++ [RunPc.check 0] }.observe
      (.spawned m.runs.length)) := by
  constructor
  case spawned =>
    intro j hj
    have hj : j < (m.runs ++ [RunPc.check 0]).length := hj
    rw [List.length_append, List.length_singleton] at hj
    rcases Nat.lt_succ_iff_lt_or_eq.mp hj with hj | rfl
    · exact List.mem_append_left _ (h.spawned j hj)
    · exact List.mem_append_right _ List.mem_cons_self
  case kept =>
    intro j hj
    rcases List.mem_append.mp hj with hj | hj
    · rcases h.kept j hj with hj | ht
      · exact .inl (List.mem_append_left _ hj)
      · rw [hnone] at ht
        cases ht
    · cases List.mem_singleton.mp hj
      exact .inr rfl
  case exited =>
    intro j hj
    rcases List.mem_append.mp hj with hj | hj
    · have hx := h.exited j hj
      show (m.runs ++ [RunPc.check 0])[j]? = _
      rw [List.getElem?_append_left (List.getElem?_eq_some_iff.mp hx).1]
      exact hx
    · cases List.mem_singleton.mp hj
  case joined => exact Lts.forall_split_concat h.joined nofun
  case silent => exact silent_append h.silent nofun

/-- The thread of `thread_` has exited and is joined. -/
lemma Threads.join (h : Threads m) {k : ℕ} (hk : m.thread = some k)
    (hx : m.runs[k]? = some .exited) :
    Threads ({ m with thread := none }.observe (.joined k)) := by
  constructor
  case spawned => exact fun j hj => List.mem_append_left _ (h.spawned j hj)
  case kept =>
    intro j hj
    rcases List.mem_append.mp hj with hj | hj
    · refine .inl ?_
      rcases h.kept j hj with hj | ht
      · exact List.mem_append_left _ hj
      · rw [hk] at ht
        cases ht
        exact List.mem_append_right _ List.mem_cons_self
    · cases List.mem_singleton.mp hj
  case exited =>
    intro j hj
    rcases List.mem_append.mp hj with hj | hj
    · exact h.exited j hj
    · cases List.mem_singleton.mp hj
      exact hx
  case joined => exact Lts.forall_split_concat h.joined nofun
  case silent => exact silent_append h.silent nofun

end Steps

/-- Where the destructor's `Stop` may stand, by what `thread_` is. -/
def CallPc.ofDtor (thread : Option ℕ) : CallPc → Prop
  | .stopLock => True
  | .stopCheck => True
  | .stopEarly => True
  | .stopRequest => True
  | .stopUnlock => True
  | .stopJoinable => True
  | .stopJoin => thread ≠ none
  | .stopJoining => True
  | .stopped => thread = none
  | _ => False

section CallStep

variable {busy : Bool} {i : ℕ} {m m' : Mem} {pc pc' : CallPc}

/-- A step of a call takes `mu_`, gives it back or leaves it alone. -/
lemma CallStep.mu (st : CallStep busy i m pc m' pc') :
    (m.mu = none ∧ m'.mu = some (.inl i) ∧ pc'.holding = true) ∨
      (pc.holding = true ∧ pc'.holding = false ∧ m'.mu = none) ∨
      (m'.mu = m.mu ∧ pc'.holding = pc.holding) := by
  cases st
  case startLock h => exact .inl ⟨h, rfl, rfl⟩
  case stopLock h => exact .inl ⟨h, rfl, rfl⟩
  case startUnlock => exact .inr (.inl ⟨rfl, rfl, rfl⟩)
  case startThrew => exact .inr (.inl ⟨rfl, rfl, rfl⟩)
  case stopEarly => exact .inr (.inl ⟨rfl, rfl, rfl⟩)
  case stopUnlock => exact .inr (.inl ⟨rfl, rfl, rfl⟩)
  all_goals exact .inr (.inr ⟨rfl, rfl⟩)

/-- Only `Start` makes `thread_` joinable. -/
lemma CallStep.thread (st : CallStep busy i m pc m' pc') :
    m'.thread = m.thread ∨ m'.thread = none ∨ pc = .startSpawn := by
  cases st
  case startJoined => exact .inr (.inl rfl)
  case stopJoined => exact .inr (.inl rfl)
  case startSpawn => exact .inr (.inr rfl)
  all_goals exact .inl rfl

/-- `Start` goes on to a new thread only when `thread_` is not joinable. -/
lemma CallStep.starting (st : CallStep busy i m pc m' pc')
    (h : pc.starting = true → m.thread = none) (hs : pc'.starting = true) : m'.thread = none := by
  cases st
  case startClean hnone => exact hnone
  case startJoined => rfl
  case startRunning => exact h rfl
  case startOverwrite => exact h rfl
  all_goals cases hs

/-- The loop does not crash. -/
lemma CallStep.alive (st : CallStep busy i m pc m' pc') (ha : m.crashed = false)
    (hstart : pc.starting = true → m.thread = none)
    (hbusy : pc = .startJoin ∨ pc = .stopJoin → busy = false) : m'.crashed = false := by
  cases st
  case startOverlap hb =>
    rw [hbusy (.inl rfl)] at hb
    cases hb
  case stopOverlap hb =>
    rw [hbusy (.inr rfl)] at hb
    cases hb
  case startOverwrite hk =>
    rw [hstart rfl] at hk
    cases hk
  all_goals exact ha

/-- What the step does to the threads. -/
lemma CallStep.threads (st : CallStep busy i m pc m' pc') (h : Threads m)
    (hearly : pc = .stopEarly → m.thread = none) : Threads m' := by
  cases st
  case startSpawn hnone => exact h.spawn hnone
  case startJoined hk hx => exact h.join hk hx
  case stopJoined hk hx => exact (h.join hk hx).stopReturned rfl i
  case stopClean hnone => exact h.stopReturned hnone i
  case stopEarly =>
    have hu : Threads { m with mu := none } := h.congr rfl rfl rfl
    exact hu.stopReturned (hearly rfl) i
  all_goals first | exact h | exact h.congr rfl rfl rfl

/-- The destructor's `Stop` stays where it belongs. -/
lemma CallStep.ofDtor (st : CallStep busy i m pc m' pc') (h : pc.ofDtor m.thread)
    (hearly : pc = .stopEarly → m.thread = none)
    (hbusy : pc = .startJoin ∨ pc = .stopJoin → busy = false) : pc'.ofDtor m'.thread := by
  cases st
  case stopJoinable hk =>
    show m.thread ≠ none
    rw [hk]
    nofun
  case stopEarly => exact hearly rfl
  case stopClean hnone => exact hnone
  case stopJoined => rfl
  case stopThrew hnone => exact absurd hnone h
  case stopOverlap hb =>
    rw [hbusy (.inr rfl)] at hb
    cases hb
  all_goals trivial

end CallStep

/-- A step of `Run` takes `mu_`, gives it back or leaves it alone. -/
lemma RunStep.mu {k : ℕ} {m m' : Mem} {pc pc' : RunPc} {l : RunLabel}
    (st : RunStep policy k m pc l m' pc') :
    (m.mu = none ∧ m'.mu = some (.inr k) ∧ pc'.holding = true) ∨
      (pc.holding = true ∧ pc'.holding = false ∧ m'.mu = none) ∨
      (m'.mu = m.mu ∧ pc'.holding = pc.holding) := by
  cases st
  case lock h => exact .inl ⟨h, rfl, rfl⟩
  case wake h => exact .inl ⟨h, rfl, rfl⟩
  case finish h => exact .inl ⟨h, rfl, rfl⟩
  case waited => exact .inr (.inl ⟨rfl, rfl, rfl⟩)
  case sleep => exact .inr (.inl ⟨rfl, rfl, rfl⟩)
  case unlock => exact .inr (.inl ⟨rfl, rfl, rfl⟩)
  all_goals exact .inr (.inr ⟨rfl, rfl⟩)

/-- A thread that steps has not exited, and leaves the other threads and `thread_` alone. -/
lemma RunStep.frame {k : ℕ} {m m' : Mem} {pc pc' : RunPc} {l : RunLabel}
    (st : RunStep policy k m pc l m' pc') :
    pc.active = true ∧ m'.thread = m.thread ∧ m'.runs = m.runs ∧ m'.crashed = m.crashed ∧
      (m'.log = m.log ∨ m'.log = m.log ++ [.connect k]) := by
  cases st
  case connect => exact ⟨rfl, rfl, rfl, rfl, .inr rfl⟩
  all_goals exact ⟨rfl, rfl, rfl, rfl, .inl rfl⟩

/-- A step of `Run` keeps what is known about the threads. -/
lemma RunStep.threads {k : ℕ} {m m' : Mem} {pc pc' : RunPc} {l : RunLabel}
    (st : RunStep policy k m pc l m' pc') (h : Threads m) (hpc : m.runs[k]? = some pc) :
    Threads { m' with runs := m'.runs.set k pc' } := by
  obtain ⟨ha, ht, hr, -, hlog⟩ := st.frame
  have hm' : Threads m' := by
    rcases hlog with hlog | hlog
    · exact h.congr ht hr hlog
    · exact (h.connect hpc ha).congr ht hr hlog
  rw [← hr] at hpc
  exact hm'.run hpc ha pc'

/-- The invariant of the orderly runs. -/
structure Inv (s : Loop) : Prop where
  threads : Threads s.mem
  lock : Lts.Shared CallPc.holding RunPc.holding s.mem.mu s.calls s.mem.runs
  starting : ∀ pc ∈ s.calls, pc.starting = true → s.mem.thread = none
  dtor : ∀ d, s.dtor = some d →
    (∃ pc, s.calls[d]? = some pc ∧ pc.ofDtor s.mem.thread) ∧
      ∀ i pc, i ≠ d → s.calls[i]? = some pc → pc.returned = true
  destroyed : s.destroyed = true → ∃ d, s.dtor = some d ∧ s.calls[d]? = some .stopped
  alive : s.mem.crashed = false

lemma inv_create : Inv create where
  threads := .nil
  lock := .nil
  starting := List.forall_mem_nil _
  dtor := nofun
  destroyed := nofun
  alive := rfl

lemma Op.first_outside (op : Op) :
    op.first.holding = false ∧ op.first.starting = false := by
  cases op <;> exact ⟨rfl, rfl⟩

lemma CallPc.holding_of_starting {pc : CallPc} (h : pc.starting = true) : pc.holding = true := by
  cases pc <;> first | rfl | cases h

section Step

variable {s : Loop}

/-- A new call. -/
lemma Inv.append (inv : Inv s) {pc : CallPc} (hh : pc.holding = false)
    (hs : pc.starting = false) : Lts.Shared CallPc.holding RunPc.holding s.mem.mu (s.calls ++ [pc])
      s.mem.runs ∧ ∀ q ∈ s.calls ++ [pc], q.starting = true → s.mem.thread = none := by
  refine ⟨inv.lock.append_left hh, ?_⟩
  intro q hq hq'
  rcases List.mem_append.mp hq with hq | hq
  · exact inv.starting q hq hq'
  · rw [List.mem_singleton.mp hq, hs] at hq'
    cases hq'

lemma CallStep.not_returned {busy : Bool} {i : ℕ} {m m' : Mem} {pc pc' : CallPc}
    (st : CallStep busy i m pc m' pc') : pc.returned = false := by
  cases st <;> rfl

/-- Once the destructor runs, only its own call steps. -/
lemma Inv.call_of_dtor {busy : Bool} {i d : ℕ} {m' : Mem} {pc pc' : CallPc} (inv : Inv s)
    (hpc : s.calls[i]? = some pc) (st : CallStep busy i s.mem pc m' pc')
    (hd : s.dtor = some d) : i = d ∧ pc.ofDtor s.mem.thread := by
  obtain ⟨⟨q, hq, hof⟩, hothers⟩ := inv.dtor d hd
  by_cases hid : i = d
  · subst hid
    rw [hpc] at hq
    cases hq
    exact ⟨rfl, hof⟩
  · have hr := hothers i pc hid hpc
    rw [st.not_returned] at hr
    cases hr

/-- A step of a call keeps the invariant. -/
lemma Inv.call {i : ℕ} {m' : Mem} {pc pc' : CallPc} (inv : Inv s) (hpc : s.calls[i]? = some pc)
    (hguard : orderly s (.call i) = true) (st : CallStep s.busy i s.mem pc m' pc') :
    Inv { s with mem := m', calls := s.calls.set i pc' } := by
  have hmem : pc ∈ s.calls := List.mem_of_getElem? hpc
  have hearly : pc = .stopEarly → s.mem.thread = none := by
    rintro rfl
    simpa [orderly, hpc] using hguard
  have hbusy : pc = .startJoin ∨ pc = .stopJoin → s.busy = false := by
    rintro (rfl | rfl) <;> simpa [orderly, hpc] using hguard
  have hruns : m'.runs = s.mem.runs ∨ m'.runs = s.mem.runs ++ [RunPc.check 0] := by
    cases st
    case startSpawn => exact .inr rfl
    all_goals exact .inl rfl
  constructor
  case threads => exact st.threads inv.threads hearly
  case lock =>
    have hlock := inv.lock.step_left hpc st.mu
    show Lts.Shared CallPc.holding RunPc.holding m'.mu (s.calls.set i pc') m'.runs
    rcases hruns with hr | hr
    · rw [hr]
      exact hlock
    · rw [hr]
      exact hlock.append_right rfl
  case starting =>
    intro q hq hs
    show m'.thread = none
    obtain ⟨j, hj⟩ := List.getElem?_of_mem hq
    rcases Lts.getElem?_set_cases hj with ⟨-, rfl⟩ | ⟨hne, hj⟩
    · exact st.starting (inv.starting pc hmem) hs
    · have hnone := inv.starting q (List.mem_of_getElem? hj) hs
      rcases st.thread with ht | ht | rfl
      · rw [ht]
        exact hnone
      · exact ht
      · -- two calls would hold `mu_`
        have hjh := q.holding_of_starting hs
        exact absurd (inv.lock.left.locked.unique hj hjh hpc rfl) hne
  case dtor =>
    intro d hd
    obtain ⟨rfl, hof⟩ := inv.call_of_dtor hpc st hd
    refine ⟨⟨pc', ?_, st.ofDtor hof hearly hbusy⟩, ?_⟩
    · exact List.getElem?_set_self (List.getElem?_eq_some_iff.mp hpc).1
    · intro j q hne hj
      rcases Lts.getElem?_set_cases hj with ⟨rfl, -⟩ | ⟨-, hj⟩
      · exact absurd rfl hne
      · exact (inv.dtor i hd).2 j q hne hj
  case destroyed =>
    intro hdes
    obtain ⟨d, hd, hstopped⟩ := inv.destroyed hdes
    obtain ⟨rfl, -⟩ := inv.call_of_dtor hpc st hd
    rw [hpc] at hstopped
    cases hstopped
    cases st
  case alive => exact st.alive inv.alive (inv.starting pc hmem) hbusy

/-- A step of a thread of the loop keeps the invariant. -/
lemma Inv.run {k : ℕ} {m' : Mem} {pc pc' : RunPc} {l : RunLabel} (inv : Inv s)
    (hpc : s.mem.runs[k]? = some pc) (st : RunStep policy k s.mem pc l m' pc') :
    Inv { s with mem := { m' with runs := m'.runs.set k pc' } } := by
  obtain ⟨-, ht, hr, hc, -⟩ := st.frame
  constructor
  case threads => exact st.threads inv.threads hpc
  case lock =>
    show Lts.Shared CallPc.holding RunPc.holding m'.mu s.calls (m'.runs.set k pc')
    rw [hr]
    exact inv.lock.step_right hpc st.mu
  case starting =>
    show ∀ q ∈ s.calls, q.starting = true → m'.thread = none
    rw [ht]
    exact inv.starting
  case dtor =>
    show ∀ d, s.dtor = some d → (∃ q, s.calls[d]? = some q ∧ q.ofDtor m'.thread) ∧ _
    rw [ht]
    exact inv.dtor
  case destroyed => exact inv.destroyed
  case alive => exact hc.trans inv.alive

/-- One orderly step keeps the invariant. -/
lemma Inv.step {t : Loop} {a : Action} (inv : Inv s) (hguard : orderly s a = true)
    (st : Step policy s a t) : Inv t := by
  cases st with
  | @begin op hnone =>
    obtain ⟨hh, hs⟩ := op.first_outside
    obtain ⟨hlock, hstarting⟩ := inv.append hh hs
    refine ⟨inv.threads, hlock, hstarting, ?_, ?_, inv.alive⟩
    · intro d hd
      have hd : s.dtor = some d := hd
      rw [hnone] at hd
      cases hd
    · intro hdes
      obtain ⟨d, hd, -⟩ := inv.destroyed hdes
      rw [hnone] at hd
      cases hd
  | call hpc st => exact inv.call hpc hguard st
  | run hpc st => exact inv.run hpc st
  | destroy hnone hall =>
    obtain ⟨hlock, hstarting⟩ := @Inv.append s inv .stopLock rfl rfl
    refine ⟨inv.threads, hlock, hstarting, ?_, ?_, inv.alive⟩
    · intro d hd
      cases hd
      refine ⟨⟨.stopLock, List.getElem?_concat_length, trivial⟩, ?_⟩
      intro i pc hne hpc
      rcases Lts.getElem?_concat_cases hpc with hpc | ⟨rfl, -⟩
      · exact hall pc (List.mem_of_getElem? hpc)
      · exact absurd rfl hne
    · intro hdes
      obtain ⟨d, hd, -⟩ := inv.destroyed hdes
      rw [hnone] at hd
      cases hd
  | free hd _ hstopped =>
    have hnone : s.mem.thread = none := by
      obtain ⟨q, hq, hof⟩ := (inv.dtor _ hd).1
      rw [hstopped] at hq
      cases hq
      exact hof
    refine ⟨inv.threads.congr rfl rfl rfl, inv.lock, inv.starting, inv.dtor, ?_, ?_⟩
    · intro _
      exact ⟨_, hd, hstopped⟩
    · show s.mem.thread.isSome = false
      rw [hnone]
      rfl
  | throwing hd hthrew =>
    obtain ⟨q, hq, hof⟩ := (inv.dtor _ hd).1
    rw [hthrew] at hq
    cases hq
    cases hof

end Step

lemma Inv.lifecycleKept {s : Loop} (inv : Inv s) : LifecycleKept s := by
  have h := inv.threads
  constructor
  case alive => exact inv.alive
  case spawned => exact h.spawned
  case exited => exact h.exited
  case joined =>
    intro before i after heq
    exact h.joined before _ after heq i rfl
  case destroyed =>
    intro hdes
    obtain ⟨d, hd, hstopped⟩ := inv.destroyed hdes
    obtain ⟨⟨q, hq, hof⟩, -⟩ := inv.dtor d hd
    rw [hstopped] at hq
    cases hq
    have hnone : s.mem.thread = none := hof
    refine ⟨hnone, ?_⟩
    intro k hk
    rcases h.kept k hk with hj | ht
    · exact hj
    · rw [hnone] at ht
      cases ht
  case oneRun =>
    intro j k pc pc' hj ha hk ha'
    have hthread := h.current hj ha
    rw [h.current hk ha'] at hthread
    exact (Option.some.inj hthread).symm
  case silent => exact h.silent

/-- In every run in which `Stop` returns early only when no thread is left and no two joins overlap,
`Stop` and the destructor leave no thread behind, at most one thread executes `Run`, and nothing is
called between a `Stop` and the next `Start`. -/
theorem lifecycle_kept (policy : ReconnectPolicy) (s : Loop)
    (h : (sys policy).Reach (fun s a => orderly s a = true) s) : LifecycleKept s := by
  refine Inv.lifecycleKept (h.invariant (I := Inv) ?_ ?_)
  · rintro s rfl
    exact inv_create
  · intro s a t _ inv guard hn
    exact inv.step guard (Step.of_next hn)

/-- `n` steps of call `i`. -/
def steps (n i : ℕ) : List Action := List.replicate n (.call i)

/-- `n` steps of the `k`-th thread. -/
def runs (n k : ℕ) : List Action := List.replicate n (.run k .tau)

/-- `Stop` ends a loop that does not connect, `Start` begins anew, and the loop is destroyed after a
`Stop` that waited for it. -/
def startsAndStops : List Action :=
  List.flatten [[.begin .start], steps 7 0, runs 2 0, [.run 0 (.connected false), .begin .stop],
    steps 6 1, runs 6 0, steps 1 1, [.begin .start], steps 7 2, [.begin .stop], steps 6 3, runs 4 1,
    steps 1 3, [.destroy], steps 3 4, [.free]]

theorem lifecycle_kept_restarted :
    ∃ s, (sys {}).execWhere orderly create startsAndStops = some s ∧ LifecycleKept s := by
  have hsome : ((sys {}).execWhere orderly create startsAndStops).isSome = true := rfl
  obtain ⟨s, hs⟩ := Option.isSome_iff_exists.mp hsome
  have hinit : (sys {}).Reach (fun s a => orderly s a = true) create := .init rfl
  exact ⟨s, hs, lifecycle_kept {} s (hinit.execWhere startsAndStops hs)⟩

/-- The function connects at once and the thread exits by itself. -/
def connectsAtOnce : List Action :=
  List.flatten [[.begin .start], steps 7 0, runs 2 0, [.run 0 (.connected true)], runs 3 0]

/-- Then `Stop` returns without joining the thread. -/
def stoppedUnjoined : Loop where
  mem := ⟨none, false, false, some 0, [.exited], false,
    [.spawned 0, .connect 0, .stopReturned 1]⟩
  calls := [.started, .stopped]
  dtor := none
  destroyed := false

/-- Or the loop is destroyed, with a joinable thread. -/
def destroyedUnjoined : Loop where
  mem := ⟨none, false, false, some 0, [.exited], true,
    [.spawned 0, .connect 0, .stopReturned 1]⟩
  calls := [.started, .stopped]
  dtor := some 1
  destroyed := true

/-- After the loop has finished by itself `Stop` does not join its thread, and the destructor calls
`std::terminate`. -/
theorem finished_loop_not_joined :
    (¬ ∀ policy s, (sys policy).Reachable s → LifecycleKept s) ∧
    ((sys {}).Reachable stoppedUnjoined ∧ ¬ LifecycleKept stoppedUnjoined) ∧
    (sys {}).Reachable destroyedUnjoined ∧ destroyedUnjoined.mem.crashed = true := by
  have hstopped : (sys {}).Reachable stoppedUnjoined :=
    Lts.Sys.Reachable.exec (.init rfl) (connectsAtOnce ++ .begin .stop :: steps 3 1) rfl
  have hdestroyed : (sys {}).Reachable destroyedUnjoined :=
    Lts.Sys.Reachable.exec (.init rfl) (connectsAtOnce ++ .destroy :: steps 3 1 ++ [.free]) rfl
  have hnot : ¬ LifecycleKept stoppedUnjoined := by
    intro h
    have hj := h.joined [.spawned 0, .connect 0] 1 [] rfl 0 List.mem_cons_self
    simp at hj
  exact ⟨fun h => hnot (h {} _ hstopped), ⟨hstopped, hnot⟩, hdestroyed, rfl⟩

end KubeMQ.ReconnectLoop
