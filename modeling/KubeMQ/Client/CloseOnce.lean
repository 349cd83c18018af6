import KubeMQ.Client.Closing

/-!
# Close runs once

The call that runs the body of `close_once` goes through the stages 1 to 10 (`CallPc.stage`); 0 and
11 stand for the time before and after. `Facts` says what the client and the transport look like at
a stage, so that the state of the whole is known from where that one call stands. `Inv` adds the two
locks and what a call can still do that began after a `Close` had returned; `inv_reachable` is the
invariant of every run.
-/

namespace KubeMQ.Closing

/-- The calls that run the body of the client's `close_once`. -/
def CallPc.closing : CallPc → Bool
  | .closeStore _ => true
  | .closeDrain _ => true
  | .transport (.close _) _ => true
  | .closeFinish _ => true
  | _ => false

/-- The calls that hold `mu_` of the transport. -/
def CallPc.holdsMu : CallPc → Bool
  | .transport _ .transition => true
  | .transport _ (.invoke _) => true
  | .transport _ (.inCallback _) => true
  | .transport _ .unlock => true
  | .stateRead => true
  | .stateUnlock _ => true
  | _ => false

/-- How far the body of `close_once` has come. -/
def CallPc.stage : CallPc → ℕ
  | .closeStore _ => 1
  | .closeDrain _ => 2
  | .transport _ .enter => 3
  | .transport _ .store => 4
  | .transport _ .lock => 5
  | .transport _ .transition => 6
  | .transport _ (.invoke _) => 7
  | .transport _ (.inCallback _) => 7
  | .transport _ .unlock => 8
  | .transport _ .finish => 9
  | .closeFinish _ => 10
  | _ => 0

/-- The callbacks that a `Transition` has captured and not yet invoked. -/
def CallPc.pending : CallPc → List Callback
  | .transport _ (.invoke cbs) => cbs
  | .transport _ (.inCallback cbs) => cbs
  | _ => []

/-- The client and the transport at stage `g`; `c` is the transport as `Create` left it. -/
structure Facts (c : Connection) (g : ℕ) (pending : List Callback) (m : Mem) : Prop where
  closed : m.closed = decide (2 ≤ g)
  transportClosed : m.transportClosed = decide (5 ≤ g)
  running : m.transportOnce.runner.isSome = decide (4 ≤ g ∧ g < 10)
  completed : m.transportOnce.completed = decide (10 ≤ g)
  closes : m.closes = if 4 ≤ g then 1 else 0
  machine : m.machine = if 7 ≤ g then { c.machine with state := .kClosed } else c.machine
  accepted : m.accepted =
    if 7 ≤ g then c.accepted ++ [(c.machine.state, .kClosed)] else c.accepted
  fired : m.fired ++ pending =
    if 7 ≤ g then c.fired ++ c.machine.captured .onClosed else c.fired

lemma facts_start (c : Connection) : Facts c 0 [] (start c).mem :=
  ⟨rfl, rfl, rfl, rfl, rfl, rfl, rfl, List.append_nil _⟩

lemma Facts.begin {c : Connection} {m : Mem} (f : Facts c 0 [] m) (o : Once) :
    Facts c 1 [] { m with closeOnce := o } where
  closed := f.closed
  transportClosed := f.transportClosed
  running := f.running
  completed := f.completed
  closes := f.closes
  machine := f.machine
  accepted := f.accepted
  fired := f.fired

lemma Facts.finish {c : Connection} {m : Mem} (f : Facts c 10 [] m) (o : Once) :
    Facts c 11 [] { m with closeOnce := o } where
  closed := f.closed
  transportClosed := f.transportClosed
  running := f.running
  completed := f.completed
  closes := f.closes
  machine := f.machine
  accepted := f.accepted
  fired := f.fired

/-- A step inside the body brings it to the next stage. -/
lemma CallStep.facts {c : Connection} {m m' : Mem} {i : ℕ} {pc pc' : CallPc} {l : CallLabel}
    (st : CallStep m i pc l m' pc') (openBefore : c.machine.state ≠ .kClosed)
    (h : pc.closing = true) (h' : pc'.closing = true) (f : Facts c pc.stage pc.pending m) :
    Facts c pc'.stage pc'.pending m' := by
  cases st with
  | @transportSkips k hc =>
    -- nobody else closes the transport
    have hno := f.completed.symm.trans hc
    cases hno
  | @transition k =>
    obtain ⟨hcl, htc, hr, hco, hn, hm, ha, hf⟩ := f
    simp only [CallPc.stage, CallPc.pending, List.append_nil] at *
    have hmachine : m.machine = c.machine := hm
    have htrans := StateMachine.transition_to_closed openBefore
    rw [hmachine, htrans]
    refine ⟨hcl, htc, hr, hco, hn, rfl, ?_, ?_⟩
    · exact congrArg (· ++ [(c.machine.state, .kClosed)]) ha
    · exact congrArg (· ++ c.machine.captured .onClosed) hf
  | @invoke k cb cs =>
    obtain ⟨hcl, htc, hr, hco, hn, hm, ha, hf⟩ := f
    refine ⟨hcl, htc, hr, hco, hn, hm, ha, ?_⟩
    simp only [CallPc.pending, List.append_assoc, List.singleton_append] at hf ⊢
    exact hf
  | @transportRuns k hfresh =>
    obtain ⟨hcl, htc, hr, hco, hn, hm, ha, hf⟩ := f
    exact ⟨hcl, htc, rfl, rfl, congrArg (· + 1) hn, hm, ha, hf⟩
  | @transportFinish k =>
    obtain ⟨hcl, htc, hr, hco, hn, hm, ha, hf⟩ := f
    cases k with
    | close d => exact ⟨hcl, htc, rfl, rfl, hn, hm, ha, hf⟩
    | dtor => cases h
  | closeStore =>
    obtain ⟨-, htc, hr, hco, hn, hm, ha, hf⟩ := f
    exact ⟨rfl, htc, hr, hco, hn, hm, ha, hf⟩
  | transportStore =>
    obtain ⟨hcl, -, hr, hco, hn, hm, ha, hf⟩ := f
    exact ⟨hcl, rfl, hr, hco, hn, hm, ha, hf⟩
  | closeDrain | transportLock | invoked | callbackReturned | transportUnlock =>
    obtain ⟨hcl, htc, hr, hco, hn, hm, ha, hf⟩ := f
    exact ⟨hcl, htc, hr, hco, hn, hm, ha, hf⟩
  | @closeFinish d => cases d <;> cases h'
  | _ => cases h

/-- A step of a call that is not in the body changes neither the client nor the transport. -/
lemma CallStep.outside {c : Connection} {m m' : Mem} {i g : ℕ} {pc pc' : CallPc} {l : CallLabel}
    {pending : List Callback} (st : CallStep m i pc l m' pc') (h : pc.closing = false)
    (dtor : ∀ k p, pc = .transport k p → p = .enter ∧ m.transportOnce.completed = true)
    (f : Facts c g pending m) : Facts c g pending m' := by
  have skips : ∀ {k}, m.transportOnce = .fresh → m.transportOnce.completed = true → k := by
    intro k hfresh hc
    rw [hfresh] at hc
    cases hc
  cases st with
  | transportRuns hfresh => exact skips hfresh (dtor _ _ rfl).2
  | closeStore => cases h
  | closeDrain => cases h
  | closeFinish => cases h
  | transportStore => cases (dtor _ _ rfl).1
  | transportLock => cases (dtor _ _ rfl).1
  | transition => cases (dtor _ _ rfl).1
  | invoke => cases (dtor _ _ rfl).1
  | invoked => cases (dtor _ _ rfl).1
  | callbackReturned => cases (dtor _ _ rfl).1
  | transportUnlock => cases (dtor _ _ rfl).1
  | transportFinish => cases (dtor _ _ rfl).1
  | _ => exact ⟨f.1, f.2, f.3, f.4, f.5, f.6, f.7, f.8⟩

/-- What a step does to the once-flag of the client. -/
lemma CallStep.once {m m' : Mem} {i : ℕ} {pc pc' : CallPc} {l : CallLabel}
    (st : CallStep m i pc l m' pc') :
    (m.closeOnce = .fresh ∧ ∃ d, pc = .closeEnter d ∧ pc' = .closeStore d ∧
        m' = { m with closeOnce := ⟨some i, false⟩ }) ∨
      (∃ d, pc = .closeFinish d ∧ pc' = afterClose d ∧ m' = { m with closeOnce := .done }) ∨
      (m'.closeOnce = m.closeOnce ∧ pc'.closing = pc.closing) := by
  cases st with
  | @closeRuns d hfresh => exact .inl ⟨hfresh, d, rfl, rfl, rfl⟩
  | @closeFinish d => exact .inr (.inl ⟨d, rfl, rfl, rfl⟩)
  | @closeSkips d _ => exact .inr (.inr ⟨rfl, by cases d <;> rfl⟩)
  | @transportSkips k _ | @transportFinish k | @transportRuns k | @transportStore k
  | @transportLock k | @transition k | @invoked k | @invoke k | @callbackReturned k
  | @transportUnlock k => exact .inr (.inr ⟨rfl, by cases k <;> rfl⟩)
  | _ => exact .inr (.inr ⟨rfl, rfl⟩)

/-- What a step does to `mu_` of the transport. -/
lemma CallStep.mu {m m' : Mem} {i : ℕ} {pc pc' : CallPc} {l : CallLabel}
    (st : CallStep m i pc l m' pc') :
    (m.mu = none ∧ m'.mu = some i ∧ pc'.holdsMu = true) ∨
      (pc.holdsMu = true ∧ pc'.holdsMu = false ∧ m'.mu = none) ∨
      (m'.mu = m.mu ∧ pc'.holdsMu = pc.holdsMu) := by
  cases st with
  | transportLock hmu => exact .inl ⟨hmu, rfl, rfl⟩
  | stateLock hmu => exact .inl ⟨hmu, rfl, rfl⟩
  | transportUnlock => exact .inr (.inl ⟨rfl, rfl, rfl⟩)
  | stateUnlock => exact .inr (.inl ⟨rfl, rfl, rfl⟩)
  | @closeSkips d _ => exact .inr (.inr ⟨rfl, by cases d <;> rfl⟩)
  | @closeFinish d => exact .inr (.inr ⟨rfl, by cases d <;> rfl⟩)
  | @transportSkips k _ => exact .inr (.inr ⟨rfl, by cases k <;> rfl⟩)
  | @transportFinish k => exact .inr (.inr ⟨rfl, by cases k <;> rfl⟩)
  | _ => exact .inr (.inr ⟨rfl, rfl⟩)

/-- A call is past its `Close` only when the body has run; nobody but the destructor of the
transport calls `GrpcTransport::Close` after that, and it skips the body. -/
lemma CallStep.past {m m' : Mem} {i : ℕ} {pc pc' : CallPc} {l : CallLabel}
    (st : CallStep m i pc l m' pc') :
    (pc'.pastClose = true → pc.pastClose = true ∨ m'.closeOnce.completed = true) ∧
      (m.closeOnce.completed = true → m'.closeOnce.completed = true) ∧
      (m.closed = true → m'.closed = true) := by
  cases st with
  | @closeSkips d hc => exact ⟨fun _ => .inr hc, id, id⟩
  | @closeFinish d => exact ⟨fun _ => .inr rfl, fun _ => rfl, id⟩
  | @closeRuns d hfresh =>
    refine ⟨nofun, ?_, id⟩
    rw [hfresh]
    exact nofun
  | @closeStore => exact ⟨nofun, id, fun _ => rfl⟩
  | @transportSkips k _ => exact ⟨fun hp => .inl (by cases k <;> first | rfl | cases hp), id, id⟩
  | @transportFinish k => exact ⟨fun hp => .inl (by cases k <;> first | rfl | cases hp), id, id⟩
  | @transportRuns k | @transportStore k | @transportLock k | @transition k | @invoked k
  | @invoke k | @callbackReturned k | @transportUnlock k =>
    exact ⟨fun hp => .inl (by cases k <;> first | rfl | cases hp), id, id⟩
  | _ => exact ⟨nofun, id, id⟩

/-- The calls of `Close` and of the destructor. -/
def CallPc.ofClose : CallPc → Bool
  | .closeEnter _ => true
  | .closeStore _ => true
  | .closeDrain _ => true
  | .transport _ _ => true
  | .closeFinish _ => true
  | .closed => true
  | .destroyed => true
  | _ => false

lemma CallStep.ofClose {m m' : Mem} {i : ℕ} {pc pc' : CallPc} {l : CallLabel}
    (st : CallStep m i pc l m' pc') (h : pc.ofClose = true) : pc'.ofClose = true := by
  cases st with
  | @closeSkips d _ => cases d <;> rfl
  | @closeFinish d => cases d <;> rfl
  | @transportSkips k _ => cases k <;> rfl
  | @transportFinish k => cases k <;> rfl
  | _ => first | rfl | cases h

/-- The destructor of the transport is reached by its first step, or was running before. -/
lemma CallStep.dtor {m m' : Mem} {i : ℕ} {pc pc' : CallPc} {l : CallLabel} {p : TransportPc}
    (st : CallStep m i pc l m' pc') (h : pc' = .transport .dtor p) :
    p = .enter ∨ ∃ q, pc = .transport .dtor q := by
  cases st with
  | @closeSkips d _ =>
    cases d with
    | true =>
      cases h
      exact .inl rfl
    | false => cases h
  | @closeFinish d =>
    cases d with
    | true =>
      cases h
      exact .inl rfl
    | false => cases h
  | @transportSkips k _ => cases k <;> cases h
  | @transportFinish k => cases k <;> cases h
  | transportRuns | transportStore | transportLock | transition | invoked | invoke
  | callbackReturned | transportUnlock =>
    cases h
    exact .inr ⟨_, rfl⟩
  | _ => cases h

/-- Where a call stands that began after a `Close` had returned. -/
inductive Late : Method → CallPc → Prop where
  | close {pc} :
    pc.ofClose = true →
    Late .close pc
  | stateCheck :
    Late .state .stateCheck
  | state :
    Late .state (.state .kClosed)
  | build {o} :
    Late (.run o) (.build o)
  | check {o} :
    o.builder.ok = true →
    Late (.run o) .check
  | returned {o} :
    Late (.run o) (.returned o.closedStatus)

/-- A late call finds the client closed. -/
lemma Late.step {m m' : Mem} {i : ℕ} {method : Method} {pc pc' : CallPc} {l : CallLabel}
    (h : Late method pc) (hclosed : m.closed = true) (st : CallStep m i pc l m' pc') :
    Late method pc' := by
  cases h with
  | close hc => exact .close (st.ofClose hc)
  | stateCheck =>
    cases st with
    | stateClosed _ => exact .state
    | stateOpen ho => rw [hclosed] at ho; cases ho
  | state => cases st
  | @build o =>
    cases st with
    | buildFailed hb =>
      have hs : o.closedStatus = o.builder := by simp [Operation.closedStatus, hb]
      rw [← hs]
      exact .returned
    | built hb => exact .check hb
  | @check o hb =>
    cases st with
    | checkClosed _ =>
      have hs : o.closedStatus = kErrClientClosed := by simp [Operation.closedStatus, hb]
      rw [← hs]
      exact .returned
    | checkOpen ho => rw [hclosed] at ho; cases ho
  | returned => cases st

/-- Only a call at the stub starts something. -/
lemma CallStep.started {m m' : Mem} {i : ℕ} {pc pc' : CallPc} {l : CallLabel}
    (st : CallStep m i pc l m' pc') :
    m'.started = m.started ∨ (pc = .start ∧ m'.started = m.started ++ [i]) := by
  cases st with
  | start => exact .inr ⟨rfl, rfl⟩
  | _ => exact .inl rfl

/-- The invariant of the system; `c` is the transport as `Create` left it. -/
structure Inv (c : Connection) (s : Sys) : Prop where
  once : Once.Held (fun call : Call => call.pc.closing) s.mem.closeOnce s.calls
  mu : Lts.Mutex (fun call : Call => call.pc.holdsMu) s.mem.mu s.calls
  body : ∀ (i : ℕ) (call : Call), s.calls[i]? = some call → call.pc.closing = true →
    Facts c call.pc.stage call.pc.pending s.mem
  idle : s.mem.closeOnce.runner = none →
    Facts c (if s.mem.closeOnce.completed then 11 else 0) [] s.mem
  past : ∀ call ∈ s.calls, call.pc.pastClose = true → s.mem.closeOnce.completed = true
  dtor : ∀ call ∈ s.calls, ∀ p, call.pc = .transport .dtor p → p = .enter
  late : ∀ call ∈ s.calls, call.late = true → s.mem.closed = true ∧ Late call.method call.pc
  quiet : ∀ (i : ℕ) (call : Call), s.calls[i]? = some call → call.late = true →
    i ∉ s.mem.started
  fresh : ∀ i ∈ s.mem.started, i < s.calls.length

lemma inv_start (c : Connection) : Inv c (start c) where
  once := .nil
  mu := .nil
  body := by
    intro i call h
    simp [start] at h
  idle := fun _ => facts_start c
  past := by
    intro call h
    cases h
  dtor := by
    intro call h
    cases h
  late := by
    intro call h
    cases h
  quiet := by
    intro i call h
    simp [start] at h
  fresh := by
    intro i h
    cases h

/-- Once the body has run, the client and the transport are closed for good. -/
lemma Inv.completed {c : Connection} {s : Sys} (inv : Inv c s)
    (h : s.mem.closeOnce.completed = true) : Facts c 11 [] s.mem := by
  have f := inv.idle (inv.once.idle h)
  rwa [h] at f

lemma Inv.closeReturned {c : Connection} {s : Sys} (inv : Inv c s) (h : s.closeReturned = true) :
    Facts c 11 [] s.mem := by
  obtain ⟨call, hcall, hp⟩ := List.any_eq_true.mp h
  exact inv.completed (inv.past call hcall hp)

/-- A call begins. -/
lemma Inv.begin {c : Connection} {s : Sys} (inv : Inv c s) {method : Method} {pc : CallPc}
    {destroying : Bool} (hclosing : pc.closing = false) (hmu : pc.holdsMu = false)
    (hpast : pc.pastClose = false) (hlate : Late method pc) :
    Inv c ⟨s.mem, s.calls ++ [⟨method, s.closeReturned, pc⟩], destroying⟩ where
  once := inv.once.append hclosing
  mu := inv.mu.append hmu
  body := by
    intro i call hi hc
    rcases Lts.getElem?_concat_cases hi with hi | ⟨-, rfl⟩
    · exact inv.body i call hi hc
    · exact absurd hc (by simp [hclosing])
  idle := inv.idle
  past := by
    intro call hcall hp
    rcases List.mem_append.mp hcall with hcall | hcall
    · exact inv.past call hcall hp
    · rw [List.mem_singleton.mp hcall] at hp
      exact absurd hp (by simp [hpast])
  dtor := by
    intro call hcall p hp
    rcases List.mem_append.mp hcall with hcall | hcall
    · exact inv.dtor call hcall p hp
    · rw [List.mem_singleton.mp hcall] at hp
      simp only at hp
      rw [hp] at hpast
      cases hpast
  late := by
    intro call hcall hl
    rcases List.mem_append.mp hcall with hcall | hcall
    · exact inv.late call hcall hl
    · rw [List.mem_singleton.mp hcall] at hl ⊢
      exact ⟨(inv.closeReturned hl).closed, hlate⟩
  quiet := by
    intro i call hi hl hs
    rcases Lts.getElem?_concat_cases hi with hi | ⟨hi, -⟩
    · exact inv.quiet i call hi hl hs
    · have hlt := inv.fresh i hs
      omega
  fresh := by
    intro i hi
    have hlt := inv.fresh i hi
    simp only [List.length_append, List.length_singleton]
    omega

lemma Method.start_outside (m : Method) :
    m.start.closing = false ∧ m.start.holdsMu = false ∧ m.start.pastClose = false ∧
      Late m m.start := by
  cases m with
  | close => exact ⟨rfl, rfl, rfl, .close rfl⟩
  | state => exact ⟨rfl, rfl, rfl, .stateCheck⟩
  | run o => exact ⟨rfl, rfl, rfl, .build⟩

/-- A call outside of the body is at most about to find that the transport has been closed. -/
lemma Inv.outside {c : Connection} {s : Sys} (inv : Inv c s) {call : Call} (hcall : call ∈ s.calls)
    (h : call.pc.closing = false) (k : Caller) (p : TransportPc) (hpc : call.pc = .transport k p) :
    p = .enter ∧ s.mem.transportOnce.completed = true := by
  cases k with
  | close d =>
    rw [hpc] at h
    cases h
  | dtor =>
    refine ⟨inv.dtor call hcall p hpc, ?_⟩
    have hdone := inv.past call hcall (by rw [hpc]; rfl)
    exact (inv.completed hdone).completed

section Call

variable {c : Connection} {s : Sys} {i : ℕ} {call : Call} {l : CallLabel} {m' : Mem} {pc' : CallPc}

/-- Outside of the body a step keeps the facts. -/
lemma Inv.keep (inv : Inv c s) (hi : s.calls[i]? = some call) (st : CallStep s.mem i call.pc l m' pc')
    (h : call.pc.closing = false) {g : ℕ} {pending : List Callback} (f : Facts c g pending s.mem) :
    Facts c g pending m' :=
  st.outside h (inv.outside (List.mem_of_getElem? hi) h) f

lemma Inv.call_once (inv : Inv c s) (hi : s.calls[i]? = some call)
    (st : CallStep s.mem i call.pc l m' pc') :
    Once.Held (fun call : Call => call.pc.closing) m'.closeOnce
      (s.calls.set i { call with pc := pc' }) := by
  have hheld := inv.once
  rcases st.once with ⟨hfresh, d, -, rfl, rfl⟩ | ⟨d, hpc, rfl, rfl⟩ | ⟨he, hcl⟩
  · rw [hfresh] at hheld
    exact hheld.runs hi rfl
  · apply hheld.finish hi
    · simp only [hpc]
      rfl
    · cases d <;> rfl
  · rw [he]
    exact hheld.keep hi hcl

lemma Inv.call_mu (inv : Inv c s) (hi : s.calls[i]? = some call)
    (st : CallStep s.mem i call.pc l m' pc') :
    Lts.Mutex (fun call : Call => call.pc.holdsMu) m'.mu
      (s.calls.set i { call with pc := pc' }) :=
  inv.mu.step hi st.mu

/-- Two calls are never in the body. -/
lemma Inv.alone (inv : Inv c s) (hi : s.calls[i]? = some call) {j : ℕ} {other : Call}
    (hj : s.calls[j]? = some other) (hne : i ≠ j) (h : other.pc.closing = true) :
    call.pc.closing = false := by
  by_contra hc
  exact hne (inv.once.mutex.locked.unique hi (by simpa using hc) hj h)

lemma Inv.call_body (inv : Inv c s) (openBefore : c.machine.state ≠ .kClosed)
    (hi : s.calls[i]? = some call) (st : CallStep s.mem i call.pc l m' pc') (j : ℕ) (x : Call)
    (hj : (s.calls.set i { call with pc := pc' })[j]? = some x) (hx : x.pc.closing = true) :
    Facts c x.pc.stage x.pc.pending m' := by
  rcases Lts.getElem?_set_cases hj with ⟨rfl, rfl⟩ | ⟨hne, hj⟩
  · rcases st.once with ⟨hfresh, d, -, rfl, rfl⟩ | ⟨d, -, rfl, -⟩ | ⟨-, hcl⟩
    · have f := inv.idle (by rw [hfresh]; rfl)
      rw [hfresh] at f
      exact f.begin _
    · cases d <;> cases hx
    · have hc : call.pc.closing = true := hcl.symm.trans hx
      exact st.facts openBefore hc hx (inv.body _ call hi hc)
  · have hc := inv.alone hi hj hne.symm hx
    exact inv.keep hi st hc (inv.body j x hj hx)

lemma Inv.call_idle (inv : Inv c s) (hi : s.calls[i]? = some call)
    (st : CallStep s.mem i call.pc l m' pc') (h : m'.closeOnce.runner = none) :
    Facts c (if m'.closeOnce.completed then 11 else 0) [] m' := by
  rcases st.once with ⟨-, d, -, -, rfl⟩ | ⟨d, hpc, -, rfl⟩ | ⟨he, -⟩
  · cases h
  · have f := inv.body i call hi (by rw [hpc]; rfl)
    rw [hpc] at f
    exact f.finish _
  · rw [he] at h ⊢
    apply inv.keep hi st _ (inv.idle h)
    by_contra hc
    have hrun := inv.once.runner hi (by simpa using hc)
    rw [h] at hrun
    cases hrun

lemma Inv.call_past (inv : Inv c s) (hi : s.calls[i]? = some call)
    (st : CallStep s.mem i call.pc l m' pc') (x : Call)
    (hx : x ∈ s.calls.set i { call with pc := pc' }) (hp : x.pc.pastClose = true) :
    m'.closeOnce.completed = true := by
  obtain ⟨pastStep, completedStep, -⟩ := st.past
  rcases List.mem_or_eq_of_mem_set hx with hx | rfl
  · exact completedStep (inv.past x hx hp)
  · rcases pastStep hp with hp | hdone
    · exact completedStep (inv.past call (List.mem_of_getElem? hi) hp)
    · exact hdone

/-- The destructor of the transport does not leave its first step for the body. -/
lemma Inv.call_dtor (inv : Inv c s) (hi : s.calls[i]? = some call)
    (st : CallStep s.mem i call.pc l m' pc') (x : Call)
    (hx : x ∈ s.calls.set i { call with pc := pc' }) (p : TransportPc)
    (hp : x.pc = .transport .dtor p) : p = .enter := by
  have hmem := List.mem_of_getElem? hi
  rcases List.mem_or_eq_of_mem_set hx with hx | rfl
  · exact inv.dtor x hx p hp
  · rcases st.dtor hp with he | ⟨q, hq⟩
    · exact he
    · have hcompleted := (inv.outside hmem (by rw [hq]; rfl) .dtor q hq).2
      have hpc' : pc' = .transport .dtor p := hp
      rw [hq, inv.dtor call hmem q hq, hpc'] at st
      cases st with
      | transportRuns hfresh =>
        rw [hfresh] at hcompleted
        cases hcompleted

lemma Inv.call_late (inv : Inv c s) (hi : s.calls[i]? = some call)
    (st : CallStep s.mem i call.pc l m' pc') (x : Call)
    (hx : x ∈ s.calls.set i { call with pc := pc' }) (hl : x.late = true) :
    m'.closed = true ∧ Late x.method x.pc := by
  have closedStep := st.past.2.2
  rcases List.mem_or_eq_of_mem_set hx with hx | rfl
  · obtain ⟨hclosed, hlate⟩ := inv.late x hx hl
    exact ⟨closedStep hclosed, hlate⟩
  · obtain ⟨hclosed, hlate⟩ := inv.late call (List.mem_of_getElem? hi) hl
    exact ⟨closedStep hclosed, hlate.step hclosed st⟩

lemma Late.not_start {method : Method} (h : Late method .start) : False := by
  cases h with
  | close hc => cases hc

lemma Inv.call_quiet (inv : Inv c s) (hi : s.calls[i]? = some call)
    (st : CallStep s.mem i call.pc l m' pc') (j : ℕ) (x : Call)
    (hj : (s.calls.set i { call with pc := pc' })[j]? = some x) (hl : x.late = true) :
    j ∉ m'.started := by
  intro hs
  have quiet : j ∉ s.mem.started := by
    rcases Lts.getElem?_set_cases hj with ⟨rfl, rfl⟩ | ⟨-, hj⟩
    · exact inv.quiet _ call hi hl
    · exact inv.quiet j x hj hl
  rcases st.started with he | ⟨hpc, he⟩
  · rw [he] at hs
    exact quiet hs
  · rw [he] at hs
    rcases List.mem_append.mp hs with hs | hs
    · exact quiet hs
    · -- a late call never gets to the stub
      have hji := List.mem_singleton.mp hs
      rcases Lts.getElem?_set_cases hj with ⟨rfl, rfl⟩ | ⟨hne, -⟩
      · have hlate := (inv.late call (List.mem_of_getElem? hi) hl).2
        rw [hpc] at hlate
        exact hlate.not_start
      · exact hne hji

lemma Inv.call_fresh (inv : Inv c s) (hi : s.calls[i]? = some call)
    (st : CallStep s.mem i call.pc l m' pc') (j : ℕ) (hj : j ∈ m'.started) :
    j < (s.calls.set i { call with pc := pc' }).length := by
  rw [List.length_set]
  rcases st.started with he | ⟨-, he⟩
  · rw [he] at hj
    exact inv.fresh j hj
  · rw [he] at hj
    rcases List.mem_append.mp hj with hj | hj
    · exact inv.fresh j hj
    · rw [List.mem_singleton.mp hj]
      exact (List.getElem?_eq_some_iff.mp hi).1

/-- A call makes a step. -/
lemma Inv.step (inv : Inv c s) (openBefore : c.machine.state ≠ .kClosed)
    (hi : s.calls[i]? = some call) (st : CallStep s.mem i call.pc l m' pc') :
    Inv c ⟨m', s.calls.set i { call with pc := pc' }, s.destroying⟩ where
  once := inv.call_once hi st
  mu := inv.call_mu hi st
  body := inv.call_body openBefore hi st
  idle := inv.call_idle hi st
  past := inv.call_past hi st
  dtor := inv.call_dtor hi st
  late := inv.call_late hi st
  quiet := inv.call_quiet hi st
  fresh := inv.call_fresh hi st

end Call

lemma Inv.preserved {c : Connection} {s t : Sys} {a : Action} (inv : Inv c s)
    (openBefore : c.machine.state ≠ .kClosed) (hn : next s a = some t) : Inv c t := by
  cases a with
  | begin m =>
    obtain ⟨hclosing, hmu, hpast, hlate⟩ := m.start_outside
    simp only [next] at hn
    split at hn
    · cases hn
    · cases hn
      exact inv.begin hclosing hmu hpast hlate
  | destroy =>
    simp only [next] at hn
    split at hn
    · cases hn
      exact inv.begin rfl rfl rfl (.close rfl)
    · cases hn
  | call i l =>
    obtain ⟨call, hi, hn⟩ := Option.bind_eq_some_iff.mp hn
    obtain ⟨⟨m', pc'⟩, hr, rfl⟩ := Option.map_eq_some_iff.mp hn
    exact inv.step openBefore hi (.of_next hr)

/-- A run begins with a connected transport. -/
lemma init_connected {options : CreateOptions} {env : CreateEnv} {s : Sys}
    (h : (sys options env).init s) :
    Client.connects options env = true ∧ s = start (connected options.callbacks) := by
  obtain ⟨opts, c, hc, rfl⟩ := h
  rcases Client.create_cases options env with ⟨e, he, -⟩ | ⟨e, he, -⟩ | ⟨opts', he, hb⟩
  · rw [he] at hc
    cases hc
  · rw [he] at hc
    cases hc
  · rw [he] at hc
    cases hc
    exact ⟨hb, rfl⟩

/-- Every client that `Create` returns keeps the invariant, in every run. -/
lemma inv_reachable {options : CreateOptions} {env : CreateEnv} {s : Sys}
    (h : (sys options env).Reachable s) : Inv (connected options.callbacks) s := by
  have openBefore : (connected options.callbacks).machine.state ≠ .kClosed := by
    rw [(connected_state _).1]
    exact nofun
  apply h.invariant
  · intro s hs
    rw [(init_connected hs).2]
    exact inv_start _
  · intro s a t _ inv _ hn
    exact inv.preserved openBefore hn

/-- The connection of a new client has fired nothing. -/
lemma connected_fired (callbacks : Callback → Bool) : (connected callbacks).fired = [] := rfl

/-- Somebody runs the body of `close_once`, or nobody does; either way the facts hold. -/
lemma Inv.facts {c : Connection} {s : Sys} (inv : Inv c s) :
    ∃ g pending, Facts c g pending s.mem := by
  cases hr : s.mem.closeOnce.runner with
  | none => exact ⟨_, _, inv.idle hr⟩
  | some i =>
    obtain ⟨call, hi, hc⟩ := inv.once.mutex.held i hr
    exact ⟨_, _, inv.body i call hi hc⟩

/-- How often `on_closed` is invoked. -/
lemma Facts.count {callbacks : Callback → Bool} {g : ℕ} {pending : List Callback} {m : Mem}
    (f : Facts (connected callbacks) g pending m) :
    m.fired.count .onClosed + pending.count .onClosed
      = if 7 ≤ g ∧ callbacks .onClosed = true then 1 else 0 := by
  have hfired := congrArg (List.count .onClosed) f.fired
  rw [List.count_append] at hfired
  rw [hfired]
  simp only [connected_fired, List.nil_append, StateMachine.captured, connected_installed]
  by_cases hg : 7 ≤ g
  · cases hc : callbacks .onClosed <;> simp [hg]
  · simp [hg]

end KubeMQ.Closing
