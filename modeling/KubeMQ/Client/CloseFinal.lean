import KubeMQ.Client.CloseOnce

/-!
# Close is final

What follows from the invariant of `CloseOnce.lean` for the calls of a client: nobody waits for a
call that is stuck, and a call that begins after a `Close` has returned finds the client closed.
`close_is_final` collects both, with the once-only effects of closing.
-/

namespace KubeMQ.Closing

section Progress

variable {c : Connection} {s : Sys} {i : ℕ} {call : Call}

lemma next_call {l : CallLabel} {r : Mem × CallPc} (hi : s.calls[i]? = some call)
    (hr : callNext s.mem i call.pc l = some r) : ∃ t, next s (.call i l) = some t := by
  simp only [next, hi, Option.bind_some, hr]
  exact ⟨_, rfl⟩

/-- A call that holds `mu_` can step. -/
lemma holdsMu_enabled (m : Mem) (i : ℕ) {pc : CallPc} (h : pc.holdsMu = true) :
    ∃ r, callNext m i pc .tau = some r := by
  cases pc with
  | transport k p =>
    cases p with
    | transition => exact ⟨_, rfl⟩
    | invoke cbs => cases cbs <;> exact ⟨_, rfl⟩
    | inCallback cbs => exact ⟨_, rfl⟩
    | unlock => exact ⟨_, rfl⟩
    | _ => cases h
  | stateRead => exact ⟨_, rfl⟩
  | stateUnlock v => exact ⟨_, rfl⟩
  | _ => cases h

/-- What a call may wait for. -/
lemma enabled_or_waits (m : Mem) (i : ℕ) {pc : CallPc} (h : pc.isReturned = false) :
    (∃ l r, callNext m i pc l = some r) ∨ m.mu.isSome = true ∨
      (∃ d, pc = .closeEnter d ∧ m.closeOnce.runner.isSome = true) ∨
      (∃ k, pc = .transport k .enter ∧ m.transportOnce.completed = false ∧
        m.transportOnce.runner.isSome = true) := by
  cases pc with
  | closeEnter d =>
    cases ho : m.closeOnce.enter i with
    | waits => exact .inr (.inr (.inl ⟨d, rfl, (Once.enter_waits ho).2⟩))
    | _ => exact .inl ⟨.tau, _, by simp only [callNext, ho]; rfl⟩
  | transport k p =>
    cases p with
    | enter =>
      cases ho : m.transportOnce.enter i with
      | waits => exact .inr (.inr (.inr ⟨k, rfl, Once.enter_waits ho⟩))
      | _ => exact .inl ⟨.tau, _, by simp only [callNext, transportNext, ho]; rfl⟩
    | lock =>
      cases hmu : m.mu with
      | some j => exact .inr (.inl rfl)
      | none => exact .inl ⟨.tau, _, by simp only [callNext, transportNext, hmu]; rfl⟩
    | invoke cbs => cases cbs <;> exact .inl ⟨.tau, _, rfl⟩
    | _ => exact .inl ⟨.tau, _, rfl⟩
  | stateLock =>
    cases hmu : m.mu with
    | some j => exact .inr (.inl rfl)
    | none => exact .inl ⟨.tau, _, by simp only [callNext, hmu]; rfl⟩
  | body => exact .inl ⟨.transport, _, rfl⟩
  | closed => cases h
  | destroyed => cases h
  | state => cases h
  | returned => cases h
  | _ => exact .inl ⟨.tau, _, rfl⟩

/-- The transport is never waited for: who calls its `Close` either is the first or comes late. -/
lemma Inv.no_wait (inv : Inv c s) (hi : s.calls[i]? = some call) {k : Caller}
    (hpc : call.pc = .transport k .enter) (hc : s.mem.transportOnce.completed = false) :
    s.mem.transportOnce.runner.isSome = false := by
  cases k with
  | close d =>
    have f := inv.body i call hi (by rw [hpc]; rfl)
    rw [hpc] at f
    exact f.running
  | dtor =>
    have hdone := (inv.outside (List.mem_of_getElem? hi) (by rw [hpc]; rfl) .dtor _ hpc).2
    rw [hc] at hdone
    cases hdone

/-- Whoever waits, waits for a call that can step. -/
lemma Inv.unblocked (inv : Inv c s) (hi : s.calls[i]? = some call)
    (h : call.pc.isReturned = false) :
    ∃ j l t, next s (.call j l) = some t ∧
      (j = i ∨ s.mem.mu = some j ∨ s.mem.closeOnce.runner = some j) := by
  -- the holder of `mu_`
  have holder : s.mem.mu.isSome = true → ∃ j l t, next s (.call j l) = some t ∧
      s.mem.mu = some j := by
    intro hmu
    obtain ⟨j, hj⟩ := Option.isSome_iff_exists.mp hmu
    obtain ⟨other, ho, hheld⟩ := inv.mu.held j hj
    obtain ⟨r, hr⟩ := holdsMu_enabled s.mem j hheld
    obtain ⟨t, ht⟩ := next_call ho hr
    exact ⟨j, .tau, t, ht, hj⟩
  rcases enabled_or_waits s.mem i h with ⟨l, r, hr⟩ | hmu | ⟨d, hpc, hr⟩ | ⟨k, hpc, hc, hr⟩
  · obtain ⟨t, ht⟩ := next_call hi hr
    exact ⟨i, l, t, ht, .inl rfl⟩
  · obtain ⟨j, l, t, ht, hj⟩ := holder hmu
    exact ⟨j, l, t, ht, .inr (.inl hj)⟩
  · obtain ⟨j, hj⟩ := Option.isSome_iff_exists.mp hr
    obtain ⟨other, ho, hbody⟩ := inv.once.mutex.held j hj
    have hreturned : other.pc.isReturned = false := by
      cases hp : other.pc <;> first | rfl | (rw [hp] at hbody; cases hbody)
    rcases enabled_or_waits s.mem j hreturned with ⟨l, r, hr⟩ | hmu | ⟨d', hpc', -⟩ | ⟨k, hpc', hc, hr⟩
    · obtain ⟨t, ht⟩ := next_call ho hr
      exact ⟨j, l, t, ht, .inr (.inr hj)⟩
    · obtain ⟨j', l, t, ht, hj'⟩ := holder hmu
      exact ⟨j', l, t, ht, .inr (.inl hj')⟩
    · rw [hpc'] at hbody
      cases hbody
    · rw [inv.no_wait ho hpc' hc] at hr
      cases hr
  · rw [inv.no_wait hi hpc hc] at hr
    cases hr

end Progress

/-- What holds of closing in every state. -/
structure CloseIsFinal (options : CreateOptions) (s : Sys) : Prop where
  closes : s.mem.closes ≤ 1
  fired : s.mem.fired.count .onClosed ≤ 1
  closed : s.closeReturned = true → s.mem.closes = 1 ∧
    s.mem.fired.count .onClosed = if options.callbacks .onClosed then 1 else 0
  /-- A `State` call that begins after a `Close` has returned. -/
  state : ∀ (i : ℕ) (call : Call) (v : ConnectionState), s.calls[i]? = some call →
    call.late = true → call.method = .state → call.pc = .state v → v = .kClosed
  /-- Any other operation that does. -/
  refused : ∀ (i : ℕ) (call : Call) (o : Operation), s.calls[i]? = some call →
    call.late = true → call.method = .run o →
    i ∉ s.mem.started ∧
      ∀ st, call.pc = .returned st →
        st.ok = false ∧ st = if o.builder.ok then kErrClientClosed else o.builder
  /-- Neither of them waits. -/
  answered : ∀ (i : ℕ) (call : Call), s.calls[i]? = some call → call.late = true →
    call.pc.ofClose = false → call.pc.isReturned = false →
    ∃ t, next s (.call i .tau) = some t
  /-- A call that waits, waits for one that can step. -/
  unblocked : ∀ (i : ℕ) (call : Call), s.calls[i]? = some call → call.pc.isReturned = false →
    ∃ j l t, next s (.call j l) = some t ∧
      (j = i ∨ s.mem.mu = some j ∨ s.mem.closeOnce.runner = some j)

lemma Late.state_eq {v : ConnectionState} (h : Late .state (.state v)) : v = .kClosed := by
  cases h
  rfl

lemma Late.returned_eq {o : Operation} {st : Status} (h : Late (.run o) (.returned st)) :
    st = o.closedStatus := by
  cases h
  rfl

lemma closedStatus_eq (o : Operation) :
    o.closedStatus.ok = false ∧
      o.closedStatus = if o.builder.ok then kErrClientClosed else o.builder := by
  unfold Operation.closedStatus
  cases hb : o.builder.ok with
  | true => exact ⟨rfl, rfl⟩
  | false => exact ⟨hb, rfl⟩

/-- A late call that does not close has at most two steps to go, and waits for nobody. -/
lemma Late.enabled {method : Method} {pc : CallPc} (h : Late method pc) (m : Mem) (i : ℕ)
    (other : pc.ofClose = false) (running : pc.isReturned = false) :
    ∃ r, callNext m i pc .tau = some r := by
  cases h with
  | close hc =>
    rw [other] at hc
    cases hc
  | stateCheck => exact ⟨_, rfl⟩
  | build => exact ⟨_, rfl⟩
  | check => exact ⟨_, rfl⟩
  | state => cases running
  | returned => cases running

/-- Every interleaving of calls of `Close`, of the destructor and of other operations closes the
transport and reports it once, and what begins after a `Close` has returned finds the client
closed. -/
theorem close_is_final (options : CreateOptions) (env : CreateEnv) (s : Sys)
    (h : (sys options env).Reachable s) : CloseIsFinal options s := by
  have inv := inv_reachable h
  obtain ⟨g, pending, f⟩ := inv.facts
  refine ⟨?_, ?_, ?_, ?_, ?_, ?_, ?_⟩
  · rw [f.closes]
    split <;> omega
  · have hcount := f.count
    split at hcount <;> omega
  · intro hr
    have f := inv.closeReturned hr
    have hcount := f.count
    simp only [List.count_nil] at hcount
    exact ⟨f.closes, by simpa using hcount⟩
  · intro i call v hi hl hm hpc
    have hlate := (inv.late call (List.mem_of_getElem? hi) hl).2
    rw [hm, hpc] at hlate
    exact hlate.state_eq
  · intro i call o hi hl hm
    have hlate := (inv.late call (List.mem_of_getElem? hi) hl).2
    refine ⟨inv.quiet i call hi hl, ?_⟩
    intro st hpc
    rw [hm, hpc] at hlate
    rw [hlate.returned_eq]
    exact closedStatus_eq o
  · intro i call hi hl other running
    have hlate := (inv.late call (List.mem_of_getElem? hi) hl).2
    obtain ⟨r, hr⟩ := hlate.enabled s.mem i other running
    exact next_call hi hr
  · intro i call hi running
    exact inv.unblocked hi running

/-- Call `i` makes `n` steps. -/
def steps (i n : ℕ) : List Action := List.replicate n (.call i .tau)

/-- Two overlapping calls of `Close`, then `SendEvent`, `State`, a third `Close` and the
destructor. -/
def closeThenUse : List Action :=
  .begin .close :: .begin .close :: steps 0 6 ++
    .begin .state :: steps 2 1 ++ steps 0 7 ++ steps 1 1 ++
    .begin (.run (.plain .sendEvent)) :: .begin .state :: .begin .close :: steps 3 2 ++
    steps 4 1 ++ steps 5 1 ++ .destroy :: steps 6 2

theorem close_is_final_in_use :
    ∃ s, (sys observingOptions serverUp).exec (start (connected fun _ => true)) closeThenUse
        = some s ∧ CloseIsFinal observingOptions s := by
  have hinit : (sys observingOptions serverUp).Reachable (start (connected fun _ => true)) := by
    obtain ⟨opts, hc⟩ := create_serverUp
    exact .init ⟨opts, _, hc, rfl⟩
  have hsome : ((sys observingOptions serverUp).exec (start (connected fun _ => true))
      closeThenUse).isSome = true := by decide +kernel
  obtain ⟨s, hs⟩ := Option.isSome_iff_exists.mp hsome
  have hreach := hinit.exec closeThenUse hs
  exact ⟨s, hs, close_is_final observingOptions serverUp s hreach⟩

end KubeMQ.Closing
