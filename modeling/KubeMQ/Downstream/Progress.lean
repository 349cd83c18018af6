import KubeMQ.Downstream.Calls

/-!
# Waiting on the downstream stream

`Poll` reads its response while it holds `stream_mu`. That is the only place at which a receiver can
stand still, and there it is the server that has to move: neither a settlement nor `Close` gets to
the stream before.
-/

namespace KubeMQ.Downstream

variable {ε : Env} {s t : Receiver} {m m' : Mem} {i j : ℕ} {pc pc' : CallPc} {l : CallLabel}

/-- A call that has not returned. -/
def CallPc.active (pc : CallPc) : Bool := pc.ofPoll || pc.ofSettle || pc.ofClose

/-- Call `i` is a `Poll` that holds `stream_mu` and has nothing to read. -/
structure Receiver.Waits (s : Receiver) (i : ℕ) : Prop where
  reading : ∃ late r req, s.calls[i]? = some ⟨late, .pollRead r req⟩
  holds : s.mem.streamMu = some i
  empty : s.mem.incoming = []
  alive : s.mem.broken = false

/-- The steps that the server and the network take. -/
def Action.remote : Action → Bool
  | .answer _ _ => true
  | .breakStream => true
  | _ => false

/-- `stream_mu` is held by the call in its critical section. -/
def Held (s : Receiver) : Prop :=
  Lts.Mutex (fun c : Call => c.pc.critical) s.mem.streamMu s.calls

lemma held_start : Held start := Lts.Mutex.nil

lemma Held.step {a : Action} (inv : Held s) (st : Step ε s a t) : Held t := by
  cases st with
  | begin h => exact Lts.Mutex.append inv (Starts.of_startPc h).not_critical
  | call hc st => exact Lts.Mutex.step inv hc st.streamMu
  | answer => exact inv
  | breakStream => exact inv

lemma held_reachable (h : (sys ε).Reachable s) : Held s := by
  apply h.invariant (I := Held)
  · rintro s rfl
    exact held_start
  · intro s a t _ inv _ hn
    exact inv.step (Step.of_next hn)

lemma CallPc.active_of_critical (h : pc.critical = true) : pc.active = true := by
  cases pc <;> first | rfl | cases h

lemma CallPc.active_iff :
    pc.active = true ↔ pc.ofPoll = true ∨ pc.ofSettle = true ∨ pc.ofClose = true := by
  unfold active
  rw [Bool.or_eq_true, Bool.or_eq_true, or_assoc]

/-- A call that can step makes the system step. -/
lemma next_call {c : Call} (hc : s.calls[i]? = some c) {r : Mem × CallPc}
    (hn : callNext ε s.mem i c.pc l = some r) : (next ε s (.call i l)).isSome := by
  simp only [next, hc, Option.bind_some, hn, Option.map_some, Option.isSome_some]

/-- A call in its critical section can step unless it waits for the server. -/
lemma Held.critical_step (inv : Held s) {c : Call} (hc : s.calls[i]? = some c)
    (hcrit : c.pc.critical = true) :
    (∃ l, (next ε s (.call i l)).isSome) ∨ s.Waits i := by
  by_cases hw : s.Waits i
  · exact .inr hw
  · left
    obtain ⟨l, r, hn⟩ := call_enabled ε s.mem i
      (CallPc.active_iff.mp (CallPc.active_of_critical hcrit))
      (fun hwants => absurd (hcrit.symm.trans (CallPc.outside_of_wants hwants)) nofun)
      (by
        intro r req hpc
        by_contra hno
        rw [not_or, not_not, Bool.not_eq_true] at hno
        obtain ⟨late, pc⟩ := c
        subst hpc
        exact hw ⟨⟨late, r, req, hc⟩, inv.locked i _ hc rfl, hno.1, hno.2⟩)
    exact ⟨l, next_call hc hn⟩

/-- Some call can step, or a `Poll` waits for the server, as long as a call has not returned. -/
lemma Held.progress (inv : Held s) {c : Call} (hc : s.calls[i]? = some c)
    (hact : c.pc.active = true) :
    (∃ j l, (next ε s (.call j l)).isSome) ∨ ∃ j, s.Waits j := by
  by_cases hcrit : c.pc.critical = true
  · obtain ⟨l, hn⟩ | hw := inv.critical_step (ε := ε) hc hcrit
    · exact .inl ⟨i, l, hn⟩
    · exact .inr ⟨i, hw⟩
  · cases hmu : s.mem.streamMu with
    | some k =>
      obtain ⟨d, hd, hdcrit⟩ := inv.held k hmu
      obtain ⟨l, hn⟩ | hw := inv.critical_step (ε := ε) hd hdcrit
      · exact .inl ⟨k, l, hn⟩
      · exact .inr ⟨k, hw⟩
    | none =>
      obtain ⟨l, r, hn⟩ := call_enabled ε s.mem i (CallPc.active_iff.mp hact) (fun _ => hmu)
        (by
          intro r req hpc
          exact absurd (by rw [hpc]; rfl) hcrit)
      exact .inl ⟨i, l, next_call hc hn⟩

/-- Outside of its critical section a call that finds `stream_mu` taken does nothing to the stream, and
does nothing at all if it needs the lock. -/
lemma CallStep.outside (st : CallStep ε m i pc l m' pc') (hcrit : pc.critical = false)
    (hmu : m.streamMu ≠ none) :
    pc.wantsStream = false ∧ m'.streamMu = m.streamMu ∧ m'.incoming = m.incoming ∧
      m'.broken = m.broken ∧ m'.halfClosed = m.halfClosed ∧ m'.log = m.log := by
  cases st
  case pollLock h => exact absurd h hmu
  case settleLock h => exact absurd h hmu
  case closeLock h => exact absurd h hmu
  case pollClosed => exact ⟨rfl, rfl, rfl, rfl, rfl, rfl⟩
  case pollInvalid => exact ⟨rfl, rfl, rfl, rfl, rfl, rfl⟩
  case pollCheck => exact ⟨rfl, rfl, rfl, rfl, rfl, rfl⟩
  case settleReturns => exact ⟨rfl, rfl, rfl, rfl, rfl, rfl⟩
  case settleWrites => exact ⟨rfl, rfl, rfl, rfl, rfl, rfl⟩
  case settleAllReturns => exact ⟨rfl, rfl, rfl, rfl, rfl, rfl⟩
  case settleAllWrites => exact ⟨rfl, rfl, rfl, rfl, rfl, rfl⟩
  case closeAgain => exact ⟨rfl, rfl, rfl, rfl, rfl, rfl⟩
  case closeExchange => exact ⟨rfl, rfl, rfl, rfl, rfl, rfl⟩
  all_goals cases hcrit

/-- What stays as it is while nothing comes from the server. -/
structure Frozen (s t : Receiver) : Prop where
  log : t.mem.log = s.mem.log
  halfClosed : t.mem.halfClosed = s.mem.halfClosed
  waiting : ∀ (j : ℕ) (c : Call), s.calls[j]? = some c → c.pc.wantsStream = true →
    t.calls[j]? = some c

lemma Frozen.refl (s : Receiver) : Frozen s s := ⟨rfl, rfl, fun _ _ hc _ => hc⟩

lemma Frozen.trans {u : Receiver} (h : Frozen s t) (h' : Frozen t u) : Frozen s u where
  log := h'.log.trans h.log
  halfClosed := h'.halfClosed.trans h.halfClosed
  waiting j c hc hw := h'.waiting j c (h.waiting j c hc hw) hw

/-- One local step while a `Poll` waits for the server. -/
lemma Receiver.Waits.step {a : Action} (hw : s.Waits i) (inv : Held s) (ha : a.remote = false)
    (st : Step ε s a t) : t.Waits i ∧ Frozen s t := by
  obtain ⟨late, r, req, hi⟩ := hw.reading
  cases st with
  | begin _ =>
    have hkeep : ∀ (j : ℕ) (c : Call) (cs : List Call), s.calls[j]? = some c →
        (s.calls ++ cs)[j]? = some c := by
      intro j c cs hc
      rw [List.getElem?_append_left (List.getElem?_eq_some_iff.mp hc).1, hc]
    refine ⟨⟨⟨late, r, req, hkeep i _ _ hi⟩, hw.holds, hw.empty, hw.alive⟩, rfl, rfl, ?_⟩
    exact fun j c hc _ => hkeep j c _ hc
  | @call j l c m' pc' hc st =>
    have hij : j ≠ i := by
      rintro rfl
      obtain rfl := Option.some.inj (hi.symm.trans hc)
      -- there is nothing to read, and the stream is not broken
      cases st with
      | pollRead hin => exact absurd (hin.symm.trans hw.empty) nofun
      | pollReadFailed hb => exact absurd (hb.symm.trans hw.alive) nofun
    have hcrit : c.pc.critical = false := by
      by_contra hne
      exact hij (inv.locked.unique hc (by simpa using hne) hi rfl)
    have hmu : s.mem.streamMu ≠ none := fun h => absurd (h.symm.trans hw.holds) nofun
    obtain ⟨hwants, hmu', hin, hb, hhalf, hlog⟩ := st.outside hcrit hmu
    refine ⟨⟨⟨late, r, req, ?_⟩, hmu'.trans hw.holds, hin.trans hw.empty, hb.trans hw.alive⟩, hlog,
      hhalf, ?_⟩
    · rw [List.getElem?_set_ne hij, hi]
    · intro k d hd hwd
      have hjk : j ≠ k := by
        rintro rfl
        obtain rfl := Option.some.inj (hc.symm.trans hd)
        exact absurd (hwants.symm.trans hwd) nofun
      rw [List.getElem?_set_ne hjk, hd]
  | answer => cases ha
  | breakStream => cases ha

/-- As long as neither the server nor the network moves, a `Poll` that waits goes on waiting, whatever
the other calls do; nothing is written, and no `Close` that wants the stream comes further. -/
theorem poll_waits_for_server (ε : Env) (s t : Receiver) (h : (sys ε).Reachable s) (i : ℕ)
    (hw : s.Waits i) (as : List Action) (hlocal : ∀ a ∈ as, a.remote = false)
    (he : (sys ε).exec s as = some t) : t.Waits i ∧ Frozen s t := by
  induction as generalizing s with
  | nil =>
    obtain rfl := Option.some.inj he
    exact ⟨hw, .refl s⟩
  | cons a as ih =>
    obtain ⟨u, hu, hut⟩ := Option.bind_eq_some_iff.mp he
    obtain ⟨hwu, hfu⟩ :=
      hw.step (held_reachable h) (hlocal a List.mem_cons_self) (Step.of_next hu)
    obtain ⟨hwt, hft⟩ := ih u (h.step trivial hu) hwu
      (fun b hb => hlocal b (List.mem_cons_of_mem a hb)) hut
    exact ⟨hwt, hfu.trans hft⟩

/-- A `Poll` waits for its response; `Close` and an acknowledgement begin meanwhile. -/
def closeDuringPoll : List Action :=
  pollOne ++ [.begin (.poll { channel := "orders" }), .call 1 .tau, .call 1 .tau,
    .call 1 (.wrote true), .begin .close, .call 2 .tau]

theorem poll_waits_for_server_close :
    ∃ s t, (sys unaryUuids).exec start closeDuringPoll = some s ∧
      (sys unaryUuids).exec s [.begin (.settle 0 0 .ack), .call 3 .tau] = some t ∧
      s.Waits 1 ∧ t.Waits 1 ∧ Frozen s t := by
  refine ⟨_, _, rfl, rfl, ⟨⟨_, _, _, rfl⟩, rfl, rfl, rfl⟩, ?_⟩
  exact poll_waits_for_server unaryUuids _ _
    (Lts.Sys.Reachable.exec (.init rfl) closeDuringPoll rfl) 1
    ⟨⟨_, _, _, rfl⟩, rfl, rfl, rfl⟩ [.begin (.settle 0 0 .ack), .call 3 .tau] (by decide) rfl

/-- The steps of call `i`. -/
def Action.ofCall (i : ℕ) : Action → Bool
  | .call j _ => j == i
  | _ => false

/-- How many steps call `i` has left. -/
def Receiver.left (s : Receiver) (i : ℕ) : ℕ := (s.calls[i]?.map fun c => c.pc.remaining).getD 0

/-- The steps that call `i` takes are paid from those that it has left. -/
lemma ranked_call (ε : Env) (i : ℕ) :
    (sys ε).Ranked (fun s => i < s.calls.length) (Action.ofCall i) (·.left i) := by
  have hstep : ∀ s a t, i < s.calls.length → (sys ε).next s a = some t →
      i < t.calls.length ∧ t.left i ≤ s.left i ∧ (Action.ofCall i a = true → t.left i < s.left i) := by
    intro s a t hi hn
    cases Step.of_next hn with
    | begin h =>
      refine ⟨by simp; omega, ?_, nofun⟩
      unfold Receiver.left
      rw [List.getElem?_append_left hi]
    | @call j l c m' pc' hc st =>
      refine ⟨by simpa using hi, ?_⟩
      have hlt := st.remaining_lt
      unfold Receiver.left
      by_cases hij : j = i
      · subst hij
        rw [List.getElem?_set_self hi, hc]
        exact ⟨Nat.le_of_lt hlt, fun _ => hlt⟩
      · rw [List.getElem?_set_ne hij]
        refine ⟨Nat.le_refl _, ?_⟩
        intro h
        exact absurd (by simpa [Action.ofCall] using h) hij
    | answer => exact ⟨hi, Nat.le_refl _, nofun⟩
    | breakStream => exact ⟨hi, Nat.le_refl _, nofun⟩
  exact ⟨fun s a t hi hn => (hstep s a t hi hn).1, fun s a t hi hn => (hstep s a t hi hn).2.1,
    fun s a t hi hn => (hstep s a t hi hn).2.2⟩

/-- No deadlock: as long as a call has not returned some call can step, or a `Poll` that holds
`stream_mu` waits for the server; and no call takes more than five steps. -/
theorem progress_unless_waiting (ε : Env) (s : Receiver) (h : (sys ε).Reachable s) (i : ℕ) (c : Call)
    (hc : s.calls[i]? = some c) :
    (c.pc.active = true → (∃ j l, (next ε s (.call j l)).isSome) ∨ ∃ j, s.Waits j) ∧
      ∀ as t, (sys ε).exec s as = some t → as.countP (Action.ofCall i) ≤ 5 := by
  refine ⟨(held_reachable h).progress hc, ?_⟩
  intro as t he
  have hi : i < s.calls.length := (List.getElem?_eq_some_iff.mp hc).1
  have hle := (ranked_call ε i).countP_le hi he
  have hleft : s.left i ≤ 5 := by
    unfold Receiver.left
    rw [hc]
    exact c.pc.remaining_le
  omega

theorem progress_unless_waiting_close :
    ∃ s, (sys unaryUuids).exec start closeDuringPoll = some s ∧
      ((∃ j l, (next unaryUuids s (.call j l)).isSome) ∨ ∃ j, s.Waits j) := by
  refine ⟨_, rfl, ?_⟩
  exact (progress_unless_waiting unaryUuids _
    (Lts.Sys.Reachable.exec (.init rfl) closeDuringPoll rfl) 2 _ rfl).1 rfl

end KubeMQ.Downstream
