import KubeMQ.Downstream.Inversion

/-!
# Half-closing the downstream stream

`Close` sets `closed` and then, under `stream_mu`, writes `CloseByClient` and calls `WritesDone`.
`Poll` looks at `closed` before it takes `stream_mu` and not again; settlements never look at it.
In the runs in which no `Poll` or settlement takes `stream_mu` after `WritesDone`, and no settlement
that began after a `Close` had returned gets as far as the stream (`streamOpen`), nothing is
written after the half-close (`half_close_respected`). A settlement after `Close`, and a `Poll`
that races with it, are written (`written_after_half_close`).
-/

namespace KubeMQ.Downstream

open Proto (QueuesDownstreamRequest QueuesDownstreamResponse)

variable {ε : Env}

def Obs.isWritesDone : Obs → Bool
  | .writesDone _ => true
  | _ => false

/-- The write of a `Get` or of a settlement. -/
def Obs.isOperation : Obs → Bool
  | .write _ req _ => req.requestTypeData != .CloseByClient
  | _ => false

/-- The status that a returned `Poll` or settlement gives. -/
def CallPc.result : CallPc → Option Status
  | .polled v => some v.status
  | .settled s => some s
  | _ => none

/-- No `Poll` or settlement takes `stream_mu` after `WritesDone`; a settlement that began after a
`Close` had returned does not take it either, nor finds an empty batch to settle. -/
def streamOpen (s : Receiver) : Action → Bool
  | .call i _ =>
    match s.calls[i]? with
    | some ⟨_, .pollLock _ _⟩ => !s.mem.halfClosed
    | some ⟨late, .settleLock _ _⟩ => !s.mem.halfClosed && !late
    | some ⟨late, .settleAllStart p a⟩ =>
      !late || a.rejected || p.autoAck || p.transactionId.isEmpty || !p.messages.isEmpty
    | _ => true
  | _ => true

/-- After `WritesDone` no `Get` and no settlement is written, and an operation that began after a
`Close` had returned writes nothing and gives an error. -/
structure HalfCloseOk (s : Receiver) : Prop where
  ordered : s.mem.log.Pairwise fun a b => a.isWritesDone = true → b.isOperation = false
  silent : ∀ (i : ℕ) (c : Call), s.calls[i]? = some c → c.late = true → ∀ req ok, .write i req ok ∉ s.mem.log
  error : ∀ (i : ℕ) (c : Call), s.calls[i]? = some c → c.late = true →
    ∀ st : Status, c.pc.result = some st → st.ok = false

/-- A `Close` that has got past its `closed.exchange(true)`. -/
def CallPc.pastExchange : CallPc → Bool
  | .closeLock _ => true
  | .closeWrite _ => true
  | .closeWritesDone => true
  | .closeUnlock => true
  | .closed => true
  | _ => false

/-- Where a call that began after a `Close` had returned can stand. -/
def CallPc.kept : CallPc → Bool
  | .pollCheck _ => true
  | .polled v => !v.status.ok
  | .settleStart _ _ => true
  | .settleAllStart _ _ => true
  | .settleLock _ _ => true
  | .settled s => !s.ok
  | .closeExchange => true
  | .closed => true
  | _ => false

/-- What a control state says about the half-close. -/
def CallPc.Allowed (halfClosed : Bool) : CallPc → Prop
  | .pollWrite _ _ => halfClosed = false
  | .settleWrite _ _ => halfClosed = false
  | .closeLock req => req.requestTypeData = .CloseByClient
  | .closeWrite req => req.requestTypeData = .CloseByClient
  | _ => True

/-- The part of the invariant that is about the log. -/
structure LogInv (halfClosed : Bool) (log : List Obs) : Prop where
  before : halfClosed = false → ∀ o ∈ log, o.isWritesDone = false
  ordered : log.Pairwise fun a b => a.isWritesDone = true → b.isOperation = false

/-- The invariant of the guarded runs. -/
structure OpenInv (s : Receiver) : Prop where
  ex : Exclusive s
  log : LogInv s.mem.halfClosed s.mem.log
  allowed : ∀ (i : ℕ) (c : Call), s.calls[i]? = some c → c.pc.Allowed s.mem.halfClosed
  closed : ∀ (i : ℕ) (c : Call), s.calls[i]? = some c → c.pc.pastExchange = true → s.mem.closed = true
  late : ∀ (i : ℕ) (c : Call), s.calls[i]? = some c → c.late = true →
    s.mem.closed = true ∧ c.pc.kept = true
  writer : ∀ i req ok, .write i req ok ∈ s.mem.log →
    ∃ pc, s.calls[i]? = some ⟨false, pc⟩

lemma openInv_start : OpenInv start where
  ex := exclusive_start
  allowed := fun i c h => absurd h (by simp [start])
  log := ⟨fun _ o h => absurd h List.not_mem_nil, .nil⟩
  closed := fun i c h => absurd h (by simp [start])
  late := fun i c h => absurd h (by simp [start])
  writer := fun i req ok h => absurd h List.not_mem_nil

lemma CallPc.kept_result {pc : CallPc} {st : Status} (hk : pc.kept = true)
    (hr : pc.result = some st) : st.ok = false := by
  cases pc
  case polled v =>
    cases hr
    simpa [CallPc.kept] using hk
  case settled s =>
    cases hr
    simpa [CallPc.kept] using hk
  all_goals cases hr

lemma OpenInv.halfCloseOk {s : Receiver} (inv : OpenInv s) : HalfCloseOk s where
  ordered := inv.log.ordered
  silent := by
    intro i c hc hl req ok hw
    obtain ⟨pc, hpc⟩ := inv.writer i req ok hw
    rw [hc] at hpc
    cases hpc
    cases hl
  error := fun i c hc hl st hr => CallPc.kept_result (inv.late i c hc hl).2 hr

/-- A settlement that does not get to the stream gives an error. -/
lemma prepareSettle_error {b : Bool} {uuid : String} {q : QueueDownstreamMessage}
    {a : Settlement} {st : Status} (h : prepareSettle b uuid q a = .returns st) :
    st.ok = false := by
  unfold prepareSettle at h
  split at h
  · cases h
    rfl
  · split at h
    · cases h
      rfl
    · split at h
      · cases h
        rfl
      · split at h <;> cases h
        rfl

/-- A settlement of a batch that does not get to the stream gives an error, or there is nothing to
settle. -/
lemma prepareSettleAll_error {b : Bool} {uuid : String} {p : PollResponse} {a : Settlement}
    {st : Status} (h : prepareSettleAll b uuid p a = .returns st)
    (hp : (a.rejected || p.autoAck || p.transactionId.isEmpty || !p.messages.isEmpty) = true) :
    st.ok = false := by
  unfold prepareSettleAll at h
  split at h
  · cases h
    rfl
  · split at h
    · cases h
      rfl
    · split at h
      · cases h
        rfl
      · split at h
        · cases h
          rfl
        · split at h
          · next h₁ h₂ _ h₄ h₅ => simp [h₁, h₂, h₄, h₅] at hp
          · cases h

/-- What a step of a call does to `closed`, to the half-close and to the log. -/
inductive MemStep (i : ℕ) (m : Mem) (pc : CallPc) : Mem → Prop where
  | same {m'} :
    m'.closed = m.closed →
    m'.halfClosed = m.halfClosed →
    m'.log = m.log →
    MemStep i m pc m'
  | close {m'} :
    m'.closed = true →
    m'.halfClosed = m.halfClosed →
    m'.log = m.log →
    MemStep i m pc m'
  | read {m' a} :
    m'.closed = m.closed →
    m'.halfClosed = m.halfClosed →
    m'.log = m.log ++ [.read i a] →
    MemStep i m pc m'
  | write {m' req ok} :
    m'.closed = m.closed →
    m'.halfClosed = m.halfClosed →
    m'.log = m.log ++ [.write i req ok] →
    (pc.Allowed m.halfClosed → m.halfClosed = false ∨ req.requestTypeData = .CloseByClient) →
    pc.kept = false →
    MemStep i m pc m'
  | writesDone {m'} :
    m'.closed = m.closed →
    m'.halfClosed = true →
    m'.log = m.log ++ [.writesDone i] →
    pc = .closeWritesDone →
    MemStep i m pc m'

lemma CallStep.mem {m m' : Mem} {i : ℕ} {pc pc' : CallPc} {l : CallLabel}
    (st : CallStep ε m i pc l m' pc') : MemStep i m pc m' := by
  cases st
  case pollWrite => exact .write rfl rfl rfl (fun h => .inl h) rfl
  case pollWriteFailed => exact .write rfl rfl rfl (fun h => .inl h) rfl
  case settleWrite => exact .write rfl rfl rfl (fun h => .inl h) rfl
  case closeWrite => exact .write rfl rfl rfl (fun h => .inr h) rfl
  case pollRead => exact .read rfl rfl rfl
  case closeExchange => exact .close rfl rfl rfl
  case closeWritesDone => exact .writesDone rfl rfl rfl rfl
  all_goals exact .same rfl rfl rfl

/-- `closed` and the half-close are never taken back. -/
lemma MemStep.mono {i : ℕ} {m m' : Mem} {pc : CallPc} (st : MemStep i m pc m') :
    (m.closed = true → m'.closed = true) ∧ (m.halfClosed = true → m'.halfClosed = true) := by
  cases st with
  | same hc hh hl => exact ⟨(hc ▸ ·), (hh ▸ ·)⟩
  | close hc hh hl => exact ⟨fun _ => hc, (hh ▸ ·)⟩
  | read hc hh hl => exact ⟨(hc ▸ ·), (hh ▸ ·)⟩
  | write hc hh hl _ _ => exact ⟨(hc ▸ ·), (hh ▸ ·)⟩
  | writesDone hc hh hl _ => exact ⟨(hc ▸ ·), fun _ => hh⟩

lemma LogInv.append {b : Bool} {log : List Obs} {o : Obs} (inv : LogInv b log)
    (hd : o.isWritesDone = false) (ho : b = false ∨ o.isOperation = false) :
    LogInv b (log ++ [o]) := by
  refine ⟨fun hb p hp => ?_, ?_⟩
  · rcases List.mem_append.mp hp with hp | hp
    · exact inv.before hb p hp
    · cases List.mem_singleton.mp hp
      exact hd
  · refine List.pairwise_append.mpr ⟨inv.ordered, List.pairwise_singleton _ _, ?_⟩
    intro a ha p hp hw
    cases List.mem_singleton.mp hp
    rcases ho with hb | ho
    · rw [inv.before hb a ha] at hw
      cases hw
    · exact ho

lemma LogInv.writesDone {b : Bool} {log : List Obs} {i : ℕ} (inv : LogInv b log) :
    LogInv true (log ++ [.writesDone i]) := by
  refine ⟨nofun, List.pairwise_append.mpr ⟨inv.ordered, List.pairwise_singleton _ _, ?_⟩⟩
  intro a _ p hp _
  cases List.mem_singleton.mp hp
  rfl

lemma MemStep.logInv {i : ℕ} {m m' : Mem} {pc : CallPc} (st : MemStep i m pc m')
    (inv : LogInv m.halfClosed m.log) (allowed : pc.Allowed m.halfClosed) :
    LogInv m'.halfClosed m'.log := by
  cases st with
  | same hc hh hl =>
    rw [hh, hl]
    exact inv
  | close hc hh hl =>
    rw [hh, hl]
    exact inv
  | read hc hh hl =>
    rw [hh, hl]
    exact inv.append rfl (.inr rfl)
  | write hc hh hl ha hk =>
    rw [hh, hl]
    refine inv.append rfl ?_
    rcases ha allowed with h | h
    · exact .inl h
    · exact .inr (by simp [Obs.isOperation, h])
  | writesDone hc hh hl hp =>
    rw [hh, hl]
    exact inv.writesDone

/-- What the step of a call leads to. -/
lemma CallStep.allowed {s : Receiver} {i : ℕ} {c : Call} {m' : Mem} {pc' : CallPc} {l : CallLabel}
    (hc : s.calls[i]? = some c) (guard : streamOpen s (.call i l) = true)
    (st : CallStep ε s.mem i c.pc l m' pc') (h : c.pc.Allowed s.mem.halfClosed) :
    pc'.Allowed m'.halfClosed := by
  obtain ⟨late, pc⟩ := c
  cases st
  case pollLock =>
    have hh : s.mem.halfClosed = false := by simpa [streamOpen, hc] using guard
    exact hh
  case settleLock =>
    simp only [streamOpen, hc, Bool.and_eq_true] at guard
    have hh : s.mem.halfClosed = false := by simpa using guard.1
    exact hh
  case closeExchange => rfl
  case closeLock => exact h
  all_goals trivial

/-- A call that began after a `Close` had returned gets nowhere. -/
lemma CallStep.kept {s : Receiver} {i : ℕ} {c : Call} {m' : Mem} {pc' : CallPc} {l : CallLabel}
    (hc : s.calls[i]? = some c) (guard : streamOpen s (.call i l) = true)
    (st : CallStep ε s.mem i c.pc l m' pc') (hl : c.late = true) (closed : s.mem.closed = true)
    (h : c.pc.kept = true) : pc'.kept = true := by
  obtain ⟨late, pc⟩ := c
  cases hl
  cases st
  case pollClosed => rfl
  case pollInvalid hv => simp [CallPc.kept, hv]
  case pollCheck hd _ => simp [closed] at hd
  case pollLock => cases h
  case settleReturns hp => simp [CallPc.kept, prepareSettle_error hp]
  case settleWrites => rfl
  case settleAllReturns hp =>
    simp only [streamOpen, hc, Bool.not_true, Bool.false_or] at guard
    simp [CallPc.kept, prepareSettleAll_error hp guard]
  case settleAllWrites => rfl
  case settleLock =>
    -- the guard keeps a late settlement away from `stream_mu`
    simp [streamOpen, hc] at guard
  case closeAgain => rfl
  case closeExchange hd => simp [closed] at hd
  all_goals cases h

/-- A `Close` that is past its exchange has set `closed`. -/
lemma CallStep.pastExchange {m m' : Mem} {i : ℕ} {pc pc' : CallPc} {l : CallLabel}
    (st : CallStep ε m i pc l m' pc') (h : pc'.pastExchange = true) :
    m'.closed = true ∨ pc.pastExchange = true := by
  cases st
  case closeAgain hd => exact .inl hd
  case closeExchange => exact .inl rfl
  case closeLock => exact .inr rfl
  case closeWrite => exact .inr rfl
  case closeWritesDone => exact .inr rfl
  case closeUnlock => exact .inr rfl
  all_goals cases h

lemma CallPc.pastExchange_of_isClosed {pc : CallPc} (h : pc.isClosed = true) :
    pc.pastExchange = true := by
  cases pc <;> first | rfl | cases h

/-- The entries of the log that a step of call `i` adds are its own. -/
lemma MemStep.writer {i j : ℕ} {m m' : Mem} {pc : CallPc} {req : QueuesDownstreamRequest}
    {ok : Bool} (st : MemStep i m pc m') (h : .write j req ok ∈ m'.log) :
    .write j req ok ∈ m.log ∨ (j = i ∧ pc.kept = false) := by
  cases st with
  | same hc hh hl => exact .inl (hl ▸ h)
  | close hc hh hl => exact .inl (hl ▸ h)
  | read hc hh hl =>
    rcases List.mem_append.mp (hl ▸ h) with h | h
    · exact .inl h
    · cases List.mem_singleton.mp h
  | write hc hh hl _ hk =>
    rcases List.mem_append.mp (hl ▸ h) with h | h
    · exact .inl h
    · cases List.mem_singleton.mp h
      exact .inr ⟨rfl, hk⟩
  | writesDone hc hh hl _ =>
    rcases List.mem_append.mp (hl ▸ h) with h | h
    · exact .inl h
    · cases List.mem_singleton.mp h

/-- Only the call that holds `stream_mu` between its two writes can half-close the stream. -/
lemma MemStep.allowed_keep {s : Receiver} {i j : ℕ} {c d : Call} {m' : Mem} (ex : Exclusive s)
    (hc : s.calls[i]? = some c) (hd : s.calls[j]? = some d) (hij : j ≠ i)
    (st : MemStep i s.mem c.pc m') (h : d.pc.Allowed s.mem.halfClosed) :
    d.pc.Allowed m'.halfClosed := by
  cases st with
  | same hc hh hl => exact hh ▸ h
  | close hc hh hl => exact hh ▸ h
  | read hc hh hl => exact hh ▸ h
  | write hc hh hl _ _ => exact hh ▸ h
  | writesDone _ hh hl hp =>
    have hcrit : c.pc.critical = true := by rw [hp]; rfl
    have hout : d.pc.critical = false := by
      by_contra hdc
      exact hij (ex.unique hd (by simpa using hdc) hc hcrit)
    obtain ⟨b, pc⟩ := d
    cases pc
    case pollWrite => cases hout
    case settleWrite => cases hout
    case closeLock => exact h
    case closeWrite => exact h
    all_goals trivial

lemma Starts.allowed {pc : CallPc} {b : Bool} (h : Starts pc) :
    pc.Allowed b ∧ pc.pastExchange = false ∧ pc.kept = true := by
  cases h <;> exact ⟨trivial, rfl, rfl⟩

/-- A new call. -/
lemma OpenInv.begin {s : Receiver} {pc : CallPc} (inv : OpenInv s) (hs : Starts pc) :
    OpenInv { s with calls := s.calls ++ [⟨s.calls.any fun c => c.pc.isClosed, pc⟩] } := by
  obtain ⟨ha, hp, hk⟩ := hs.allowed (b := s.mem.halfClosed)
  refine ⟨inv.ex.append hs.not_critical, inv.log, ?_, ?_, ?_, ?_⟩
  · intro i c hc
    rcases Lts.getElem?_concat_cases hc with hc | ⟨-, rfl⟩
    · exact inv.allowed i c hc
    · exact ha
  · intro i c hc hx
    rcases Lts.getElem?_concat_cases hc with hc | ⟨-, rfl⟩
    · exact inv.closed i c hc hx
    · rw [hp] at hx
      cases hx
  · intro i c hc hl
    rcases Lts.getElem?_concat_cases hc with hc | ⟨-, rfl⟩
    · exact inv.late i c hc hl
    · -- some `Close` has returned, so `closed` is set
      obtain ⟨d, hd, hdc⟩ := List.any_eq_true.mp hl
      obtain ⟨j, hj⟩ := List.mem_iff_getElem?.mp hd
      exact ⟨inv.closed j d hj (CallPc.pastExchange_of_isClosed hdc), hk⟩
  · intro i req ok hw
    obtain ⟨pc', hpc⟩ := inv.writer i req ok hw
    have hlt := (List.getElem?_eq_some_iff.mp hpc).1
    exact ⟨pc', by rw [List.getElem?_append_left hlt, hpc]⟩

/-- One step of a call keeps the invariant when the stream is open to it. -/
lemma OpenInv.call {s : Receiver} {i : ℕ} {l : CallLabel} {c : Call} {m' : Mem} {pc' : CallPc}
    (inv : OpenInv s) (guard : streamOpen s (.call i l) = true) (hc : s.calls[i]? = some c)
    (st : CallStep ε s.mem i c.pc l m' pc') :
    OpenInv ⟨m', s.calls.set i { c with pc := pc' }⟩ := by
  have hm := st.mem
  have ha := inv.allowed i c hc
  refine ⟨inv.ex.step (.call hc st), hm.logInv inv.log ha, ?_, ?_, ?_, ?_⟩
  · intro j d hd
    rcases Lts.getElem?_set_cases hd with ⟨rfl, rfl⟩ | ⟨hj, hd⟩
    · exact st.allowed hc guard ha
    · exact hm.allowed_keep inv.ex hc hd hj (inv.allowed j d hd)
  · intro j d hd hp
    rcases Lts.getElem?_set_cases hd with ⟨rfl, rfl⟩ | ⟨-, hd⟩
    · rcases st.pastExchange hp with h | h
      · exact h
      · exact hm.mono.1 (inv.closed j c hc h)
    · exact hm.mono.1 (inv.closed j d hd hp)
  · intro j d hd hl
    rcases Lts.getElem?_set_cases hd with ⟨rfl, rfl⟩ | ⟨-, hd⟩
    · obtain ⟨hcl, hk⟩ := inv.late j c hc hl
      exact ⟨hm.mono.1 hcl, st.kept hc guard hl hcl hk⟩
    · obtain ⟨hcl, hk⟩ := inv.late j d hd hl
      exact ⟨hm.mono.1 hcl, hk⟩
  · intro j req ok hw
    rcases hm.writer hw with hw | ⟨rfl, hk⟩
    · obtain ⟨pc, hpc⟩ := inv.writer j req ok hw
      by_cases hij : i = j
      · subst hij
        rw [hc] at hpc
        cases hpc
        exact ⟨pc', List.getElem?_set_self (List.getElem?_eq_some_iff.mp hc).1⟩
      · exact ⟨pc, by rw [List.getElem?_set_ne hij, hpc]⟩
    · -- a late call does not stand where it could write
      have hlate : c.late = false := by
        by_contra hl
        have := (inv.late j c hc (by simpa using hl)).2
        rw [hk] at this
        cases this
      refine ⟨pc', ?_⟩
      rw [List.getElem?_set_self (List.getElem?_eq_some_iff.mp hc).1, hlate]

/-- Every step keeps the invariant when the stream is open to it. -/
lemma OpenInv.step {s t : Receiver} {a : Action} (inv : OpenInv s)
    (guard : streamOpen s a = true) (st : Step ε s a t) : OpenInv t := by
  cases st with
  | begin h => exact inv.begin (Starts.of_startPc h)
  | call hc st => exact inv.call guard hc st
  | answer => exact ⟨inv.ex, inv.log, inv.allowed, inv.closed, inv.late, inv.writer⟩
  | breakStream => exact ⟨inv.ex, inv.log, inv.allowed, inv.closed, inv.late, inv.writer⟩

/-- In every run in which the stream is open to each `Poll` and each settlement that gets to it,
nothing is written after the half-close. -/
theorem half_close_respected (ε : Env) (s : Receiver)
    (h : (sys ε).Reach (fun s a => streamOpen s a = true) s) : HalfCloseOk s := by
  refine OpenInv.halfCloseOk (h.invariant (I := OpenInv) ?_ ?_)
  · rintro s rfl
    exact openInv_start
  · intro s a t _ inv guard hn
    exact inv.step guard (Step.of_next hn)

/-- Poll a message, then close: five steps of call 1. -/
def pollThenClose : List Action :=
  pollOne ++ [.begin .close, .call 1 .tau, .call 1 .tau, .call 1 (.wrote true), .call 1 .tau,
    .call 1 .tau]

/-- A `Poll` after the `Close`. -/
def pollAfterClose : List Action :=
  pollThenClose ++ [.begin (.poll { channel := "orders" }), .call 2 .tau]

/-- A settlement after the `Close`. -/
def ackAfterClose : List Action :=
  pollThenClose ++ [.begin (.settle 0 0 .ack), .call 2 .tau, .call 2 .tau, .call 2 (.wrote true)]

/-- A `Poll` that looked at `closed` before the `Close` began and takes `stream_mu` after it. -/
def pollRacesClose : List Action :=
  [.begin (.poll { channel := "orders" }), .call 0 .tau, .begin .close, .call 1 .tau,
    .call 1 .tau, .call 1 (.wrote true), .call 1 .tau, .call 1 .tau, .call 0 .tau,
    .call 0 (.wrote true)]

/-- A run in which the only operation after `Close` is a `Poll`. -/
theorem half_close_respected_poll_after :
    ∃ s, (sys unaryUuids).exec start pollAfterClose = some s ∧ HalfCloseOk s := by
  refine ⟨_, rfl, half_close_respected unaryUuids _ ?_⟩
  exact Lts.Sys.Reach.execWhere (.init rfl) pollAfterClose rfl

/-- The k-th entry of the log is `WritesDone`, the l-th the write of an operation. -/
def writtenAfter (s : Receiver) (k l : ℕ) : Bool :=
  ((s.mem.log[k]?.map Obs.isWritesDone).getD false) &&
    ((s.mem.log[l]?.map Obs.isOperation).getD false)

lemma HalfCloseOk.not_writtenAfter {s : Receiver} (ok : HalfCloseOk s) {k l : ℕ} (hkl : k < l) :
    writtenAfter s k l = false := by
  by_contra h
  simp only [writtenAfter, Bool.not_eq_false, Bool.and_eq_true] at h
  cases ha : s.mem.log[k]? with
  | none => simp [ha] at h
  | some a =>
    cases hb : s.mem.log[l]? with
    | none => simp [hb] at h
    | some b =>
      simp only [ha, hb, Option.map_some, Option.getD_some] at h
      obtain ⟨hk, rfl⟩ := List.getElem?_eq_some_iff.mp ha
      obtain ⟨hl, rfl⟩ := List.getElem?_eq_some_iff.mp hb
      have hord := List.pairwise_iff_getElem.mp ok.ordered k l hk hl hkl h.1
      rw [hord] at h
      cases h.2

/-- A settlement after `Close`, and a `Poll` that races with it, write on the half-closed stream. -/
theorem written_after_half_close :
    (∃ s, (sys unaryUuids).exec start ackAfterClose = some s ∧ ¬ HalfCloseOk s) ∧
    (∃ s, (sys unaryUuids).exec start pollRacesClose = some s ∧ ¬ HalfCloseOk s) := by
  refine ⟨⟨_, rfl, fun ok => ?_⟩, ⟨_, rfl, fun ok => ?_⟩⟩
  · exact absurd (ok.not_writtenAfter (k := 3) (l := 4) (by decide)) nofun
  · exact absurd (ok.not_writtenAfter (k := 1) (l := 2) (by decide)) nofun

end KubeMQ.Downstream
