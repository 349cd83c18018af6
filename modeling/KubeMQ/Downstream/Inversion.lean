import KubeMQ.Downstream.Model

/-!
# Inversion of the downstream receiver's steps

`CallStep` and `Step` say, with one constructor for each atomic step, everything `callNext` and
`next` can do; `CallStep.of_next` and `Step.of_next` invert the executable functions. The mutual
exclusion that `stream_mu` gives is stated once, as `Exclusive`, and kept by every step.
-/

namespace KubeMQ.Downstream

open Proto (QueuesDownstreamRequest QueuesDownstreamResponse)

variable {ε : Env}

/-- The status of a `Poll` after `Close`. -/
def closedError : Status := pollError .kFatal "downstream receiver is closed" ""

def writeFailed (r : PollRequest) : Status :=
  pollError .kTransient "failed to write poll request to downstream stream" r.channel

def readFailed (r : PollRequest) : Status :=
  pollError .kTransient "failed to read poll response from downstream stream" r.channel

/-- The steps of call `i`. -/
inductive CallStep (ε : Env) (m : Mem) (i : ℕ) : CallPc → CallLabel → Mem → CallPc → Prop where
  | pollClosed {r} :
    m.closed = true →
    CallStep ε m i (.pollCheck r) .tau m (.polled (.error closedError))
  | pollInvalid {r} :
    m.closed = false →
    (validateChannel r.channel "QueueDownstreamReceiver::Poll").ok = false →
    CallStep ε m i (.pollCheck r) .tau m
      (.polled (.error (validateChannel r.channel "QueueDownstreamReceiver::Poll")))
  | pollCheck {r} :
    m.closed = false →
    (validateChannel r.channel "QueueDownstreamReceiver::Poll").ok = true →
    CallStep ε m i (.pollCheck r) .tau { m with uuids := m.uuids + 1 }
      (.pollLock r (getRequest (ε.uuid m.uuids) ε.clientId r))
  | pollLock {r req} :
    m.streamMu = none →
    CallStep ε m i (.pollLock r req) .tau { m with streamMu := some i } (.pollWrite r req)
  | pollWrite {r req} :
    CallStep ε m i (.pollWrite r req) (.wrote true) (m.write i req true true) (.pollRead r req)
  | pollWriteFailed {r req} :
    CallStep ε m i (.pollWrite r req) (.wrote false) (m.write i req false true)
      (.pollFailed (writeFailed r))
  | pollRead {r req a rest} :
    m.incoming = a :: rest →
    CallStep ε m i (.pollRead r req) .tau ({ m with incoming := rest }.observe (.read i a))
      (.pollGot r a.response)
  | pollReadFailed {r req} :
    m.broken = true →
    m.incoming = [] →
    CallStep ε m i (.pollRead r req) .readFail m (.pollFailed (readFailed r))
  | pollFailed {s} :
    CallStep ε m i (.pollFailed s) .tau { m with streamMu := none } (.polled (.error s))
  | pollGot {r resp} :
    CallStep ε m i (.pollGot r resp) .tau
      { m with streamMu := none, uuids := m.uuids + resp.messages.length }
      (.polled (pollResult (fun k => ε.uuid (m.uuids + k)) r resp))
  | settleReturns {q a s} :
    prepareSettle true (ε.uuid m.uuids) q a = .returns s →
    CallStep ε m i (.settleStart q a) .tau m (.settled s)
  | settleWrites {q a op req} :
    prepareSettle true (ε.uuid m.uuids) q a = .writes op req →
    CallStep ε m i (.settleStart q a) .tau { m with uuids := m.uuids + 1 } (.settleLock op req)
  | settleAllReturns {p a s} :
    prepareSettleAll true (ε.uuid m.uuids) p a = .returns s →
    CallStep ε m i (.settleAllStart p a) .tau m (.settled s)
  | settleAllWrites {p a op req} :
    prepareSettleAll true (ε.uuid m.uuids) p a = .writes op req →
    CallStep ε m i (.settleAllStart p a) .tau { m with uuids := m.uuids + 1 } (.settleLock op req)
  | settleLock {op req} :
    m.streamMu = none →
    CallStep ε m i (.settleLock op req) .tau { m with streamMu := some i } (.settleWrite op req)
  | settleWrite {op req ok} :
    CallStep ε m i (.settleWrite op req) (.wrote ok) (m.write i req ok true)
      (.settleUnlock (if ok then .okStatus else settleWriteError op))
  | settleUnlock {s} :
    CallStep ε m i (.settleUnlock s) .tau { m with streamMu := none } (.settled s)
  | closeAgain :
    m.closed = true →
    CallStep ε m i .closeExchange .tau m .closed
  | closeExchange :
    m.closed = false →
    CallStep ε m i .closeExchange .tau { m with closed := true, uuids := m.uuids + 1 }
      (.closeLock (closeRequest (ε.uuid m.uuids)))
  | closeLock {req} :
    m.streamMu = none →
    CallStep ε m i (.closeLock req) .tau { m with streamMu := some i } (.closeWrite req)
  | closeWrite {req ok} :
    CallStep ε m i (.closeWrite req) (.wrote ok) (m.write i req ok false) .closeWritesDone
  | closeWritesDone :
    CallStep ε m i .closeWritesDone .tau
      ({ m with halfClosed := true }.observe (.writesDone i)) .closeUnlock
  | closeUnlock :
    CallStep ε m i .closeUnlock .tau { m with streamMu := none } .closed

/-- The steps of a receiver and its server. -/
inductive Step (ε : Env) (s : Receiver) : Action → Receiver → Prop where
  | begin {op pc} :
    s.startPc op = some pc →
    Step ε s (.begin op)
      { s with calls := s.calls ++ [⟨s.calls.any fun c => c.pc.isClosed, pc⟩] }
  | call {i l c m' pc'} :
    s.calls[i]? = some c →
    CallStep ε s.mem i c.pc l m' pc' →
    Step ε s (.call i l) ⟨m', s.calls.set i { c with pc := pc' }⟩
  | answer {k q resp} :
    s.mem.pending[k]? = some q →
    resp.refRequestId = q.request.requestID →
    Step ε s (.answer k resp)
      { s with mem := { s.mem with
        pending := s.mem.pending.eraseIdx k
        incoming := s.mem.incoming ++ [⟨q.call, q.request, resp⟩] } }
  | breakStream :
    Step ε s .breakStream { s with mem := { s.mem with broken := true, pending := [] } }

/-- Where an operation can begin. -/
inductive Starts : CallPc → Prop where
  | poll {r} : Starts (.pollCheck r)
  | settle {q a} : Starts (.settleStart q a)
  | settleAll {p a} : Starts (.settleAllStart p a)
  | close : Starts .closeExchange

lemma Starts.of_startPc {s : Receiver} {op : Op} {pc : CallPc} (h : s.startPc op = some pc) :
    Starts pc := by
  cases op with
  | poll r =>
    cases h
    exact .poll
  | settle j k a =>
    obtain ⟨p, -, hq⟩ := Option.bind_eq_some_iff.mp h
    obtain ⟨q, -, rfl⟩ := Option.map_eq_some_iff.mp hq
    exact .settle
  | settleAll j a =>
    obtain ⟨p, -, rfl⟩ := Option.map_eq_some_iff.mp h
    exact .settleAll
  | close =>
    cases h
    exact .close

lemma CallStep.of_next {m m' : Mem} {i : ℕ} {pc pc' : CallPc} {l : CallLabel}
    (hn : callNext ε m i pc l = some (m', pc')) : CallStep ε m i pc l m' pc' := by
  unfold callNext at hn
  split at hn
  case h_1 r =>
    split at hn
    · next hc =>
      cases hn
      exact .pollClosed hc
    · next hc =>
      have hc : m.closed = false := by simpa using hc
      cases hv : (validateChannel r.channel "QueueDownstreamReceiver::Poll").ok with
      | false =>
        simp only [hv, Bool.not_false, if_true] at hn
        cases hn
        exact .pollInvalid hc hv
      | true =>
        simp only [hv, Bool.not_true, Bool.false_eq_true, if_false] at hn
        cases hn
        exact .pollCheck hc hv
  case h_3 r req ok =>
    cases ok <;> cases hn
    · exact .pollWriteFailed
    · exact .pollWrite
  case h_5 r req =>
    split at hn
    · next hb =>
      cases hn
      simp only [Bool.and_eq_true, List.isEmpty_iff] at hb
      exact .pollReadFailed hb.1 hb.2
    · cases hn
  case h_11 op req ok =>
    cases hn
    exact .settleWrite
  all_goals (try split at hn) <;> cases hn
  all_goals constructor <;> simp_all

lemma Step.of_next {s s' : Receiver} {a : Action} (hn : next ε s a = some s') : Step ε s a s' := by
  cases a with
  | begin op =>
    obtain ⟨pc, hpc, rfl⟩ := Option.map_eq_some_iff.mp hn
    exact .begin hpc
  | call i l =>
    obtain ⟨c, hc, hm⟩ := Option.bind_eq_some_iff.mp hn
    obtain ⟨⟨m', pc'⟩, hr, rfl⟩ := Option.map_eq_some_iff.mp hm
    exact .call hc (.of_next hr)
  | answer k resp =>
    obtain ⟨q, hq, ha⟩ := Option.bind_eq_some_iff.mp hn
    split at ha
    · next hr =>
      cases ha
      exact .answer hq hr
    · cases ha
  | breakStream =>
    cases hn
    exact .breakStream

/-- The control states between taking and giving back `stream_mu`. -/
def CallPc.critical : CallPc → Bool
  | .pollWrite _ _ => true
  | .pollRead _ _ => true
  | .pollFailed _ => true
  | .pollGot _ _ => true
  | .settleWrite _ _ => true
  | .settleUnlock _ => true
  | .closeWrite _ => true
  | .closeWritesDone => true
  | .closeUnlock => true
  | _ => false

/-- A call inside its critical section holds `stream_mu`. -/
def Exclusive (s : Receiver) : Prop :=
  Lts.Locked (fun c : Call => c.pc.critical) s.mem.streamMu s.calls

/-- What a step of a call does to `stream_mu`. -/
inductive LockStep (i : ℕ) : Option ℕ → CallPc → Option ℕ → CallPc → Prop where
  | acquire {pc pc'} :
    LockStep i none pc (some i) pc'
  | release {mu pc pc'} :
    pc.critical = true →
    pc'.critical = false →
    LockStep i mu pc none pc'
  | keep {mu pc pc'} :
    (pc'.critical = true → pc.critical = true) →
    LockStep i mu pc mu pc'

lemma CallStep.lock {m m' : Mem} {i : ℕ} {pc pc' : CallPc} {l : CallLabel}
    (st : CallStep ε m i pc l m' pc') : LockStep i m.streamMu pc m'.streamMu pc' := by
  cases st
  case pollLock h =>
    rw [h]
    exact .acquire
  case settleLock h =>
    rw [h]
    exact .acquire
  case closeLock h =>
    rw [h]
    exact .acquire
  case pollFailed => exact .release rfl rfl
  case pollGot => exact .release rfl rfl
  case settleUnlock => exact .release rfl rfl
  case closeUnlock => exact .release rfl rfl
  all_goals exact .keep (by simp [CallPc.critical])

lemma Starts.not_critical {pc : CallPc} (h : Starts pc) : pc.critical = false := by
  cases h <;> rfl

lemma exclusive_start : Exclusive start := .nil

lemma Exclusive.step {s t : Receiver} {a : Action} (ex : Exclusive s) (st : Step ε s a t) :
    Exclusive t := by
  cases st with
  | begin h => exact Lts.Locked.append ex (Starts.of_startPc h).not_critical
  | @call i l c m' pc' hc st =>
    have hl := st.lock
    unfold Exclusive at ex ⊢
    generalize s.mem.streamMu = mu at ex hl
    generalize m'.streamMu = mu' at hl
    cases hl with
    | acquire => exact ex.acquire
    | release hp hp' => exact ex.release hc hp hp'
    | keep le => exact ex.keep hc le
  | answer => exact ex
  | breakStream => exact ex

/-- Two calls in their critical sections are one. -/
lemma Exclusive.unique {s : Receiver} (ex : Exclusive s) {i j : ℕ} {c d : Call}
    (hc : s.calls[i]? = some c) (pc : c.pc.critical = true) (hd : s.calls[j]? = some d)
    (pd : d.pc.critical = true) : i = j :=
  Lts.Locked.unique ex hc pc hd pd

end KubeMQ.Downstream
