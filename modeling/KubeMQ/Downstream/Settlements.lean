import KubeMQ.Downstream.HalfClose
import KubeMQ.Lts.History

/-!
# What settlements write

Every request on the downstream stream is the one that the operation of its call asks for: the `Get`
of a `Poll`, the `CloseByClient` of a `Close`, or what a settlement says about a response that an
earlier `Poll` has returned. A call writes at most one request, and a settlement says OK when it has
written it, or when its batch has no messages.
-/

namespace KubeMQ.Downstream

open Proto (QueuesDownstreamRequest QueuesDownstreamResponse)

variable {ε : Env} {s t : Receiver} {m m' : Mem} {i j : ℕ} {op : Op} {pc pc' : CallPc}
  {l : CallLabel} {req : QueuesDownstreamRequest} {ok : Bool} {st : Status}
  {ws : List (QueuesDownstreamRequest × Bool)}

/-- The requests that call `i` has written, with the answers of `Write`. -/
def writesOf (i : ℕ) (log : List Obs) : List (QueuesDownstreamRequest × Bool) :=
  log.filterMap fun
    | .write j req ok => if j = i then some (req, ok) else none
    | _ => none

/-- What a step of a call adds to them. -/
def CallPc.writes : CallPc → CallLabel → List (QueuesDownstreamRequest × Bool)
  | .pollWrite _ req, .wrote ok => [(req, ok)]
  | .settleWrite _ req, .wrote ok => [(req, ok)]
  | .closeWrite req, .wrote ok => [(req, ok)]
  | _, _ => []

lemma writesOf_append (i : ℕ) (log new : List Obs) :
    writesOf i (log ++ new) = writesOf i log ++ writesOf i new := List.filterMap_append

lemma mem_writesOf {log : List Obs} : (req, ok) ∈ writesOf i log ↔ .write i req ok ∈ log := by
  unfold writesOf
  rw [List.mem_filterMap]
  constructor
  · rintro ⟨o, ho, h⟩
    cases o with
    | write j req' ok' =>
      by_cases hj : j = i
      · subst hj
        simp only [if_true, Option.some.injEq, Prod.mk.injEq] at h
        obtain ⟨rfl, rfl⟩ := h
        exact ho
      · simp only [if_neg hj] at h
        cases h
    | read j a => cases h
    | writesDone j => cases h
  · intro h
    exact ⟨_, h, if_pos rfl⟩

/-- A step of call `i` writes for call `i` alone. -/
lemma CallStep.writesOf (st : CallStep ε m i pc l m' pc') (j : ℕ) :
    Downstream.writesOf j m'.log =
      Downstream.writesOf j m.log ++ if i = j then pc.writes l else [] := by
  cases st
  case pollWrite =>
    rw [Mem.write, writesOf_append]
    by_cases h : i = j <;> simp [Downstream.writesOf, CallPc.writes, h]
  case pollWriteFailed =>
    rw [Mem.write, writesOf_append]
    by_cases h : i = j <;> simp [Downstream.writesOf, CallPc.writes, h]
  case settleWrite =>
    rw [Mem.write, writesOf_append]
    by_cases h : i = j <;> simp [Downstream.writesOf, CallPc.writes, h]
  case closeWrite =>
    rw [Mem.write, writesOf_append]
    by_cases h : i = j <;> simp [Downstream.writesOf, CallPc.writes, h]
  all_goals simp [Mem.observe, Downstream.writesOf, CallPc.writes]

/-- A request that operation `op` writes. A settlement writes about the message or the batch it was
called on, when that carries a transaction and was polled without automatic acknowledgement. -/
inductive Requested (ε : Env) (s : Receiver) : Op → QueuesDownstreamRequest → Prop where
  | poll {r} (n : ℕ) :
    (validateChannel r.channel "QueueDownstreamReceiver::Poll").ok = true →
    Requested ε s (.poll r) (getRequest (ε.uuid n) ε.clientId r)
  | close (n : ℕ) :
    Requested ε s .close (closeRequest (ε.uuid n))
  | settle {j k a p q} (n : ℕ) :
    s.response j = some p →
    p.messages[k]? = some q →
    p.autoAck = false →
    p.transactionId ≠ "" →
    a.rejected = false →
    Requested ε s (.settle j k a)
      (settleRequest (ε.uuid n) p.transactionId a.range [Int.bmod q.sequence (2 ^ 64)])
  | settleAll {j a p} (n : ℕ) :
    s.response j = some p →
    p.messages ≠ [] →
    p.autoAck = false →
    p.transactionId ≠ "" →
    a.rejected = false →
    Requested ε s (.settleAll j a) (settleRequest (ε.uuid n) p.transactionId a.all [])

/-- A settlement of a batch that has passed every check and has no messages. -/
inductive Vacuous (s : Receiver) : Op → Prop where
  | batch {j a p} :
    s.response j = some p →
    p.messages = [] →
    p.autoAck = false →
    p.transactionId ≠ "" →
    a.rejected = false →
    Vacuous s (.settleAll j a)

/-- What a settlement returns that does not get to the stream. -/
inductive Refused (s : Receiver) : Op → Status → Prop where
  | message {j k : ℕ} {a : Settlement} {st : Status} :
    st.ok = false →
    Refused s (.settle j k a) st
  | batch {j : ℕ} {a : Settlement} {p : PollResponse} {st : Status} :
    s.response j = some p →
    (st.ok = true ↔ p.messages = [] ∧ p.autoAck = false ∧ p.transactionId ≠ "" ∧
      a.rejected = false) →
    Refused s (.settleAll j a) st

/-- What a settlement has written when it has the status `st` to return. -/
inductive Outcome (ε : Env) (s : Receiver) (op : Op) :
    List (QueuesDownstreamRequest × Bool) → Status → Prop where
  | refused {st : Status} :
    Refused s op st →
    Outcome ε s op [] st
  | wrote {req : QueuesDownstreamRequest} {ok : Bool} {st : Status} :
    Requested ε s op req →
    st.ok = ok →
    Outcome ε s op [(req, ok)] st

/-- Nothing, or one request. -/
def Single (ε : Env) (s : Receiver) (op : Op) (ws : List (QueuesDownstreamRequest × Bool)) : Prop :=
  ws = [] ∨ ∃ req ok, ws = [(req, ok)] ∧ Requested ε s op req

/-- A response as `Poll` makes it of what it has read. -/
def Polled (ε : Env) (p : PollResponse) : Prop :=
  ∃ (n : ℕ) (r : PollRequest) (resp : QueuesDownstreamResponse),
    p = pollResponse (fun k => ε.uuid (n + k)) r resp

/-- What a call of operation `op` at a control state has written, and is about to write. -/
def CallPc.Fits (ε : Env) (s : Receiver) (op : Op) (ws : List (QueuesDownstreamRequest × Bool)) :
    CallPc → Prop
  | .pollCheck r => ws = [] ∧ op = .poll r
  | .pollLock _ req => ws = [] ∧ Requested ε s op req
  | .pollWrite _ req => ws = [] ∧ Requested ε s op req
  | .settleStart q a => ws = [] ∧ ∃ j k p, op = .settle j k a ∧ s.response j = some p ∧
      p.messages[k]? = some q ∧ q.transactionId = p.transactionId ∧ q.autoAck = p.autoAck
  | .settleAllStart p a => ws = [] ∧ ∃ j, op = .settleAll j a ∧ s.response j = some p
  | .settleLock _ req => ws = [] ∧ Requested ε s op req
  | .settleWrite _ req => ws = [] ∧ Requested ε s op req
  | .polled v => Single ε s op ws ∧ ∀ p, v = .value p → Polled ε p
  | .settleUnlock st => Outcome ε s op ws st
  | .settled st => Outcome ε s op ws st
  | .closeExchange => ws = [] ∧ op = .close
  | .closeLock req => ws = [] ∧ Requested ε s op req
  | .closeWrite req => ws = [] ∧ Requested ε s op req
  | _ => Single ε s op ws

/-- The responses of the polls stay. -/
def Grows (s t : Receiver) : Prop := ∀ j p, s.response j = some p → t.response j = some p

lemma Requested.mono (h : Requested ε s op req) (hg : Grows s t) : Requested ε t op req := by
  cases h with
  | poll n hv => exact .poll n hv
  | close n => exact .close n
  | settle n hj hk ha ht hr => exact .settle n (hg _ _ hj) hk ha ht hr
  | settleAll n hj hm ha ht hr => exact .settleAll n (hg _ _ hj) hm ha ht hr

lemma Outcome.mono (h : Outcome ε s op ws st) (hg : Grows s t) : Outcome ε t op ws st := by
  cases h with
  | wrote hreq hok => exact .wrote (hreq.mono hg) hok
  | refused hr =>
    cases hr with
    | message hst => exact .refused (.message hst)
    | batch hj hst => exact .refused (.batch (hg _ _ hj) hst)

lemma Single.mono (h : Single ε s op ws) (hg : Grows s t) : Single ε t op ws := by
  obtain rfl | ⟨req, ok, rfl, hreq⟩ := h
  · exact .inl rfl
  · exact .inr ⟨req, ok, rfl, hreq.mono hg⟩

lemma CallPc.Fits.mono (h : pc.Fits ε s op ws) (hg : Grows s t) : pc.Fits ε t op ws := by
  cases pc with
  | pollCheck => exact h
  | closeExchange => exact h
  | pollLock => exact ⟨h.1, h.2.mono hg⟩
  | pollWrite => exact ⟨h.1, h.2.mono hg⟩
  | closeLock => exact ⟨h.1, h.2.mono hg⟩
  | closeWrite => exact ⟨h.1, h.2.mono hg⟩
  | settleLock => exact ⟨h.1, h.2.mono hg⟩
  | settleWrite => exact ⟨h.1, h.2.mono hg⟩
  | polled => exact ⟨h.1.mono hg, h.2⟩
  | settleUnlock => exact Outcome.mono h hg
  | settled => exact Outcome.mono h hg
  | settleStart q a =>
    obtain ⟨hws, j, k, p, hop, hj, hq⟩ := h
    exact ⟨hws, j, k, p, hop, hg j p hj, hq⟩
  | settleAllStart p a =>
    obtain ⟨hws, j, hop, hj⟩ := h
    exact ⟨hws, j, hop, hg j p hj⟩
  | _ => exact Single.mono h hg

lemma Outcome.single (h : Outcome ε s op ws st) : Single ε s op ws := by
  cases h with
  | refused => exact .inl rfl
  | wrote hreq => exact .inr ⟨_, _, rfl, hreq⟩

/-- Every call has written nothing, or one request. -/
lemma CallPc.Fits.single (h : pc.Fits ε s op ws) : Single ε s op ws := by
  cases pc with
  | pollCheck => exact .inl h.1
  | closeExchange => exact .inl h.1
  | pollLock => exact .inl h.1
  | pollWrite => exact .inl h.1
  | closeLock => exact .inl h.1
  | closeWrite => exact .inl h.1
  | settleLock => exact .inl h.1
  | settleWrite => exact .inl h.1
  | settleStart => exact .inl h.1
  | settleAllStart => exact .inl h.1
  | polled => exact h.1
  | settleUnlock => exact Outcome.single h
  | settled => exact Outcome.single h
  | _ => exact h

lemma polled_of_result {n : ℕ} {r : PollRequest} {resp : QueuesDownstreamResponse} {p : PollResponse}
    (h : pollResult (fun k => ε.uuid (n + k)) r resp = .value p) : Polled ε p := by
  unfold pollResult at h
  split at h
  next => cases h
  next =>
    cases h
    exact ⟨n, r, resp, rfl⟩

/-- A message that a poll has handed out carries the transaction of its response. -/
lemma Polled.message {p : PollResponse} {q : QueueDownstreamMessage} (h : Polled ε p)
    (hq : q ∈ p.messages) : q.transactionId = p.transactionId ∧ q.autoAck = p.autoAck := by
  obtain ⟨n, r, resp, rfl⟩ := h
  obtain ⟨k, x, -, rfl⟩ := List.mem_mapIdx.mp hq
  exact ⟨rfl, rfl⟩

/-- A settlement of a message that gets to the stream has passed all its checks. -/
lemma prepareSettle_writes {uuid name : String} {q : QueueDownstreamMessage} {a : Settlement}
    (h : prepareSettle true uuid q a = .writes name req) :
    a.rejected = false ∧ q.autoAck = false ∧ q.transactionId ≠ "" ∧
      req = settleRequest uuid q.transactionId a.range [Int.bmod q.sequence (2 ^ 64)] := by
  unfold prepareSettle at h
  split at h
  next => cases h
  next hr =>
    split at h
    next => cases h
    next ha =>
      rw [Bool.not_true, if_neg Bool.false_ne_true] at h
      split at h
      next => cases h
      next ht =>
        cases h
        exact ⟨by simpa using hr, by simpa using ha, by simpa using ht, rfl⟩

/-- So has a settlement of a batch, which is not empty then. -/
lemma prepareSettleAll_writes {uuid name : String} {p : PollResponse} {a : Settlement}
    (h : prepareSettleAll true uuid p a = .writes name req) :
    a.rejected = false ∧ p.autoAck = false ∧ p.transactionId ≠ "" ∧ p.messages ≠ [] ∧
      req = settleRequest uuid p.transactionId a.all [] := by
  unfold prepareSettleAll at h
  split at h
  next => cases h
  next hr =>
    split at h
    next => cases h
    next ha =>
      rw [Bool.not_true, if_neg Bool.false_ne_true] at h
      split at h
      next => cases h
      next ht =>
        split at h
        next => cases h
        next hm =>
          cases h
          exact ⟨by simpa using hr, by simpa using ha, by simpa using ht, by simpa using hm, rfl⟩

/-- A settlement of a batch that does not get to the stream says OK when only messages are missing. -/
lemma prepareSettleAll_returns {uuid : String} {p : PollResponse} {a : Settlement}
    (h : prepareSettleAll true uuid p a = .returns st) :
    st.ok = true ↔ p.messages = [] ∧ p.autoAck = false ∧ p.transactionId ≠ "" ∧
      a.rejected = false := by
  cases hg : a.rejected || p.autoAck || p.transactionId.isEmpty || !p.messages.isEmpty with
  | true =>
    rw [prepareSettleAll_error h hg]
    constructor
    · intro hok
      cases hok
    · rintro ⟨hm, ha, ht, hr⟩
      simp [hm, ha, ht, hr] at hg
  | false =>
    simp only [Bool.or_eq_false_iff, Bool.not_eq_false'] at hg
    obtain ⟨⟨⟨hr, ha⟩, ht⟩, hm⟩ := hg
    simp only [prepareSettleAll, hr, ha, ht, hm, Bool.not_true, if_true, Bool.false_eq_true,
      if_false] at h
    cases h
    exact ⟨fun _ => ⟨List.isEmpty_iff.mp hm, ha, by simpa using ht, hr⟩, fun _ => rfl⟩

/-- One step of a call, with the responses of the polls as they are. -/
lemma CallStep.fits (st : CallStep ε m i pc l m' pc') (h : pc.Fits ε s op ws) :
    pc'.Fits ε s op (ws ++ pc.writes l) := by
  have hws : ws ++ [] = ws := List.append_nil ws
  cases st with
  | pollCheck hc hv =>
    obtain ⟨rfl, rfl⟩ := h
    exact ⟨rfl, .poll _ hv⟩
  | closeExchange hc =>
    obtain ⟨rfl, rfl⟩ := h
    exact ⟨rfl, .close _⟩
  | pollClosed => exact ⟨.inl (hws.trans h.1), nofun⟩
  | pollInvalid => exact ⟨.inl (hws.trans h.1), nofun⟩
  | pollFailed => exact ⟨hws.symm ▸ h, nofun⟩
  | pollGot => exact ⟨hws.symm ▸ h, fun p hp => polled_of_result hp⟩
  | closeAgain => exact .inl (hws.trans h.1)
  | pollLock => exact ⟨hws.trans h.1, h.2⟩
  | settleLock => exact ⟨hws.trans h.1, h.2⟩
  | closeLock => exact ⟨hws.trans h.1, h.2⟩
  | pollWrite =>
    obtain ⟨rfl, hreq⟩ := h
    exact .inr ⟨_, _, rfl, hreq⟩
  | pollWriteFailed =>
    obtain ⟨rfl, hreq⟩ := h
    exact .inr ⟨_, _, rfl, hreq⟩
  | closeWrite =>
    obtain ⟨rfl, hreq⟩ := h
    exact .inr ⟨_, _, rfl, hreq⟩
  | @settleWrite name req ok =>
    obtain ⟨rfl, hreq⟩ := h
    refine .wrote hreq ?_
    cases ok <;> rfl
  | settleReturns hp =>
    obtain ⟨rfl, j, k, p, rfl, -⟩ := h
    exact .refused (.message (prepareSettle_error hp))
  | settleWrites hp =>
    obtain ⟨rfl, j, k, p, rfl, hj, hk, htx, hauto⟩ := h
    obtain ⟨hr, ha, ht, rfl⟩ := prepareSettle_writes hp
    refine ⟨rfl, ?_⟩
    rw [htx] at ht ⊢
    exact .settle _ hj hk (hauto ▸ ha) ht hr
  | settleAllReturns hp =>
    obtain ⟨rfl, j, rfl, hj⟩ := h
    exact .refused (.batch hj (prepareSettleAll_returns hp))
  | settleAllWrites hp =>
    obtain ⟨rfl, j, rfl, hj⟩ := h
    obtain ⟨hr, ha, ht, hm, rfl⟩ := prepareSettleAll_writes hp
    exact ⟨rfl, .settleAll _ hj hm ha ht hr⟩
  | _ => exact hws.symm ▸ h

/-- Where an operation begins nothing is written. -/
lemma startPc_fits (hs : ∀ j p, s.response j = some p → Polled ε p)
    (h : s.startPc op = some pc) : pc.Fits ε s op [] := by
  cases op with
  | poll r =>
    cases h
    exact ⟨rfl, rfl⟩
  | close =>
    cases h
    exact ⟨rfl, rfl⟩
  | settle j k a =>
    obtain ⟨p, hp, hq⟩ := Option.bind_eq_some_iff.mp h
    obtain ⟨q, hk, rfl⟩ := Option.map_eq_some_iff.mp hq
    exact ⟨rfl, j, k, p, rfl, hp, hk, (hs j p hp).message (List.mem_of_getElem? hk)⟩
  | settleAll j a =>
    obtain ⟨p, hp, rfl⟩ := Option.map_eq_some_iff.mp h
    exact ⟨rfl, j, rfl, hp⟩

/-- A returned poll is not touched again. -/
lemma Step.grows {a : Action} (st : Step ε s a t) : Grows s t := by
  intro j p hp
  unfold Receiver.response at hp ⊢
  split at hp
  next late v hj =>
    obtain rfl := Option.some.inj hp
    cases st with
    | begin _ =>
      rw [List.getElem?_append_left (List.getElem?_eq_some_iff.mp hj).1, hj]
    | @call i l c m' pc' hc st =>
      have hij : i ≠ j := by
        rintro rfl
        rw [hc] at hj
        obtain rfl := Option.some.inj hj
        cases st
      rw [List.getElem?_set_ne hij, hj]
    | answer => rw [hj]
    | breakStream => rw [hj]
  next => cases hp

/-- The operation that an action begins. -/
def Action.begins : Action → List Op
  | .begin op => [op]
  | _ => []

/-- The system of one receiver and its server, with the operation of each call on record. -/
def opened (ε : Env) : Lts.Sys (Lts.Recorded Receiver Op) Action :=
  (sys ε).recording fun _ a => a.begins

section Opened

variable {v w : Lts.Recorded Receiver Op}

/-- Every call fits its operation and what the log says it has written. -/
structure Faithful (ε : Env) (v : Lts.Recorded Receiver Op) : Prop where
  length : v.record.length = v.state.calls.length
  fits : ∀ (i : ℕ) (c : Call) (op : Op), v.state.calls[i]? = some c → v.record[i]? = some op →
    c.pc.Fits ε v.state op (writesOf i v.state.mem.log)
  known : ∀ i, writesOf i v.state.mem.log ≠ [] → i < v.state.calls.length

lemma faithful_start : Faithful ε ⟨start, []⟩ where
  length := rfl
  fits := fun i c op h => absurd h (by simp [start])
  known := fun i h => absurd rfl h

/-- The operation of a call. -/
lemma Faithful.operation (inv : Faithful ε v) {c : Call} (hc : v.state.calls[i]? = some c) :
    ∃ op, v.record[i]? = some op ∧ c.pc.Fits ε v.state op (writesOf i v.state.mem.log) := by
  have hlt : i < v.record.length := inv.length ▸ (List.getElem?_eq_some_iff.mp hc).1
  exact ⟨_, List.getElem?_eq_getElem hlt, inv.fits i c _ hc (List.getElem?_eq_getElem hlt)⟩

lemma Faithful.polled (inv : Faithful ε v) (j : ℕ) (p : PollResponse)
    (h : v.state.response j = some p) : Polled ε p := by
  unfold Receiver.response at h
  split at h
  next late r hj =>
    obtain rfl := Option.some.inj h
    obtain ⟨op, -, hfits⟩ := inv.operation hj
    exact hfits.2 _ rfl
  next => cases h

lemma Faithful.step {a : Action} (inv : Faithful ε v) (hn : (opened ε).next v a = some w) :
    Faithful ε w := by
  obtain ⟨t, ht, rfl⟩ := Lts.Sys.recording_next.mp hn
  have hstep := Step.of_next ht
  have hg := hstep.grows
  cases hstep with
  | @begin op pc hpc =>
    have hlength : v.record.length = v.state.calls.length := inv.length
    constructor
    · simp [hlength, Action.begins]
    · intro j d op' hd hop
      rcases Lts.getElem?_concat_cases hd with hd | ⟨rfl, rfl⟩
      · have hlt : j < v.record.length := hlength ▸ (List.getElem?_eq_some_iff.mp hd).1
        rw [List.getElem?_append_left hlt] at hop
        exact (inv.fits j d op' hd hop).mono hg
      · rw [Action.begins, ← hlength, List.getElem?_concat_length] at hop
        obtain rfl := Option.some.inj hop
        have hnil : writesOf v.state.calls.length v.state.mem.log = [] := by
          by_contra hne
          exact absurd (inv.known _ hne) (lt_irrefl _)
        show pc.Fits ε _ op (writesOf v.state.calls.length v.state.mem.log)
        rw [hnil]
        exact (startPc_fits inv.polled hpc).mono hg
    · intro j hj
      have hlt := inv.known j hj
      show j < (v.state.calls ++ [_]).length
      rw [List.length_append]
      omega
  | @call i l c m' pc' hc st =>
    have hrecord : v.record ++ (Action.call i l).begins = v.record := List.append_nil _
    rw [hrecord]
    constructor
    · show v.record.length = (v.state.calls.set i _).length
      rw [List.length_set]
      exact inv.length
    · intro j d op hd hop
      show d.pc.Fits ε _ op (writesOf j m'.log)
      rw [st.writesOf j]
      rcases Lts.getElem?_set_cases hd with ⟨rfl, rfl⟩ | ⟨hij, hd⟩
      · rw [if_pos rfl]
        exact (st.fits (inv.fits j c op hc hop)).mono hg
      · rw [if_neg (Ne.symm hij), List.append_nil]
        exact (inv.fits j d op hd hop).mono hg
    · intro j hj
      show j < (v.state.calls.set i _).length
      rw [List.length_set]
      by_cases hij : i = j
      · exact hij ▸ (List.getElem?_eq_some_iff.mp hc).1
      · apply inv.known j
        have hlog : writesOf j m'.log ≠ [] := hj
        rw [st.writesOf j, if_neg hij, List.append_nil] at hlog
        exact hlog
  | @answer k q resp _ _ =>
    have hrecord : v.record ++ (Action.answer k resp).begins = v.record := List.append_nil _
    rw [hrecord]
    exact ⟨inv.length, fun j d op hd hop => (inv.fits j d op hd hop).mono hg, inv.known⟩
  | breakStream =>
    have hrecord : v.record ++ Action.breakStream.begins = v.record := List.append_nil _
    rw [hrecord]
    exact ⟨inv.length, fun j d op hd hop => (inv.fits j d op hd hop).mono hg, inv.known⟩

lemma faithful_reachable (h : (opened ε).Reachable v) : Faithful ε v := by
  apply h.invariant (I := Faithful ε)
  · rintro ⟨s, record⟩ ⟨rfl, rfl⟩
    exact faithful_start
  · intro v a w _ inv _ hn
    exact inv.step hn

/-- What call `i` has written is what its operation asks for. -/
lemma Faithful.single (inv : Faithful ε v) (i : ℕ) : writesOf i v.state.mem.log = [] ∨
    ∃ op, v.record[i]? = some op ∧ Single ε v.state op (writesOf i v.state.mem.log) := by
  by_cases hnil : writesOf i v.state.mem.log = []
  · exact .inl hnil
  · have hc := List.getElem?_eq_getElem (inv.known i hnil)
    obtain ⟨op, hop, hfits⟩ := inv.operation hc
    exact .inr ⟨op, hop, hfits.single⟩

lemma Faithful.once (inv : Faithful ε v) (i : ℕ) : (writesOf i v.state.mem.log).length ≤ 1 := by
  obtain hnil | ⟨op, -, hnil | ⟨req, ok, heq, -⟩⟩ := inv.single i
  · simp [hnil]
  · simp [hnil]
  · simp [heq]

end Opened

/-- No call writes twice. -/
lemma writesOf_length_le (h : (sys ε).Reachable s) (i : ℕ) :
    (writesOf i s.mem.log).length ≤ 1 := by
  obtain ⟨record, ho⟩ := h.exists_record fun _ a => a.begins
  exact (faithful_reachable ho).once i

/-- A settlement that writes has something to settle. -/
lemma Requested.not_vacuous (h : Requested ε s op req) : ¬ Vacuous s op := by
  rintro ⟨hj, hm, -⟩
  cases h with
  | settleAll n hj' hm' =>
    obtain rfl := Option.some.inj (hj.symm.trans hj')
    exact hm' hm

lemma Refused.ok_iff (h : Refused s op st) : st.ok = true ↔ Vacuous s op := by
  cases h with
  | message hst =>
    rw [hst]
    exact ⟨nofun, nofun⟩
  | @batch j a p st hj hst =>
    rw [hst]
    constructor
    · rintro ⟨hm, ha, ht, hr⟩
      exact .batch hj hm ha ht hr
    · rintro ⟨hj', hm, ha, ht, hr⟩
      obtain rfl := Option.some.inj (hj.symm.trans hj')
      exact ⟨hm, ha, ht, hr⟩

/-- A settlement says OK when `Write` took its request, or when there was nothing to write. -/
lemma Outcome.ok_iff (h : Outcome ε s op ws st) :
    st.ok = true ↔ (∃ req, (req, true) ∈ ws) ∨ Vacuous s op := by
  cases h with
  | refused hr => simp [hr.ok_iff]
  | @wrote req ok st hreq hok =>
    rw [hok]
    constructor
    · rintro rfl
      exact .inl ⟨req, List.mem_cons_self⟩
    · rintro (⟨req', hmem⟩ | hv)
      · exact (Prod.mk.inj (List.mem_singleton.mp hmem)).2.symm
      · exact absurd hv hreq.not_vacuous

/-- Every request on the stream is the one that the operation of its call asks for, no call writes
twice, and a settlement says OK exactly when its request was written, or when it was called on a
batch without messages that passes every check. -/
theorem settlements_faithful (ε : Env) (v : Lts.Recorded Receiver Op)
    (h : (opened ε).Reachable v) :
    (∀ i req ok, .write i req ok ∈ v.state.mem.log →
      ∃ op, v.record[i]? = some op ∧ Requested ε v.state op req) ∧
    (∀ i, (writesOf i v.state.mem.log).length ≤ 1) ∧
    ∀ i b st, v.state.calls[i]? = some ⟨b, .settled st⟩ →
      ∃ op, v.record[i]? = some op ∧
        (st.ok = true ↔ (∃ req, .write i req true ∈ v.state.mem.log) ∨ Vacuous v.state op) := by
  have inv := faithful_reachable h
  refine ⟨?_, inv.once, ?_⟩
  · intro i req ok hw
    have hmem := mem_writesOf.mpr hw
    obtain hnil | ⟨op, hop, hnil | ⟨req', ok', heq, hreq⟩⟩ := inv.single i
    · rw [hnil] at hmem
      cases hmem
    · rw [hnil] at hmem
      cases hmem
    · rw [heq, List.mem_singleton] at hmem
      obtain ⟨rfl, rfl⟩ := Prod.mk.inj hmem
      exact ⟨op, hop, hreq⟩
  · intro i b st hc
    obtain ⟨op, hop, hfits⟩ := inv.operation hc
    have hout : Outcome ε v.state op (writesOf i v.state.mem.log) st := hfits
    refine ⟨op, hop, hout.ok_iff.trans ?_⟩
    simp only [mem_writesOf]

/-- A message is acknowledged, then its batch is not; the second `Write` fails. -/
def settleTwice : List Action :=
  pollOne ++ [.begin (.settle 0 0 .ack), .call 1 .tau, .call 1 .tau, .call 1 (.wrote true),
    .call 1 .tau, .begin (.settleAll 0 .nack), .call 2 .tau, .call 2 .tau, .call 2 (.wrote false),
    .call 2 .tau]

/-- The acknowledgement is OK, so its request is on the stream; that of the batch is not. -/
theorem settlements_faithful_twice :
    ∃ v, (opened unaryUuids).exec ⟨start, []⟩ settleTwice = some v ∧
      (∃ req, .write 1 req true ∈ v.state.mem.log ∧
        Requested unaryUuids v.state (.settle 0 0 .ack) req) ∧
      ¬ ∃ req, .write 2 req true ∈ v.state.mem.log := by
  obtain ⟨v, hv⟩ : ∃ v, (opened unaryUuids).exec ⟨start, []⟩ settleTwice = some v := ⟨_, rfl⟩
  have hops : v.record[1]? = some (.settle 0 0 .ack) := by
    cases hv
    rfl
  have hone : ∃ b, v.state.calls[1]? = some ⟨b, .settled .okStatus⟩ := by
    cases hv
    exact ⟨_, rfl⟩
  have htwo : ∃ b, v.state.calls[2]? =
      some ⟨b, .settled (settleWriteError "PollResponse::Settle")⟩ := by
    cases hv
    exact ⟨_, rfl⟩
  have hinit : (opened unaryUuids).init ⟨start, []⟩ := ⟨rfl, rfl⟩
  obtain ⟨horigin, -, hok⟩ := settlements_faithful unaryUuids v
    (Lts.Sys.Reachable.exec (.init hinit) settleTwice hv)
  refine ⟨v, hv, ?_, ?_⟩
  · obtain ⟨b, hone⟩ := hone
    obtain ⟨op, hop, hiff⟩ := hok 1 b _ hone
    obtain rfl := Option.some.inj (hops.symm.trans hop)
    rcases hiff.mp rfl with ⟨req, hw⟩ | hv
    · obtain ⟨op, hop, hreq⟩ := horigin 1 req true hw
      obtain rfl := Option.some.inj (hops.symm.trans hop)
      exact ⟨req, hw, hreq⟩
    · cases hv
  · intro hw
    obtain ⟨b, htwo⟩ := htwo
    obtain ⟨op, hop, hiff⟩ := hok 2 b _ htwo
    exact absurd (hiff.mpr (.inl hw)) nofun

end KubeMQ.Downstream
