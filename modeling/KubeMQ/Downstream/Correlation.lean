import KubeMQ.Downstream.Inversion

/-!
# Correlation of polls and responses

`Poll` takes the next response off the stream without looking at its `RefRequestId`, and no
settlement reads its confirmation. As long as no confirmation is on its way when a `Poll` writes
its `Get` (`noConfirmationDue`), every `Poll` reads the response to its own request
(`polls_read_their_own_response`). A `Poll` after a settlement may be handed the confirmation
(`poll_returns_confirmation`).

The invariant `Aligned` is about the requests that reached the server and whose response has not
been read: the `Get`s among them belong to a `Poll` that holds `stream_mu` and waits for it.
-/

namespace KubeMQ.Downstream

open Proto (QueuesDownstreamRequest QueuesDownstreamResponse)

variable {ε : Env}

def isGet (req : QueuesDownstreamRequest) : Bool :=
  req.requestTypeData == .Get

/-- The request that a response on the stream answers. -/
def Answer.origin (a : Answer) : Pending := ⟨a.call, a.request⟩

/-- The requests that reached the server and whose response has not been read. -/
def Mem.outstanding (m : Mem) : List Pending :=
  m.pending ++ m.incoming.map Answer.origin

/-- When a `Poll` writes its `Get`, no confirmation of a settlement is on its way. -/
def noConfirmationDue (s : Receiver) : Action → Bool
  | .call i (.wrote true) =>
    match s.calls[i]? with
    | some ⟨_, .pollWrite _ _⟩ => s.mem.outstanding.all fun q => isGet q.request
    | _ => true
  | _ => true

/-- Call `i` is a `Poll` that has written `req` and waits for a response. -/
def Waiting (s : Receiver) (i : ℕ) (req : QueuesDownstreamRequest) : Prop :=
  ∃ b r, s.calls[i]? = some ⟨b, .pollRead r req⟩

/-- Call `i` wrote the `Get` for `r` and read `a`, the response to it. -/
structure OwnAnswer (ε : Env) (log : List Obs) (i : ℕ) (r : PollRequest) (a : Answer) : Prop where
  get : ∃ n, a.request = getRequest (ε.uuid n) ε.clientId r
  call : a.call = i
  ref : a.response.refRequestId = a.request.requestID
  wrote : .write i a.request true ∈ log
  read : .read i a ∈ log

/-- The purpose of `RefRequestId`: every poll result is made of the response to the `Get` that this
poll wrote, every response taken off the stream was taken by the poll it answers, and a response
that is still to be read, or to be sent, has its poll waiting for it. -/
structure Correlated (ε : Env) (s : Receiver) : Prop where
  polled : ∀ i b p, s.calls[i]? = some ⟨b, .polled (.value p)⟩ →
    ∃ r a n, OwnAnswer ε s.mem.log i r a ∧ p = pollResponse (fun k => ε.uuid (n + k)) r a.response
  read : ∀ i a, .read i a ∈ s.mem.log →
    a.call = i ∧ isGet a.request = true ∧ a.response.refRequestId = a.request.requestID
  unread : ∀ q ∈ s.mem.outstanding, isGet q.request = true → Waiting s q.call q.request

/-- What a control state says about the requests and responses it carries. -/
def Phase (ε : Env) (log : List Obs) (i : ℕ) : CallPc → Prop
  | .pollLock r req => ∃ n, req = getRequest (ε.uuid n) ε.clientId r
  | .pollWrite r req => ∃ n, req = getRequest (ε.uuid n) ε.clientId r
  | .pollRead r req => (∃ n, req = getRequest (ε.uuid n) ε.clientId r) ∧ .write i req true ∈ log
  | .pollGot r resp => ∃ a, OwnAnswer ε log i r a ∧ a.response = resp
  | .polled (.value p) =>
    ∃ r a n, OwnAnswer ε log i r a ∧ p = pollResponse (fun k => ε.uuid (n + k)) r a.response
  | .settleLock _ req => isGet req = false
  | .settleWrite _ req => isGet req = false
  | _ => True

lemma OwnAnswer.mono {log log' : List Obs} {i : ℕ} {r : PollRequest} {a : Answer}
    (h : OwnAnswer ε log i r a) (le : ∀ o ∈ log, o ∈ log') : OwnAnswer ε log' i r a :=
  { h with wrote := le _ h.wrote, read := le _ h.read }

/-- The log only grows. -/
lemma Phase.mono {log log' : List Obs} {i : ℕ} {pc : CallPc} (h : Phase ε log i pc)
    (le : ∀ o ∈ log, o ∈ log') : Phase ε log' i pc := by
  cases pc
  case pollRead => exact ⟨h.1, le _ h.2⟩
  case pollGot =>
    obtain ⟨a, ha, he⟩ := h
    exact ⟨a, ha.mono le, he⟩
  case polled v =>
    cases v with
    | error s => trivial
    | value p =>
      obtain ⟨r, a, n, ha, he⟩ := h
      exact ⟨r, a, n, ha.mono le, he⟩
  all_goals exact h

/-- Reading a response: the state from which a `Poll` can be misled. -/
def CallPc.reading : CallPc → Bool
  | .pollRead _ _ => true
  | _ => false

/-- The invariant of the guarded runs. -/
structure Aligned (ε : Env) (s : Receiver) : Prop where
  ex : Exclusive s
  phase : ∀ i c, s.calls[i]? = some c → Phase ε s.mem.log i c.pc
  answered : ∀ a ∈ s.mem.incoming, a.response.refRequestId = a.request.requestID
  read : ∀ i a, .read i a ∈ s.mem.log →
    a.call = i ∧ isGet a.request = true ∧ a.response.refRequestId = a.request.requestID
  unread : ∀ q ∈ s.mem.outstanding, isGet q.request = true → Waiting s q.call q.request
  alone : ∀ i req, Waiting s i req →
    s.mem.outstanding.length ≤ 1 ∧ ∀ q ∈ s.mem.outstanding, q = ⟨i, req⟩
  cut : s.mem.broken = true → s.mem.pending = []

lemma aligned_start : Aligned ε start where
  ex := exclusive_start
  phase := fun i c h => absurd h (by simp [start])
  answered := fun a h => absurd h List.not_mem_nil
  read := fun i a h => absurd h List.not_mem_nil
  unread := fun q h => absurd h List.not_mem_nil
  alone := by
    rintro i req ⟨b, r, h⟩
    cases h
  cut := fun _ => rfl

lemma Aligned.correlated {s : Receiver} (inv : Aligned ε s) : Correlated ε s where
  polled := fun i _ _ h => inv.phase i _ h
  read := inv.read
  unread := inv.unread

lemma prepareSettle_not_get {b : Bool} {uuid op : String} {q : QueueDownstreamMessage}
    {a : Settlement} {req : QueuesDownstreamRequest}
    (h : prepareSettle b uuid q a = .writes op req) : isGet req = false := by
  unfold prepareSettle at h
  split at h <;> [cases h; skip]
  split at h <;> [cases h; skip]
  split at h <;> [cases h; skip]
  split at h <;> [cases h; skip]
  cases h
  cases a <;> rfl

lemma prepareSettleAll_not_get {b : Bool} {uuid op : String} {p : PollResponse}
    {a : Settlement} {req : QueuesDownstreamRequest}
    (h : prepareSettleAll b uuid p a = .writes op req) : isGet req = false := by
  unfold prepareSettleAll at h
  split at h <;> [cases h; skip]
  split at h <;> [cases h; skip]
  split at h <;> [cases h; skip]
  split at h <;> [cases h; skip]
  split at h <;> [cases h; skip]
  cases h
  cases a <;> rfl

/-- Waiting polls are not touched by the step of another call. -/
lemma Waiting.set {s : Receiver} {i j : ℕ} {c d : Call} {m' : Mem} {req : QueuesDownstreamRequest}
    (hw : Waiting s j req) (hc : s.calls[i]? = some c) (hr : c.pc.reading = false) :
    Waiting ⟨m', s.calls.set i d⟩ j req := by
  obtain ⟨b, r, hj⟩ := hw
  refine ⟨b, r, ?_⟩
  have hij : i ≠ j := by
    rintro rfl
    rw [hc] at hj
    cases hj
    cases hr
  rw [List.getElem?_set_ne hij]
  exact hj

/-- A call that is not about to read makes no new waiting poll. -/
lemma Waiting.of_set {s : Receiver} {i j : ℕ} {d : Call} {m' : Mem} {req : QueuesDownstreamRequest}
    (hw : Waiting ⟨m', s.calls.set i d⟩ j req) (hr : d.pc.reading = false) : Waiting s j req := by
  obtain ⟨b, r, hj⟩ := hw
  rcases Lts.getElem?_set_cases hj with ⟨-, rfl⟩ | ⟨-, hj⟩
  · cases hr
  · exact ⟨b, r, hj⟩

/-- The phases after a step of call `i`. -/
lemma phase_set {calls : List Call} {log log' : List Obs} {i : ℕ} {d : Call}
    (h : ∀ j c, calls[j]? = some c → Phase ε log j c.pc) (le : ∀ o ∈ log, o ∈ log')
    (hd : Phase ε log' i d.pc) : ∀ j c, (calls.set i d)[j]? = some c → Phase ε log' j c.pc := by
  intro j c hj
  rcases Lts.getElem?_set_cases hj with ⟨rfl, rfl⟩ | ⟨-, hj⟩
  · exact hd
  · exact (h j c hj).mono le

/-- A step that reads nothing and reaches the server with nothing. -/
structure Quiet (m m' : Mem) : Prop where
  outstanding : m'.outstanding = m.outstanding
  incoming : m'.incoming = m.incoming
  broken : m'.broken = m.broken
  pending : m'.pending = m.pending
  grows : ∀ o ∈ m.log, o ∈ m'.log
  reads : ∀ j a, .read j a ∈ m'.log → .read j a ∈ m.log

lemma Quiet.same {m m' : Mem} (hp : m'.pending = m.pending) (hi : m'.incoming = m.incoming)
    (hb : m'.broken = m.broken) (hl : m'.log = m.log) : Quiet m m' where
  outstanding := by simp only [Mem.outstanding, hp, hi]
  incoming := hi
  broken := hb
  pending := hp
  grows := fun o ho => hl ▸ ho
  reads := fun j a ha => hl ▸ ha

/-- A `Write` that the server does not answer. -/
lemma Quiet.write {m : Mem} {i : ℕ} {req : QueuesDownstreamRequest} {ok answered : Bool}
    (h : (ok && answered) = false) : Quiet m (m.write i req ok answered) where
  outstanding := by simp [Mem.outstanding, Mem.write, h]
  incoming := rfl
  broken := rfl
  pending := by simp [Mem.write, h]
  grows := fun o ho => List.mem_append_left _ ho
  reads := by
    intro j a ha
    rcases List.mem_append.mp ha with ha | ha
    · exact ha
    · cases List.mem_singleton.mp ha

lemma Aligned.quiet {s : Receiver} {i : ℕ} {c d : Call} {m' : Mem} (inv : Aligned ε s)
    (hc : s.calls[i]? = some c) (ex : Exclusive ⟨m', s.calls.set i d⟩) (q : Quiet s.mem m')
    (hr : c.pc.reading = false) (hr' : d.pc.reading = false) (hd : Phase ε m'.log i d.pc) :
    Aligned ε ⟨m', s.calls.set i d⟩ where
  ex := ex
  phase := phase_set inv.phase q.grows hd
  answered := fun a ha => inv.answered a (q.incoming ▸ ha)
  read := fun j a ha => inv.read j a (q.reads j a ha)
  unread := by
    intro p hp hg
    have hp : p ∈ s.mem.outstanding := q.outstanding ▸ hp
    exact (inv.unread p hp hg).set hc hr
  alone := by
    intro j req hw
    show m'.outstanding.length ≤ 1 ∧ ∀ p ∈ m'.outstanding, p = ⟨j, req⟩
    rw [q.outstanding]
    exact inv.alone j req (hw.of_set hr')
  cut := by
    intro hb
    show m'.pending = []
    rw [q.pending]
    exact inv.cut (q.broken ▸ hb)

/-- Nothing is outstanding once every outstanding request is a `Get` and no poll waits. -/
lemma Aligned.outstanding_nil {s : Receiver} {i : ℕ} {c : Call} {r : PollRequest}
    {req : QueuesDownstreamRequest} (inv : Aligned ε s) (hc : s.calls[i]? = some c)
    (hp : c.pc = .pollWrite r req)
    (gets : (s.mem.outstanding.all fun q => isGet q.request) = true) :
    s.mem.outstanding = [] := by
  refine List.eq_nil_iff_forall_not_mem.mpr fun q hq => ?_
  obtain ⟨b, r', hw⟩ := inv.unread q hq (List.all_eq_true.mp gets q hq)
  -- the waiting poll would hold the lock together with call `i`
  have hi : i = q.call := inv.ex.unique hc (by rw [hp]; rfl) hw rfl
  rw [← hi, hc] at hw
  cases hw
  cases hp

/-- While call `i` is in its critical section, no other poll waits. -/
lemma Aligned.waiting_eq {s : Receiver} {i j : ℕ} {c : Call} {req : QueuesDownstreamRequest}
    (inv : Aligned ε s) (hc : s.calls[i]? = some c) (hp : c.pc.critical = true)
    (hw : Waiting s j req) : j = i := by
  obtain ⟨b, r, hj⟩ := hw
  exact inv.ex.unique hj rfl hc hp

/-- The response taken by a waiting poll is its own, and nothing is left behind. -/
lemma Aligned.read_own {s : Receiver} {i : ℕ} {req : QueuesDownstreamRequest} {a : Answer}
    {rest : List Answer} (inv : Aligned ε s) (hw : Waiting s i req)
    (hm : s.mem.incoming = a :: rest) :
    a.call = i ∧ a.request = req ∧ s.mem.pending = [] ∧ rest = [] := by
  obtain ⟨hl, ha⟩ := inv.alone i req hw
  simp only [Mem.outstanding, hm, List.length_append, List.map_cons, List.length_cons,
    List.length_map] at hl ha
  have hp : s.mem.pending = [] := List.eq_nil_of_length_eq_zero (by omega)
  have hr : rest = [] := List.eq_nil_of_length_eq_zero (by omega)
  have ho : a.origin = ⟨i, req⟩ := ha _ (by simp)
  exact ⟨congrArg Pending.call ho, congrArg Pending.request ho, hp, hr⟩

lemma mem_write_outstanding {m : Mem} {i : ℕ} {req : QueuesDownstreamRequest}
    {ok answered : Bool} {q : Pending} (h : q ∈ (m.write i req ok answered).outstanding) :
    q ∈ m.outstanding ∨ q = ⟨i, req⟩ := by
  simp only [Mem.outstanding, Mem.write] at h ⊢
  split at h
  · simp only [List.append_assoc, List.mem_append, List.mem_singleton] at h ⊢
    tauto
  · exact .inl h

lemma length_write_outstanding (m : Mem) (i : ℕ) (req : QueuesDownstreamRequest)
    (ok answered : Bool) :
    (m.write i req ok answered).outstanding.length ≤ m.outstanding.length + 1 := by
  simp only [Mem.outstanding, Mem.write]
  split
  · simp only [List.append_assoc, List.length_append, List.length_singleton]
    omega
  · omega

lemma mem_write_log {m : Mem} {i : ℕ} {req : QueuesDownstreamRequest} {ok answered : Bool}
    {o : Obs} : o ∈ (m.write i req ok answered).log ↔ o ∈ m.log ∨ o = .write i req ok := by
  simp [Mem.write]

lemma write_cut {m : Mem} {i : ℕ} {req : QueuesDownstreamRequest} {ok answered : Bool}
    (h : m.broken = true → m.pending = []) (hb : m.broken = true) :
    (m.write i req ok answered).pending = [] := by
  simp [Mem.write, hb, h hb]

/-- A `Poll` writes its `Get`: with nothing outstanding, its response is the next one. -/
lemma Aligned.pollWrite {s : Receiver} {i : ℕ} {b : Bool} {r : PollRequest}
    {req : QueuesDownstreamRequest} (inv : Aligned ε s)
    (hc : s.calls[i]? = some ⟨b, .pollWrite r req⟩)
    (ex : Exclusive ⟨s.mem.write i req true true, s.calls.set i ⟨b, .pollRead r req⟩⟩)
    (gets : (s.mem.outstanding.all fun q => isGet q.request) = true) :
    Aligned ε ⟨s.mem.write i req true true, s.calls.set i ⟨b, .pollRead r req⟩⟩ := by
  have hnil := inv.outstanding_nil hc rfl gets
  have hlen := length_write_outstanding s.mem i req true true
  have hmem (q : Pending) (hq : q ∈ (s.mem.write i req true true).outstanding) :
      q = ⟨i, req⟩ := by
    rcases mem_write_outstanding hq with hq | hq
    · simp [hnil] at hq
    · exact hq
  have hself : (s.calls.set i ⟨b, .pollRead r req⟩)[i]? = some ⟨b, .pollRead r req⟩ := by
    obtain ⟨hlt, -⟩ := List.getElem?_eq_some_iff.mp hc
    rw [List.getElem?_set_self hlt]
  have hphase : Phase ε s.mem.log i (.pollWrite r req) := inv.phase i _ hc
  refine ⟨ex, ?_, inv.answered, ?_, ?_, ?_, write_cut inv.cut⟩
  · exact phase_set inv.phase (fun o ho => mem_write_log.mpr (.inl ho))
      ⟨hphase, mem_write_log.mpr (.inr rfl)⟩
  · intro j a ha
    rcases mem_write_log.mp ha with ha | ha
    · exact inv.read j a ha
    · cases ha
  · intro q hq _
    rw [hmem q hq]
    exact ⟨b, r, hself⟩
  · rintro j req' ⟨b', r', hj⟩
    have hij : j = i := ex.unique hj rfl hself rfl
    subst hij
    rw [hself] at hj
    cases hj
    refine ⟨?_, hmem⟩
    rw [hnil] at hlen
    exact hlen

/-- A settlement is written while no poll waits. -/
lemma Aligned.settleWrite {s : Receiver} {i : ℕ} {b ok : Bool} {op : String} {st : Status}
    {req : QueuesDownstreamRequest} (inv : Aligned ε s)
    (hc : s.calls[i]? = some ⟨b, .settleWrite op req⟩)
    (ex : Exclusive ⟨s.mem.write i req ok true, s.calls.set i ⟨b, .settleUnlock st⟩⟩) :
    Aligned ε ⟨s.mem.write i req ok true, s.calls.set i ⟨b, .settleUnlock st⟩⟩ := by
  have hphase : Phase ε s.mem.log i (.settleWrite op req) := inv.phase i _ hc
  refine ⟨ex, ?_, inv.answered, ?_, ?_, ?_, write_cut inv.cut⟩
  · exact phase_set inv.phase (fun o ho => mem_write_log.mpr (.inl ho)) trivial
  · intro j a ha
    rcases mem_write_log.mp ha with ha | ha
    · exact inv.read j a ha
    · cases ha
  · intro q hq hg
    rcases mem_write_outstanding hq with hq | rfl
    · exact (inv.unread q hq hg).set hc rfl
    · -- the request is not a `Get`
      simp only [Phase] at hphase
      simp [hphase] at hg
  · intro j req' hw
    have hw' : Waiting s j req' := hw.of_set rfl
    obtain rfl := inv.waiting_eq hc rfl hw'
    obtain ⟨b', r', hj⟩ := hw'
    rw [hc] at hj
    cases hj

/-- A `Poll` reads its own response. -/
lemma Aligned.pollRead {s : Receiver} {i : ℕ} {b : Bool} {r : PollRequest}
    {req : QueuesDownstreamRequest} {a : Answer} {rest : List Answer} (inv : Aligned ε s)
    (hc : s.calls[i]? = some ⟨b, .pollRead r req⟩) (hm : s.mem.incoming = a :: rest)
    (ex : Exclusive ⟨{ s.mem with incoming := rest }.observe (.read i a),
      s.calls.set i ⟨b, .pollGot r a.response⟩⟩) :
    Aligned ε ⟨{ s.mem with incoming := rest }.observe (.read i a),
      s.calls.set i ⟨b, .pollGot r a.response⟩⟩ := by
  obtain ⟨hcall, hreq, hp, hr⟩ := inv.read_own ⟨b, r, hc⟩ hm
  obtain ⟨⟨n, hget⟩, hwrote⟩ : Phase ε s.mem.log i (.pollRead r req) := inv.phase i _ hc
  have href := inv.answered a (by simp [hm])
  have grows : ∀ o ∈ s.mem.log, o ∈ s.mem.log ++ [.read i a] :=
    fun o ho => List.mem_append_left _ ho
  have hnil : ({ s.mem with incoming := rest }.observe (.read i a)).outstanding = [] := by
    simp [Mem.outstanding, Mem.observe, hp, hr]
  refine ⟨ex, ?_, ?_, ?_, ?_, ?_, fun _ => hp⟩
  · refine phase_set inv.phase grows ⟨a, ⟨⟨n, hreq.trans hget⟩, hcall, href, ?_, ?_⟩, rfl⟩
    · rw [hreq]
      exact grows _ hwrote
    · exact List.mem_append_right _ (List.mem_singleton.mpr rfl)
  · intro a' ha'
    exact inv.answered a' (hm ▸ List.mem_cons_of_mem _ ha')
  · intro j a' ha'
    rcases List.mem_append.mp ha' with ha' | ha'
    · exact inv.read j a' ha'
    · cases List.mem_singleton.mp ha'
      exact ⟨hcall, by rw [hreq, hget]; rfl, href⟩
  · intro q hq
    rw [hnil] at hq
    cases hq
  · intro j req' _
    show ({ s.mem with incoming := rest }.observe (.read i a)).outstanding.length ≤ 1 ∧ _
    rw [hnil]
    exact ⟨Nat.zero_le _, List.forall_mem_nil _⟩

/-- On a broken stream with nothing to read, the `Poll` gives up. -/
lemma Aligned.pollReadFailed {s : Receiver} {i : ℕ} {b : Bool} {st : Status}
    (inv : Aligned ε s) (hb : s.mem.broken = true)
    (hm : s.mem.incoming = []) (ex : Exclusive ⟨s.mem, s.calls.set i ⟨b, .pollFailed st⟩⟩) :
    Aligned ε ⟨s.mem, s.calls.set i ⟨b, .pollFailed st⟩⟩ := by
  have hnil : s.mem.outstanding = [] := by simp [Mem.outstanding, inv.cut hb, hm]
  refine ⟨ex, phase_set inv.phase (fun o ho => ho) trivial, inv.answered, inv.read, ?_, ?_,
    inv.cut⟩
  · intro q hq
    rw [hnil] at hq
    cases hq
  · intro j req' hw
    exact inv.alone j req' (hw.of_set rfl)

lemma phase_pollGot {log : List Obs} {i n : ℕ} {r : PollRequest}
    {resp : QueuesDownstreamResponse} (h : Phase ε log i (.pollGot r resp)) :
    Phase ε log i (.polled (pollResult (fun k => ε.uuid (n + k)) r resp)) := by
  obtain ⟨a, ha, rfl⟩ := h
  unfold pollResult
  split
  · trivial
  · exact ⟨r, a, n, ha, rfl⟩

/-- One step of a call keeps the invariant when no confirmation is due at a `Get`. -/
lemma Aligned.call {s : Receiver} {i : ℕ} {l : CallLabel} {c : Call} {m' : Mem} {pc' : CallPc}
    (inv : Aligned ε s) (guard : noConfirmationDue s (.call i l) = true)
    (hc : s.calls[i]? = some c) (st : CallStep ε s.mem i c.pc l m' pc') :
    Aligned ε ⟨m', s.calls.set i { c with pc := pc' }⟩ := by
  have ex : Exclusive ⟨m', s.calls.set i { c with pc := pc' }⟩ := inv.ex.step (.call hc st)
  have hphase := inv.phase i c hc
  obtain ⟨b, pc⟩ := c
  cases st
  case pollWrite =>
    have gets : (s.mem.outstanding.all fun q => isGet q.request) = true := by
      simpa [noConfirmationDue, hc] using guard
    exact inv.pollWrite hc ex gets
  case pollRead hm => exact inv.pollRead hc hm ex
  case pollReadFailed hb hm => exact inv.pollReadFailed hb hm ex
  case settleWrite => exact inv.settleWrite hc ex
  case pollWriteFailed => exact inv.quiet hc ex (.write rfl) rfl rfl trivial
  case closeWrite => exact inv.quiet hc ex (.write (Bool.and_false _)) rfl rfl trivial
  case closeWritesDone =>
    refine inv.quiet hc ex ⟨rfl, rfl, rfl, rfl, fun o ho => List.mem_append_left _ ho, ?_⟩ rfl rfl
      trivial
    intro j a ha
    rcases List.mem_append.mp ha with ha | ha
    · exact ha
    · cases List.mem_singleton.mp ha
  case pollCheck => exact inv.quiet hc ex (.same rfl rfl rfl rfl) rfl rfl ⟨_, rfl⟩
  case pollGot => exact inv.quiet hc ex (.same rfl rfl rfl rfl) rfl rfl (phase_pollGot hphase)
  case settleWrites h =>
    exact inv.quiet hc ex (.same rfl rfl rfl rfl) rfl rfl (prepareSettle_not_get h)
  case settleAllWrites h =>
    exact inv.quiet hc ex (.same rfl rfl rfl rfl) rfl rfl (prepareSettleAll_not_get h)
  -- what is left only moves the call and the lock
  all_goals exact inv.quiet hc ex (.same rfl rfl rfl rfl) rfl rfl hphase

lemma Waiting.append {s : Receiver} {i : ℕ} {c : Call} {req : QueuesDownstreamRequest}
    (hw : Waiting s i req) : Waiting { s with calls := s.calls ++ [c] } i req := by
  obtain ⟨b, r, h⟩ := hw
  have hlt := (List.getElem?_eq_some_iff.mp h).1
  exact ⟨b, r, by rw [List.getElem?_append_left hlt, h]⟩

lemma Starts.not_reading {pc : CallPc} (h : Starts pc) : pc.reading = false := by
  cases h <;> rfl

lemma Starts.phase {log : List Obs} {i : ℕ} {pc : CallPc} (h : Starts pc) : Phase ε log i pc := by
  cases h <;> trivial

/-- A new call. -/
lemma Aligned.begin {s : Receiver} {c : Call} (inv : Aligned ε s) (hs : Starts c.pc) :
    Aligned ε { s with calls := s.calls ++ [c] } := by
  refine ⟨inv.ex.append hs.not_critical, ?_, inv.answered, inv.read, ?_, ?_, inv.cut⟩
  · intro i d hd
    rcases Lts.getElem?_concat_cases hd with hd | ⟨-, rfl⟩
    · exact inv.phase i d hd
    · exact hs.phase
  · exact fun q hq hg => (inv.unread q hq hg).append
  · rintro i req ⟨b, r, hi⟩
    rcases Lts.getElem?_concat_cases hi with hi | ⟨-, rfl⟩
    · exact inv.alone i req ⟨b, r, hi⟩
    · exact absurd hs.not_reading nofun

/-- A step of the server removes requests from the stream or turns one into its answer. -/
lemma Aligned.server {s : Receiver} {m' : Mem} (inv : Aligned ε s)
    (hl : m'.log = s.mem.log) (hmu : m'.streamMu = s.mem.streamMu)
    (ha : ∀ a ∈ m'.incoming, a.response.refRequestId = a.request.requestID)
    (sub : ∀ q ∈ m'.outstanding, q ∈ s.mem.outstanding)
    (len : m'.outstanding.length ≤ s.mem.outstanding.length)
    (cut : m'.broken = true → m'.pending = []) : Aligned ε ⟨m', s.calls⟩ := by
  refine ⟨?_, ?_, ha, ?_, ?_, ?_, cut⟩
  · show Lts.Locked _ m'.streamMu s.calls
    rw [hmu]
    exact inv.ex
  · show ∀ i c, s.calls[i]? = some c → Phase ε m'.log i c.pc
    rw [hl]
    exact inv.phase
  · show ∀ i a, .read i a ∈ m'.log → _
    rw [hl]
    exact inv.read
  · exact fun q hq hg => inv.unread q (sub q hq) hg
  · intro i req hw
    obtain ⟨h₁, h₂⟩ := inv.alone i req hw
    exact ⟨Nat.le_trans len h₁, fun q hq => h₂ q (sub q hq)⟩

/-- Every step keeps the invariant when no confirmation is due at a `Get`. -/
lemma Aligned.step {s t : Receiver} {a : Action} (inv : Aligned ε s)
    (guard : noConfirmationDue s a = true) (st : Step ε s a t) : Aligned ε t := by
  cases st with
  | begin h => exact inv.begin (Starts.of_startPc h)
  | call hc st => exact inv.call guard hc st
  | @answer k q resp hq hr =>
    have hlt := (List.getElem?_eq_some_iff.mp hq).1
    refine inv.server rfl rfl ?_ ?_ ?_ ?_
    · intro a ha
      rcases List.mem_append.mp ha with ha | ha
      · exact inv.answered a ha
      · cases List.mem_singleton.mp ha
        exact hr
    · intro p hp
      simp only [Mem.outstanding, List.map_append, List.mem_append, List.map_cons, List.map_nil,
        List.mem_singleton] at hp ⊢
      rcases hp with hp | hp | rfl
      · exact .inl (List.mem_of_mem_eraseIdx hp)
      · exact .inr hp
      · exact .inl (List.mem_of_getElem? hq)
    · simp only [Mem.outstanding, List.length_append, List.length_map,
        List.length_eraseIdx_of_lt hlt, List.length_singleton]
      omega
    · intro hb
      simp [inv.cut hb]
  | breakStream =>
    refine inv.server rfl rfl inv.answered ?_ ?_ (fun _ => rfl)
    · intro p hp
      exact List.mem_append_right _ (by simpa [Mem.outstanding] using hp)
    · simp [Mem.outstanding]

/-- In every run in which no confirmation of a settlement is on its way when a `Poll` writes its
`Get`, polls and responses are correlated. -/
theorem polls_read_their_own_response (ε : Env) (s : Receiver)
    (h : (sys ε).Reach (fun s a => noConfirmationDue s a = true) s) : Correlated ε s := by
  refine Aligned.correlated (h.invariant (I := Aligned ε) ?_ ?_)
  · rintro s rfl
    exact aligned_start
  · intro s a t _ inv guard hn
    exact inv.step guard (Step.of_next hn)

/-- Poll one message and settle it. -/
def pollThenAck : List Action :=
  pollOne ++ [.begin (.settle 0 0 .ack), .call 1 .tau, .call 1 .tau, .call 1 (.wrote true),
    .call 1 .tau]

/-- Poll again; the server sends the confirmation of the settlement first. -/
def pollAgain : List Action :=
  [.answer 0 (sampleResponse "uuu" "tx" .AckRange []),
    .begin (.poll { channel := "orders" }), .call 2 .tau, .call 2 .tau, .call 2 (.wrote true),
    .call 2 .tau, .call 2 .tau]

/-- A run in which the only `Poll` is written before the settlement. -/
theorem polls_read_their_own_response_ack :
    ∃ s, ((sys unaryUuids).exec start pollThenAck = some s) ∧ Correlated unaryUuids s := by
  refine ⟨_, rfl, polls_read_their_own_response unaryUuids _ ?_⟩
  exact Lts.Sys.Reach.execWhere (.init rfl) pollThenAck rfl

/-- The call that read the k-th entry of the log, with the call that it answers. -/
def readAt (s : Receiver) (k : ℕ) : Option (ℕ × ℕ) :=
  match s.mem.log[k]? with
  | some (.read i a) => some (i, a.call)
  | _ => none

/-- The second poll takes the confirmation of the settlement for its response. -/
theorem poll_returns_confirmation :
    ¬ ∀ s, (sys unaryUuids).Reachable s → Correlated unaryUuids s := by
  intro h
  -- call 2, the second poll, reads what call 1, the settlement, asked for
  have run : ((sys unaryUuids).exec start (pollThenAck ++ pollAgain)).bind
      (fun s => readAt s 4) = some (2, 1) := rfl
  obtain ⟨s, hs, hr⟩ := Option.bind_eq_some_iff.mp run
  unfold readAt at hr
  split at hr
  · next i a ha =>
    obtain ⟨rfl, hcall⟩ := Prod.mk.inj (Option.some.inj hr)
    have hc := (h s (Lts.Sys.Reachable.exec (.init rfl) _ hs)).read _ _ (List.mem_of_getElem? ha)
    omega
  · cases hr

end KubeMQ.Downstream
