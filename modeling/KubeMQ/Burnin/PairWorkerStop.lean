import KubeMQ.Burnin.PairWorkerSteps
import KubeMQ.Lts.History

/-!
# A stopped worker is silent, and its counts are exact

In every interleaving of `Start`, `Stop` and the threads of a `PairWorker`, a thread only uses a client
that is there. When `Stop` returns, no thread of the worker is left and the counters hold exactly what
the answers, failures and messages so far owe; afterwards nothing happens any more
(`worker_orderly`).
-/

namespace KubeMQ.Burnin

@[simp] lemma Adds.to_nil (c : Counter) : Adds.to [] c = 0 := rfl

@[simp] lemma Adds.to_cons (a : Counter × ℕ) (adds : Adds) (c : Counter) :
    Adds.to (a :: adds) c = (if a.1 = c then a.2 else 0) + adds.to c := rfl

namespace PairWorker

variable {O M : Type} {κ : WorkerKind O M} {m m' : Mem O M} {s t : Worker O M}

lemma owed_append (log new : List (Event O M)) (c : Counter) :
    κ.owed (log ++ new) c = κ.owed log c + κ.owed new c := by
  simp [WorkerKind.owed]

@[simp] lemma Mem.add_counters (m : Mem O M) (a : Counter × ℕ) (c : Counter) :
    (m.add a).counters c = m.counters c + if a.1 = c then a.2 else 0 := by
  show Function.update m.counters a.1 (m.counters a.1 + a.2) c = _
  rw [Function.update_apply]
  by_cases h : a.1 = c
  · subst h
    simp
  · simp [h, Ne.symm h]

/-- The entry is not the return of `Stop`, and no use of a client that is not there. -/
def Event.calm : Event O M → Bool
  | .used _ live => live
  | .stopReturned _ => false
  | _ => true

/-- What a step of a thread does: what it adds and still has to add covers what the history owes. -/
structure Effect (κ : WorkerKind O M) (m m' : Mem O M) (todo todo' : Adds) : Prop where
  running : m'.running = m.running
  producerThread : m'.producerThread = m.producerThread
  consumerThread : m'.consumerThread = m.consumerThread
  ledger : ∀ c, m'.counters c + todo'.to c + κ.owed m.log c =
    m.counters c + todo.to c + κ.owed m'.log c
  log : ∃ new, m'.log = m.log ++ new ∧ ∀ e ∈ new, e.calm = true

section Effect

variable {todo todo' : Adds}

/-- A step that neither counts nor observes. -/
lemma Effect.quiet (hr : m'.running = m.running) (hp : m'.producerThread = m.producerThread)
    (hc : m'.consumerThread = m.consumerThread) (hn : m'.counters = m.counters)
    (hl : m'.log = m.log) : Effect κ m m' todo todo :=
  ⟨hr, hp, hc, fun c => by rw [hn, hl], [], by rw [hl, List.append_nil], nofun⟩

/-- One `fetch_add`. -/
lemma Effect.add (a : Counter × ℕ) : Effect κ m (m.add a) (a :: todo) todo := by
  refine ⟨rfl, rfl, rfl, fun c => ?_, [], (List.append_nil _).symm, nofun⟩
  rw [Mem.add_counters, Adds.to_cons]
  show _ + κ.owed m.log c = _ + κ.owed m.log c
  omega

/-- Entries of the history, and what they owe is still to be added. -/
lemma Effect.observe (new : List (Event O M)) (hcalm : ∀ e ∈ new, e.calm = true)
    (howes : ∀ c, κ.owed new c = todo.to c) (hm : m' = { m with log := m.log ++ new }) :
    Effect κ m m' [] todo := by
  subst hm
  refine ⟨rfl, rfl, rfl, fun c => ?_, new, rfl, hcalm⟩
  show m.counters c + todo.to c + κ.owed m.log c = m.counters c + 0 + κ.owed (m.log ++ new) c
  rw [owed_append, howes]
  omega

/-- An error is counted at once. -/
lemma Effect.error : Effect κ m m.error [] [] := by
  refine ⟨rfl, rfl, rfl, fun c => ?_, [.errored], rfl, by simp [Event.calm]⟩
  show (m.add (.errors, 1)).counters c + 0 + κ.owed m.log c =
    m.counters c + 0 + κ.owed (m.log ++ [.errored]) c
  rw [owed_append, Mem.add_counters]
  simp only [WorkerKind.owed, WorkerKind.owes, List.map_cons, List.map_nil, List.sum_cons, List.sum_nil,
    Adds.to_cons, Adds.to_nil]
  omega

end Effect

/-- What the entries of one step owe. -/
lemma owed_used (side : Side) (live : Bool) (e : Event O M) (c : Counter) :
    κ.owed [.used side live, e] c = (κ.owes e).to c := by
  simp [WorkerKind.owed, WorkerKind.owes]

lemma owed_single (e : Event O M) (c : Counter) : κ.owed [e] c = (κ.owes e).to c := by
  simp [WorkerKind.owed]

lemma ProducerStep.effect {pc pc' : ProducerPc O} (st : ProducerStep κ m pc m' pc')
    (hc : pc.hasClient = true → m.producerClient = true) : Effect κ m m' pc.todo pc'.todo := by
  cases st with
  | connectFailed => exact .error
  | @sent seq o hs =>
    refine .observe [.used .producer m.producerClient, .answered seq o] ?_ ?_ ?_
    · simp [Event.calm, hc rfl]
    · intro c
      rw [owed_used]
      simp [WorkerKind.owes, hs, ProducerPc.todo]
    · simp [Mem.observe]
  | @notSent seq o hs =>
    refine .observe [.used .producer m.producerClient, .answered seq o] ?_ ?_ ?_
    · simp [Event.calm, hc rfl]
    · intro c
      rw [owed_used]
      simp [WorkerKind.owes, hs, ProducerPc.todo]
    · simp [Mem.observe]
  | @failed seq o _ =>
    refine .observe [.failed o] ?_ ?_ rfl
    · simp [Event.calm]
    · exact owed_single _
  | add => exact .add _
  | _ => exact .quiet rfl rfl rfl rfl rfl

lemma ConsumerStep.effect {reader reader' : ReaderPc} {pc pc' : ConsumerPc}
    (st : ConsumerStep κ m reader pc m' reader' pc')
    (hc : pc.hasClient = true → m.consumerClient = true) : Effect κ m m' pc.todo pc'.todo := by
  cases st with
  | connectFailed => exact .error
  | subscribeFailed => exact .error
  | subscribed =>
    refine .observe [.used .consumer m.consumerClient] ?_ ?_ rfl
    · simp [Event.calm, hc rfl]
    · exact owed_single _
  | notSubscribed =>
    refine .observe [.used .consumer m.consumerClient] ?_ ?_ rfl
    · simp [Event.calm, hc rfl]
    · exact owed_single _
  | @receive x count hk =>
    refine .observe [.used .consumer m.consumerClient, .delivered x] ?_ ?_ ?_
    · simp [Event.calm, hc rfl]
    · intro c
      rw [owed_used]
      simp [WorkerKind.owes, hk, ConsumerPc.todo]
    · simp [Mem.observe]
  | add => exact .add _
  | _ => exact .quiet rfl rfl rfl rfl rfl

lemma ReaderStep.effect {pc pc' : ReaderPc} (st : ReaderStep κ m pc m' pc')
    (hc : m.consumerClient = true) : Effect κ m m' pc.todo pc'.todo := by
  cases st with
  | @count x adds lambda hk hl =>
    refine .observe [.delivered x] ?_ ?_ rfl
    · simp [Event.calm]
    · intro c
      rw [owed_single]
      simp [WorkerKind.owes, hk, hl, ReaderPc.todo]
  | @reply x lambda hk hl =>
    refine .observe [.delivered x] ?_ ?_ rfl
    · simp [Event.calm]
    · intro c
      rw [owed_single]
      simp [WorkerKind.owes, hk, hl, ReaderPc.todo]
  | error =>
    refine .observe [.errored] ?_ ?_ rfl
    · simp [Event.calm]
    · exact owed_single _
  | replied =>
    refine .observe [.used .consumer m.consumerClient] ?_ ?_ rfl
    · simp [Event.calm, hc]
    · exact owed_single _
  | notReplied =>
    refine .observe [.used .consumer m.consumerClient, .errored] ?_ ?_ ?_
    · simp [Event.calm, hc]
    · exact owed_used _ _ _
    · simp [Mem.observe]
  | add => exact .add _
  | _ => exact .quiet rfl rfl rfl rfl rfl

lemma ProducerPc.todo_of_finished {p : ProducerPc O} (h : p.finished = true) : p.todo = [] := by
  cases p
  case unstarted => rfl
  case exited => rfl
  all_goals cases h

lemma ProducerPc.hasClient_of_finished {p : ProducerPc O} (h : p.finished = true) :
    p.hasClient = false := by
  cases p
  case unstarted => rfl
  case exited => rfl
  all_goals cases h

lemma ConsumerPc.of_finished {q : ConsumerPc} (h : q.finished = true) :
    q.todo = [] ∧ q.holdsReader = false ∧ q.hasClient = false := by
  cases q
  case unstarted => exact ⟨rfl, rfl, rfl⟩
  case exited => exact ⟨rfl, rfl, rfl⟩
  all_goals cases h

lemma ReaderPc.todo_of_not_alive {r : ReaderPc} (h : r.alive = false) : r.todo = [] := by
  cases r
  case absent => rfl
  case exited => rfl
  all_goals cases h

/-- A thread that steps has not finished, and its client is there when it goes on to use it. -/
lemma ProducerStep.client {pc pc' : ProducerPc O} (st : ProducerStep κ m pc m' pc')
    (h : pc.hasClient = true → m.producerClient = true) :
    pc.finished = false ∧ (pc'.hasClient = true → m'.producerClient = true) ∧
      m'.consumerClient = m.consumerClient := by
  cases st
  case assignClient => exact ⟨rfl, fun _ => rfl, rfl⟩
  case connected => exact ⟨rfl, nofun, rfl⟩
  case refused => exact ⟨rfl, nofun, rfl⟩
  case connectFailed => exact ⟨rfl, nofun, rfl⟩
  case stop => exact ⟨rfl, nofun, rfl⟩
  all_goals exact ⟨rfl, fun _ => h rfl, rfl⟩

lemma ConsumerStep.client {reader reader' : ReaderPc} {pc pc' : ConsumerPc}
    (st : ConsumerStep κ m reader pc m' reader' pc')
    (h : pc.hasClient = true → m.consumerClient = true) :
    pc.finished = false ∧ (pc'.hasClient = true → m'.consumerClient = true) ∧
      m'.producerClient = m.producerClient := by
  cases st
  case toSubscribe => exact ⟨rfl, fun _ => rfl, rfl⟩
  case toPoll => exact ⟨rfl, fun _ => rfl, rfl⟩
  case connected => exact ⟨rfl, nofun, rfl⟩
  case refused => exact ⟨rfl, nofun, rfl⟩
  case connectFailed => exact ⟨rfl, nofun, rfl⟩
  case subscribeFailed => exact ⟨rfl, nofun, rfl⟩
  case leave => exact ⟨rfl, nofun, rfl⟩
  case join => exact ⟨rfl, nofun, rfl⟩
  all_goals exact ⟨rfl, fun _ => h rfl, rfl⟩

/-- The consumer does not leave its subscription before the reader has exited. -/
lemma ConsumerStep.reader {reader reader' : ReaderPc} {pc pc' : ConsumerPc}
    (st : ConsumerStep κ m reader pc m' reader' pc')
    (h : reader.alive = true → pc.holdsReader = true ∧ κ.subscribes = true)
    (hs : pc = .subscribe → κ.subscribes = true) :
    (reader'.alive = true → pc'.holdsReader = true ∧ κ.subscribes = true) ∧
      reader'.todo = reader.todo ∧ (pc' = .subscribe → κ.subscribes = true) := by
  cases st
  case subscribed =>
    have hdead : reader.alive = false := by
      cases ha : reader.alive with
      | false => rfl
      | true => cases (h ha).1
    exact ⟨fun _ => ⟨rfl, hs rfl⟩, (ReaderPc.todo_of_not_alive hdead).symm, nofun⟩
  case toSubscribe hk => exact ⟨fun ha => absurd (h ha).1 nofun, rfl, fun _ => hk⟩
  case wait => exact ⟨fun ha => ⟨rfl, (h ha).2⟩, rfl, nofun⟩
  case stop => exact ⟨fun ha => ⟨rfl, (h ha).2⟩, rfl, nofun⟩
  case sleep => exact ⟨fun ha => ⟨rfl, (h ha).2⟩, rfl, nofun⟩
  case cancel => exact ⟨fun ha => ⟨rfl, (h ha).2⟩, rfl, nofun⟩
  case goOn hk _ => exact ⟨fun ha => absurd (hk.symm.trans (h ha).2) nofun, rfl, nofun⟩
  case leave hk _ => exact ⟨fun ha => absurd (hk.symm.trans (h ha).2) nofun, rfl, nofun⟩
  case join hd => exact ⟨fun ha => absurd (hd.symm.trans ha) nofun, rfl, nofun⟩
  all_goals exact ⟨fun ha => absurd (h ha).1 nofun, rfl, nofun⟩

/-- A reader that steps has not exited, and leaves the clients alone. -/
lemma ReaderStep.same {pc pc' : ReaderPc} (st : ReaderStep κ m pc m' pc') :
    pc.alive = true ∧ m'.producerClient = m.producerClient ∧
      m'.consumerClient = m.consumerClient := by
  cases st
  all_goals exact ⟨rfl, rfl, rfl⟩

/-- What holds of the threads where the owner stands. -/
def OwnerPc.Placed (κ : WorkerKind O M) (p : ProducerPc O) (q : ConsumerPc) : OwnerPc → Prop
  | .fresh => p = .unstarted ∧ q = .unstarted
  | .starting => if κ.consumerFirst then p = .unstarted else q = .unstarted
  | .joinConsumer => p.finished = true
  | .closeProducer => p.finished = true ∧ q.finished = true
  | .closeConsumer => p.finished = true ∧ q.finished = true
  | _ => True

/-- The owner has not waited for a thread that has not finished. -/
lemma OwnerPc.Placed.producer {w : OwnerPc} {p p' : ProducerPc O} {q : ConsumerPc}
    (h : w.Placed κ p q) (hp : p.finished = false) : w.Placed κ p' q := by
  cases w
  case fresh =>
    rw [h.1] at hp
    cases hp
  case starting =>
    simp only [Placed] at h ⊢
    split at h
    next =>
      rw [h] at hp
      cases hp
    next hf => rwa [if_neg hf]
  case joinConsumer => exact absurd (hp.symm.trans h) nofun
  case closeProducer => exact absurd (hp.symm.trans h.1) nofun
  case closeConsumer => exact absurd (hp.symm.trans h.1) nofun
  all_goals trivial

lemma OwnerPc.Placed.consumer {w : OwnerPc} {p : ProducerPc O} {q q' : ConsumerPc}
    (h : w.Placed κ p q) (hq : q.finished = false) : w.Placed κ p q' := by
  cases w
  case fresh =>
    rw [h.2] at hq
    cases hq
  case starting =>
    simp only [Placed] at h ⊢
    split at h
    next hf => rwa [if_pos hf]
    next =>
      rw [h] at hq
      cases hq
  case joinConsumer => exact h
  case closeProducer => exact absurd (hq.symm.trans h.2) nofun
  case closeConsumer => exact absurd (hq.symm.trans h.2) nofun
  all_goals trivial

/-- `Stop` has returned: the threads have finished, and `Start` is over. -/
def Worker.Stopped (s : Worker O M) : Prop :=
  s.producer.finished = true ∧ s.consumer.finished = true ∧ s.owner ≠ .fresh ∧ s.owner ≠ .starting

/-- The invariant. -/
structure Inv (κ : WorkerKind O M) (s : Worker O M) : Prop where
  ledger : ∀ c, s.mem.counters c + (s.producer.todo.to c + s.consumer.todo.to c + s.reader.todo.to c) =
    κ.owed s.mem.log c
  producerThread : s.producer.finished = false → s.mem.producerThread = true
  consumerThread : s.consumer.finished = false → s.mem.consumerThread = true
  producerClient : s.producer.hasClient = true → s.mem.producerClient = true
  consumerClient : s.consumer.hasClient = true → s.mem.consumerClient = true
  reader : s.reader.alive = true → s.consumer.holdsReader = true ∧ κ.subscribes = true
  subscribe : s.consumer = .subscribe → κ.subscribes = true
  placed : s.owner.Placed κ s.producer s.consumer
  live : ∀ side live, .used side live ∈ s.mem.log → live = true
  stopped : ∀ x, .stopReturned x ∈ s.mem.log → s.Stopped
  past : ∀ before x after, s.mem.log = before ++ .stopReturned x :: after →
    x = κ.owed before ∧ (∀ e ∈ after, e = .stopReturned x) ∧ s.mem.counters = x

section Inv

lemma inv_construct : Inv κ (construct : Worker O M) where
  ledger := fun _ => rfl
  producerThread := nofun
  consumerThread := nofun
  producerClient := nofun
  consumerClient := nofun
  reader := nofun
  subscribe := nofun
  placed := ⟨rfl, rfl⟩
  live := nofun
  stopped := nofun
  past := by
    intro before x after h
    cases before <;> cases h

/-- The history grows by calm entries as long as `Stop` has not returned. -/
lemma Inv.grow (inv : Inv κ s) {new : List (Event O M)} (hrun : ¬s.Stopped)
    (hlog : m'.log = s.mem.log ++ new) (hcalm : ∀ e ∈ new, e.calm = true) :
    (∀ side live, .used side live ∈ m'.log → live = true) ∧ ∀ x, .stopReturned x ∉ m'.log := by
  rw [hlog]
  constructor
  · intro side live h
    rcases List.mem_append.mp h with h | h
    · exact inv.live side live h
    · exact hcalm _ h
  · intro x h
    rcases List.mem_append.mp h with h | h
    · exact hrun (inv.stopped x h)
    · cases hcalm _ h

/-- Where nothing has been returned yet there is nothing to say about it. -/
lemma past_of_not_mem {log : List (Event O M)} {P : List (Event O M) → Counters → List (Event O M) → Prop}
    (h : ∀ x, .stopReturned x ∉ log) :
    ∀ before x after, log = before ++ .stopReturned x :: after → P before x after := by
  rintro before x after rfl
  exact absurd (List.mem_append_right _ List.mem_cons_self) (h x)

/-- A step of the producer. -/
lemma Inv.producerStep (inv : Inv κ s) {pc' : ProducerPc O}
    (st : ProducerStep κ s.mem s.producer m' pc') : Inv κ { s with mem := m', producer := pc' } := by
  have heffect := st.effect inv.producerClient
  obtain ⟨new, hlog, hcalm⟩ := heffect.log
  obtain ⟨hlive, hclient, hother⟩ := st.client inv.producerClient
  have hrun : ¬s.Stopped := fun h => absurd (hlive.symm.trans h.1) nofun
  obtain ⟨hused, hreturned⟩ := inv.grow hrun hlog hcalm
  constructor
  case ledger =>
    intro c
    have hbefore := inv.ledger c
    have hstep := heffect.ledger c
    show m'.counters c + (pc'.todo.to c + s.consumer.todo.to c + s.reader.todo.to c) = κ.owed m'.log c
    omega
  case producerThread =>
    intro _
    rw [heffect.producerThread]
    exact inv.producerThread hlive
  case consumerThread =>
    rw [heffect.consumerThread]
    exact inv.consumerThread
  case producerClient => exact hclient
  case consumerClient =>
    rw [hother]
    exact inv.consumerClient
  case reader => exact inv.reader
  case subscribe => exact inv.subscribe
  case placed => exact inv.placed.producer hlive
  case live => exact hused
  case stopped => exact fun x hx => absurd hx (hreturned x)
  case past => exact past_of_not_mem hreturned

/-- A step of the consumer. -/
lemma Inv.consumerStep (inv : Inv κ s) {reader' : ReaderPc} {pc' : ConsumerPc}
    (st : ConsumerStep κ s.mem s.reader s.consumer m' reader' pc') :
    Inv κ { s with mem := m', reader := reader', consumer := pc' } := by
  have heffect := st.effect inv.consumerClient
  obtain ⟨new, hlog, hcalm⟩ := heffect.log
  obtain ⟨hlive, hclient, hother⟩ := st.client inv.consumerClient
  obtain ⟨hreader, htodo, hsubscribe⟩ := st.reader inv.reader inv.subscribe
  have hrun : ¬s.Stopped := fun h => absurd (hlive.symm.trans h.2.1) nofun
  obtain ⟨hused, hreturned⟩ := inv.grow hrun hlog hcalm
  constructor
  case ledger =>
    intro c
    have hbefore := inv.ledger c
    have hstep := heffect.ledger c
    show m'.counters c + (s.producer.todo.to c + pc'.todo.to c + reader'.todo.to c) = κ.owed m'.log c
    rw [htodo]
    omega
  case producerThread =>
    rw [heffect.producerThread]
    exact inv.producerThread
  case consumerThread =>
    intro _
    rw [heffect.consumerThread]
    exact inv.consumerThread hlive
  case producerClient =>
    rw [hother]
    exact inv.producerClient
  case consumerClient => exact hclient
  case reader => exact hreader
  case subscribe => exact hsubscribe
  case placed => exact inv.placed.consumer hlive
  case live => exact hused
  case stopped => exact fun x hx => absurd hx (hreturned x)
  case past => exact past_of_not_mem hreturned

/-- A step of the reader. -/
lemma Inv.readerStep (inv : Inv κ s) {pc' : ReaderPc} (st : ReaderStep κ s.mem s.reader m' pc') :
    Inv κ { s with mem := m', reader := pc' } := by
  obtain ⟨halive, hproducer, hconsumer⟩ := st.same
  obtain ⟨hholds, hk⟩ := inv.reader halive
  have hnot : s.consumer.finished = false := by
    cases hf : s.consumer.finished with
    | false => rfl
    | true => exact absurd ((ConsumerPc.of_finished hf).2.1.symm.trans hholds) nofun
  have hhas : s.consumer.hasClient = true := by
    cases hq : s.consumer
    case test => rfl
    case sleep => rfl
    case cancel => rfl
    case join => rfl
    all_goals
      rw [hq] at hholds
      cases hholds
  have heffect := st.effect (inv.consumerClient hhas)
  obtain ⟨new, hlog, hcalm⟩ := heffect.log
  have hrun : ¬s.Stopped := fun h => absurd (hnot.symm.trans h.2.1) nofun
  obtain ⟨hused, hreturned⟩ := inv.grow hrun hlog hcalm
  constructor
  case ledger =>
    intro c
    have hbefore := inv.ledger c
    have hstep := heffect.ledger c
    show m'.counters c + (s.producer.todo.to c + s.consumer.todo.to c + pc'.todo.to c) = κ.owed m'.log c
    omega
  case producerThread =>
    rw [heffect.producerThread]
    exact inv.producerThread
  case consumerThread =>
    rw [heffect.consumerThread]
    exact inv.consumerThread
  case producerClient =>
    rw [hproducer]
    exact inv.producerClient
  case consumerClient =>
    rw [hconsumer]
    exact inv.consumerClient
  case reader => exact fun _ => ⟨hholds, hk⟩
  case subscribe => exact inv.subscribe
  case placed => exact inv.placed
  case live => exact hused
  case stopped => exact fun x hx => absurd hx (hreturned x)
  case past => exact past_of_not_mem hreturned

/-- `running_` is the matter of the threads alone. -/
lemma Inv.setRunning (inv : Inv κ s) (b : Bool) :
    Inv κ { s with mem := { s.mem with running := b } } :=
  ⟨inv.ledger, inv.producerThread, inv.consumerThread, inv.producerClient, inv.consumerClient,
    inv.reader, inv.subscribe, inv.placed, inv.live, inv.stopped, inv.past⟩

/-- `Start` is under way, so `Stop` has not returned. -/
lemma Inv.not_returned (inv : Inv κ s) (h : s.owner = .fresh ∨ s.owner = .starting) (x : Counters) :
    .stopReturned x ∉ s.mem.log := by
  intro hx
  obtain ⟨-, -, hfresh, hstarting⟩ := inv.stopped x hx
  rcases h with h | h
  · exact hfresh h
  · exact hstarting h

lemma Inv.startProducer (inv : Inv κ s) (hp : s.producer = .unstarted)
    (hnot : ∀ x, .stopReturned x ∉ s.mem.log) {owner : OwnerPc}
    (hplaced : owner.Placed κ (.connect : ProducerPc O) s.consumer) :
    Inv κ (startProducer s owner) where
  ledger := by
    have h := inv.ledger
    rw [hp] at h
    exact h
  producerThread := fun _ => rfl
  consumerThread := inv.consumerThread
  producerClient := nofun
  consumerClient := inv.consumerClient
  reader := inv.reader
  subscribe := inv.subscribe
  placed := hplaced
  live := inv.live
  stopped := fun x hx => absurd hx (hnot x)
  past := past_of_not_mem hnot

lemma Inv.startConsumer (inv : Inv κ s) (hq : s.consumer = .unstarted)
    (hnot : ∀ x, .stopReturned x ∉ s.mem.log) {owner : OwnerPc}
    (hplaced : owner.Placed κ s.producer .connect) : Inv κ (startConsumer s owner) where
  ledger := by
    have h := inv.ledger
    rw [hq] at h
    exact h
  producerThread := inv.producerThread
  consumerThread := fun _ => rfl
  producerClient := inv.producerClient
  consumerClient := nofun
  reader := by
    intro ha
    have hholds := (inv.reader ha).1
    rw [hq] at hholds
    cases hholds
  subscribe := nofun
  placed := hplaced
  live := inv.live
  stopped := fun x hx => absurd hx (hnot x)
  past := past_of_not_mem hnot

/-- With the threads finished nothing is left to be added. -/
lemma Inv.settled (inv : Inv κ s) (hp : s.producer.finished = true)
    (hq : s.consumer.finished = true) : s.mem.counters = κ.owed s.mem.log := by
  obtain ⟨htodo, hholds, -⟩ := ConsumerPc.of_finished hq
  have hdead : s.reader.alive = false := by
    cases ha : s.reader.alive with
    | false => rfl
    | true => exact absurd (hholds.symm.trans (inv.reader ha).1) nofun
  funext c
  have h := inv.ledger c
  rw [ProducerPc.todo_of_finished hp, htodo, ReaderPc.todo_of_not_alive hdead] at h
  exact h

/-- The return of `Stop`. -/
lemma Inv.returns (inv : Inv κ s) (ho : s.owner = .closeConsumer) :
    Inv κ { s with
      mem := { s.mem with consumerClient := false }.observe (.stopReturned s.mem.counters)
      owner := .idle } := by
  have hplaced := inv.placed
  rw [ho] at hplaced
  obtain ⟨hp, hq⟩ := hplaced
  constructor
  case ledger =>
    intro c
    have h := inv.ledger c
    show _ = κ.owed (s.mem.log ++ [.stopReturned s.mem.counters]) c
    rw [owed_append, owed_single]
    exact h
  case producerThread => exact inv.producerThread
  case consumerThread => exact inv.consumerThread
  case producerClient => exact inv.producerClient
  case consumerClient => exact fun h => absurd ((ConsumerPc.of_finished hq).2.2.symm.trans h) nofun
  case reader => exact inv.reader
  case subscribe => exact inv.subscribe
  case placed => trivial
  case live =>
    intro side live h
    rcases List.mem_append.mp h with h | h
    · exact inv.live side live h
    · cases List.mem_singleton.mp h
  case stopped => exact fun _ _ => ⟨hp, hq, nofun, nofun⟩
  case past =>
    intro before x after h
    rcases Lts.split_concat h with ⟨rest, hlog, rfl⟩ | ⟨rfl, hx, rfl⟩
    · obtain ⟨hx, hrest, hcounters⟩ := inv.past before x rest hlog
      refine ⟨hx, ?_, hcounters⟩
      intro e he
      rcases List.mem_append.mp he with he | he
      · exact hrest e he
      · rw [List.mem_singleton.mp he, hcounters]
    · cases hx
      exact ⟨inv.settled hp hq, nofun, rfl⟩

/-- A step of `Start` or `Stop`. -/
lemma Inv.ownerStep (inv : Inv κ s) (st : OwnerStep κ s t) : Inv κ t := by
  have hplaced := inv.placed
  cases st with
  | startProducer ho hf =>
    rw [ho] at hplaced
    simp only [OwnerPc.Placed, hf, if_true] at hplaced
    exact inv.startProducer hplaced (inv.not_returned (.inr ho)) trivial
  | startConsumer ho hf =>
    rw [ho] at hplaced
    simp only [OwnerPc.Placed, hf, Bool.false_eq_true, if_false] at hplaced
    exact inv.startConsumer hplaced (inv.not_returned (.inr ho)) trivial
  | joinProducer ho hj =>
    have hp : s.producer.finished = true := by
      cases hf : s.producer.finished with
      | true => rfl
      | false => exact hf ▸ hj (inv.producerThread hf)
    refine ⟨inv.ledger, fun h => absurd (h.symm.trans hp) nofun, inv.consumerThread,
      inv.producerClient, inv.consumerClient, inv.reader, inv.subscribe, hp, inv.live, ?_, inv.past⟩
    exact fun x hx => ⟨hp, (inv.stopped x hx).2.1, nofun, nofun⟩
  | joinConsumer ho hj =>
    rw [ho] at hplaced
    have hq : s.consumer.finished = true := by
      cases hf : s.consumer.finished with
      | true => rfl
      | false => exact hf ▸ hj (inv.consumerThread hf)
    exact ⟨inv.ledger, inv.producerThread, fun h => absurd (h.symm.trans hq) nofun,
      inv.producerClient, inv.consumerClient, inv.reader, inv.subscribe, ⟨hplaced, hq⟩, inv.live,
      fun _ _ => ⟨hplaced, hq, nofun, nofun⟩, inv.past⟩
  | closeProducer ho =>
    rw [ho] at hplaced
    obtain ⟨hp, hq⟩ := hplaced
    exact ⟨inv.ledger, inv.producerThread, inv.consumerThread,
      fun h => absurd ((ProducerPc.hasClient_of_finished hp).symm.trans h) nofun, inv.consumerClient,
      inv.reader, inv.subscribe, ⟨hp, hq⟩, inv.live, fun _ _ => ⟨hp, hq, nofun, nofun⟩, inv.past⟩
  | closeConsumer ho => exact inv.returns ho

/-- Every step keeps the invariant. -/
lemma Inv.step {a : Action O M} (inv : Inv κ s) (st : Step κ s a t) : Inv κ t := by
  have hplaced := inv.placed
  cases st with
  | startConsumer ho hf =>
    rw [ho] at hplaced
    refine (inv.setRunning true).startConsumer hplaced.2 (inv.not_returned (.inl ho)) ?_
    simpa only [OwnerPc.Placed, hf, if_true] using hplaced.1
  | startProducer ho hf =>
    rw [ho] at hplaced
    refine (inv.setRunning true).startProducer hplaced.1 (inv.not_returned (.inl ho)) ?_
    simpa only [OwnerPc.Placed, hf, Bool.false_eq_true, if_false] using hplaced.2
  | beginStop _ =>
    exact ⟨inv.ledger, inv.producerThread, inv.consumerThread, inv.producerClient, inv.consumerClient,
      inv.reader, inv.subscribe, trivial, inv.live,
      fun x hx => ⟨(inv.stopped x hx).1, (inv.stopped x hx).2.1, nofun, nofun⟩, inv.past⟩
  | owner st => exact inv.ownerStep st
  | producer st => exact inv.producerStep st
  | consumer st => exact inv.consumerStep st
  | reader st => exact inv.readerStep st

lemma inv_reachable (h : (sys κ).Reachable s) : Inv κ s := by
  apply h.invariant (I := Inv κ)
  · rintro s rfl
    exact inv_construct
  · intro s a t _ inv _ hn
    exact inv.step (.of_next hn)

end Inv

/-- What a worker does, whatever its kind: no thread uses a client that is not there; and when `Stop`
returns the counters are what the history owes, no thread is left, and nothing follows but further
returns of `Stop` with the same counters. -/
theorem worker_orderly (κ : WorkerKind O M) (s : Worker O M) (h : (sys κ).Reachable s) :
    (∀ side live, .used side live ∈ s.mem.log → live = true) ∧
      ∀ before x after, s.mem.log = before ++ .stopReturned x :: after →
        x = κ.owed before ∧ (∀ e ∈ after, e = .stopReturned x) ∧ s.mem.counters = x ∧
          s.producer.finished = true ∧ s.consumer.finished = true ∧ s.reader.alive = false := by
  have inv := inv_reachable h
  refine ⟨inv.live, ?_⟩
  intro before x after hlog
  obtain ⟨hx, hafter, hcounters⟩ := inv.past before x after hlog
  have hmem : .stopReturned x ∈ s.mem.log := by
    rw [hlog]
    exact List.mem_append_right _ List.mem_cons_self
  obtain ⟨hp, hq, -⟩ := inv.stopped x hmem
  refine ⟨hx, hafter, hcounters, hp, hq, ?_⟩
  cases ha : s.reader.alive with
  | false => rfl
  | true => exact absurd ((ConsumerPc.of_finished hq).2.1.symm.trans (inv.reader ha).1) nofun

/-- An event that a worker receives. -/
def oneByte : EventReceive := ⟨"e1", "c1", "", [0], 0, 1, ∅⟩

/-- A worker publishes an event, receives one and is stopped. -/
def oneEvent : List (Action Status EventReceive) :=
  [.beginStart, .owner, .producer (.done true), .producer .tau, .producer .tau,
    .producer (.answer .okStatus), .producer .tau, .producer .tau, .producer .tau,
    .consumer (.done true), .consumer .tau, .consumer (.done true), .consumer .tau,
    .reader (.message oneByte), .reader .tau, .reader .tau, .reader .tau, .beginStop,
    .consumer .tau, .consumer .tau, .consumer .tau, .reader .exit, .consumer .tau, .producer .tau,
    .owner, .owner, .owner, .owner]

theorem worker_orderly_oneEvent :
    ∃ s x, (sys events).exec construct oneEvent = some s ∧
      s.mem.log = [.used .producer true, .answered 1 .okStatus, .used .consumer true,
        .delivered oneByte, .stopReturned x] ∧ x .sent = 1 ∧ x .bytesReceived = 1 := by
  obtain ⟨s, hs⟩ : ∃ s, (sys events).exec construct oneEvent = some s := ⟨_, rfl⟩
  have hlog : ∃ x, s.mem.log = [.used .producer true, .answered 1 .okStatus, .used .consumer true,
      .delivered oneByte] ++ .stopReturned x :: [] := by
    cases hs
    exact ⟨_, rfl⟩
  obtain ⟨x, hx⟩ := hlog
  have hreach : (sys events).Reachable s := Lts.Sys.Reachable.exec (.init rfl) oneEvent hs
  obtain ⟨howed, -⟩ := (worker_orderly events s hreach).2 _ x _ hx
  exact ⟨s, x, hs, hx, by rw [howed]; rfl, by rw [howed]; rfl⟩

end PairWorker

end KubeMQ.Burnin
