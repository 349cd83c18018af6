import KubeMQ.Burnin.Worker

/-!
# Inversion of the worker's steps

One constructor for each atomic step of the producer, the consumer, `Stop` and the detached thread.
The steps of a call on the upstream handle or on the receiver are those of `StreamHandle.CallStep`
and `Downstream.CallStep`.
-/

namespace KubeMQ.Burnin.QueueStream

/-- A step of a call that thread `i` makes on the upstream handle. -/
inductive UpstreamStep (i : ℕ) (m : Mem) (pc : UpCall) : Mem → UpCall → Prop where
  | intro {u l mem pc'} :
    m.upstream = some u →
    StreamHandle.CallStep .queueUpstream u.reader.isExited i u.mem pc l mem pc' →
    UpstreamStep i m pc { m with upstream := some { u with mem := mem } } pc'

/-- A step of a call that thread `i` makes on the receiver. -/
inductive ReceiverStep (c : Config) (i : ℕ) (m : Mem) (pc : Downstream.CallPc) :
    Mem → Downstream.CallPc → Prop where
  | intro {d l d' pc'} :
    m.receiver = some d →
    Downstream.CallStep c.env d i pc l d' pc' →
    ReceiverStep c i m pc { m with receiver := some d' } pc'

/-- The steps of the producer. -/
inductive ProducerStep (c : Config) (m : Mem) : ProducerPc → Mem → ProducerPc → Prop where
  | connected :
    ProducerStep c m .connect m .assignClient
  | refused :
    ProducerStep c m .connect m .connectFailed
  | connectFailed :
    ProducerStep c m .connectFailed (m.count .error) .exited
  | assignClient :
    ProducerStep c m .assignClient { m with producerClient := true } .openStream
  | opened :
    ProducerStep c m .openStream { m with upstream := some Upstream.start } .assign
  | notOpened :
    ProducerStep c m .openStream m .openFailed
  | openFailed :
    ProducerStep c m .openFailed (m.count .error) .exited
  | assign :
    ProducerStep c m .assign { m with upstreamSet := true }
      (.setResult (.setLock .onResult (some 0)))
  | setResult {pc m' pc'} :
    UpstreamStep 0 m pc m' pc' →
    pc'.returned = false →
    ProducerStep c m (.setResult pc) m' (.setResult pc')
  | resultSet {pc m' pc'} :
    UpstreamStep 0 m pc m' pc' →
    pc'.returned = true →
    ProducerStep c m (.setResult pc) m' (.setError (.setLock .onError (some 1)))
  | setError {pc m' pc'} :
    UpstreamStep 0 m pc m' pc' →
    pc'.returned = false →
    ProducerStep c m (.setError pc) m' (.setError pc')
  | errorSet {pc m' pc'} :
    UpstreamStep 0 m pc m' pc' →
    pc'.returned = true →
    ProducerStep c m (.setError pc) m' (.test 0)
  | goOn {seq} :
    m.running = true →
    ProducerStep c m (.test seq) m (.build (seq + 1))
  | leave {seq} :
    m.running = false →
    ProducerStep c m (.test seq) m .exited
  | build {seq msg} :
    ProducerStep c m (.build seq) (m.count (.bytes (bodyText seq).length))
      (.send seq (.sendLock (c.request seq msg)))
  | invalid {seq} :
    ProducerStep c m (.build seq) m (.pause seq)
  | send {seq pc m' pc'} :
    UpstreamStep 0 m pc m' pc' →
    (∀ st, pc' ≠ .sent st) →
    ProducerStep c m (.send seq pc) m' (.send seq pc')
  | sent {seq pc m' st} :
    UpstreamStep 0 m pc m' (.sent st) →
    ProducerStep c m (.send seq pc) m' (.pause seq)
  | sendFailed {seq pc m' st} :
    UpstreamStep 0 m pc m' (.sent st) →
    ProducerStep c m (.send seq pc) m' (.sendFailed seq)
  | report {seq} :
    m.running = true →
    ProducerStep c m (.sendFailed seq) m (.countError seq)
  | ignore {seq} :
    m.running = false →
    ProducerStep c m (.sendFailed seq) m (.pause seq)
  | countError {seq} :
    ProducerStep c m (.countError seq) (m.count .error) (.pause seq)
  | pause {seq} :
    ProducerStep c m (.pause seq) m (.test seq)

/-- The steps of the consumer. -/
inductive ConsumerStep (c : Config) (m : Mem) : ConsumerPc → Mem → ConsumerPc → Prop where
  | connected :
    ConsumerStep c m .connect m .assignClient
  | refused :
    ConsumerStep c m .connect m .connectFailed
  | connectFailed :
    ConsumerStep c m .connectFailed (m.count .error) .exited
  | assignClient :
    ConsumerStep c m .assignClient { m with consumerClient := true } .openStream
  | opened :
    ConsumerStep c m .openStream { m with receiver := some Downstream.start.mem } .assign
  | notOpened :
    ConsumerStep c m .openStream m .openFailed
  | openFailed :
    ConsumerStep c m .openFailed (m.count .error) .exited
  | assign :
    ConsumerStep c m .assign { m with receiverSet := true } .test
  | goOn :
    m.running = true →
    ConsumerStep c m .test m (.poll (.pollCheck c.pollRequest))
  | leave :
    m.running = false →
    ConsumerStep c m .test m .exited
  | poll {pc m' pc'} :
    ReceiverStep c 0 m pc m' pc' →
    (∀ v, pc' ≠ .polled v) →
    ConsumerStep c m (.poll pc) m' (.poll pc')
  | polled {pc m' p} :
    ReceiverStep c 0 m pc m' (.polled (.value p)) →
    p.isError = false →
    ConsumerStep c m (.poll pc) m' (.count p)
  | polledError {pc m' p} :
    ReceiverStep c 0 m pc m' (.polled (.value p)) →
    p.isError = true →
    ConsumerStep c m (.poll pc) m' .test
  | pollFailed {pc m' st} :
    ReceiverStep c 0 m pc m' (.polled (.error st)) →
    ConsumerStep c m (.poll pc) m' .pollFailed
  | countAcked {p} :
    (!c.autoAck && !p.messages.isEmpty) = false →
    ConsumerStep c m (.count p) (m.count (.poll p)) .test
  | countUnacked {p} :
    (!c.autoAck && !p.messages.isEmpty) = true →
    ConsumerStep c m (.count p) (m.count (.poll p)) (.ack (.settleAllStart p .ack))
  | ack {pc m' pc'} :
    ReceiverStep c 0 m pc m' pc' →
    (∀ st, pc' ≠ .settled st) →
    ConsumerStep c m (.ack pc) m' (.ack pc')
  | acked {pc m' st} :
    ReceiverStep c 0 m pc m' (.settled st) →
    st.ok = true →
    ConsumerStep c m (.ack pc) m' .test
  | notAcked {pc m' st} :
    ReceiverStep c 0 m pc m' (.settled st) →
    st.ok = false →
    ConsumerStep c m (.ack pc) m' .ackFailed
  | ackFailed :
    ConsumerStep c m .ackFailed (m.count .error) .test
  | report :
    m.running = true →
    ConsumerStep c m .pollFailed m .countError
  | ignore :
    m.running = false →
    ConsumerStep c m .pollFailed m .test
  | countError :
    ConsumerStep c m .countError (m.count .error) .test

/-- The steps of `Stop`. -/
inductive StopStep (c : Config) (producer : ProducerPc) (consumer : ConsumerPc) (m : Mem) :
    StopPc → Mem → StopPc → Prop where
  | hasReceiver :
    m.receiverSet = true →
    StopStep c producer consumer m .testReceiver m (.closeReceiver .closeExchange)
  | noReceiver :
    m.receiverSet = false →
    StopStep c producer consumer m .testReceiver m .joinProducer
  | closeReceiver {pc m' pc'} :
    ReceiverStep c 1 m pc m' pc' →
    pc'.isClosed = false →
    StopStep c producer consumer m (.closeReceiver pc) m' (.closeReceiver pc')
  | receiverClosed {pc m' pc'} :
    ReceiverStep c 1 m pc m' pc' →
    pc'.isClosed = true →
    StopStep c producer consumer m (.closeReceiver pc) m' .joinProducer
  | joinProducer :
    (m.producerThread = true → producer.finished = true) →
    StopStep c producer consumer m .joinProducer { m with producerThread := false } .joinConsumer
  | joinConsumer :
    (m.consumerThread = true → consumer.finished = true) →
    StopStep c producer consumer m .joinConsumer { m with consumerThread := false } .release
  | release :
    m.upstreamSet = true →
    StopStep c producer consumer m .release
      { m with upstreamSet := false, producerClient := false, cleaner := .delete .closeLock }
      .resetReceiver
  | noUpstream :
    m.upstreamSet = false →
    StopStep c producer consumer m .release m .closeProducer
  | closeProducer :
    StopStep c producer consumer m .closeProducer { m with producerClient := false } .resetReceiver
  | reset :
    m.receiverSet = true →
    StopStep c producer consumer m .resetReceiver { m with receiverSet := false }
      (.destroyReceiver .closeExchange)
  | noReset :
    m.receiverSet = false →
    StopStep c producer consumer m .resetReceiver m .closeConsumer
  | destroyReceiver {pc m' pc'} :
    ReceiverStep c 1 m pc m' pc' →
    pc'.isClosed = false →
    StopStep c producer consumer m (.destroyReceiver pc) m' (.destroyReceiver pc')
  | receiverDestroyed {pc m' pc'} :
    ReceiverStep c 1 m pc m' pc' →
    pc'.isClosed = true →
    StopStep c producer consumer m (.destroyReceiver pc) { m' with receiver := none } .closeConsumer
  | closeConsumer :
    StopStep c producer consumer m .closeConsumer
      { m with consumerClient := false, log := m.log ++ [.stopReturned m.metrics] } .idle

/-- The steps of the detached thread. -/
inductive CleanerStep (m : Mem) : CleanerPc → Mem → Prop where
  | delete {pc m' pc'} :
    UpstreamStep 1 m pc m' pc' →
    pc'.returned = false →
    CleanerStep m (.delete pc) { m' with cleaner := .delete pc' }
  | closed {pc m' pc'} :
    UpstreamStep 1 m pc m' pc' →
    pc'.returned = true →
    CleanerStep m (.delete pc) { m' with cleaner := .free }
  | free {u} :
    m.upstream = some u →
    CleanerStep m .free
      { m with upstream := none, crashed := u.mem.joiner.joinable, cleaner := .closeClient }
  | closeClient :
    CleanerStep m .closeClient { m with cleaner := .exited }

/-- A step of the reader. -/
inductive DeliveryStep (m : Mem) : UpLabel → Mem → Prop where
  | intro {u l mem pc} :
    m.upstream = some u →
    StreamHandle.ReaderStep .queueUpstream u.mem u.reader l mem pc →
    DeliveryStep m l ({ m with upstream := some ⟨mem, pc⟩ }.deliver (Lambda.begun u.reader pc) l)

/-- The steps of a worker. -/
inductive Step (c : Config) (s : Worker) : Action → Worker → Prop where
  | beginStop :
    s.stop = .idle →
    Step c s .beginStop { s with mem := { s.mem with running := false }, stop := .testReceiver }
  | stop {l m' pc'} :
    StopStep c s.producer s.consumer s.mem s.stop m' pc' →
    Step c s (.stop l) { s with mem := m', stop := pc' }
  | producer {l m' pc'} :
    ProducerStep c s.mem s.producer m' pc' →
    Step c s (.producer l) { s with mem := m', producer := pc' }
  | consumer {l m' pc'} :
    ConsumerStep c s.mem s.consumer m' pc' →
    Step c s (.consumer l) { s with mem := m', consumer := pc' }
  | cleaner {l m'} :
    CleanerStep s.mem s.mem.cleaner m' →
    Step c s (.cleaner l) { s with mem := m' }
  | reader {l m'} :
    (∀ x, l ≠ .callback (some x)) →
    DeliveryStep s.mem l m' →
    Step c s (.reader l) { s with mem := m' }
  | answer {k resp d r} :
    s.mem.receiver = some d →
    Downstream.Step c.env ⟨d, []⟩ (.answer k resp) r →
    Step c s (.answer k resp) { s with mem := { s.mem with receiver := some r.mem } }
  | breakStream {d r} :
    s.mem.receiver = some d →
    Downstream.Step c.env ⟨d, []⟩ .breakStream r →
    Step c s .breakStream { s with mem := { s.mem with receiver := some r.mem } }

lemma UpstreamStep.of_next {m m' : Mem} {i : ℕ} {pc pc' : UpCall} {l : StreamHandle.CallLabel}
    (hn : m.upstreamNext i pc l = some (m', pc')) : UpstreamStep i m pc m' pc' := by
  obtain ⟨u, hu, hm⟩ := Option.bind_eq_some_iff.mp hn
  obtain ⟨r, hr, heq⟩ := Option.map_eq_some_iff.mp hm
  cases heq
  exact .intro hu (.of_next hr)

lemma ReceiverStep.of_next {c : Config} {m m' : Mem} {i : ℕ} {pc pc' : Downstream.CallPc}
    {l : Downstream.CallLabel} (hn : m.receiverNext c i pc l = some (m', pc')) :
    ReceiverStep c i m pc m' pc' := by
  obtain ⟨d, hd, hm⟩ := Option.bind_eq_some_iff.mp hn
  obtain ⟨r, hr, heq⟩ := Option.map_eq_some_iff.mp hm
  cases heq
  exact .intro hd (.of_next hr)

lemma ProducerStep.of_next {c : Config} {m m' : Mem} {pc pc' : ProducerPc} {l : Label}
    (hn : producerNext c m pc l = some (m', pc')) : ProducerStep c m pc m' pc' := by
  unfold producerNext at hn
  split at hn
  case h_1 ok =>
    cases ok <;> cases hn
    · exact .refused
    · exact .connected
  case h_4 ok =>
    cases ok <;> cases hn
    · exact .notOpened
    · exact .opened
  case h_7 pc l =>
    obtain ⟨⟨m₁, pc₁⟩, hr, heq⟩ := Option.map_eq_some_iff.mp hn
    cases h : pc₁.returned <;> simp only [h] at heq <;> cases heq
    · exact .setResult (.of_next hr) h
    · exact .resultSet (.of_next hr) h
  case h_8 pc l =>
    obtain ⟨⟨m₁, pc₁⟩, hr, heq⟩ := Option.map_eq_some_iff.mp hn
    cases h : pc₁.returned <;> simp only [h] at heq <;> cases heq
    · exact .setError (.of_next hr) h
    · exact .errorSet (.of_next hr) h
  case h_9 seq =>
    cases h : m.running <;> simp only [h] at hn <;> cases hn
    · exact .leave h
    · exact .goOn h
  case h_10 seq =>
    split at hn <;> cases hn
    · exact .build
    · exact .invalid
  case h_11 seq pc l =>
    obtain ⟨⟨m₁, pc₁⟩, hr, heq⟩ := Option.map_eq_some_iff.mp hn
    simp only at heq
    split at heq
    · next st =>
      cases h : st.ok <;> simp only [h] at heq <;> cases heq
      · exact .sendFailed (.of_next hr)
      · exact .sent (.of_next hr)
    · next hne =>
      cases heq
      exact .send (.of_next hr) hne
  case h_12 seq =>
    cases h : m.running <;> simp only [h] at hn <;> cases hn
    · exact .ignore h
    · exact .report h
  all_goals cases hn
  all_goals constructor

lemma ConsumerStep.of_next {c : Config} {m m' : Mem} {pc pc' : ConsumerPc} {l : Label}
    (hn : consumerNext c m pc l = some (m', pc')) : ConsumerStep c m pc m' pc' := by
  unfold consumerNext at hn
  split at hn
  case h_1 ok =>
    cases ok <;> cases hn
    · exact .refused
    · exact .connected
  case h_4 ok =>
    cases ok <;> cases hn
    · exact .notOpened
    · exact .opened
  case h_7 =>
    cases h : m.running <;> simp only [h] at hn <;> cases hn
    · exact .leave h
    · exact .goOn h
  case h_8 pc l =>
    obtain ⟨⟨m₁, pc₁⟩, hr, heq⟩ := Option.map_eq_some_iff.mp hn
    simp only at heq
    split at heq
    · next p =>
      cases h : p.isError <;> simp only [h] at heq <;> cases heq
      · exact .polled (.of_next hr) h
      · exact .polledError (.of_next hr) h
    · next st =>
      cases heq
      exact .pollFailed (.of_next hr)
    · next hval herr =>
      cases heq
      refine .poll (.of_next hr) ?_
      intro v
      cases v with
      | value p => exact hval p
      | error st => exact herr st
  case h_9 p =>
    cases h : !c.autoAck && !p.messages.isEmpty <;> simp only [h] at hn <;> cases hn
    · exact .countAcked h
    · exact .countUnacked h
  case h_10 pc l =>
    obtain ⟨⟨m₁, pc₁⟩, hr, heq⟩ := Option.map_eq_some_iff.mp hn
    simp only at heq
    split at heq
    · next st =>
      cases h : st.ok <;> simp only [h] at heq <;> cases heq
      · exact .notAcked (.of_next hr) h
      · exact .acked (.of_next hr) h
    · next hne =>
      cases heq
      exact .ack (.of_next hr) hne
  case h_12 =>
    cases h : m.running <;> simp only [h] at hn <;> cases hn
    · exact .ignore h
    · exact .report h
  all_goals cases hn
  all_goals constructor

lemma StopStep.of_next {c : Config} {producer : ProducerPc} {consumer : ConsumerPc} {m m' : Mem}
    {pc pc' : StopPc} {l : Label}
    (hn : stopNext c producer.finished consumer.finished m pc l = some (m', pc')) :
    StopStep c producer consumer m pc m' pc' := by
  unfold stopNext at hn
  split at hn
  case h_1 =>
    cases h : m.receiverSet <;> simp only [h] at hn <;> cases hn
    · exact .noReceiver h
    · exact .hasReceiver h
  case h_2 pc l =>
    obtain ⟨⟨m₁, pc₁⟩, hr, heq⟩ := Option.map_eq_some_iff.mp hn
    cases h : pc₁.isClosed <;> simp only [h] at heq <;> cases heq
    · exact .closeReceiver (.of_next hr) h
    · exact .receiverClosed (.of_next hr) h
  case h_3 =>
    split at hn
    next => cases hn
    next h =>
      cases hn
      apply StopStep.joinProducer
      intro ht
      simpa [ht] using h
  case h_4 =>
    split at hn
    next => cases hn
    next h =>
      cases hn
      apply StopStep.joinConsumer
      intro ht
      simpa [ht] using h
  case h_5 =>
    cases h : m.upstreamSet <;> simp only [h] at hn <;> cases hn
    · exact .noUpstream h
    · exact .release h
  case h_7 =>
    cases h : m.receiverSet <;> simp only [h] at hn <;> cases hn
    · exact .noReset h
    · exact .reset h
  case h_8 pc l =>
    obtain ⟨⟨m₁, pc₁⟩, hr, heq⟩ := Option.map_eq_some_iff.mp hn
    cases h : pc₁.isClosed <;> simp only [h] at heq <;> cases heq
    · exact .destroyReceiver (.of_next hr) h
    · exact .receiverDestroyed (.of_next hr) h
  all_goals cases hn
  all_goals constructor

lemma CleanerStep.of_next {m m' : Mem} {pc : CleanerPc} {l : Label}
    (hn : cleanerNext m pc l = some m') : CleanerStep m pc m' := by
  unfold cleanerNext at hn
  split at hn
  case h_1 pc l =>
    obtain ⟨⟨m₁, pc₁⟩, hr, rfl⟩ := Option.map_eq_some_iff.mp hn
    cases h : pc₁.returned
    · exact .delete (.of_next hr) h
    · exact .closed (.of_next hr) h
  case h_2 =>
    obtain ⟨u, hu, rfl⟩ := Option.map_eq_some_iff.mp hn
    exact .free hu
  case h_3 =>
    cases hn
    exact .closeClient
  case h_4 => cases hn

lemma DeliveryStep.of_next {m m' : Mem} {l : UpLabel} (hn : m.readerNext l = some m') :
    DeliveryStep m l m' := by
  obtain ⟨u, hu, hm⟩ := Option.bind_eq_some_iff.mp hn
  obtain ⟨⟨mem, pc⟩, hr, rfl⟩ := Option.map_eq_some_iff.mp hm
  exact .intro hu (.of_next hr)

lemma Step.of_next {c : Config} {s t : Worker} {a : Action} (hn : next c s a = some t) :
    s.mem.crashed = false ∧ Step c s a t := by
  unfold next at hn
  split at hn
  next => cases hn
  next hc =>
    refine ⟨by simpa using hc, ?_⟩
    cases a with
    | beginStop =>
      simp only [liveNext] at hn
      split at hn
      next hs =>
        cases hn
        exact .beginStop hs
      next => cases hn
    | stop l =>
      obtain ⟨⟨m', pc'⟩, hr, rfl⟩ := Option.map_eq_some_iff.mp hn
      exact .stop (.of_next hr)
    | producer l =>
      obtain ⟨⟨m', pc'⟩, hr, rfl⟩ := Option.map_eq_some_iff.mp hn
      exact .producer (.of_next hr)
    | consumer l =>
      obtain ⟨⟨m', pc'⟩, hr, rfl⟩ := Option.map_eq_some_iff.mp hn
      exact .consumer (.of_next hr)
    | cleaner l =>
      obtain ⟨m', hr, rfl⟩ := Option.map_eq_some_iff.mp hn
      exact .cleaner (.of_next hr)
    | reader l =>
      simp only [liveNext] at hn
      split at hn
      next => cases hn
      next hl =>
        obtain ⟨m', hr, rfl⟩ := Option.map_eq_some_iff.mp hn
        exact .reader hl (.of_next hr)
    | answer k resp =>
      obtain ⟨m', hr, rfl⟩ := Option.map_eq_some_iff.mp hn
      obtain ⟨d, hd, hm⟩ := Option.bind_eq_some_iff.mp hr
      obtain ⟨r, hnext, rfl⟩ := Option.map_eq_some_iff.mp hm
      exact .answer hd (.of_next hnext)
    | breakStream =>
      obtain ⟨m', hr, rfl⟩ := Option.map_eq_some_iff.mp hn
      obtain ⟨d, hd, hm⟩ := Option.bind_eq_some_iff.mp hr
      obtain ⟨r, hnext, rfl⟩ := Option.map_eq_some_iff.mp hm
      exact .breakStream hd (.of_next hnext)

end KubeMQ.Burnin.QueueStream
