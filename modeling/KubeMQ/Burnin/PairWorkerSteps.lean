import KubeMQ.Burnin.PairWorker

/-!
# The steps of a worker

What each thread of a `PairWorker` can do, what an entry of the history owes to the counters, and what
a thread has still to add.
-/

namespace KubeMQ.Burnin.PairWorker

variable {O M : Type} {κ : WorkerKind O M}

/-- What an entry of the history adds to the counters in the end. -/
def WorkerKind.owes (κ : WorkerKind O M) : Event O M → Adds
  | .answered seq o =>
    if κ.succeeded o then κ.credit o (κ.body seq).utf8ByteSize else []
  | .failed o => κ.debit o
  | .delivered x =>
    match κ.consumer with
    | .polling count => count x
    | .subscription lambda =>
      match lambda x with
      | .count adds => adds
      | .reply => []
  | .errored => [(.errors, 1)]
  | _ => []

/-- What a history adds to the counters. -/
def WorkerKind.owed (κ : WorkerKind O M) (log : List (Event O M)) : Counters :=
  fun c => (log.map fun e => (κ.owes e).to c).sum

/-- What a thread is still adding. -/
def ProducerPc.todo : ProducerPc O → Adds
  | .adding _ todo => todo
  | _ => []

def ConsumerPc.todo : ConsumerPc → Adds
  | .adding todo => todo
  | _ => []

def ReaderPc.todo : ReaderPc → Adds
  | .adding todo => todo
  | _ => []

/-- The thread has the client that it uses. -/
def ProducerPc.hasClient : ProducerPc O → Bool
  | .test _ => true
  | .send _ => true
  | .failed _ _ => true
  | .adding _ _ => true
  | _ => false

def ConsumerPc.hasClient : ConsumerPc → Bool
  | .subscribe => true
  | .subscribeFailed => true
  | .test => true
  | .sleep => true
  | .receive => true
  | .adding _ => true
  | .cancel => true
  | .join => true
  | _ => false

/-- The consumer has a subscription and waits. -/
def ConsumerPc.holdsReader : ConsumerPc → Bool
  | .test => true
  | .sleep => true
  | .cancel => true
  | .join => true
  | _ => false

/-- The consumer holds a subscription rather than polling. -/
def WorkerKind.subscribes (κ : WorkerKind O M) : Bool :=
  match κ.consumer with
  | .subscription _ => true
  | .polling _ => false

/-- The steps of the producer. -/
inductive ProducerStep (κ : WorkerKind O M) (m : Mem O M) :
    ProducerPc O → Mem O M → ProducerPc O → Prop where
  | connected :
    ProducerStep κ m .connect m .assignClient
  | refused :
    ProducerStep κ m .connect m .connectFailed
  | connectFailed :
    ProducerStep κ m .connectFailed m.error .exited
  | assignClient :
    ProducerStep κ m .assignClient { m with producerClient := true } (.test 0)
  | goOn {seq} :
    m.running = true →
    ProducerStep κ m (.test seq) m (.send (seq + 1))
  | stop {seq} :
    m.running = false →
    ProducerStep κ m (.test seq) m .exited
  | sent {seq o} :
    κ.succeeded o = true →
    ProducerStep κ m (.send seq)
      ((m.observe (.used .producer m.producerClient)).observe (.answered seq o))
      (.adding seq (κ.credit o (κ.body seq).utf8ByteSize))
  | notSent {seq o} :
    κ.succeeded o = false →
    ProducerStep κ m (.send seq)
      ((m.observe (.used .producer m.producerClient)).observe (.answered seq o)) (.failed seq o)
  | failed {seq o} :
    m.running = true →
    ProducerStep κ m (.failed seq o) (m.observe (.failed o)) (.adding seq (κ.debit o))
  | ignored {seq o} :
    m.running = false →
    ProducerStep κ m (.failed seq o) m (.test seq)
  | add {seq a todo} :
    ProducerStep κ m (.adding seq (a :: todo)) (m.add a) (.adding seq todo)
  | added {seq} :
    ProducerStep κ m (.adding seq []) m (.test seq)

/-- The steps of the consumer. -/
inductive ConsumerStep (κ : WorkerKind O M) (m : Mem O M) (reader : ReaderPc) :
    ConsumerPc → Mem O M → ReaderPc → ConsumerPc → Prop where
  | connected :
    ConsumerStep κ m reader .connect m reader .assignClient
  | refused :
    ConsumerStep κ m reader .connect m reader .connectFailed
  | connectFailed :
    ConsumerStep κ m reader .connectFailed m.error reader .exited
  | toSubscribe :
    κ.subscribes = true →
    ConsumerStep κ m reader .assignClient { m with consumerClient := true } reader .subscribe
  | toPoll :
    κ.subscribes = false →
    ConsumerStep κ m reader .assignClient { m with consumerClient := true } reader .test
  | subscribed :
    ConsumerStep κ m reader .subscribe (m.observe (.used .consumer m.consumerClient)) .idle .test
  | notSubscribed :
    ConsumerStep κ m reader .subscribe (m.observe (.used .consumer m.consumerClient)) reader
      .subscribeFailed
  | subscribeFailed :
    ConsumerStep κ m reader .subscribeFailed m.error reader .exited
  | wait :
    κ.subscribes = true →
    m.running = true →
    ConsumerStep κ m reader .test m reader .sleep
  | stop :
    κ.subscribes = true →
    m.running = false →
    ConsumerStep κ m reader .test m reader .cancel
  | goOn :
    κ.subscribes = false →
    m.running = true →
    ConsumerStep κ m reader .test m reader .receive
  | leave :
    κ.subscribes = false →
    m.running = false →
    ConsumerStep κ m reader .test m reader .exited
  | sleep :
    ConsumerStep κ m reader .sleep m reader .test
  | receive {x} {count : M → Adds} :
    κ.consumer = .polling count →
    ConsumerStep κ m reader .receive
      ((m.observe (.used .consumer m.consumerClient)).observe (.delivered x)) reader
      (.adding (count x))
  | add {a todo} :
    ConsumerStep κ m reader (.adding (a :: todo)) (m.add a) reader (.adding todo)
  | added :
    ConsumerStep κ m reader (.adding []) m reader .test
  | cancel :
    ConsumerStep κ m reader .cancel m reader .join
  | join :
    reader.alive = false →
    ConsumerStep κ m reader .join m reader .exited

/-- The steps of the reader. -/
inductive ReaderStep (κ : WorkerKind O M) (m : Mem O M) : ReaderPc → Mem O M → ReaderPc → Prop where
  | count {x adds} {lambda : M → Lambda} :
    κ.consumer = .subscription lambda →
    lambda x = .count adds →
    ReaderStep κ m .idle (m.observe (.delivered x)) (.adding adds)
  | reply {x} {lambda : M → Lambda} :
    κ.consumer = .subscription lambda →
    lambda x = .reply →
    ReaderStep κ m .idle (m.observe (.delivered x)) .replying
  | error :
    ReaderStep κ m .idle (m.observe .errored) (.adding [(.errors, 1)])
  | exit :
    ReaderStep κ m .idle m .exited
  | add {a todo} :
    ReaderStep κ m (.adding (a :: todo)) (m.add a) (.adding todo)
  | added :
    ReaderStep κ m (.adding []) m .idle
  | replied :
    ReaderStep κ m .replying (m.observe (.used .consumer m.consumerClient)) .idle
  | notReplied :
    ReaderStep κ m .replying
      ((m.observe (.used .consumer m.consumerClient)).observe .errored) (.adding [(.errors, 1)])

/-- The steps of `Start` and `Stop`. -/
inductive OwnerStep (κ : WorkerKind O M) (s : Worker O M) : Worker O M → Prop where
  | startProducer :
    s.owner = .starting →
    κ.consumerFirst = true →
    OwnerStep κ s (startProducer s .idle)
  | startConsumer :
    s.owner = .starting →
    κ.consumerFirst = false →
    OwnerStep κ s (startConsumer s .idle)
  | joinProducer :
    s.owner = .joinProducer →
    (s.mem.producerThread = true → s.producer.finished = true) →
    OwnerStep κ s { s with mem := { s.mem with producerThread := false }, owner := .joinConsumer }
  | joinConsumer :
    s.owner = .joinConsumer →
    (s.mem.consumerThread = true → s.consumer.finished = true) →
    OwnerStep κ s { s with mem := { s.mem with consumerThread := false }, owner := .closeProducer }
  | closeProducer :
    s.owner = .closeProducer →
    OwnerStep κ s { s with mem := { s.mem with producerClient := false }, owner := .closeConsumer }
  | closeConsumer :
    s.owner = .closeConsumer →
    OwnerStep κ s
      { s with
        mem := { s.mem with consumerClient := false }.observe (.stopReturned s.mem.counters)
        owner := .idle }

/-- The steps of a worker. -/
inductive Step (κ : WorkerKind O M) (s : Worker O M) : Action O M → Worker O M → Prop where
  | startConsumer :
    s.owner = .fresh →
    κ.consumerFirst = true →
    Step κ s .beginStart
      (startConsumer { s with mem := { s.mem with running := true } } .starting)
  | startProducer :
    s.owner = .fresh →
    κ.consumerFirst = false →
    Step κ s .beginStart
      (startProducer { s with mem := { s.mem with running := true } } .starting)
  | beginStop :
    s.owner = .fresh ∨ s.owner = .idle →
    Step κ s .beginStop { s with mem := { s.mem with running := false }, owner := .joinProducer }
  | owner {t} :
    OwnerStep κ s t →
    Step κ s .owner t
  | producer {l m' pc'} :
    ProducerStep κ s.mem s.producer m' pc' →
    Step κ s (.producer l) { s with mem := m', producer := pc' }
  | consumer {l m' reader' pc'} :
    ConsumerStep κ s.mem s.reader s.consumer m' reader' pc' →
    Step κ s (.consumer l) { s with mem := m', reader := reader', consumer := pc' }
  | reader {l m' pc'} :
    ReaderStep κ s.mem s.reader m' pc' →
    Step κ s (.reader l) { s with mem := m', reader := pc' }

lemma ProducerStep.of_next {m m' : Mem O M} {pc pc' : ProducerPc O} {l : Label O M}
    (hn : producerNext κ m pc l = some (m', pc')) : ProducerStep κ m pc m' pc' := by
  unfold producerNext at hn
  split at hn
  case h_1 ok =>
    cases ok <;> cases hn
    · exact .refused
    · exact .connected
  case h_4 =>
    cases hr : m.running <;> simp only [hr] at hn <;> cases hn
    · exact .stop hr
    · exact .goOn hr
  case h_5 seq o =>
    cases hs : κ.succeeded o <;> simp only [hs] at hn <;> cases hn
    · exact .notSent hs
    · exact .sent hs
  case h_6 =>
    cases hr : m.running <;> simp only [hr] at hn <;> cases hn
    · exact .ignored hr
    · exact .failed hr
  all_goals cases hn
  all_goals constructor

lemma ConsumerStep.of_next {m m' : Mem O M} {reader reader' : ReaderPc} {pc pc' : ConsumerPc}
    {l : Label O M} (hn : consumerNext κ m reader pc l = some (m', reader', pc')) :
    ConsumerStep κ m reader pc m' reader' pc' := by
  unfold consumerNext at hn
  split at hn
  case h_1 ok =>
    cases ok <;> cases hn
    · exact .refused
    · exact .connected
  case h_3 =>
    cases hk : κ.consumer <;> simp only [hk] at hn <;> cases hn
    · exact .toSubscribe (by simp [WorkerKind.subscribes, hk])
    · exact .toPoll (by simp [WorkerKind.subscribes, hk])
  case h_4 ok =>
    cases ok <;> cases hn
    · exact .notSubscribed
    · exact .subscribed
  case h_6 =>
    cases hk : κ.consumer <;> cases hr : m.running <;> simp only [hk, hr] at hn <;> cases hn
    · exact .stop (by simp [WorkerKind.subscribes, hk]) hr
    · exact .wait (by simp [WorkerKind.subscribes, hk]) hr
    · exact .leave (by simp [WorkerKind.subscribes, hk]) hr
    · exact .goOn (by simp [WorkerKind.subscribes, hk]) hr
  case h_8 =>
    cases hk : κ.consumer <;> simp only [hk] at hn <;> cases hn
    exact .receive hk
  case h_12 =>
    split at hn
    next => cases hn
    next ha =>
      cases hn
      exact .join (Bool.not_eq_true _ ▸ ha)
  all_goals cases hn
  all_goals constructor

lemma ReaderStep.of_next {m m' : Mem O M} {pc pc' : ReaderPc} {l : Label O M}
    (hn : readerNext κ m pc l = some (m', pc')) : ReaderStep κ m pc m' pc' := by
  unfold readerNext at hn
  split at hn
  case h_1 x =>
    cases hk : κ.consumer with
    | polling count =>
      rw [hk] at hn
      cases hn
    | subscription lambda =>
      rw [hk] at hn
      cases hl : lambda x <;> simp only [hl] at hn <;> cases hn
      · exact .count hk hl
      · exact .reply hk hl
  case h_6 ok =>
    cases ok <;> cases hn
    · exact .notReplied
    · exact .replied
  all_goals cases hn
  all_goals constructor

lemma OwnerStep.of_next {s t : Worker O M} (hn : ownerNext κ s s.owner = some t) :
    OwnerStep κ s t := by
  cases ho : s.owner <;> simp only [ho, ownerNext] at hn
  case starting =>
    cases hf : κ.consumerFirst <;> simp only [hf] at hn <;> cases hn
    · exact .startConsumer ho hf
    · exact .startProducer ho hf
  case joinProducer =>
    split at hn
    next => cases hn
    next hj =>
      cases hn
      exact .joinProducer ho fun ht => by simpa [ht] using hj
  case joinConsumer =>
    split at hn
    next => cases hn
    next hj =>
      cases hn
      exact .joinConsumer ho fun ht => by simpa [ht] using hj
  case closeProducer =>
    cases hn
    exact .closeProducer ho
  case closeConsumer =>
    cases hn
    exact .closeConsumer ho
  all_goals cases hn

lemma Step.of_next {s t : Worker O M} {a : Action O M} (hn : next κ s a = some t) :
    Step κ s a t := by
  cases a with
  | beginStart =>
    cases ho : s.owner <;> simp only [next, ho] at hn
    case fresh =>
      cases hf : κ.consumerFirst <;> simp only [hf] at hn <;> cases hn
      · exact .startProducer ho hf
      · exact .startConsumer ho hf
    all_goals cases hn
  | beginStop =>
    cases ho : s.owner <;> simp only [next, ho] at hn
    case fresh =>
      cases hn
      exact .beginStop (.inl ho)
    case idle =>
      cases hn
      exact .beginStop (.inr ho)
    all_goals cases hn
  | owner => exact .owner (.of_next hn)
  | producer l =>
    obtain ⟨⟨m', pc'⟩, hr, rfl⟩ := Option.map_eq_some_iff.mp hn
    exact .producer (.of_next hr)
  | consumer l =>
    obtain ⟨⟨m', reader', pc'⟩, hr, rfl⟩ := Option.map_eq_some_iff.mp hn
    exact .consumer (.of_next hr)
  | reader l =>
    obtain ⟨⟨m', pc'⟩, hr, rfl⟩ := Option.map_eq_some_iff.mp hn
    exact .reader (.of_next hr)

end KubeMQ.Burnin.PairWorker
