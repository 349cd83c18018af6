import KubeMQ.Burnin.WorkerSteps

/-!
# The threads of a queue stream worker

Which threads have finished (`Threads`) and which objects exist (`Objects`) in every state of a
worker: `Stop` joins the producer and the consumer before it gives away what they use.
-/

namespace KubeMQ.Burnin.QueueStream

variable {c : Config}

/-- A `Stop` has returned. -/
def Mem.Returned (m : Mem) : Prop := ∃ x, .stopReturned x ∈ m.log

/-- `Stop` has joined the producer. -/
def StopPc.pastProducer : StopPc → Bool
  | .joinConsumer => true
  | .release => true
  | .closeProducer => true
  | .resetReceiver => true
  | .destroyReceiver _ => true
  | .closeConsumer => true
  | _ => false

/-- `Stop` has joined the consumer. -/
def StopPc.pastConsumer : StopPc → Bool
  | .release => true
  | .closeProducer => true
  | .resetReceiver => true
  | .destroyReceiver _ => true
  | .closeConsumer => true
  | _ => false

/-- A thread that is not joinable has finished. -/
structure Threads (s : Worker) : Prop where
  producer : s.mem.producerThread = false → s.producer.finished = true
  consumer : s.mem.consumerThread = false → s.consumer.finished = true
  pastProducer : s.stop.pastProducer = true → s.mem.producerThread = false
  pastConsumer : s.stop.pastConsumer = true → s.mem.consumerThread = false
  cleaner : s.mem.cleaner ≠ .unstarted → s.mem.producerThread = false
  running : s.stop ≠ .idle → s.mem.running = false
  returned : s.mem.Returned → s.mem.producerThread = false ∧ s.mem.consumerThread = false

/-- The producer has opened its stream. -/
def ProducerPc.hasUpstream : ProducerPc → Bool
  | .unstarted => false
  | .connect => false
  | .connectFailed => false
  | .assignClient => false
  | .openStream => false
  | .openFailed => false
  | .exited => false
  | _ => true

/-- The consumer has opened its stream. -/
def ConsumerPc.hasReceiver : ConsumerPc → Bool
  | .unstarted => false
  | .connect => false
  | .connectFailed => false
  | .assignClient => false
  | .openStream => false
  | .openFailed => false
  | .exited => false
  | _ => true

/-- `Stop` is in a `Close` of the receiver. -/
def StopPc.closing : StopPc → Bool
  | .closeReceiver _ => true
  | .destroyReceiver _ => true
  | _ => false

/-- `Stop` destroys the receiver. -/
def StopPc.destroying : StopPc → Bool
  | .destroyReceiver _ => true
  | _ => false

/-- The objects that a thread uses exist. -/
structure Objects (s : Worker) : Prop where
  upstream : s.producer.hasUpstream = true → s.mem.upstream.isSome = true
  receiver : s.consumer.hasReceiver = true → s.mem.receiver.isSome = true
  member : s.mem.receiverSet = true → s.mem.receiver.isSome = true
  closing : s.stop.closing = true → s.mem.receiver.isSome = true
  unset : s.stop.destroying = true → s.mem.receiverSet = false
  released : s.mem.cleaner ≠ .unstarted → s.mem.upstreamSet = false

section Frame

variable {m m' : Mem}

/-- What only `Start` and `Stop` change. -/
structure Mem.SameThreads (m m' : Mem) : Prop where
  running : m'.running = m.running
  producerThread : m'.producerThread = m.producerThread
  consumerThread : m'.consumerThread = m.consumerThread
  returned : m'.Returned → m.Returned

/-- What the producer, the consumer and the reader leave alone. -/
structure Mem.Same (m m' : Mem) : Prop extends Mem.SameThreads m m' where
  crashed : m'.crashed = m.crashed

lemma Mem.SameThreads.refl (m : Mem) : m.SameThreads m := ⟨rfl, rfl, rfl, id⟩

lemma UpstreamStep.same {i : ℕ} {pc pc' : UpCall} (st : UpstreamStep i m pc m' pc') :
    m.Same m' := by
  cases st
  exact ⟨⟨rfl, rfl, rfl, id⟩, rfl⟩

lemma ReceiverStep.same {i : ℕ} {pc pc' : Downstream.CallPc} (st : ReceiverStep c i m pc m' pc') :
    m.Same m' := by
  cases st
  exact ⟨⟨rfl, rfl, rfl, id⟩, rfl⟩

/-- What a step that does not concern the receiver leaves alone. -/
structure Mem.SameReceiver (m m' : Mem) : Prop where
  receiver : m'.receiver = m.receiver
  receiverSet : m'.receiverSet = m.receiverSet

/-- What a step that does not concern the upstream handle leaves alone. -/
structure Mem.SameUpstream (m m' : Mem) : Prop where
  upstream : m'.upstream = m.upstream
  upstreamSet : m'.upstreamSet = m.upstreamSet
  cleaner : m'.cleaner = m.cleaner

lemma UpstreamStep.sameReceiver {i : ℕ} {pc pc' : UpCall} (st : UpstreamStep i m pc m' pc') :
    m.SameReceiver m' := by
  cases st
  exact ⟨rfl, rfl⟩

lemma UpstreamStep.owner {i : ℕ} {pc pc' : UpCall} (st : UpstreamStep i m pc m' pc') :
    m'.cleaner = m.cleaner ∧ m'.upstreamSet = m.upstreamSet := by
  cases st
  exact ⟨rfl, rfl⟩

lemma ReceiverStep.sameUpstream {i : ℕ} {pc pc' : Downstream.CallPc}
    (st : ReceiverStep c i m pc m' pc') : m.SameUpstream m' := by
  cases st
  exact ⟨rfl, rfl, rfl⟩

/-- What a step of the producer does to the members. -/
inductive ProducerEffect (m : Mem) : Mem → Prop where
  | call {pc m' pc'} :
    UpstreamStep 0 m pc m' pc' →
    ProducerEffect m m'
  | count {f} :
    ProducerEffect m (m.count f)
  | client :
    ProducerEffect m { m with producerClient := true }
  | opened :
    ProducerEffect m { m with upstream := some Upstream.start }
  | assigned :
    ProducerEffect m { m with upstreamSet := true }
  | nothing :
    ProducerEffect m m

/-- What a step of the consumer does to the members. -/
inductive ConsumerEffect (c : Config) (m : Mem) : Mem → Prop where
  | call {pc m' pc'} :
    ReceiverStep c 0 m pc m' pc' →
    ConsumerEffect c m m'
  | count {f} :
    ConsumerEffect c m (m.count f)
  | client :
    ConsumerEffect c m { m with consumerClient := true }
  | opened :
    ConsumerEffect c m { m with receiver := some Downstream.start.mem }
  | assigned :
    ConsumerEffect c m { m with receiverSet := true }
  | nothing :
    ConsumerEffect c m m

lemma ProducerStep.effect {pc pc' : ProducerPc} (st : ProducerStep c m pc m' pc') :
    ProducerEffect m m' := by
  cases st with
  | connectFailed => exact .count
  | assignClient => exact .client
  | opened => exact .opened
  | openFailed => exact .count
  | assign => exact .assigned
  | setResult st _ => exact .call st
  | resultSet st _ => exact .call st
  | setError st _ => exact .call st
  | errorSet st _ => exact .call st
  | build => exact .count
  | send st _ => exact .call st
  | sent st => exact .call st
  | sendFailed st => exact .call st
  | countError => exact .count
  | _ => exact .nothing

lemma ConsumerStep.effect {pc pc' : ConsumerPc} (st : ConsumerStep c m pc m' pc') :
    ConsumerEffect c m m' := by
  cases st with
  | connectFailed => exact .count
  | assignClient => exact .client
  | opened => exact .opened
  | openFailed => exact .count
  | assign => exact .assigned
  | poll st _ => exact .call st
  | polled st _ => exact .call st
  | polledError st _ => exact .call st
  | pollFailed st => exact .call st
  | countAcked _ => exact .count
  | countUnacked _ => exact .count
  | ack st _ => exact .call st
  | acked st _ => exact .call st
  | notAcked st _ => exact .call st
  | ackFailed => exact .count
  | countError => exact .count
  | _ => exact .nothing

lemma ProducerStep.same {pc pc' : ProducerPc} (st : ProducerStep c m pc m' pc') : m.Same m' := by
  cases st.effect with
  | call st => exact st.same
  | _ => exact ⟨⟨rfl, rfl, rfl, id⟩, rfl⟩

lemma ConsumerStep.same {pc pc' : ConsumerPc} (st : ConsumerStep c m pc m' pc') : m.Same m' := by
  cases st.effect with
  | call st => exact st.same
  | _ => exact ⟨⟨rfl, rfl, rfl, id⟩, rfl⟩

lemma CleanerStep.sameThreads {pc : CleanerPc} (st : CleanerStep m pc m') : m.SameThreads m' := by
  cases st with
  | delete st _ => exact ⟨st.same.1.1, st.same.1.2, st.same.1.3, st.same.1.4⟩
  | closed st _ => exact ⟨st.same.1.1, st.same.1.2, st.same.1.3, st.same.1.4⟩
  | free _ => exact ⟨rfl, rfl, rfl, id⟩
  | closeClient => exact ⟨rfl, rfl, rfl, id⟩

lemma DeliveryStep.same {l : UpLabel} (st : DeliveryStep m l m') : m.Same m' := by
  cases st
  unfold Mem.deliver
  split
  · refine ⟨⟨rfl, rfl, rfl, ?_⟩, rfl⟩
    rintro ⟨x, h⟩
    rcases List.mem_append.mp h with h | h
    · exact ⟨x, h⟩
    · cases List.mem_singleton.mp h
  · exact ⟨⟨rfl, rfl, rfl, id⟩, rfl⟩
  · exact ⟨⟨rfl, rfl, rfl, id⟩, rfl⟩

lemma ProducerStep.sameReceiver {pc pc' : ProducerPc} (st : ProducerStep c m pc m' pc') :
    m.SameReceiver m' := by
  cases st.effect with
  | call st => exact st.sameReceiver
  | _ => exact ⟨rfl, rfl⟩

/-- Only `Stop` starts the detached thread. -/
lemma ProducerStep.cleaner {pc pc' : ProducerPc} (st : ProducerStep c m pc m' pc') :
    m'.cleaner = m.cleaner := by
  cases st.effect with
  | call st => exact st.owner.1
  | _ => rfl

lemma ConsumerStep.sameUpstream {pc pc' : ConsumerPc} (st : ConsumerStep c m pc m' pc') :
    m.SameUpstream m' := by
  cases st.effect with
  | call st => exact st.sameUpstream
  | _ => exact ⟨rfl, rfl, rfl⟩

/-- After its first step `Stop` leaves `running_` alone, and it never terminates the process. -/
lemma StopStep.steady {producer : ProducerPc} {consumer : ConsumerPc} {pc pc' : StopPc}
    (st : StopStep c producer consumer m pc m' pc') :
    m'.running = m.running ∧ m'.crashed = m.crashed := by
  cases st with
  | closeReceiver st _ => exact ⟨st.same.running, st.same.crashed⟩
  | receiverClosed st _ => exact ⟨st.same.running, st.same.crashed⟩
  | destroyReceiver st _ => exact ⟨st.same.running, st.same.crashed⟩
  | receiverDestroyed st _ => exact ⟨st.same.running, st.same.crashed⟩
  | _ => exact ⟨rfl, rfl⟩

/-- `Stop` gives the handle to the detached thread or leaves it alone. -/
lemma StopStep.upstream {producer : ProducerPc} {consumer : ConsumerPc} {pc pc' : StopPc}
    (st : StopStep c producer consumer m pc m' pc') :
    m.SameUpstream m' ∨
      (m.upstreamSet = true ∧ m'.upstreamSet = false ∧ m'.upstream = m.upstream ∧
        m'.cleaner = .delete .closeLock) := by
  cases st with
  | closeReceiver st _ => exact .inl st.sameUpstream
  | receiverClosed st _ => exact .inl st.sameUpstream
  | release h => exact .inr ⟨h, rfl, rfl, rfl⟩
  | destroyReceiver st _ => exact .inl st.sameUpstream
  | receiverDestroyed st _ =>
    have same := st.sameUpstream
    exact .inl ⟨same.upstream, same.upstreamSet, same.cleaner⟩
  | _ => exact .inl ⟨rfl, rfl, rfl⟩

lemma CleanerStep.sameReceiver {pc : CleanerPc} (st : CleanerStep m pc m') : m.SameReceiver m' := by
  cases st with
  | delete st _ => exact ⟨st.sameReceiver.receiver, st.sameReceiver.receiverSet⟩
  | closed st _ => exact ⟨st.sameReceiver.receiver, st.sameReceiver.receiverSet⟩
  | free _ => exact ⟨rfl, rfl⟩
  | closeClient => exact ⟨rfl, rfl⟩

lemma CleanerStep.upstreamSet {pc : CleanerPc} (st : CleanerStep m pc m') :
    m'.upstreamSet = m.upstreamSet := by
  cases st with
  | delete st _ => exact st.owner.2
  | closed st _ => exact st.owner.2
  | free _ => rfl
  | closeClient => rfl

/-- The reader changes only the handle and the counters. -/
lemma DeliveryStep.sameReceiver {l : UpLabel} (st : DeliveryStep m l m') : m.SameReceiver m' := by
  cases st
  unfold Mem.deliver
  split <;> exact ⟨rfl, rfl⟩

lemma DeliveryStep.owner {l : UpLabel} (st : DeliveryStep m l m') :
    m'.cleaner = m.cleaner ∧ m'.upstreamSet = m.upstreamSet := by
  cases st
  unfold Mem.deliver
  split <;> exact ⟨rfl, rfl⟩

lemma DeliveryStep.upstream {l : UpLabel} (st : DeliveryStep m l m') :
    ∃ u mem pc, m.upstream = some u ∧
      StreamHandle.ReaderStep .queueUpstream u.mem u.reader l mem pc ∧
      m'.upstream = some ⟨mem, pc⟩ := by
  cases st with
  | @intro u l mem pc hu st =>
    refine ⟨u, mem, pc, hu, st, ?_⟩
    unfold Mem.deliver
    split <;> rfl

end Frame

section Threads

variable {s : Worker}

/-- A thread that steps has not finished. -/
lemma ProducerStep.live {m m' : Mem} {pc pc' : ProducerPc} (st : ProducerStep c m pc m' pc') :
    pc.finished = false := by
  cases st <;> rfl

lemma ConsumerStep.live {m m' : Mem} {pc pc' : ConsumerPc} (st : ConsumerStep c m pc m' pc') :
    pc.finished = false := by
  cases st <;> rfl

lemma CleanerStep.live {m m' : Mem} {pc : CleanerPc} (st : CleanerStep m pc m') :
    pc ≠ .unstarted := by
  cases st <;> exact nofun

/-- A running producer is joinable. -/
lemma Threads.joinable_producer (h : Threads s) (hl : s.producer.finished = false) :
    s.mem.producerThread = true := by
  cases ht : s.mem.producerThread with
  | true => rfl
  | false => exact absurd (hl.symm.trans (h.producer ht)) nofun

lemma Threads.joinable_consumer (h : Threads s) (hl : s.consumer.finished = false) :
    s.mem.consumerThread = true := by
  cases ht : s.mem.consumerThread with
  | true => rfl
  | false => exact absurd (hl.symm.trans (h.consumer ht)) nofun

/-- The detached thread starts when the producer has been joined. -/
lemma Threads.not_detached (h : Threads s) (hl : s.producer.finished = false) :
    s.mem.cleaner = .unstarted := by
  by_contra hx
  have hjoined := h.cleaner hx
  rw [h.joinable_producer hl] at hjoined
  cases hjoined

/-- A step that leaves alone which threads are joinable. -/
lemma Threads.keep {m' : Mem} {p : ProducerPc} {q : ConsumerPc} (h : Threads s)
    (same : s.mem.SameThreads m') (hp : s.mem.producerThread = false → p.finished = true)
    (hq : s.mem.consumerThread = false → q.finished = true)
    (hc : m'.cleaner ≠ .unstarted → s.mem.cleaner ≠ .unstarted) :
    Threads { s with mem := m', producer := p, consumer := q } where
  producer := fun ht => hp (same.producerThread.symm.trans ht)
  consumer := fun ht => hq (same.consumerThread.symm.trans ht)
  pastProducer := fun hs => same.producerThread.trans (h.pastProducer hs)
  pastConsumer := fun hs => same.consumerThread.trans (h.pastConsumer hs)
  cleaner := fun hx => same.producerThread.trans (h.cleaner (hc hx))
  running := fun hs => same.running.trans (h.running hs)
  returned := by
    intro hr
    obtain ⟨hp, hq⟩ := h.returned (same.returned hr)
    exact ⟨same.producerThread.trans hp, same.consumerThread.trans hq⟩

/-- A step of `Stop` that joins nobody. -/
lemma Threads.advance {m' : Mem} {pc' : StopPc} (h : Threads s) (same : s.mem.SameThreads m')
    (hs : s.stop ≠ .idle) (hp : pc'.pastProducer = true → s.mem.producerThread = false)
    (hq : pc'.pastConsumer = true → s.mem.consumerThread = false)
    (hc : m'.cleaner ≠ .unstarted → s.mem.producerThread = false) :
    Threads { s with mem := m', stop := pc' } where
  producer := fun ht => h.producer (same.producerThread.symm.trans ht)
  consumer := fun ht => h.consumer (same.consumerThread.symm.trans ht)
  pastProducer := fun hx => same.producerThread.trans (hp hx)
  pastConsumer := fun hx => same.consumerThread.trans (hq hx)
  cleaner := fun hx => same.producerThread.trans (hc hx)
  running := fun _ => same.running.trans (h.running hs)
  returned := by
    intro hr
    obtain ⟨hp, hq⟩ := h.returned (same.returned hr)
    exact ⟨same.producerThread.trans hp, same.consumerThread.trans hq⟩

/-- `Stop` joins the threads one after the other. -/
lemma Threads.stop {m' : Mem} {pc pc' : StopPc} (h : Threads s) (hpc : s.stop = pc)
    (st : StopStep c s.producer s.consumer s.mem pc m' pc') :
    Threads { s with mem := m', stop := pc' } := by
  have hs : pc ≠ .idle → s.stop ≠ .idle := by
    rw [hpc]
    exact id
  have hp : pc.pastProducer = true → s.mem.producerThread = false := by
    rw [← hpc]
    exact h.pastProducer
  have hq : pc.pastConsumer = true → s.mem.consumerThread = false := by
    rw [← hpc]
    exact h.pastConsumer
  cases st with
  | hasReceiver _ => exact h.advance (.refl _) (hs nofun) nofun nofun h.cleaner
  | noReceiver _ => exact h.advance (.refl _) (hs nofun) nofun nofun h.cleaner
  | closeReceiver st _ =>
    exact h.advance st.same.1 (hs nofun) nofun nofun fun hc => h.cleaner (st.sameUpstream.cleaner ▸ hc)
  | receiverClosed st _ =>
    exact h.advance st.same.1 (hs nofun) nofun nofun fun hc => h.cleaner (st.sameUpstream.cleaner ▸ hc)
  | joinProducer hf =>
    constructor
    case producer =>
      intro _
      cases ht : s.mem.producerThread with
      | true => exact hf ht
      | false => exact h.producer ht
    case consumer => exact h.consumer
    case pastProducer => exact fun _ => rfl
    case pastConsumer => exact nofun
    case cleaner => exact fun _ => rfl
    case running => exact fun _ => h.running (hs nofun)
    case returned => exact fun hr => ⟨rfl, (h.returned hr).2⟩
  | joinConsumer hf =>
    constructor
    case producer => exact h.producer
    case consumer =>
      intro _
      cases ht : s.mem.consumerThread with
      | true => exact hf ht
      | false => exact h.consumer ht
    case pastProducer => exact fun _ => hp rfl
    case pastConsumer => exact fun _ => rfl
    case cleaner => exact h.cleaner
    case running => exact fun _ => h.running (hs nofun)
    case returned => exact fun hr => ⟨(h.returned hr).1, rfl⟩
  | release _ =>
    exact h.advance ⟨rfl, rfl, rfl, id⟩ (hs nofun) (fun _ => hp rfl) (fun _ => hq rfl)
      fun _ => hp rfl
  | noUpstream _ => exact h.advance (.refl _) (hs nofun) (fun _ => hp rfl) (fun _ => hq rfl) h.cleaner
  | closeProducer =>
    exact h.advance ⟨rfl, rfl, rfl, id⟩ (hs nofun) (fun _ => hp rfl) (fun _ => hq rfl) h.cleaner
  | reset _ =>
    exact h.advance ⟨rfl, rfl, rfl, id⟩ (hs nofun) (fun _ => hp rfl) (fun _ => hq rfl) h.cleaner
  | noReset _ => exact h.advance (.refl _) (hs nofun) (fun _ => hp rfl) (fun _ => hq rfl) h.cleaner
  | destroyReceiver st _ =>
    exact h.advance st.same.1 (hs nofun) (fun _ => hp rfl) (fun _ => hq rfl)
      fun hc => h.cleaner (st.sameUpstream.cleaner ▸ hc)
  | @receiverDestroyed pc m' pc' st _ =>
    have same : s.mem.SameThreads { m' with receiver := none } :=
      ⟨st.same.running, st.same.producerThread, st.same.consumerThread, st.same.returned⟩
    exact h.advance same (hs nofun) (fun _ => hp rfl) (fun _ => hq rfl)
      fun hc => h.cleaner (st.sameUpstream.cleaner ▸ hc)
  | closeConsumer =>
    constructor
    case producer => exact h.producer
    case consumer => exact h.consumer
    case pastProducer => exact nofun
    case pastConsumer => exact nofun
    case cleaner => exact h.cleaner
    case running => exact fun hidle => absurd rfl hidle
    case returned => exact fun _ => ⟨hp rfl, hq rfl⟩

lemma Threads.step {t : Worker} {a : Action} (h : Threads s) (st : Step c s a t) : Threads t := by
  cases st with
  | beginStop _ =>
    constructor
    case producer => exact h.producer
    case consumer => exact h.consumer
    case pastProducer => exact nofun
    case pastConsumer => exact nofun
    case cleaner => exact h.cleaner
    case running => exact fun _ => rfl
    case returned => exact h.returned
  | stop st => exact h.stop rfl st
  | producer st =>
    refine h.keep st.same.1 ?_ h.consumer fun hx => st.cleaner ▸ hx
    intro ht
    rw [h.joinable_producer st.live] at ht
    cases ht
  | consumer st =>
    refine h.keep st.same.1 h.producer ?_ fun hx => st.sameUpstream.cleaner ▸ hx
    intro ht
    rw [h.joinable_consumer st.live] at ht
    cases ht
  | cleaner st => exact h.keep st.sameThreads h.producer h.consumer fun _ => st.live
  | reader _ st => exact h.keep st.same.1 h.producer h.consumer fun hx => st.owner.1 ▸ hx
  | answer _ _ => exact h.keep ⟨rfl, rfl, rfl, id⟩ h.producer h.consumer id
  | breakStream _ _ => exact h.keep ⟨rfl, rfl, rfl, id⟩ h.producer h.consumer id

end Threads

section Objects

variable {s : Worker} {m m' : Mem}

lemma ProducerPc.idle_of_finished {pc : ProducerPc} (h : pc.finished = true) :
    pc.hasUpstream = false := by
  cases pc
  case unstarted => rfl
  case exited => rfl
  all_goals cases h

lemma ConsumerPc.idle_of_finished {pc : ConsumerPc} (h : pc.finished = true) :
    pc.hasReceiver = false := by
  cases pc
  case unstarted => rfl
  case exited => rfl
  all_goals cases h

lemma UpstreamStep.isSome {i : ℕ} {pc pc' : UpCall} (st : UpstreamStep i m pc m' pc') :
    m'.upstream.isSome = true := by
  cases st
  rfl

lemma ReceiverStep.isSome {i : ℕ} {pc pc' : Downstream.CallPc} (st : ReceiverStep c i m pc m' pc') :
    m'.receiver.isSome = true ∧ m'.receiverSet = m.receiverSet := by
  cases st
  exact ⟨rfl, rfl⟩

lemma ProducerStep.isSome {pc pc' : ProducerPc} (st : ProducerStep c m pc m' pc')
    (h : pc.hasUpstream = true → m.upstream.isSome = true) (hp : pc'.hasUpstream = true) :
    m'.upstream.isSome = true := by
  cases st with
  | opened => rfl
  | setResult st _ => exact st.isSome
  | resultSet st _ => exact st.isSome
  | setError st _ => exact st.isSome
  | errorSet st _ => exact st.isSome
  | send st _ => exact st.isSome
  | sent st => exact st.isSome
  | sendFailed st => exact st.isSome
  | _ => first | exact h rfl | cases hp

/-- The consumer makes the receiver and lets the member point to it. -/
lemma ConsumerStep.isSome {pc pc' : ConsumerPc} (st : ConsumerStep c m pc m' pc')
    (h : pc.hasReceiver = true → m.receiver.isSome = true) :
    (pc'.hasReceiver = true → m'.receiver.isSome = true) ∧
      (m.receiver.isSome = true → m'.receiver.isSome = true) ∧
      (m'.receiverSet = true → m.receiverSet = true ∨ m'.receiver.isSome = true) := by
  cases st with
  | opened => exact ⟨fun _ => rfl, fun _ => rfl, fun _ => .inr rfl⟩
  | assign => exact ⟨fun _ => h rfl, id, fun _ => .inr (h rfl)⟩
  | poll st _ => exact ⟨fun _ => st.isSome.1, fun _ => st.isSome.1, fun _ => .inr st.isSome.1⟩
  | polled st _ => exact ⟨fun _ => st.isSome.1, fun _ => st.isSome.1, fun _ => .inr st.isSome.1⟩
  | polledError st _ =>
    exact ⟨fun _ => st.isSome.1, fun _ => st.isSome.1, fun _ => .inr st.isSome.1⟩
  | pollFailed st => exact ⟨fun _ => st.isSome.1, fun _ => st.isSome.1, fun _ => .inr st.isSome.1⟩
  | ack st _ => exact ⟨fun _ => st.isSome.1, fun _ => st.isSome.1, fun _ => .inr st.isSome.1⟩
  | acked st _ => exact ⟨fun _ => st.isSome.1, fun _ => st.isSome.1, fun _ => .inr st.isSome.1⟩
  | notAcked st _ => exact ⟨fun _ => st.isSome.1, fun _ => st.isSome.1, fun _ => .inr st.isSome.1⟩
  | leave _ => exact ⟨nofun, id, .inl⟩
  | connected => exact ⟨nofun, id, .inl⟩
  | refused => exact ⟨nofun, id, .inl⟩
  | connectFailed => exact ⟨nofun, id, .inl⟩
  | assignClient => exact ⟨nofun, id, .inl⟩
  | notOpened => exact ⟨nofun, id, .inl⟩
  | openFailed => exact ⟨nofun, id, .inl⟩
  | _ => exact ⟨fun _ => h rfl, id, .inl⟩

lemma Objects.producer {pc' : ProducerPc} (h : Objects s) (ht : Threads s)
    (st : ProducerStep c s.mem s.producer m' pc') :
    Objects { s with mem := m', producer := pc' } := by
  obtain ⟨hr, hset⟩ := st.sameReceiver
  constructor
  case upstream => exact st.isSome h.upstream
  case receiver => exact fun hc => hr ▸ h.receiver hc
  case member => exact fun hm => hr ▸ h.member (hset ▸ hm)
  case closing => exact fun hs => hr ▸ h.closing hs
  case unset => exact fun hs => hset ▸ h.unset hs
  case released => exact fun hx => absurd (st.cleaner.trans (ht.not_detached st.live)) hx

lemma Objects.consumer {pc' : ConsumerPc} (h : Objects s) (ht : Threads s)
    (st : ConsumerStep c s.mem s.consumer m' pc') :
    Objects { s with mem := m', consumer := pc' } := by
  obtain ⟨hrec, hkeep, hset⟩ := st.isSome h.receiver
  have same := st.sameUpstream
  constructor
  case upstream => exact fun hp => same.upstream ▸ h.upstream hp
  case receiver => exact hrec
  case member => exact fun hm => (hset hm).elim (fun hm => hkeep (h.member hm)) id
  case closing => exact fun hs => hkeep (h.closing hs)
  case unset =>
    intro hs
    -- the consumer has been joined
    have hpast : s.stop.pastConsumer = true := by
      revert hs
      cases s.stop <;> first | exact fun _ => rfl | exact nofun
    have hjoined := ht.pastConsumer hpast
    rw [ht.joinable_consumer st.live] at hjoined
    cases hjoined
  case released => exact fun hx => same.upstreamSet.trans (h.released (same.cleaner ▸ hx))

/-- What `Stop` does to the receiver. -/
lemma StopStep.isSome {producer : ProducerPc} {consumer : ConsumerPc} {pc pc' : StopPc}
    (st : StopStep c producer consumer m pc m' pc')
    (hm : m.receiverSet = true → m.receiver.isSome = true)
    (hd : pc.destroying = true → m.receiverSet = false) :
    (pc.pastConsumer = true ∨ (m.receiver.isSome = true → m'.receiver.isSome = true)) ∧
      (m'.receiverSet = true → m'.receiver.isSome = true) ∧
      (pc'.closing = true → m.receiver.isSome = true → m'.receiver.isSome = true) ∧
      (pc'.closing = true → pc.closing = true ∨ m.receiver.isSome = true) ∧
      (pc'.destroying = true → m'.receiverSet = false) := by
  cases st with
  | hasReceiver h => exact ⟨.inr id, hm, fun _ => id, fun _ => .inr (hm h), nofun⟩
  | closeReceiver st _ =>
    obtain ⟨hsome, -⟩ := st.isSome
    exact ⟨.inr fun _ => hsome, fun _ => hsome, fun _ _ => hsome, fun _ => .inl rfl, nofun⟩
  | receiverClosed st _ =>
    obtain ⟨hsome, -⟩ := st.isSome
    exact ⟨.inr fun _ => hsome, fun _ => hsome, nofun, nofun, nofun⟩
  | reset h => exact ⟨.inr id, nofun, fun _ => id, fun _ => .inr (hm h), fun _ => rfl⟩
  | destroyReceiver st _ =>
    obtain ⟨hsome, hset⟩ := st.isSome
    exact ⟨.inl rfl, fun _ => hsome, fun _ _ => hsome, fun _ => .inl rfl,
      fun _ => hset.trans (hd rfl)⟩
  | receiverDestroyed st _ =>
    refine ⟨.inl rfl, ?_, nofun, nofun, nofun⟩
    intro h
    have hset : _ = true := h
    rw [st.isSome.2, hd rfl] at hset
    cases hset
  | _ => exact ⟨.inr id, hm, nofun, nofun, nofun⟩

lemma Objects.stop {pc pc' : StopPc} (h : Objects s) (ht : Threads s) (hpc : s.stop = pc)
    (st : StopStep c s.producer s.consumer s.mem pc m' pc') :
    Objects { s with mem := m', stop := pc' } := by
  subst hpc
  obtain ⟨hrec, hmem, hkeep, hclosing, hunset⟩ := st.isSome h.member h.unset
  constructor
  case upstream =>
    intro hp
    rcases st.upstream with same | ⟨-, -, hup, -⟩
    · exact same.upstream ▸ h.upstream hp
    · exact hup ▸ h.upstream hp
  case receiver =>
    intro hc
    rcases hrec with hpast | hrec
    · have hdone := ht.consumer (ht.pastConsumer hpast)
      exact absurd ((ConsumerPc.idle_of_finished hdone).symm.trans hc) nofun
    · exact hrec (h.receiver hc)
  case member => exact hmem
  case closing => exact fun hs => hkeep hs ((hclosing hs).elim h.closing id)
  case unset => exact hunset
  case released =>
    intro hx
    rcases st.upstream with same | ⟨-, hset, -, -⟩
    · exact same.upstreamSet.trans (h.released (same.cleaner ▸ hx))
    · exact hset

lemma Objects.cleaner (h : Objects s) (ht : Threads s) (st : CleanerStep s.mem s.mem.cleaner m') :
    Objects { s with mem := m' } := by
  have hdone := ht.producer (ht.cleaner st.live)
  obtain ⟨hr, hset⟩ := st.sameReceiver
  constructor
  case upstream => exact fun hp => absurd ((ProducerPc.idle_of_finished hdone).symm.trans hp) nofun
  case receiver => exact fun hc => hr ▸ h.receiver hc
  case member => exact fun hm => hr ▸ h.member (hset ▸ hm)
  case closing => exact fun hs => hr ▸ h.closing hs
  case unset => exact fun hs => hset ▸ h.unset hs
  case released => exact fun _ => st.upstreamSet.trans (h.released st.live)

lemma Objects.reader {l : UpLabel} (h : Objects s) (st : DeliveryStep s.mem l m') :
    Objects { s with mem := m' } := by
  obtain ⟨u, mem, pc, -, -, hup⟩ := st.upstream
  obtain ⟨hr, hset⟩ := st.sameReceiver
  obtain ⟨hcleaner, hmember⟩ := st.owner
  constructor
  case upstream => exact fun _ => hup ▸ rfl
  case receiver => exact fun hc => hr ▸ h.receiver hc
  case member => exact fun hm => hr ▸ h.member (hset ▸ hm)
  case closing => exact fun hs => hr ▸ h.closing hs
  case unset => exact fun hs => hset ▸ h.unset hs
  case released => exact fun hx => hmember.trans (h.released (hcleaner ▸ hx))

lemma Objects.server {d : Downstream.Mem} (h : Objects s) :
    Objects { s with mem := { s.mem with receiver := some d } } :=
  ⟨h.upstream, fun _ => rfl, fun _ => rfl, fun _ => rfl, h.unset, h.released⟩

lemma Objects.step {t : Worker} {a : Action} (h : Objects s) (ht : Threads s)
    (st : Step c s a t) : Objects t := by
  cases st with
  | beginStop _ => exact ⟨h.upstream, h.receiver, h.member, nofun, nofun, h.released⟩
  | stop st => exact h.stop ht rfl st
  | producer st => exact h.producer ht st
  | consumer st => exact h.consumer ht st
  | cleaner st => exact h.cleaner ht st
  | reader _ st => exact h.reader st
  | answer _ _ => exact h.server
  | breakStream _ _ => exact h.server

end Objects

end KubeMQ.Burnin.QueueStream
