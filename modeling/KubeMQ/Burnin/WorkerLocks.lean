import KubeMQ.Burnin.WorkerThreads
import KubeMQ.Downstream.Calls
import KubeMQ.Lts.Lock
import KubeMQ.StreamHandle.Calls

/-!
# The locks of a queue stream worker

Which method each thread is in (`Proper`), and who holds the locks of the upstream handle and of the
receiver (`Locks`). `Sound` collects what holds in every state of a worker.
-/

namespace KubeMQ.Burnin.QueueStream

open Lts (Held Moves)

variable {c : Config} {s : Worker} {m m' : Mem}

/-- A thread is in a call of the method that it has called. -/
def ProducerPc.Proper : ProducerPc → Prop
  | .setResult pc => pc.ofSet = true
  | .setError pc => pc.ofSet = true
  | .send _ pc => pc.ofSend = true
  | _ => True

def ConsumerPc.Proper : ConsumerPc → Prop
  | .poll pc => pc.ofPoll = true
  | .ack pc => pc.ofSettle = true
  | _ => True

def StopPc.Proper : StopPc → Prop
  | .closeReceiver pc => pc.ofClose = true
  | .destroyReceiver pc => pc.ofClose = true
  | _ => True

def CleanerPc.Proper : CleanerPc → Prop
  | .delete pc => pc.ofClose = true
  | _ => True

/-- A thread holds `stream_mu`. -/
def ConsumerPc.critical : ConsumerPc → Bool
  | .poll pc => pc.critical
  | .ack pc => pc.critical
  | _ => false

def StopPc.critical : StopPc → Bool
  | .closeReceiver pc => pc.critical
  | .destroyReceiver pc => pc.critical
  | _ => false

/-- A thread holds `callback_mu`. -/
def ProducerPc.setting : ProducerPc → Bool
  | .setResult pc => pc.setting
  | .setError pc => pc.setting
  | .send _ pc => pc.setting
  | _ => false

/-- A thread holds `write_mu`. -/
def ProducerPc.writing : ProducerPc → Bool
  | .setResult pc => pc.writing
  | .setError pc => pc.writing
  | .send _ pc => pc.writing
  | _ => false

def CleanerPc.writing : CleanerPc → Bool
  | .delete pc => pc.writing
  | _ => false

/-- The locks are free or held by the thread that is in a critical section. -/
structure Locks (s : Worker) : Prop where
  stream : ∀ d, s.mem.receiver = some d →
    Held 0 1 d.streamMu s.consumer.critical s.stop.critical
  callback : ∀ u, s.mem.upstream = some u →
    Held (.call 0) .reader u.mem.callbackMu s.producer.setting u.reader.holdsCallback
  write : ∀ u, s.mem.upstream = some u →
    Held 0 1 u.mem.writeMu s.producer.writing s.mem.cleaner.writing

/-- The invariant of a worker. -/
structure Sound (s : Worker) : Prop where
  threads : Threads s
  objects : Objects s
  producer : s.producer.Proper
  consumer : s.consumer.Proper
  stop : s.stop.Proper
  cleaner : s.mem.cleaner.Proper
  locks : Locks s

section Proper

lemma UpstreamStep.ofSet {i : ℕ} {pc pc' : UpCall} (st : UpstreamStep i m pc m' pc')
    (h : pc.ofSet = true) (hr : pc'.returned = false) : pc'.ofSet = true := by
  cases st with
  | intro _ st => exact (st.ofSet h).resolve_right (by simp [hr])

lemma UpstreamStep.ofSend {i : ℕ} {pc pc' : UpCall} (st : UpstreamStep i m pc m' pc')
    (h : pc.ofSend = true) (hr : ∀ st, pc' ≠ .sent st) : pc'.ofSend = true := by
  cases st with
  | intro _ st => exact (st.ofSend h).resolve_right fun ⟨x, hx⟩ => hr x hx

lemma UpstreamStep.ofClose {i : ℕ} {pc pc' : UpCall} (st : UpstreamStep i m pc m' pc')
    (h : pc.ofClose = true) (hr : pc'.returned = false) : pc'.ofClose = true := by
  cases st with
  | intro _ st => exact (st.ofClose h).1.resolve_right (by simp [hr])

lemma ReceiverStep.ofPoll {i : ℕ} {pc pc' : Downstream.CallPc} (st : ReceiverStep c i m pc m' pc')
    (h : pc.ofPoll = true) (hr : ∀ v, pc' ≠ .polled v) : pc'.ofPoll = true := by
  cases st with
  | intro _ st => exact (st.ofPoll h).resolve_right fun ⟨v, hv⟩ => hr v hv

lemma ReceiverStep.ofSettle {i : ℕ} {pc pc' : Downstream.CallPc}
    (st : ReceiverStep c i m pc m' pc') (h : pc.ofSettle = true) (hr : ∀ st, pc' ≠ .settled st) :
    pc'.ofSettle = true := by
  cases st with
  | intro _ st => exact (st.ofSettle h).resolve_right fun ⟨x, hx⟩ => hr x hx

lemma ReceiverStep.ofClose {i : ℕ} {pc pc' : Downstream.CallPc} (st : ReceiverStep c i m pc m' pc')
    (h : pc.ofClose = true) (hr : pc'.isClosed = false) : pc'.ofClose = true := by
  cases st with
  | intro _ st => exact (st.ofClose h).resolve_right (by simp [hr])

lemma ProducerStep.proper {pc pc' : ProducerPc} (st : ProducerStep c m pc m' pc')
    (h : pc.Proper) : pc'.Proper := by
  cases st with
  | assign => rfl
  | setResult st hr => exact st.ofSet h hr
  | resultSet _ _ => rfl
  | setError st hr => exact st.ofSet h hr
  | build => rfl
  | send st hr => exact st.ofSend h hr
  | _ => trivial

lemma ConsumerStep.proper {pc pc' : ConsumerPc} (st : ConsumerStep c m pc m' pc')
    (h : pc.Proper) : pc'.Proper := by
  cases st with
  | goOn _ => rfl
  | poll st hr => exact st.ofPoll h hr
  | countUnacked _ => rfl
  | ack st hr => exact st.ofSettle h hr
  | _ => trivial

lemma StopStep.proper {producer : ProducerPc} {consumer : ConsumerPc} {pc pc' : StopPc}
    (st : StopStep c producer consumer m pc m' pc') (h : pc.Proper) : pc'.Proper := by
  cases st with
  | hasReceiver _ => rfl
  | closeReceiver st hr => exact st.ofClose h hr
  | reset _ => rfl
  | destroyReceiver st hr => exact st.ofClose h hr
  | _ => trivial

lemma CleanerStep.proper {pc : CleanerPc} (st : CleanerStep m pc m') (h : pc.Proper) :
    m'.cleaner.Proper := by
  cases st with
  | delete st hr => exact st.ofClose h hr
  | _ => trivial

end Proper

section Locks

/-- What a call on the upstream handle does to its locks. -/
lemma UpstreamStep.moves {i : ℕ} {pc pc' : UpCall} (st : UpstreamStep i m pc m' pc') :
    ∃ u mem, m.upstream = some u ∧ m'.upstream = some { u with mem := mem } ∧
      Moves (.call i) u.mem.callbackMu mem.callbackMu pc.setting pc'.setting ∧
      Moves i u.mem.writeMu mem.writeMu pc.writing pc'.writing := by
  cases st with
  | @intro u l mem pc' hu st => exact ⟨u, mem, hu, rfl, st.callbackMu, st.writeMu⟩

lemma ReceiverStep.moves {i : ℕ} {pc pc' : Downstream.CallPc} (st : ReceiverStep c i m pc m' pc') :
    ∃ d d', m.receiver = some d ∧ m'.receiver = some d' ∧
      Moves i d.streamMu d'.streamMu pc.critical pc'.critical := by
  cases st with
  | @intro d l d' pc' hd st => exact ⟨d, d', hd, rfl, st.streamMu⟩

/-- The producer leaves the handle alone, makes it, or steps in a call on it. -/
lemma ProducerStep.moves {pc pc' : ProducerPc} (st : ProducerStep c m pc m' pc') :
    (m'.upstream = m.upstream ∧ pc'.setting = pc.setting ∧ pc'.writing = pc.writing) ∨
      (m'.upstream = some Upstream.start ∧ pc'.setting = false ∧ pc'.writing = false) ∨
      ∃ u mem, m.upstream = some u ∧ m'.upstream = some { u with mem := mem } ∧
        Moves (.call 0) u.mem.callbackMu mem.callbackMu pc.setting pc'.setting ∧
        Moves 0 u.mem.writeMu mem.writeMu pc.writing pc'.writing := by
  cases st with
  | opened => exact .inr (.inl ⟨rfl, rfl, rfl⟩)
  | setResult st _ => exact .inr (.inr st.moves)
  | resultSet st hr =>
    obtain ⟨hs, hw⟩ := StreamHandle.CallPc.unlocked_of_returned hr
    have moves := st.moves
    rw [hs, hw] at moves
    exact .inr (.inr moves)
  | setError st _ => exact .inr (.inr st.moves)
  | errorSet st hr =>
    obtain ⟨hs, hw⟩ := StreamHandle.CallPc.unlocked_of_returned hr
    have moves := st.moves
    rw [hs, hw] at moves
    exact .inr (.inr moves)
  | send st _ => exact .inr (.inr st.moves)
  | sent st => exact .inr (.inr st.moves)
  | sendFailed st => exact .inr (.inr st.moves)
  | _ => exact .inl ⟨rfl, rfl, rfl⟩

lemma ConsumerStep.moves {pc pc' : ConsumerPc} (st : ConsumerStep c m pc m' pc') :
    (m'.receiver = m.receiver ∧ pc'.critical = pc.critical) ∨
      (m'.receiver = some Downstream.start.mem ∧ pc'.critical = false) ∨
      ∃ d d', m.receiver = some d ∧ m'.receiver = some d' ∧
        Moves 0 d.streamMu d'.streamMu pc.critical pc'.critical := by
  cases st with
  | opened => exact .inr (.inl ⟨rfl, rfl⟩)
  | poll st _ => exact .inr (.inr st.moves)
  | polled st _ => exact .inr (.inr st.moves)
  | polledError st _ => exact .inr (.inr st.moves)
  | pollFailed st => exact .inr (.inr st.moves)
  | ack st _ => exact .inr (.inr st.moves)
  | acked st _ => exact .inr (.inr st.moves)
  | notAcked st _ => exact .inr (.inr st.moves)
  | _ => exact .inl ⟨rfl, rfl⟩

lemma StopStep.moves {producer : ProducerPc} {consumer : ConsumerPc} {pc pc' : StopPc}
    (st : StopStep c producer consumer m pc m' pc') :
    (m'.receiver = m.receiver ∧ pc'.critical = pc.critical) ∨ m'.receiver = none ∨
      ∃ d d', m.receiver = some d ∧ m'.receiver = some d' ∧
        Moves 1 d.streamMu d'.streamMu pc.critical pc'.critical := by
  have closed {q : Downstream.CallPc} (h : q.isClosed = true) : q.critical = false := by
    cases q <;> first | rfl | cases h
  cases st with
  | closeReceiver st _ => exact .inr (.inr st.moves)
  | receiverClosed st hc =>
    have moves := st.moves
    rw [closed hc] at moves
    exact .inr (.inr moves)
  | destroyReceiver st _ => exact .inr (.inr st.moves)
  | receiverDestroyed _ _ => exact .inr (.inl rfl)
  | _ => exact .inl ⟨rfl, rfl⟩

/-- The detached thread closes the handle, and frees it. -/
lemma CleanerStep.moves {pc : CleanerPc} (st : CleanerStep m pc m') (h : pc.Proper) :
    (m'.upstream = m.upstream ∧ m'.cleaner.writing = pc.writing) ∨ m'.upstream = none ∨
      ∃ u mem, m.upstream = some u ∧ m'.upstream = some { u with mem := mem } ∧
        mem.callbackMu = u.mem.callbackMu ∧
        Moves 1 u.mem.writeMu mem.writeMu pc.writing m'.cleaner.writing := by
  cases st with
  | delete st _ =>
    cases st with
    | @intro u l mem pc' hu st =>
      exact .inr (.inr ⟨u, mem, hu, rfl, (st.ofClose h).2, st.writeMu⟩)
  | closed st hr =>
    cases st with
    | @intro u l mem pc' hu st =>
      have moves := st.writeMu
      rw [(StreamHandle.CallPc.unlocked_of_returned hr).2] at moves
      exact .inr (.inr ⟨u, mem, hu, rfl, (st.ofClose h).2, moves⟩)
  | free _ => exact .inr (.inl rfl)
  | closeClient => exact .inl ⟨rfl, rfl⟩

lemma Locks.producer {pc' : ProducerPc} (h : Locks s) (st : ProducerStep c s.mem s.producer m' pc') :
    Locks { s with mem := m', producer := pc' } := by
  constructor
  case stream => exact fun d hd => h.stream d (st.sameReceiver.receiver ▸ hd)
  case callback =>
    intro u hu
    rcases st.moves with ⟨hup, hs, -⟩ | ⟨hup, -, -⟩ | ⟨v, mem, hv, hup, hs, -⟩
    · rw [hs]
      exact h.callback u (hup ▸ hu)
    · cases hup.symm.trans hu
      exact .inl rfl
    · cases hup.symm.trans hu
      exact (h.callback v hv).step hs
  case write =>
    intro u hu
    rw [st.cleaner]
    rcases st.moves with ⟨hup, -, hw⟩ | ⟨hup, -, -⟩ | ⟨v, mem, hv, hup, -, hw⟩
    · rw [hw]
      exact h.write u (hup ▸ hu)
    · cases hup.symm.trans hu
      exact .inl rfl
    · cases hup.symm.trans hu
      exact (h.write v hv).step hw

lemma Locks.consumer {pc' : ConsumerPc} (h : Locks s) (st : ConsumerStep c s.mem s.consumer m' pc') :
    Locks { s with mem := m', consumer := pc' } := by
  have same := st.sameUpstream
  constructor
  case stream =>
    intro d hd
    rcases st.moves with ⟨hr, hc⟩ | ⟨hr, -⟩ | ⟨e, e', he, hr, hc⟩
    · rw [hc]
      exact h.stream d (hr ▸ hd)
    · cases hr.symm.trans hd
      exact .inl rfl
    · cases hr.symm.trans hd
      exact (h.stream e he).step hc
  case callback => exact fun u hu => h.callback u (same.upstream ▸ hu)
  case write =>
    intro u hu
    rw [same.cleaner]
    exact h.write u (same.upstream ▸ hu)

lemma Locks.stop {pc pc' : StopPc} (h : Locks s) (ho : Objects s) (hpc : s.stop = pc)
    (st : StopStep c s.producer s.consumer s.mem pc m' pc') :
    Locks { s with mem := m', stop := pc' } := by
  subst hpc
  constructor
  case stream =>
    intro d hd
    rcases st.moves with ⟨hr, hc⟩ | hr | ⟨e, e', he, hr, hc⟩
    · rw [hc]
      exact h.stream d (hr ▸ hd)
    · cases hr.symm.trans hd
    · cases hr.symm.trans hd
      exact (h.stream e he).step' hc
  case callback =>
    intro u hu
    rcases st.upstream with same | ⟨-, -, hup, -⟩
    · exact h.callback u (same.upstream ▸ hu)
    · exact h.callback u (hup ▸ hu)
  case write =>
    intro u hu
    rcases st.upstream with same | ⟨hset, -, hup, hcleaner⟩
    · rw [same.cleaner]
      exact h.write u (same.upstream ▸ hu)
    · -- no detached thread has been started before
      have hstart : s.mem.cleaner = .unstarted := by
        by_contra hx
        rw [ho.released hx] at hset
        cases hset
      have held := h.write u (hup ▸ hu)
      rw [hstart] at held
      rw [hcleaner]
      exact held

lemma Locks.cleaner (h : Locks s) (hp : s.mem.cleaner.Proper)
    (st : CleanerStep s.mem s.mem.cleaner m') : Locks { s with mem := m' } := by
  constructor
  case stream => exact fun d hd => h.stream d (st.sameReceiver.receiver ▸ hd)
  case callback =>
    intro u hu
    rcases st.moves hp with ⟨hup, -⟩ | hup | ⟨v, mem, hv, hup, hc, -⟩
    · exact h.callback u (hup ▸ hu)
    · cases hup.symm.trans hu
    · cases hup.symm.trans hu
      have held := h.callback v hv
      rw [← hc] at held
      exact held
  case write =>
    intro u hu
    rcases st.moves hp with ⟨hup, hw⟩ | hup | ⟨v, mem, hv, hup, -, hw⟩
    · rw [hw]
      exact h.write u (hup ▸ hu)
    · cases hup.symm.trans hu
    · cases hup.symm.trans hu
      exact (h.write v hv).step' hw

lemma Locks.reader {l : UpLabel} (h : Locks s) (st : DeliveryStep s.mem l m') :
    Locks { s with mem := m' } := by
  obtain ⟨v, mem, pc, hv, rst, hup⟩ := st.upstream
  constructor
  case stream => exact fun d hd => h.stream d (st.sameReceiver.receiver ▸ hd)
  case callback =>
    intro u hu
    cases hup.symm.trans hu
    exact (h.callback v hv).step' rst.callbackMu
  case write =>
    intro u hu
    cases hup.symm.trans hu
    have held := h.write v hv
    rw [← rst.writes.1] at held
    rw [st.owner.1]
    exact held

/-- The server leaves `stream_mu` alone. -/
lemma Locks.server {d d' : Downstream.Mem} (h : Locks s) (hd : s.mem.receiver = some d)
    (hm : d'.streamMu = d.streamMu) :
    Locks { s with mem := { s.mem with receiver := some d' } } := by
  refine ⟨?_, h.callback, h.write⟩
  intro e he
  cases he
  have held := h.stream d hd
  rw [← hm] at held
  exact held

lemma Locks.step {t : Worker} {a : Action} (h : Sound s) (st : Step c s a t) : Locks t := by
  have hl := h.locks
  cases st with
  | beginStop hs =>
    refine ⟨?_, hl.callback, hl.write⟩
    intro d hd
    have held := hl.stream d hd
    rw [hs] at held
    exact held
  | stop st => exact hl.stop h.objects rfl st
  | producer st => exact hl.producer st
  | consumer st => exact hl.consumer st
  | cleaner st => exact hl.cleaner h.cleaner st
  | reader _ st => exact hl.reader st
  | answer hd st =>
    cases st
    exact hl.server hd rfl
  | breakStream hd st =>
    cases st
    exact hl.server hd rfl

end Locks

lemma Sound.step {t : Worker} {a : Action} (h : Sound s) (st : Step c s a t) : Sound t := by
  constructor
  case threads => exact h.threads.step st
  case objects => exact h.objects.step h.threads st
  case locks => exact Locks.step h st
  case producer =>
    cases st with
    | producer st => exact st.proper h.producer
    | _ => exact h.producer
  case consumer =>
    cases st with
    | consumer st => exact st.proper h.consumer
    | _ => exact h.consumer
  case stop =>
    cases st with
    | beginStop _ => trivial
    | stop st => exact st.proper h.stop
    | _ => exact h.stop
  case cleaner =>
    have hc := h.cleaner
    cases st with
    | beginStop _ => exact hc
    | stop st =>
      rcases st.upstream with same | ⟨-, -, -, hx⟩
      · exact same.cleaner ▸ hc
      · rw [hx]
        rfl
    | producer st => exact st.cleaner ▸ hc
    | consumer st => exact st.sameUpstream.cleaner ▸ hc
    | cleaner st => exact st.proper hc
    | reader _ st => exact st.owner.1 ▸ hc
    | answer _ _ => exact hc
    | breakStream _ _ => exact hc

/-- A worker that nobody has stopped and whose streams are not open. -/
lemma Sound.of_init {s : Worker} (hp : s.mem.producerThread = false → s.producer = .unstarted)
    (hc : s.mem.consumerThread = false → s.consumer = .unstarted)
    (hp' : s.producer = .unstarted ∨ s.producer = .connect)
    (hc' : s.consumer = .unstarted ∨ s.consumer = .connect) (hs : s.stop = .idle)
    (hx : s.mem.cleaner = .unstarted) (hr : s.mem.receiverSet = false)
    (hd : s.mem.receiver = none) (hu : s.mem.upstream = none) (hl : s.mem.log = []) : Sound s := by
  obtain ⟨m, p, q, pc⟩ := s
  cases hs
  constructor
  case threads =>
    constructor
    case producer => exact fun h => hp h ▸ rfl
    case consumer => exact fun h => hc h ▸ rfl
    case pastProducer => exact nofun
    case pastConsumer => exact nofun
    case cleaner => exact fun h => absurd hx h
    case running => exact fun h => absurd rfl h
    case returned =>
      rintro ⟨x, h⟩
      rw [hl] at h
      cases h
  case objects =>
    constructor
    case upstream => rcases hp' with rfl | rfl <;> exact nofun
    case receiver => rcases hc' with rfl | rfl <;> exact nofun
    case member =>
      intro h
      rw [hr] at h
      cases h
    case closing => exact nofun
    case unset => exact nofun
    case released => exact fun h => absurd hx h
  case producer => rcases hp' with rfl | rfl <;> trivial
  case consumer => rcases hc' with rfl | rfl <;> trivial
  case stop => trivial
  case cleaner => exact hx ▸ trivial
  case locks =>
    constructor
    case stream => exact fun d h => absurd (hd.symm.trans h) nofun
    case callback => exact fun u h => absurd (hu.symm.trans h) nofun
    case write => exact fun u h => absurd (hu.symm.trans h) nofun

lemma sound_init {s : Worker} (h : (sys c).init s) : Sound s := by
  rcases h with rfl | rfl
  · exact .of_init (fun _ => rfl) (fun _ => rfl) (.inl rfl) (.inl rfl) rfl rfl rfl rfl rfl rfl
  · exact .of_init nofun nofun (.inr rfl) (.inr rfl) rfl rfl rfl rfl rfl rfl

/-- Every state of a worker is sound. -/
lemma sound_reach {G : Worker → Action → Prop} (h : (sys c).Reach G s) : Sound s := by
  apply h.invariant
  · intro s hs
    exact sound_init hs
  · intro s a t _ ih _ hn
    exact ih.step (Step.of_next hn).2

end KubeMQ.Burnin.QueueStream
