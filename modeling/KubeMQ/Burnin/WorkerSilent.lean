import KubeMQ.Burnin.WorkerStop
import KubeMQ.Lts.History

/-!
# A stopped queue stream worker

After `Stop` has returned nothing may call the lambdas or change the counters (`Mem.Silent`). The
threads of `ProducerLoop` and `ConsumerLoop` have been joined, but the reader of the upstream handle
has not: the detached thread that joins it may still be waiting for it. It stays silent when it
delivers nothing at the return of `Stop` and the server sends nothing after it (`upstreamSilent`).
-/

namespace KubeMQ.Burnin.QueueStream

variable {c : Config} {s : Worker} {m m' : Mem}

/-- Since a `Stop` returned no lambda was called and the counters did not change. -/
def Mem.Silent (m : Mem) : Prop :=
  ∀ before x after, m.log = before ++ .stopReturned x :: after →
    (∀ e ∈ after, e = .stopReturned x) ∧ m.metrics = x

def Event.isReturn : Event → Bool
  | .stopReturned _ => true
  | _ => false

/-- The reader has nothing to deliver. -/
def quiet : UpReader → Bool
  | .read => true
  | .unlockResult => true
  | .storeDone => true
  | .finish => true
  | .unlockError => true
  | .exited => true
  | _ => false

/-- What the reader gets is no response and no error. -/
def harmless : UpLabel → Bool
  | .result _ => false
  | .finish st => st.ok
  | _ => true

/-- When `Stop` returns the reader has nothing to deliver, and nothing comes later. -/
def upstreamSilent (s : Worker) : Action → Bool
  | .stop _ =>
    match s.stop, s.mem.upstream with
    | .closeConsumer, some u => quiet u.reader
    | _, _ => true
  | .reader l => !s.mem.log.any Event.isReturn || harmless l
  | _ => true

lemma Mem.returned_iff : m.Returned ↔ m.log.any Event.isReturn = true := by
  rw [List.any_eq_true]
  constructor
  · rintro ⟨x, h⟩
    exact ⟨_, h, rfl⟩
  · rintro ⟨e, h, he⟩
    cases e with
    | stopReturned x => exact ⟨x, h⟩
    | called f => cases he

/-- Before a `Stop` has returned there is nothing to say. -/
lemma Mem.Silent.of_not_returned (h : ¬ m.Returned) : m.Silent := by
  intro before x after hlog
  refine absurd ⟨x, ?_⟩ h
  rw [hlog]
  exact List.mem_append_right _ List.mem_cons_self

section History

/-- The counters and the history are as they were. -/
structure Mem.SameHistory (m m' : Mem) : Prop where
  metrics : m'.metrics = m.metrics
  log : m'.log = m.log

lemma Mem.Silent.keep (h : m.Silent) (same : m.SameHistory m') : m'.Silent := by
  intro before x after hlog
  obtain ⟨hafter, hx⟩ := h before x after (same.log ▸ hlog)
  exact ⟨hafter, same.metrics.trans hx⟩

/-- A `Stop` that returns after another finds the counters of that one. -/
lemma Mem.Silent.returned (h : m.Silent) :
    Mem.Silent
      { m with consumerClient := false, log := m.log ++ [.stopReturned m.metrics] } := by
  intro before x after hlog
  rcases Lts.split_concat hlog with ⟨rest, hold, rfl⟩ | ⟨-, hx, rfl⟩
  · obtain ⟨hrest, hmetrics⟩ := h before x rest hold
    refine ⟨?_, hmetrics⟩
    intro e he
    rcases List.mem_append.mp he with he | he
    · exact hrest e he
    · rw [List.mem_singleton.mp he, hmetrics]
  · cases hx
    exact ⟨List.forall_mem_nil _, rfl⟩

lemma UpstreamStep.history {i : ℕ} {pc pc' : UpCall} (st : UpstreamStep i m pc m' pc') :
    m.SameHistory m' := by
  cases st
  exact ⟨rfl, rfl⟩

lemma ReceiverStep.history {i : ℕ} {pc pc' : Downstream.CallPc} (st : ReceiverStep c i m pc m' pc') :
    m.SameHistory m' := by
  cases st
  exact ⟨rfl, rfl⟩

lemma StopStep.history {producer : ProducerPc} {consumer : ConsumerPc} {pc pc' : StopPc}
    (st : StopStep c producer consumer m pc m' pc') :
    m.SameHistory m' ∨ (pc = .closeConsumer ∧
      m' = { m with consumerClient := false, log := m.log ++ [.stopReturned m.metrics] }) := by
  cases st with
  | closeReceiver st _ => exact .inl st.history
  | receiverClosed st _ => exact .inl st.history
  | destroyReceiver st _ => exact .inl st.history
  | receiverDestroyed st _ => exact .inl ⟨st.history.metrics, st.history.log⟩
  | closeConsumer => exact .inr ⟨rfl, rfl⟩
  | _ => exact .inl ⟨rfl, rfl⟩

lemma CleanerStep.history {pc : CleanerPc} (st : CleanerStep m pc m') : m.SameHistory m' := by
  cases st with
  | delete st _ => exact ⟨st.history.metrics, st.history.log⟩
  | closed st _ => exact ⟨st.history.metrics, st.history.log⟩
  | free _ => exact ⟨rfl, rfl⟩
  | closeClient => exact ⟨rfl, rfl⟩

end History

/-- A reader with nothing to deliver that gets nothing goes on to its end. -/
lemma reader_quiet {κ : HandleSpec Proto.QueuesUpstreamRequest Proto.QueuesUpstreamResponse
      QueueUpstreamResult} {mem mem' : UpMem} {pc pc' : UpReader} {l : UpLabel}
    (st : StreamHandle.ReaderStep κ mem pc l mem' pc') (hq : quiet pc = true)
    (hl : harmless l = true) :
    quiet pc' = true ∧ Lambda.begun pc pc' = none ∧ ∀ x, l ≠ .callback x := by
  cases st with
  | eos => exact ⟨rfl, rfl, nofun⟩
  | unlockResult => exact ⟨rfl, rfl, nofun⟩
  | storeDone => exact ⟨rfl, rfl, nofun⟩
  | finishOk _ => exact ⟨rfl, rfl, nofun⟩
  | finishError h => exact absurd (h.symm.trans hl) nofun
  | unlockError => exact ⟨rfl, rfl, nofun⟩
  | drop _ => cases hl
  | receive _ => cases hl
  | _ => cases hq

/-- A quiet reader neither begins nor ends a lambda. -/
lemma DeliveryStep.quiet {l : UpLabel} (st : DeliveryStep m l m') (hl : harmless l = true)
    (hq : ∀ u, m.upstream = some u → quiet u.reader = true) :
    m.SameHistory m' ∧ ∀ u, m'.upstream = some u → QueueStream.quiet u.reader = true := by
  cases st with
  | @intro u l mem pc hu st =>
    obtain ⟨hquiet, hbegun, hcall⟩ := reader_quiet st (hq u hu) hl
    have hsame : { m with upstream := some ⟨mem, pc⟩ }.deliver none l =
        { m with upstream := some ⟨mem, pc⟩ } := by
      unfold Mem.deliver
      split
      next h => cases h
      next x _ _ _ => exact absurd rfl (hcall x)
      next => rfl
    rw [hbegun, hsame]
    refine ⟨⟨rfl, rfl⟩, ?_⟩
    intro v hv
    cases hv
    exact hquiet

/-- The invariant of the runs in which the upstream stream falls silent. -/
structure Hushed (s : Worker) : Prop where
  silent : s.mem.Silent
  reader : s.mem.Returned → ∀ u, s.mem.upstream = some u → quiet u.reader = true

/-- A step before a `Stop` has returned. -/
lemma Hushed.of_not_returned (h : ¬ s.mem.Returned) : Hushed s :=
  ⟨.of_not_returned h, fun hr => absurd hr h⟩

lemma Hushed.keep {t : Worker} (h : Hushed s) (same : s.mem.SameHistory t.mem)
    (hu : ∀ u, t.mem.upstream = some u → ∃ v, s.mem.upstream = some v ∧ u.reader = v.reader) :
    Hushed t where
  silent := h.silent.keep same
  reader := by
    rintro ⟨x, hx⟩ u hup
    obtain ⟨v, hv, hr⟩ := hu u hup
    rw [hr]
    exact h.reader ⟨x, same.log ▸ hx⟩ v hv

lemma Hushed.stop {l : Label} {pc pc' : StopPc} (h : Hushed s) (hpc : s.stop = pc)
    (hg : upstreamSilent s (.stop l) = true)
    (st : StopStep c s.producer s.consumer s.mem pc m' pc') :
    Hushed { s with mem := m', stop := pc' } := by
  rcases st.history with same | ⟨rfl, rfl⟩
  · refine h.keep same ?_
    intro u hu
    refine ⟨u, ?_, rfl⟩
    rcases st.upstream with sameUp | ⟨-, -, hup, -⟩
    · exact sameUp.upstream ▸ hu
    · exact hup ▸ hu
  · refine ⟨h.silent.returned, ?_⟩
    intro _ u hu
    have hu : s.mem.upstream = some u := hu
    simpa [upstreamSilent, hpc, hu] using hg

lemma Hushed.cleaner (h : Hushed s) (st : CleanerStep s.mem s.mem.cleaner m') :
    Hushed { s with mem := m' } := by
  refine h.keep st.history ?_
  intro u hu
  generalize s.mem.cleaner = pc at st
  cases st with
  | delete st _ =>
    cases st with
    | intro hv _ =>
      cases hu
      exact ⟨_, hv, rfl⟩
  | closed st _ =>
    cases st with
    | intro hv _ =>
      cases hu
      exact ⟨_, hv, rfl⟩
  | free _ => cases hu
  | closeClient => exact ⟨u, hu, rfl⟩

lemma Hushed.step {t : Worker} {a : Action} (h : Hushed s) (inv : Sound s)
    (hg : upstreamSilent s a = true) (st : Step c s a t) : Hushed t := by
  cases st with
  | beginStop _ => exact h.keep ⟨rfl, rfl⟩ fun u hu => ⟨u, hu, rfl⟩
  | stop st => exact h.stop rfl hg st
  | producer st =>
    -- a producer that steps has not been joined
    apply Hushed.of_not_returned
    intro hr
    obtain ⟨hjoined, -⟩ := inv.threads.returned (st.same.returned hr)
    rw [inv.threads.joinable_producer st.live] at hjoined
    cases hjoined
  | consumer st =>
    apply Hushed.of_not_returned
    intro hr
    obtain ⟨-, hjoined⟩ := inv.threads.returned (st.same.returned hr)
    rw [inv.threads.joinable_consumer st.live] at hjoined
    cases hjoined
  | cleaner st => exact h.cleaner st
  | @reader l m' _ st =>
    by_cases hr : s.mem.Returned
    · have hl : harmless l = true := by
        simpa [upstreamSilent, Mem.returned_iff.mp hr] using hg
      obtain ⟨same, hquiet⟩ := st.quiet hl (h.reader hr)
      exact ⟨h.silent.keep same, fun _ => hquiet⟩
    · apply Hushed.of_not_returned
      exact fun hr' => hr (st.same.returned hr')
  | answer _ _ => exact h.keep ⟨rfl, rfl⟩ fun u hu => ⟨u, hu, rfl⟩
  | breakStream _ _ => exact h.keep ⟨rfl, rfl⟩ fun u hu => ⟨u, hu, rfl⟩

lemma hushed_reach (h : (sys c).Reach (fun s a => upstreamSilent s a = true) s) : Hushed s := by
  apply h.invariant
  · intro s hs
    apply Hushed.of_not_returned
    rintro ⟨x, hx⟩
    rcases hs with rfl | rfl <;> cases hx
  · intro s a t hr ih hg hn
    exact ih.step (sound_reach hr) hg (Step.of_next hn).2

/-- A stopped worker is silent, and a `Stop` under way returns. -/
structure Stopped (c : Config) (s : Worker) : Prop where
  silent : s.mem.Silent
  returns : s.stop ≠ .idle → StopReturns c s

/-- A worker is silent once it is stopped when its upstream stream falls silent, and `Stop` returns
when the detached thread finds that stream open. -/
theorem stopped_worker (c : Config) (s : Worker) :
    ((sys c).Reach (fun s a => upstreamSilent s a = true) s → s.mem.Silent) ∧
    ((sys c).Reach (fun s a => upstreamOpen s a = true) s → s.stop ≠ .idle → StopReturns c s) ∧
    ((sys c).Reach (fun s a => (upstreamSilent s a && upstreamOpen s a) = true) s →
      Stopped c s) := by
  refine ⟨fun h => (hushed_reach h).silent, stop_returns, ?_⟩
  intro h
  constructor
  case silent =>
    have hsilent := h.mono fun s a hg => (Bool.and_eq_true_iff.mp hg).1
    exact (hushed_reach hsilent).silent
  case returns =>
    apply stop_returns
    exact h.mono fun s a hg => (Bool.and_eq_true_iff.mp hg).2

/-- A worker for concrete runs. -/
def ordersConfig : Config where
  clientIdPrefix := "burnin"
  channel := "orders"
  uuid := Downstream.unaryUuids.uuid

/-- The producer opens its stream and sets the lambdas; the consumer is refused. -/
def producerOnly : List Action :=
  List.flatten [[.producer (.done true), .producer .tau, .producer (.done true), .producer .tau],
    List.replicate 6 (.producer (.upstream .tau)), [.consumer (.done false), .consumer .tau]]

/-- The producer sends a message. -/
def sendOne : List Action :=
  List.flatten [List.replicate 2 (.producer .tau), List.replicate 2 (.producer (.upstream .tau)),
    [.producer (.upstream (.wrote true)), .producer (.upstream .tau), .producer .tau]]

/-- The server has stored it. -/
def storedResponse : Proto.QueuesUpstreamResponse where
  refRequestID := "burnin-1"
  results := [⟨"u", 1, 0, 0, false, ""⟩]
  isError := false
  error := ""

def storedResult : QueueUpstreamResult := queueUpstreamResponseFromProto storedResponse

/-- Its answer reaches the lambda. -/
def deliverOne : List Action := [.reader (.result storedResponse), .reader .tau, .reader .tau]

/-- `Stop` with nothing to wait for but the producer. -/
def stopAll : List Action :=
  List.flatten [[.beginStop, .stop .tau, .producer .tau], List.replicate 5 (.stop .tau)]

/-- The detached thread closes the handle, and the server ends the stream. -/
def cleanUp : List Action :=
  List.flatten [List.replicate 5 (.cleaner (.upstream .tau)),
    [.reader .eos, .reader .tau, .reader (.finish ⟨.OK, ""⟩), .cleaner (.upstream .tau),
      .cleaner .tau, .cleaner .tau]]

/-- The answer is delivered before `Stop` begins. -/
def answeredFirst : List Action :=
  List.flatten [producerOnly, sendOne, deliverOne, [.reader (.callback none), .reader .tau]]

/-- A worker that is stopped and destroyed. -/
def stoppedAndDestroyed : List Action :=
  List.flatten [answeredFirst, stopAll, cleanUp, [.beginStop], List.replicate 7 (.stop .tau)]

/-- The answer is delivered after `Stop` has returned. -/
def answeredLate : List Action :=
  List.flatten [producerOnly, sendOne, stopAll, deliverOne, [.reader (.callback none)]]

/-- The server ends the stream before `Stop` gives away the handle. -/
def endedFirst : List Action :=
  List.flatten [producerOnly, [.reader .eos, .reader .tau, .beginStop, .stop .tau, .producer .tau],
    List.replicate 3 (.stop .tau), List.replicate 3 (.cleaner (.upstream .tau)), [.cleaner .tau]]

lemma init_start (c : Config) : (sys c).init start := .inr rfl

theorem stopped_worker_destroyed :
    (∃ s, (sys ordersConfig).execWhere (fun s a => upstreamSilent s a && upstreamOpen s a) start
        stoppedAndDestroyed = some s ∧
      s.mem.log = [.called (.onResult storedResult), .stopReturned ⟨1, 0, 1, 14, 0⟩,
        .stopReturned ⟨1, 0, 1, 14, 0⟩] ∧
      s.mem.Silent ∧ Stopped ordersConfig s) ∧
    ∃ s, (sys ordersConfig).execWhere upstreamOpen start (answeredFirst ++ [.beginStop]) = some s ∧
      s.stop = .testReceiver ∧ StopReturns ordersConfig s := by
  constructor
  case left =>
    have hsome : ((sys ordersConfig).execWhere (fun s a => upstreamSilent s a && upstreamOpen s a)
        start stoppedAndDestroyed).map (fun s => s.mem.log) =
      some [.called (.onResult storedResult), .stopReturned ⟨1, 0, 1, 14, 0⟩,
        .stopReturned ⟨1, 0, 1, 14, 0⟩] := rfl
    obtain ⟨s, hs, hlog⟩ := Option.map_eq_some_iff.mp hsome
    have hreach := Lts.Sys.Reach.execWhere (.init (init_start _)) stoppedAndDestroyed hs
    have hsilent := hreach.mono fun s a hg => (Bool.and_eq_true_iff.mp hg).1
    exact ⟨s, hs, hlog, (stopped_worker ordersConfig s).1 hsilent,
      (stopped_worker ordersConfig s).2.2 hreach⟩
  case right =>
    have hsome : ((sys ordersConfig).execWhere upstreamOpen start
        (answeredFirst ++ [.beginStop])).map (fun s => s.stop) = some .testReceiver := rfl
    obtain ⟨s, hs, hstop⟩ := Option.map_eq_some_iff.mp hsome
    have hreach := Lts.Sys.Reach.execWhere (.init (init_start _)) (answeredFirst ++ [.beginStop]) hs
    refine ⟨s, hs, hstop, (stopped_worker ordersConfig s).2.1 hreach ?_⟩
    rw [hstop]
    exact nofun

theorem stopped_worker_counts :
    (¬ ∀ c s, (sys c).Reachable s → Stopped c s) ∧
    (∃ s, (sys ordersConfig).Reachable s ∧
      s.mem.log = [.stopReturned ⟨0, 0, 1, 14, 0⟩, .called (.onResult storedResult)] ∧
      s.mem.metrics = ⟨1, 0, 1, 14, 0⟩) ∧
    ∃ s, (sys ordersConfig).Reachable s ∧ s.stop = .resetReceiver ∧ s.mem.crashed = true := by
  have hlate : ((sys ordersConfig).exec start answeredLate).map (fun s => (s.mem.log, s.mem.metrics)) =
    some ([.stopReturned ⟨0, 0, 1, 14, 0⟩, .called (.onResult storedResult)], ⟨1, 0, 1, 14, 0⟩) := rfl
  obtain ⟨s, hs, hmem⟩ := Option.map_eq_some_iff.mp hlate
  obtain ⟨hlog, hmetrics⟩ := Prod.mk.inj hmem
  have hended : ((sys ordersConfig).exec start endedFirst).map (fun s => (s.stop, s.mem.crashed)) =
    some (.resetReceiver, true) := rfl
  obtain ⟨t, ht, hend⟩ := Option.map_eq_some_iff.mp hended
  obtain ⟨hstop, hcrashed⟩ := Prod.mk.inj hend
  have hreach := Lts.Sys.Reachable.exec (.init (init_start _)) answeredLate hs
  have hreach' := Lts.Sys.Reachable.exec (.init (init_start _)) endedFirst ht
  refine ⟨?_, ⟨s, hreach, hlog, hmetrics⟩, t, hreach', hstop, hcrashed⟩
  intro h
  obtain ⟨-, hcounts⟩ := (h ordersConfig s hreach).silent [] _ _ hlog
  rw [hmetrics] at hcounts
  cases hcounts

end KubeMQ.Burnin.QueueStream
