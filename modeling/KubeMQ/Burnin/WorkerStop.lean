import KubeMQ.Burnin.WorkerBound
import KubeMQ.Burnin.WorkerLocks

/-!
# Stopping a queue stream worker

A `Stop` under way comes to its end (`StopReturns`): it and the threads it joins take a bounded number
of steps, and one of them is enabled as long as the reader of the upstream handle does not hold
`callback_mu` and the consumer does not wait in `Read` for the answer to a `Poll`. The detached thread
may spoil this: when the server has ended the upstream stream, `Close` returns early and the handle is
destroyed with a joinable reader thread. `upstreamOpen` excludes that.
-/

namespace KubeMQ.Burnin.QueueStream

variable {c : Config}

section Enabled

variable {s : Worker}

/-- `Stop` or a thread that it joins can step. -/
def OwnEnabled (c : Config) (s : Worker) : Prop :=
  ∃ a t, a.own = true ∧ next c s a = some t

/-- The reader holds `callback_mu`, and can step. -/
def ReaderInside (c : Config) (s : Worker) : Prop :=
  ∃ u l t, s.mem.upstream = some u ∧ u.reader.holdsCallback = true ∧ next c s (.reader l) = some t

/-- The consumer waits in `Read` for the answer to its `Poll`. -/
def PollWaits (s : Worker) : Prop :=
  ∃ r req d, s.consumer = .poll (.pollRead r req) ∧ s.mem.receiver = some d ∧ d.incoming = [] ∧
    d.broken = false

lemma next_stop (ha : s.mem.crashed = false) {l : Label} {r : Mem × StopPc}
    (h : stopNext c s.producer.finished s.consumer.finished s.mem s.stop l = some r) :
    OwnEnabled c s :=
  ⟨.stop l, _, rfl, by simp only [next, ha, liveNext, h]; rfl⟩

lemma next_producer (ha : s.mem.crashed = false) {l : Label} {r : Mem × ProducerPc}
    (h : producerNext c s.mem s.producer l = some r) : OwnEnabled c s :=
  ⟨.producer l, _, rfl, by simp only [next, ha, liveNext, h]; rfl⟩

lemma next_consumer (ha : s.mem.crashed = false) {l : Label} {r : Mem × ConsumerPc}
    (h : consumerNext c s.mem s.consumer l = some r) : OwnEnabled c s :=
  ⟨.consumer l, _, rfl, by simp only [next, ha, liveNext, h]; rfl⟩

lemma next_reader (ha : s.mem.crashed = false) {u : Upstream} {l : UpLabel}
    {r : UpMem × UpReader} (hu : s.mem.upstream = some u) (hl : ∀ x, l ≠ .callback (some x))
    (h : StreamHandle.readerNext .queueUpstream u.mem u.reader l = some r) :
    ∃ t, next c s (.reader l) = some t := by
  have hread : ∃ m', s.mem.readerNext l = some m' := by
    simp only [Mem.readerNext, hu, Option.bind_some, h]
    exact ⟨_, rfl⟩
  obtain ⟨m', hread⟩ := hread
  refine ⟨{ s with mem := m' }, ?_⟩
  simp only [next, ha, liveNext]
  split
  next h => cases h
  next => simp only [hread, Option.map_some]

/-- A call on the handle can step when the handle's call can. -/
lemma upstreamNext_enabled {m : Mem} {u : Upstream} {i : ℕ} {pc : UpCall}
    {l : StreamHandle.CallLabel} {r : UpMem × UpCall} (hu : m.upstream = some u)
    (h : StreamHandle.callNext .queueUpstream u.reader.isExited u.mem i pc l = some r) :
    m.upstreamNext i pc l = some ({ m with upstream := some { u with mem := r.1 } }, r.2) := by
  simp only [Mem.upstreamNext, hu, Option.bind_some, h]
  rfl

lemma receiverNext_enabled {m : Mem} {d : Downstream.Mem} {i : ℕ} {pc : Downstream.CallPc}
    {l : Downstream.CallLabel} {r : Downstream.Mem × Downstream.CallPc}
    (hd : m.receiver = some d) (h : Downstream.callNext c.env d i pc l = some r) :
    m.receiverNext c i pc l = some ({ m with receiver := some r.1 }, r.2) := by
  simp only [Mem.receiverNext, hd, Option.bind_some, h]
  rfl

/-- A call of the producer can step, unless the reader holds `callback_mu`. -/
lemma Sound.producer_call (inv : Sound s) (ha : s.mem.crashed = false) {pc : UpCall}
    (hlive : s.producer.finished = false) (hup : s.producer.hasUpstream = true)
    (hset : s.producer.setting = pc.setting) (hwr : s.producer.writing = pc.writing)
    (hof : pc.ofSet = true ∨ pc.ofSend = true) :
    (∃ l r, s.mem.upstreamNext 0 pc l = some r) ∨ ReaderInside c s := by
  obtain ⟨u, hu⟩ := Option.isSome_iff_exists.mp (inv.objects.upstream hup)
  have hcb := inv.locks.callback u hu
  have hmu := inv.locks.write u hu
  cases hin : u.reader.holdsCallback with
  | true =>
    obtain ⟨l, r, hr, hl⟩ := StreamHandle.holder_enabled .queueUpstream u.mem hin
    obtain ⟨t, ht⟩ := next_reader (c := c) ha hu hl hr
    exact .inr ⟨u, l, t, hu, hin, ht⟩
  | false =>
    refine .inl ?_
    have hfree : pc.wantsCallback = true → u.mem.callbackMu = none := by
      intro hw
      by_contra hne
      have hout := hset.trans (StreamHandle.CallPc.outside_of_wants_callback hw)
      exact absurd (hin.symm.trans (hcb.other hout hne)) nofun
    have hfree' : pc.wantsWrite = true → u.mem.writeMu = none := by
      intro hw
      by_contra hne
      have hwriting := hmu.other (hwr.trans (StreamHandle.CallPc.outside_of_wants_write hw)) hne
      rw [inv.threads.not_detached hlive] at hwriting
      cases hwriting
    obtain ⟨l, r, hr⟩ :=
      StreamHandle.call_enabled .queueUpstream u.reader.isExited u.mem 0 hof hfree' hfree
    exact ⟨l, _, upstreamNext_enabled hu hr⟩

/-- The producer can step, unless the reader holds `callback_mu`. -/
lemma Sound.producer_enabled (inv : Sound s) (ha : s.mem.crashed = false)
    (hlive : s.producer.finished = false) : OwnEnabled c s ∨ ReaderInside c s := by
  have simple {l : Label} {r : Mem × ProducerPc} {pc : ProducerPc} (hpc : s.producer = pc)
      (h : producerNext c s.mem pc l = some r) : OwnEnabled c s ∨ ReaderInside c s :=
    .inl (next_producer ha (hpc ▸ h))
  have hcall {pc : UpCall} := @Sound.producer_call c s inv ha pc hlive
  have hproper := inv.producer
  cases hpc : s.producer with
  | unstarted =>
    rw [hpc] at hlive
    cases hlive
  | exited =>
    rw [hpc] at hlive
    cases hlive
  | connect => exact simple (l := .done true) hpc rfl
  | openStream => exact simple (l := .done true) hpc rfl
  | build seq =>
    have hbuild : ∃ r, producerNext c s.mem (.build seq) .tau = some r := by
      simp only [producerNext]
      split <;> exact ⟨_, rfl⟩
    obtain ⟨r, hr⟩ := hbuild
    exact simple hpc hr
  | setResult pc =>
    rw [hpc] at hcall hproper
    rcases hcall rfl rfl rfl (.inl hproper) with ⟨l, r, hr⟩ | hin
    · exact simple (l := .upstream l) hpc (by simp only [producerNext, hr]; rfl)
    · exact .inr hin
  | setError pc =>
    rw [hpc] at hcall hproper
    rcases hcall rfl rfl rfl (.inl hproper) with ⟨l, r, hr⟩ | hin
    · exact simple (l := .upstream l) hpc (by simp only [producerNext, hr]; rfl)
    · exact .inr hin
  | send seq pc =>
    rw [hpc] at hcall hproper
    rcases hcall rfl rfl rfl (.inr hproper) with ⟨l, r, hr⟩ | hin
    · exact simple (l := .upstream l) hpc (by simp only [producerNext, hr]; rfl)
    · exact .inr hin
  | _ => exact simple (l := .tau) hpc rfl

/-- `Stop` is in the call `pc` of `Close`. -/
def StopPc.InClose (stop : StopPc) (pc : Downstream.CallPc) : Prop :=
  stop = .closeReceiver pc ∨ stop = .destroyReceiver pc

lemma StopPc.InClose.closing {stop : StopPc} {pc : Downstream.CallPc} (h : stop.InClose pc) :
    stop.closing = true ∧ stop.critical = pc.critical ∧ (stop.Proper → pc.ofClose = true) := by
  rcases h with rfl | rfl
  · exact ⟨rfl, rfl, id⟩
  · exact ⟨rfl, rfl, id⟩

/-- A `Close` of `Stop` can step unless it waits for `stream_mu`. -/
lemma Sound.close_enabled (inv : Sound s) (ha : s.mem.crashed = false) {pc : Downstream.CallPc}
    (hpc : s.stop.InClose pc)
    (hfree : ∀ d, s.mem.receiver = some d → pc.wantsStream = true → d.streamMu = none) :
    OwnEnabled c s := by
  obtain ⟨hclosing, -, hof⟩ := hpc.closing
  obtain ⟨d, hd⟩ := Option.isSome_iff_exists.mp (inv.objects.closing hclosing)
  have hof := hof inv.stop
  have hread : ∀ r req, pc = .pollRead r req → d.incoming ≠ [] ∨ d.broken = true := by
    rintro r req rfl
    cases hof
  obtain ⟨l, r, hr⟩ :=
    Downstream.call_enabled c.env d 1 (.inr (.inr hof)) (hfree d hd) hread
  have hnext := receiverNext_enabled hd hr
  rcases hpc with hpc | hpc
  · apply next_stop (l := .downstream l) ha
    rw [hpc]
    simp only [stopNext, hnext]
    rfl
  · apply next_stop (l := .downstream l) ha
    rw [hpc]
    simp only [stopNext, hnext]
    rfl

/-- While `Stop` holds `stream_mu` it can step. -/
lemma Sound.critical_enabled (inv : Sound s) (ha : s.mem.crashed = false)
    (hc : s.stop.critical = true) : OwnEnabled c s := by
  have hin : ∃ pc, s.stop.InClose pc ∧ pc.critical = true := by
    revert hc
    cases s.stop with
    | closeReceiver pc => exact fun hc => ⟨pc, .inl rfl, hc⟩
    | destroyReceiver pc => exact fun hc => ⟨pc, .inr rfl, hc⟩
    | _ => exact nofun
  obtain ⟨pc, hpc, hcrit⟩ := hin
  apply inv.close_enabled ha hpc
  intro d _ hw
  exact absurd ((Downstream.CallPc.outside_of_wants hw).symm.trans hcrit) nofun

/-- A call of the consumer can step, unless it waits for `Stop` or for the answer to a `Poll`. -/
lemma Sound.consumer_call (inv : Sound s) (ha : s.mem.crashed = false) {pc : Downstream.CallPc}
    (hrec : s.consumer.hasReceiver = true) (hcrit : s.consumer.critical = pc.critical)
    (hof : pc.ofPoll = true ∨ pc.ofSettle = true)
    (hpoll : ∀ r req, pc = .pollRead r req → s.consumer = .poll pc) :
    (∃ l r, s.mem.receiverNext c 0 pc l = some r) ∨ OwnEnabled c s ∨ PollWaits s := by
  obtain ⟨d, hd⟩ := Option.isSome_iff_exists.mp (inv.objects.receiver hrec)
  have held := inv.locks.stream d hd
  by_cases hstop : s.stop.critical = true
  · exact .inr (.inl (inv.critical_enabled ha hstop))
  by_cases hwaits : PollWaits s
  · exact .inr (.inr hwaits)
  refine .inl ?_
  have hfree : pc.wantsStream = true → d.streamMu = none := by
    intro hw
    by_contra hne
    exact hstop (held.other (hcrit.trans (Downstream.CallPc.outside_of_wants hw)) hne)
  have hread : ∀ r req, pc = .pollRead r req → d.incoming ≠ [] ∨ d.broken = true := by
    intro r req hpc
    by_contra hne
    simp only [not_or, not_not, Bool.not_eq_true] at hne
    exact hwaits ⟨r, req, d, hpc ▸ hpoll r req hpc, hd, hne.1, hne.2⟩
  have hof : pc.ofPoll = true ∨ pc.ofSettle = true ∨ pc.ofClose = true := by
    rcases hof with h | h
    · exact .inl h
    · exact .inr (.inl h)
  obtain ⟨l, r, hr⟩ := Downstream.call_enabled c.env d 0 hof hfree hread
  exact ⟨l, _, receiverNext_enabled hd hr⟩

/-- The consumer can step, unless it waits for `Stop` or for the answer to a `Poll`. -/
lemma Sound.consumer_enabled (inv : Sound s) (ha : s.mem.crashed = false)
    (hlive : s.consumer.finished = false) : OwnEnabled c s ∨ PollWaits s := by
  have simple {l : Label} {r : Mem × ConsumerPc} {pc : ConsumerPc} (hpc : s.consumer = pc)
      (h : consumerNext c s.mem pc l = some r) : OwnEnabled c s ∨ PollWaits s :=
    .inl (next_consumer ha (hpc ▸ h))
  have hcall {pc : Downstream.CallPc} := @Sound.consumer_call c s inv ha pc
  have hproper := inv.consumer
  cases hpc : s.consumer with
  | unstarted =>
    rw [hpc] at hlive
    cases hlive
  | exited =>
    rw [hpc] at hlive
    cases hlive
  | connect => exact simple (l := .done true) hpc rfl
  | openStream => exact simple (l := .done true) hpc rfl
  | poll pc =>
    rw [hpc] at hcall hproper
    rcases hcall rfl rfl (.inl hproper) (fun _ _ _ => rfl) with ⟨l, r, hr⟩ | hother
    · exact simple (l := .downstream l) hpc (by simp only [consumerNext, hr]; rfl)
    · exact hother
  | ack pc =>
    rw [hpc] at hcall hproper
    have hread : ∀ r req, pc = .pollRead r req → ConsumerPc.ack pc = .poll pc := by
      rintro r req rfl
      cases hproper
    rcases hcall rfl rfl (.inr hproper) hread with ⟨l, r, hr⟩ | hother
    · exact simple (l := .downstream l) hpc (by simp only [consumerNext, hr]; rfl)
    · exact hother
  | _ => exact simple (l := .tau) hpc rfl

/-- A `Close` of `Stop` can step, unless the consumer has `stream_mu`. -/
lemma Sound.close_progress (inv : Sound s) (ha : s.mem.crashed = false) {pc : Downstream.CallPc}
    (hpc : s.stop.InClose pc) : OwnEnabled c s ∨ PollWaits s := by
  by_cases hcons : s.consumer.critical = true
  · apply inv.consumer_enabled ha
    revert hcons
    cases s.consumer <;> first | exact fun _ => rfl | exact nofun
  · by_cases hcrit : pc.critical = true
    · exact .inl (inv.critical_enabled ha (hpc.closing.2.1.trans hcrit))
    · refine .inl (inv.close_enabled ha hpc ?_)
      intro d hd _
      by_contra hne
      have hout := hpc.closing.2.1.trans (Bool.eq_false_iff.mpr hcrit)
      exact hcons ((inv.locks.stream d hd).symm.other hout hne)

/-- While `Stop` is under way it or a thread that it joins can step, or the producer waits for the
reader, or the consumer for the answer to a `Poll`. -/
lemma Sound.stop_progress (inv : Sound s) (ha : s.mem.crashed = false) (hs : s.stop ≠ .idle) :
    OwnEnabled c s ∨ ReaderInside c s ∨ PollWaits s := by
  have simple {r : Mem × StopPc} {pc : StopPc} (hpc : s.stop = pc)
      (h : stopNext c s.producer.finished s.consumer.finished s.mem pc .tau = some r) :
      OwnEnabled c s ∨ ReaderInside c s ∨ PollWaits s :=
    .inl (next_stop ha (hpc ▸ h))
  cases hpc : s.stop with
  | idle => exact absurd hpc hs
  | closeReceiver pc => exact (inv.close_progress ha (.inl hpc)).imp_right .inr
  | destroyReceiver pc => exact (inv.close_progress ha (.inr hpc)).imp_right .inr
  | joinProducer =>
    cases hlive : s.producer.finished with
    | false => exact (inv.producer_enabled ha hlive).imp_right .inl
    | true => exact simple hpc (if_neg (by simp [hlive]))
  | joinConsumer =>
    cases hlive : s.consumer.finished with
    | false => exact (inv.consumer_enabled ha hlive).imp_right .inr
    | true => exact simple hpc (if_neg (by simp [hlive]))
  | release =>
    cases hset : s.mem.upstreamSet with
    | true => exact simple hpc (if_pos hset)
    | false => exact simple hpc (if_neg (by simp [hset]))
  | resetReceiver =>
    cases hset : s.mem.receiverSet with
    | true => exact simple hpc (if_pos hset)
    | false => exact simple hpc (if_neg (by simp [hset]))
  | _ => exact simple hpc rfl

end Enabled

section Alive

variable {s : Worker} {m m' : Mem}

/-- The detached thread does not find `done` set when it closes the handle. -/
def upstreamOpen (s : Worker) : Action → Bool
  | .cleaner _ =>
    match s.mem.cleaner, s.mem.upstream with
    | .delete .closeExchange, some u => !u.mem.done
    | _, _ => true
  | _ => true

/-- Only an exited reader is joined. -/
def Mem.Joins (m : Mem) : Prop :=
  ∀ u, m.upstream = some u → u.mem.joiner.Sound u.reader.isExited

/-- The invariant of the runs in which the detached thread finds the stream open. -/
structure Unbroken (s : Worker) : Prop where
  alive : s.mem.crashed = false
  joins : s.mem.Joins
  early : s.mem.cleaner ≠ .delete .closeEarly
  freed : s.mem.cleaner = .free → ∀ u, s.mem.upstream = some u → u.mem.joiner.joinable = false

lemma UpstreamStep.joins {i : ℕ} {pc pc' : UpCall} (st : UpstreamStep i m pc m' pc')
    (h : m.Joins) : m'.Joins := by
  cases st with
  | intro hu st =>
    intro v hv
    cases hv
    exact (st.joiner (h _ hu)).1

lemma ProducerStep.joins {pc pc' : ProducerPc} (st : ProducerStep c m pc m' pc') (h : m.Joins) :
    m'.Joins := by
  cases st.effect with
  | call st => exact st.joins h
  | opened =>
    intro u hu
    cases hu
    exact Joiner.sound_start _
  | _ => exact h

lemma DeliveryStep.joins {l : UpLabel} (st : DeliveryStep m l m') (h : m.Joins) :
    m'.Joins ∧ ∀ u', m'.upstream = some u' →
      ∃ u, m.upstream = some u ∧ u'.mem.joiner = u.mem.joiner := by
  obtain ⟨u, mem, pc, hu, rst, hup⟩ := st.upstream
  constructor
  · intro v hv
    cases hup.symm.trans hv
    rw [rst.joiner]
    exact (h u hu).mono fun hx => absurd (rst.running.symm.trans hx) nofun
  · intro v hv
    cases hup.symm.trans hv
    exact ⟨u, hu, rst.joiner⟩

/-- A step that leaves the handle and the detached thread alone. -/
lemma Unbroken.keep {t : Worker} (h : Unbroken s) (hc : t.mem.crashed = s.mem.crashed)
    (hu : t.mem.upstream = s.mem.upstream) (hx : t.mem.cleaner = s.mem.cleaner) : Unbroken t where
  alive := hc.trans h.alive
  joins := fun u hu' => h.joins u (hu ▸ hu')
  early := fun hx' => h.early (hx ▸ hx')
  freed := fun hx' u hu' => h.freed (hx ▸ hx') u (hu ▸ hu')

/-- Without a handle nothing can go wrong. -/
lemma Unbroken.of_none (ha : s.mem.crashed = false) (hu : s.mem.upstream = none)
    (hx : s.mem.cleaner ≠ .delete .closeEarly) : Unbroken s where
  alive := ha
  joins := fun _ h => absurd (hu.symm.trans h) nofun
  early := hx
  freed := fun _ _ h => absurd (hu.symm.trans h) nofun

/-- The detached thread joins the reader before it frees the handle. -/
lemma Unbroken.cleaner {l : Label} (h : Unbroken s) (hp : s.mem.cleaner.Proper)
    (hg : upstreamOpen s (.cleaner l) = true) (st : CleanerStep s.mem s.mem.cleaner m') :
    Unbroken { s with mem := m' } := by
  generalize hpc : s.mem.cleaner = pc at st hp
  cases st with
  | delete st hr =>
    cases st with
    | @intro u l mem pc' hu st =>
      refine ⟨h.alive, ?_, ?_, nofun⟩
      · intro v hv
        cases hv
        exact (st.joiner (h.joins u hu)).1
      · intro hearly
        cases hearly
        cases st with
        | exchangeDone hd => simp [upstreamOpen, hpc, hu, hd] at hg
  | closed st hr =>
    cases st with
    | @intro u l mem pc' hu st =>
      refine ⟨h.alive, ?_, nofun, ?_⟩
      · intro v hv
        cases hv
        exact (st.joiner (h.joins u hu)).1
      · intro _ v hv
        cases hv
        rcases st.past (h.joins u hu) (st.closes hp hr) with ⟨rfl, hd⟩ | rfl | hj
        · simp [upstreamOpen, hpc, hu, hd] at hg
        · exact absurd hpc h.early
        · exact hj
  | free hu =>
    have hj := h.freed hpc _ hu
    exact .of_none hj rfl nofun
  | closeClient => exact ⟨h.alive, h.joins, nofun, nofun⟩

lemma Unbroken.step {t : Worker} {a : Action} (h : Unbroken s) (inv : Sound s)
    (hg : upstreamOpen s a = true) (st : Step c s a t) : Unbroken t := by
  cases st with
  | beginStop _ => exact h.keep rfl rfl rfl
  | stop st =>
    rcases st.upstream with same | ⟨-, -, hup, hx⟩
    · exact h.keep st.steady.2 same.upstream same.cleaner
    · refine ⟨st.steady.2.trans h.alive, fun u hu => h.joins u (hup ▸ hu), ?_, ?_⟩
      · exact fun hx' => absurd (hx.symm.trans hx') nofun
      · exact fun hx' => absurd (hx.symm.trans hx') nofun
  | producer st =>
    refine ⟨st.same.crashed.trans h.alive, st.joins h.joins, fun hx => h.early (st.cleaner ▸ hx), ?_⟩
    intro hx
    rw [st.cleaner, inv.threads.not_detached st.live] at hx
    cases hx
  | consumer st =>
    have same := st.sameUpstream
    exact h.keep st.same.crashed same.upstream same.cleaner
  | cleaner st => exact h.cleaner inv.cleaner hg st
  | reader _ st =>
    obtain ⟨hjoins, hsame⟩ := st.joins h.joins
    refine ⟨st.same.crashed.trans h.alive, hjoins, fun hx => h.early (st.owner.1 ▸ hx), ?_⟩
    intro hx u hu
    obtain ⟨v, hv, hj⟩ := hsame u hu
    exact hj ▸ h.freed (st.owner.1 ▸ hx) v hv
  | answer _ _ => exact h.keep rfl rfl rfl
  | breakStream _ _ => exact h.keep rfl rfl rfl

lemma unbroken_reach (h : (sys c).Reach (fun s a => upstreamOpen s a = true) s) : Unbroken s := by
  apply h.invariant
  · intro s hs
    rcases hs with rfl | rfl
    · exact .of_none rfl rfl nofun
    · exact .of_none rfl rfl nofun
  · intro s a t hr ih hg hn
    exact ih.step (sound_reach hr) hg (Step.of_next hn).2

/-- `Stop`, when it is under way, returns. -/
structure StopReturns (c : Config) (s : Worker) : Prop where
  alive : s.mem.crashed = false
  enabled : OwnEnabled c s ∨ ReaderInside c s ∨ PollWaits s
  bounded : ∀ as t, ((sys c).restrict noStop).exec s as = some t → as.countP Action.own ≤ 40
  returns : ∀ ρ : Lts.Sys.Path ((sys c).restrict noStop), ρ.st 0 = s →
    (∀ n, ∃ m, n ≤ m ∧ ((ρ.act m).own = true ∨ (ρ.st m).stop = .idle)) → ∃ m, (ρ.st m).stop = .idle

lemma stop_returns (h : (sys c).Reach (fun s a => upstreamOpen s a = true) s)
    (hs : s.stop ≠ .idle) : StopReturns c s := by
  have inv := sound_reach h
  have alive := (unbroken_reach h).alive
  have hr := inv.threads.running hs
  refine ⟨alive, inv.stop_progress alive hs, fun as t he => stop_bounded hr he, ?_⟩
  intro ρ hρ fair
  subst hρ
  obtain ⟨m, -, hm⟩ := ρ.eventually (Q := fun s => s.stop = .idle) stop_ranked hr fair
  exact ⟨m, hm⟩

end Alive

end KubeMQ.Burnin.QueueStream
