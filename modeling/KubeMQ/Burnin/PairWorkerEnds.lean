import KubeMQ.Burnin.PairWorkerStop

/-!
# Stopping a worker takes a few calls

From the moment `Stop` has cleared `running_`, the producer completes at most one more call of the
library. A consumer with a subscription completes at most the four from `Client::Create` to the release
of the subscription, one that polls at most one. Until `Stop` has returned, it can step or whom it waits
for can (`stop_calls_bounded`). The pauses are part of the steps, so a `Stop` takes as long as these
calls do.
-/

namespace KubeMQ.Burnin.PairWorker

variable {O M : Type} {κ : WorkerKind O M} {m m' : Mem O M} {s t : Worker O M}

/-- The calls of the library that the two threads make; `release` is the destructor of the
subscription, which waits for the reader. -/
inductive SdkCall where
  | create | send | subscribe | receive | cancel | release
  deriving DecidableEq

/-- The call that the next step of a producer is. -/
def ProducerPc.call : ProducerPc O → List SdkCall
  | .connect => [.create]
  | .send _ => [.send]
  | _ => []

/-- The call that the next step of a consumer is. -/
def ConsumerPc.call : ConsumerPc → List SdkCall
  | .connect => [.create]
  | .subscribe => [.subscribe]
  | .receive => [.receive]
  | .cancel => [.cancel]
  | .join => [.release]
  | _ => []

def producerCalls (s : Worker O M) : Action O M → List SdkCall
  | .producer _ => s.producer.call
  | _ => []

def consumerCalls (s : Worker O M) : Action O M → List SdkCall
  | .consumer _ => s.consumer.call
  | _ => []

/-- What a consumer calls at most to end its subscription. -/
def ending (subscribes : Bool) : List SdkCall := if subscribes then [.cancel, .release] else []

/-- The calls that a consumer can still make when `running_` is false. -/
def ConsumerPc.left (subscribes : Bool) : ConsumerPc → List SdkCall
  | .connect => .create :: (if subscribes then .subscribe :: ending true else [])
  | .assignClient => if subscribes then .subscribe :: ending true else []
  | .subscribe => .subscribe :: ending subscribes
  | .test => ending subscribes
  | .sleep => ending subscribes
  | .receive => .receive :: ending subscribes
  | .adding _ => ending subscribes
  | .cancel => [.cancel, .release]
  | .join => [.release]
  | _ => []

/-- A producer that is being stopped makes the call that it is about to make. -/
lemma ProducerStep.call {pc pc' : ProducerPc O} (st : ProducerStep κ m pc m' pc')
    (hr : m.running = false) : m'.running = false ∧ (pc.call ++ pc'.call).Sublist pc.call := by
  cases st with
  | goOn h => exact absurd (hr.symm.trans h) nofun
  | failed h => exact absurd (hr.symm.trans h) nofun
  | _ => exact ⟨hr, List.Sublist.refl _⟩

lemma ConsumerStep.left {reader reader' : ReaderPc} {pc pc' : ConsumerPc}
    (st : ConsumerStep κ m reader pc m' reader' pc') (hr : m.running = false) :
    m'.running = false ∧ (pc.call ++ pc'.left κ.subscribes).Sublist (pc.left κ.subscribes) := by
  cases st with
  | wait _ h => exact absurd (hr.symm.trans h) nofun
  | goOn _ h => exact absurd (hr.symm.trans h) nofun
  | refused => exact ⟨hr, List.singleton_sublist.mpr List.mem_cons_self⟩
  | notSubscribed => exact ⟨hr, List.singleton_sublist.mpr List.mem_cons_self⟩
  | toSubscribe hk => exact ⟨hr, by simp [ConsumerPc.call, ConsumerPc.left, hk]⟩
  | toPoll hk => exact ⟨hr, by simp [ConsumerPc.call, ConsumerPc.left, ending, hk]⟩
  | stop hk _ => exact ⟨hr, by simp [ConsumerPc.call, ConsumerPc.left, ending, hk]⟩
  | leave hk _ => exact ⟨hr, List.nil_sublist _⟩
  | _ => exact ⟨hr, List.Sublist.refl _⟩

lemma ReaderStep.running {pc pc' : ReaderPc} (st : ReaderStep κ m pc m' pc') :
    m'.running = m.running := by
  cases st
  all_goals rfl

/-- `Stop` has cleared `running_`. -/
structure Stopping (s : Worker O M) : Prop where
  running : s.mem.running = false
  owner : s.owner ≠ .fresh ∧ s.owner ≠ .starting

lemma Stopping.ownerStep (h : Stopping s) (st : OwnerStep κ s t) :
    Stopping t ∧ t.producer = s.producer ∧ t.consumer = s.consumer := by
  cases st with
  | startProducer ho _ => exact absurd ho h.owner.2
  | startConsumer ho _ => exact absurd ho h.owner.2
  | joinProducer _ _ => exact ⟨⟨h.running, nofun, nofun⟩, rfl, rfl⟩
  | joinConsumer _ _ => exact ⟨⟨h.running, nofun, nofun⟩, rfl, rfl⟩
  | closeProducer _ => exact ⟨⟨h.running, nofun, nofun⟩, rfl, rfl⟩
  | closeConsumer _ => exact ⟨⟨h.running, nofun, nofun⟩, rfl, rfl⟩

/-- Every step uses up the calls that it makes. -/
lemma Stopping.step {a : Action O M} (h : Stopping s) (st : Step κ s a t) :
    Stopping t ∧ (producerCalls s a ++ t.producer.call).Sublist s.producer.call ∧
      (consumerCalls s a ++ t.consumer.left κ.subscribes).Sublist
        (s.consumer.left κ.subscribes) := by
  cases st with
  | startConsumer ho _ => exact absurd ho h.owner.1
  | startProducer ho _ => exact absurd ho h.owner.1
  | beginStop _ => exact ⟨⟨rfl, nofun, nofun⟩, List.Sublist.refl _, List.Sublist.refl _⟩
  | owner st =>
    obtain ⟨hstopping, hp, hq⟩ := h.ownerStep st
    rw [hp, hq]
    exact ⟨hstopping, List.Sublist.refl _, List.Sublist.refl _⟩
  | producer st =>
    obtain ⟨hr, hcall⟩ := st.call h.running
    exact ⟨⟨hr, h.owner⟩, hcall, List.Sublist.refl _⟩
  | consumer st =>
    obtain ⟨hr, hleft⟩ := st.left h.running
    exact ⟨⟨hr, h.owner⟩, List.Sublist.refl _, hleft⟩
  | reader st =>
    exact ⟨⟨st.running.trans h.running, h.owner⟩, List.Sublist.refl _, List.Sublist.refl _⟩

/-- The calls of the producer in a continuation. -/
lemma Stopping.producerCalls (h : Stopping s) {as : List (Action O M)}
    {w : Lts.Recorded (Worker O M) SdkCall}
    (he : ((sys κ).recording producerCalls).exec ⟨s, []⟩ as = some w) : w.record.length ≤ 1 := by
  have hstep : ∀ (s : Worker O M) a t, Stopping s → (sys κ).next s a = some t →
      Stopping t ∧ (Burnin.PairWorker.producerCalls s a ++ t.producer.call).Sublist
        s.producer.call :=
    fun _ _ _ hs hn => ⟨(hs.step (Step.of_next hn)).1, (hs.step (Step.of_next hn)).2.1⟩
  obtain ⟨new, hrecord, hnew⟩ := Lts.Sys.recording_exec hstep h he
  have hone : s.producer.call.length ≤ 1 := by cases s.producer <;> simp [ProducerPc.call]
  have hle := (List.sublist_append_left _ _).trans hnew
  rw [hrecord, List.nil_append]
  exact Nat.le_trans hle.length_le hone

/-- The calls of the consumer in a continuation. -/
lemma Stopping.consumerCalls (h : Stopping s) {as : List (Action O M)}
    {w : Lts.Recorded (Worker O M) SdkCall}
    (he : ((sys κ).recording consumerCalls).exec ⟨s, []⟩ as = some w) :
    w.record.Sublist (s.consumer.left κ.subscribes) := by
  have hstep : ∀ (s : Worker O M) a t, Stopping s → (sys κ).next s a = some t →
      Stopping t ∧ (Burnin.PairWorker.consumerCalls s a ++ t.consumer.left κ.subscribes).Sublist
        (s.consumer.left κ.subscribes) :=
    fun _ _ _ hs hn => ⟨(hs.step (Step.of_next hn)).1, (hs.step (Step.of_next hn)).2.2⟩
  obtain ⟨new, hrecord, hnew⟩ := Lts.Sys.recording_exec hstep h he
  rw [hrecord, List.nil_append]
  exact (List.sublist_append_left _ _).trans hnew

/-- Only a consumer without a subscription polls, and only one with a subscription cancels it. -/
structure ConsumerPc.Suits (κ : WorkerKind O M) (pc : ConsumerPc) : Prop where
  polls : pc = .receive → κ.subscribes = false
  cancels : pc = .cancel → κ.subscribes = true

lemma ConsumerStep.suits {reader reader' : ReaderPc} {pc pc' : ConsumerPc}
    (st : ConsumerStep κ m reader pc m' reader' pc') : pc'.Suits κ := by
  cases st
  case goOn hk _ => exact ⟨fun _ => hk, nofun⟩
  case stop hk _ => exact ⟨nofun, fun _ => hk⟩
  all_goals exact ⟨nofun, nofun⟩

lemma suits_reachable (h : (sys κ).Reachable s) : s.consumer.Suits κ := by
  apply h.invariant (I := fun s => s.consumer.Suits κ)
  · rintro s rfl
    exact ⟨nofun, nofun⟩
  · intro s a t _ hs _ hn
    cases Step.of_next hn with
    | startConsumer _ _ => exact ⟨nofun, nofun⟩
    | startProducer _ _ => exact hs
    | beginStop _ => exact hs
    | owner st =>
      cases st with
      | startConsumer _ _ => exact ⟨nofun, nofun⟩
      | _ => exact hs
    | producer _ => exact hs
    | consumer st => exact st.suits
    | reader _ => exact hs

/-- The calls of a consumer with a subscription. -/
lemma ConsumerPc.left_sublist {pc : ConsumerPc} (h : pc.Suits κ) (hk : κ.subscribes = true) :
    (pc.left κ.subscribes).Sublist [.create, .subscribe, .cancel, .release] := by
  cases pc with
  | receive => exact absurd (hk.symm.trans (h.polls rfl)) nofun
  | _ => simp [left, ending, hk]

/-- The calls of a consumer that polls. -/
lemma ConsumerPc.length_left {pc : ConsumerPc} (h : pc.Suits κ) (hk : κ.subscribes = false) :
    (pc.left κ.subscribes).length ≤ 1 := by
  cases pc with
  | cancel => exact absurd (hk.symm.trans (h.cancels rfl)) nofun
  | _ => simp [left, ending, hk]

section Moves

/-- What a step of a producer takes: an answer to the call that it is in, or nothing. -/
def ProducerPc.Takes (pc : ProducerPc O) : Label O M → Prop
  | .done _ => pc = .connect
  | .answer _ => ∃ seq, pc = .send seq
  | .tau => pc.call = []
  | _ => False

/-- What a step of a consumer takes. -/
def ConsumerPc.Takes (pc : ConsumerPc) : Label O M → Prop
  | .done _ => pc = .connect ∨ pc = .subscribe
  | .message _ => pc = .receive
  | .tau => pc ≠ .connect ∧ pc ≠ .subscribe ∧ pc ≠ .receive
  | _ => False

/-- What a step of a reader takes that gets no further message: it goes on with its lambda, or exits
when it is in none. -/
def ReaderPc.Takes (pc : ReaderPc) : Label O M → Prop
  | .done _ => pc = .replying
  | .exit => pc = .idle
  | .tau => ∃ todo, pc = .adding todo
  | _ => False

/-- A producer that has not finished takes any answer to its call. -/
lemma ProducerPc.moves {pc : ProducerPc O} (h : pc.finished = false) (m : Mem O M) {l : Label O M}
    (hl : pc.Takes l) : (producerNext κ m pc l).isSome = true := by
  cases l with
  | done ok =>
    obtain rfl : pc = .connect := hl
    rfl
  | answer o =>
    obtain ⟨seq, rfl⟩ := hl
    rfl
  | tau =>
    cases pc with
    | unstarted => cases h
    | exited => cases h
    | connect => cases hl
    | send seq => cases hl
    | failed seq o => cases hr : m.running <;> simp [producerNext, hr]
    | adding seq todo => cases todo <;> rfl
    | _ => rfl
  | message x => exact hl.elim
  | exit => exact hl.elim

lemma ProducerPc.exists_takes [Nonempty O] (pc : ProducerPc O) : ∃ l : Label O M, pc.Takes l := by
  obtain ⟨o⟩ := ‹Nonempty O›
  cases pc with
  | connect => exact ⟨.done true, rfl⟩
  | send seq => exact ⟨.answer o, seq, rfl⟩
  | _ => exact ⟨.tau, rfl⟩

/-- So does a consumer, unless it waits for the reader of its subscription. -/
lemma ConsumerPc.moves {pc : ConsumerPc} (h : pc.finished = false) (m : Mem O M)
    (reader : ReaderPc) (hpoll : pc = .receive → κ.subscribes = false) :
    (∀ l, pc.Takes l → (consumerNext κ m reader pc l).isSome = true) ∨
      (pc = .join ∧ reader.alive = true) := by
  by_cases hjoin : pc = .join ∧ reader.alive = true
  · exact .inr hjoin
  · refine .inl fun l hl => ?_
    cases l with
    | done ok => rcases hl with rfl | rfl <;> rfl
    | message x =>
      obtain rfl : pc = .receive := hl
      have hk := hpoll rfl
      unfold WorkerKind.subscribes at hk
      cases hc : κ.consumer with
      | subscription lambda =>
        rw [hc] at hk
        cases hk
      | polling count => simp [consumerNext, hc]
    | tau =>
      obtain ⟨hconnect, hsubscribe, hreceive⟩ := hl
      cases pc with
      | unstarted => cases h
      | exited => cases h
      | connect => exact absurd rfl hconnect
      | subscribe => exact absurd rfl hsubscribe
      | receive => exact absurd rfl hreceive
      | adding todo => cases todo <;> rfl
      | join =>
        have ha : reader.alive = false := Bool.eq_false_iff.mpr fun ha => hjoin ⟨rfl, ha⟩
        simp [consumerNext, ha]
      | _ => rfl
    | answer o => exact hl.elim
    | exit => exact hl.elim

lemma ConsumerPc.exists_takes [Nonempty M] (pc : ConsumerPc) : ∃ l : Label O M, pc.Takes l := by
  obtain ⟨x⟩ := ‹Nonempty M›
  cases pc with
  | connect => exact ⟨.done true, .inl rfl⟩
  | subscribe => exact ⟨.done true, .inr rfl⟩
  | receive => exact ⟨.message x, rfl⟩
  | _ => exact ⟨.tau, nofun, nofun, nofun⟩

lemma ReaderPc.moves (pc : ReaderPc) (m : Mem O M) {l : Label O M} (hl : pc.Takes l) :
    (readerNext κ m pc l).isSome = true := by
  cases l with
  | done ok =>
    obtain rfl : pc = .replying := hl
    cases ok <;> rfl
  | exit =>
    obtain rfl : pc = .idle := hl
    rfl
  | tau =>
    obtain ⟨todo, rfl⟩ := hl
    cases todo <;> rfl
  | answer o => exact hl.elim
  | message x => exact hl.elim

lemma ReaderPc.exists_takes {pc : ReaderPc} (h : pc.alive = true) :
    ∃ l : Label O M, pc.Takes l := by
  cases pc with
  | absent => cases h
  | exited => cases h
  | idle => exact ⟨.exit, rfl⟩
  | adding todo => exact ⟨.tau, todo, rfl⟩
  | replying => exact ⟨.done true, rfl⟩

lemma isSome_producer {l : Label O M} (h : (producerNext κ s.mem s.producer l).isSome = true) :
    (next κ s (.producer l)).isSome = true := by
  simpa [next] using h

lemma isSome_consumer {l : Label O M}
    (h : (consumerNext κ s.mem s.reader s.consumer l).isSome = true) :
    (next κ s (.consumer l)).isSome = true := by
  simpa [next] using h

lemma isSome_reader {l : Label O M} (h : (readerNext κ s.mem s.reader l).isSome = true) :
    (next κ s (.reader l)).isSome = true := by
  simpa [next] using h

/-- `Stop` can step; or it waits for a thread, which can step on whatever its call is answered; or this
is a consumer that waits for the reader of its subscription, which can leave its lambda or exit. -/
inductive Progress (κ : WorkerKind O M) (s : Worker O M) : Prop where
  | owner :
    (next κ s .owner).isSome = true →
    Progress κ s
  | producer {l : Label O M} :
    s.owner = .joinProducer →
    s.producer.Takes l →
    (∀ l : Label O M, s.producer.Takes l → (next κ s (.producer l)).isSome = true) →
    Progress κ s
  | consumer {l : Label O M} :
    s.owner = .joinConsumer →
    s.consumer.Takes l →
    (∀ l : Label O M, s.consumer.Takes l → (next κ s (.consumer l)).isSome = true) →
    Progress κ s
  | reader {l : Label O M} :
    s.owner = .joinConsumer →
    s.consumer = .join →
    s.reader.Takes l →
    (∀ l : Label O M, s.reader.Takes l → (next κ s (.reader l)).isSome = true) →
    Progress κ s

lemma Stopping.progress [Nonempty O] [Nonempty M] (h : Stopping s) (hsuits : s.consumer.Suits κ)
    (ho : s.owner ≠ .idle) : Progress κ s := by
  have howner : (ownerNext κ s s.owner).isSome = true → Progress κ s := fun hs => .owner hs
  cases hw : s.owner
  case fresh => exact absurd hw h.owner.1
  case starting => exact absurd hw h.owner.2
  case idle => exact absurd hw ho
  case joinProducer =>
    cases hf : s.producer.finished with
    | true =>
      apply howner
      simp [hw, ownerNext, hf]
    | false =>
      obtain ⟨l, hl⟩ := s.producer.exists_takes (M := M)
      exact .producer hw hl fun l hl => isSome_producer (ProducerPc.moves hf s.mem hl)
  case joinConsumer =>
    cases hf : s.consumer.finished with
    | true =>
      apply howner
      simp [hw, ownerNext, hf]
    | false =>
      rcases ConsumerPc.moves hf s.mem s.reader hsuits.polls with hmoves | ⟨hjoin, ha⟩
      · obtain ⟨l, hl⟩ := s.consumer.exists_takes (O := O) (M := M)
        exact .consumer hw hl fun l hl => isSome_consumer (hmoves l hl)
      · obtain ⟨l, hl⟩ := ReaderPc.exists_takes (O := O) (M := M) ha
        exact .reader hw hjoin hl fun l hl => isSome_reader (s.reader.moves s.mem hl)
  case closeProducer =>
    apply howner
    rw [hw]
    rfl
  case closeConsumer =>
    apply howner
    rw [hw]
    rfl

end Moves

/-- Once `Stop` has cleared `running_`, however long the run goes on: the producer completes at most one
more call of the library; a consumer with a subscription at most creates its client, subscribes, cancels
and releases the subscription, in this order, and one that polls completes at most one call; and until
`Stop` has returned, it or whom it waits for can step, whatever the calls under way are answered. -/
theorem stop_calls_bounded [Nonempty O] [Nonempty M] (κ : WorkerKind O M) (s : Worker O M)
    (h : (sys κ).Reachable s) (hs : Stopping s) :
    (∀ as w, ((sys κ).recording producerCalls).exec ⟨s, []⟩ as = some w → w.record.length ≤ 1) ∧
      (∀ as w, ((sys κ).recording consumerCalls).exec ⟨s, []⟩ as = some w →
        (κ.subscribes = true → w.record.Sublist [.create, .subscribe, .cancel, .release]) ∧
          (κ.subscribes = false → w.record.length ≤ 1)) ∧
      (s.owner = .idle ∨ Progress κ s) := by
  have hsuits := suits_reachable h
  refine ⟨fun as w he => hs.producerCalls he, ?_, ?_⟩
  · intro as w he
    have hleft := hs.consumerCalls he
    exact ⟨fun hk => hleft.trans (ConsumerPc.left_sublist hsuits hk),
      fun hk => Nat.le_trans hleft.length_le (ConsumerPc.length_left hsuits hk)⟩
  · by_cases ho : s.owner = .idle
    · exact .inl ho
    · exact .inr (hs.progress hsuits ho)

/-- `Stop` begins while the consumer is connecting and the producer is about to send an event. -/
def stopWhileConnecting : List (Action Status EventReceive) :=
  [.beginStart, .owner, .producer (.done true), .producer .tau, .producer .tau, .beginStop]

/-- The rest of the consumer, which still subscribes. -/
def connectAndLeave : List (Action Status EventReceive) :=
  [.consumer (.done true), .consumer .tau, .consumer (.done true), .consumer .tau, .consumer .tau,
    .reader .exit, .consumer .tau]

theorem stop_calls_bounded_whileConnecting :
    ∃ s w, (sys events).exec construct stopWhileConnecting = some s ∧ Progress events s ∧
      ((sys events).recording consumerCalls).exec ⟨s, []⟩ connectAndLeave = some w ∧
      w.record.length = 4 ∧ w.record.Sublist [.create, .subscribe, .cancel, .release] := by
  obtain ⟨s, hs⟩ : ∃ s, (sys events).exec construct stopWhileConnecting = some s := ⟨_, rfl⟩
  have hstate : s.mem.running = false ∧ s.owner = .joinProducer ∧
      ∃ w, ((sys events).recording consumerCalls).exec ⟨s, []⟩ connectAndLeave = some w ∧
        w.record.length = 4 := by
    cases hs
    exact ⟨rfl, rfl, _, rfl, rfl⟩
  obtain ⟨hr, ho, w, hw, hfour⟩ := hstate
  have hreach : (sys events).Reachable s := Lts.Sys.Reachable.exec (.init rfl) _ hs
  have : Nonempty Status := ⟨.okStatus⟩
  have : Nonempty EventReceive := ⟨oneByte⟩
  have hstopping : Stopping s := ⟨hr, by rw [ho]; nofun, by rw [ho]; nofun⟩
  obtain ⟨-, hconsumer, hprogress⟩ := stop_calls_bounded events s hreach hstopping
  refine ⟨s, w, hs, ?_, hw, hfour, (hconsumer _ w hw).1 rfl⟩
  exact hprogress.resolve_left (by rw [ho]; nofun)

end KubeMQ.Burnin.PairWorker
