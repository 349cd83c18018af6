import KubeMQ.Burnin.PairWorkerStop

/-!
# The counts of a worker that makes requests

The messages of a producer are numbered from one on without a gap, and each has one outcome: it
succeeds, its failure is counted, or its failure is met while `Stop` waits for the producer, which
happens to the last one only (`Numbered`). For `commands` and `queries` the counters therefore account
for the requests that were made, and agree with one another (`rpc_counts`). The states that the worker
has left are on record, so that the moment at which a failure is passed over can be named.
-/

namespace KubeMQ.Burnin.PairWorker

variable {O M : Type} {κ : WorkerKind O M} {m m' : Mem O M} {s t : Worker O M}

/-- The number of a message, where it is answered. -/
def Event.number : Event O M → Option ℕ
  | .answered seq _ => some seq
  | _ => none

/-- The numbers of the messages that were answered, in order. -/
def numbers (log : List (Event O M)) : List ℕ := log.filterMap Event.number

/-- The entry is an answer that counts as a success. -/
def Event.success (κ : WorkerKind O M) : Event O M → Bool
  | .answered _ o => κ.succeeded o
  | _ => false

/-- The entry is a failure that is counted. -/
def Event.failure : Event O M → Bool
  | .failed _ => true
  | _ => false

/-- The message that has failed, with its answer. -/
def Event.failedAnswer (κ : WorkerKind O M) : Event O M → Option (ℕ × O)
  | .answered seq o => if κ.succeeded o then none else some (seq, o)
  | _ => none

/-- The failure that is counted. -/
def Event.counted : Event O M → Option O
  | .failed o => some o
  | _ => none

/-- The entry is no outcome of a message. -/
def Event.other : Event O M → Bool
  | .answered _ _ => false
  | .failed _ => false
  | _ => true

/-- The messages that have failed. -/
def failedAnswers (κ : WorkerKind O M) (log : List (Event O M)) : List (ℕ × O) :=
  log.filterMap (Event.failedAnswer κ)

/-- The failures that are counted. -/
def countedFailures (log : List (Event O M)) : List O := log.filterMap Event.counted

/-- Where the producer stands when `n` messages have been answered. -/
def ProducerPc.Stands (κ : WorkerKind O M) (n : ℕ) : ProducerPc O → Prop
  | .test seq => seq = n
  | .send seq => seq = n + 1
  | .failed seq o => seq = n ∧ κ.succeeded o = false
  | .adding seq _ => seq = n
  | .exited => True
  | _ => n = 0

/-- A failure that has not been looked at yet. -/
def ProducerPc.pending : ProducerPc O → List (ℕ × O)
  | .failed seq o => [(seq, o)]
  | _ => []

/-- The producer is about to find that the worker is being stopped, or has found it. -/
def ProducerPc.leaving : ProducerPc O → Bool
  | .test _ => true
  | .exited => true
  | _ => false

/-- The producer came to the failure when `running_` was false and `Stop` was waiting for it. -/
def PassedOver (past : List (Worker O M)) (seq : ℕ) (o : O) : Prop :=
  ∃ u ∈ past, u.mem.running = false ∧ u.owner = .joinProducer ∧ u.producer = .failed seq o

/-- `n` messages have been answered, and those in `late` failed without being counted. -/
structure Numbered (κ : WorkerKind O M) (past : List (Worker O M)) (s : Worker O M) (n : ℕ)
    (late : List (ℕ × O)) : Prop where
  numbers : numbers s.mem.log = List.range' 1 n
  stands : s.producer.Stands κ n
  matched : ∃ before, failedAnswers κ s.mem.log = before ++ (s.producer.pending ++ late) ∧
    before.map Prod.snd = countedFailures s.mem.log
  late : late = [] ∨ s.mem.running = false ∧ s.producer.leaving = true ∧
    ∃ o, late = [(n, o)] ∧ PassedOver past n o

/-- A step that has nothing to do with the messages of the producer. -/
structure Aside (m m' : Mem O M) : Prop where
  running : m'.running = m.running
  log : ∃ new, m'.log = m.log ++ new ∧ ∀ e ∈ new, e.other = true

section Numbered

variable {past : List (Worker O M)} {n : ℕ} {late : List (ℕ × O)} {log new : List (Event O M)}

lemma numbers_append : numbers (log ++ new) = numbers log ++ numbers new :=
  List.filterMap_append

lemma failedAnswers_append :
    failedAnswers κ (log ++ new) = failedAnswers κ log ++ failedAnswers κ new :=
  List.filterMap_append

lemma countedFailures_append :
    countedFailures (log ++ new) = countedFailures log ++ countedFailures new :=
  List.filterMap_append

/-- A message that was answered has succeeded or has failed. -/
lemma length_numbers (κ : WorkerKind O M) (log : List (Event O M)) :
    (numbers log).length = log.countP (Event.success κ) + (failedAnswers κ log).length := by
  induction log with
  | nil => rfl
  | cons e log ih =>
    unfold numbers failedAnswers at ih ⊢
    rw [List.filterMap_cons, List.filterMap_cons, List.countP_cons]
    cases e with
    | answered seq o =>
      cases hs : κ.succeeded o
      all_goals
        simp [Event.number, Event.success, Event.failedAnswer, hs, ih]
        omega
    | _ => simp [Event.number, Event.success, Event.failedAnswer, ih]

lemma length_countedFailures (log : List (Event O M)) :
    (countedFailures log).length = log.countP Event.failure := by
  induction log with
  | nil => rfl
  | cons e log ih =>
    unfold countedFailures at ih ⊢
    rw [List.filterMap_cons, List.countP_cons]
    cases e <;> simp [Event.counted, Event.failure, ih]

lemma mem_failedAnswers {seq : ℕ} {o : O} (h : (seq, o) ∈ failedAnswers κ log) :
    κ.succeeded o = false := by
  obtain ⟨e, -, he⟩ := List.mem_filterMap.mp h
  cases e with
  | answered seq' o' =>
    simp only [Event.failedAnswer] at he
    split at he
    · cases he
    · next hs =>
      cases he
      simpa using hs
  | _ => cases he

/-- Entries that are no outcomes change nothing. -/
lemma of_other (κ : WorkerKind O M) (h : ∀ e ∈ new, e.other = true) :
    numbers new = [] ∧ failedAnswers κ new = [] ∧ countedFailures new = [] := by
  have hall : ∀ e ∈ new, e.number = none ∧ e.failedAnswer κ = none ∧ e.counted = none := by
    intro e he
    have hother := h e he
    cases e
    case answered => cases hother
    case failed => cases hother
    all_goals exact ⟨rfl, rfl, rfl⟩
  exact ⟨List.filterMap_eq_nil_iff.mpr fun e he => (hall e he).1,
    List.filterMap_eq_nil_iff.mpr fun e he => (hall e he).2.1,
    List.filterMap_eq_nil_iff.mpr fun e he => (hall e he).2.2⟩

lemma Aside.still (hr : m'.running = m.running) (hl : m'.log = m.log) : Aside m m' :=
  ⟨hr, [], by rw [hl, List.append_nil], fun _ he => absurd he List.not_mem_nil⟩

lemma ConsumerStep.aside {reader reader' : ReaderPc} {pc pc' : ConsumerPc}
    (st : ConsumerStep κ m reader pc m' reader' pc') : Aside m m' := by
  cases st with
  | connectFailed => exact ⟨rfl, [.errored], rfl, by simp [Event.other]⟩
  | subscribeFailed => exact ⟨rfl, [.errored], rfl, by simp [Event.other]⟩
  | subscribed => exact ⟨rfl, [_], rfl, by simp [Event.other]⟩
  | notSubscribed => exact ⟨rfl, [_], rfl, by simp [Event.other]⟩
  | @receive x _ _ =>
    refine ⟨rfl, [.used .consumer m.consumerClient, .delivered x], ?_, by simp [Event.other]⟩
    simp [Mem.observe]
  | _ => exact .still rfl rfl

lemma ReaderStep.aside {pc pc' : ReaderPc} (st : ReaderStep κ m pc m' pc') : Aside m m' := by
  cases st with
  | count => exact ⟨rfl, [_], rfl, by simp [Event.other]⟩
  | reply => exact ⟨rfl, [_], rfl, by simp [Event.other]⟩
  | error => exact ⟨rfl, [_], rfl, by simp [Event.other]⟩
  | replied => exact ⟨rfl, [_], rfl, by simp [Event.other]⟩
  | notReplied =>
    refine ⟨rfl, [.used .consumer m.consumerClient, .errored], ?_, by simp [Event.other]⟩
    simp [Mem.observe]
  | _ => exact .still rfl rfl

/-- More is on record. -/
lemma Numbered.mono (num : Numbered κ past s n late) (u : Worker O M) :
    Numbered κ (past ++ [u]) s n late where
  numbers := num.numbers
  stands := num.stands
  matched := num.matched
  late := by
    rcases num.late with h | ⟨hr, hl, o, ho, w, hw, hpassed⟩
    · exact .inl h
    · exact .inr ⟨hr, hl, o, ho, w, List.mem_append_left _ hw, hpassed⟩

/-- The history grows by no outcome, and the producer stands as far as before. -/
lemma Numbered.quiet (num : Numbered κ past s n late) (new : List (Event O M))
    (hlog : t.mem.log = s.mem.log ++ new)
    (hnew : ∀ e ∈ new, e.other = true) (hstands : t.producer.Stands κ n)
    (hpending : t.producer.pending = s.producer.pending)
    (hlate : late = [] ∨ t.mem.running = false ∧ t.producer.leaving = true) :
    Numbered κ past t n late := by
  obtain ⟨hnumbers, hanswers, hcounted⟩ := of_other κ hnew
  constructor
  case numbers => rw [hlog, numbers_append, hnumbers, List.append_nil, num.numbers]
  case stands => exact hstands
  case matched =>
    rw [hlog, failedAnswers_append, countedFailures_append, hanswers, hcounted, List.append_nil,
      List.append_nil, hpending]
    exact num.matched
  case late =>
    rcases num.late with h | ⟨-, -, h⟩
    · exact .inl h
    · exact hlate.imp_right fun hl => ⟨hl.1, hl.2, h⟩

/-- The history stays as it is, and the producer stands as far as before. -/
lemma Numbered.still (num : Numbered κ past s n late) (hlog : t.mem.log = s.mem.log)
    (hstands : t.producer.Stands κ n) (hpending : t.producer.pending = s.producer.pending)
    (hlate : late = [] ∨ t.mem.running = false ∧ t.producer.leaving = true) :
    Numbered κ past t n late :=
  num.quiet [] (by rw [hlog, List.append_nil]) (fun _ he => absurd he List.not_mem_nil) hstands
    hpending hlate

/-- Where the producer is not leaving no failure has been passed over. -/
lemma Numbered.none (num : Numbered κ past s n late) (h : s.producer.leaving = false) :
    late = [] := by
  rcases num.late with hl | ⟨-, hl, -⟩
  · exact hl
  · rw [h] at hl
    cases hl

/-- After a failure was passed over the producer only leaves. -/
lemma Numbered.left (num : Numbered κ past s n late) :
    late = [] ∨ s.mem.running = false ∧ s.producer.leaving = true :=
  num.late.imp_right fun h => ⟨h.1, h.2.1⟩

/-- A step of another thread. -/
lemma Numbered.aside (num : Numbered κ past s n late) (ha : Aside s.mem m') (hm : t.mem = m')
    (hp : t.producer = s.producer) : Numbered κ past t n late := by
  obtain ⟨hrunning, new, hlog, hnew⟩ := ha
  subst hm
  refine num.quiet new hlog hnew ?_ ?_ ?_
  · rw [hp]
    exact num.stands
  · rw [hp]
  · rw [hp, hrunning]
    exact num.left

/-- An answer is that of the next message. -/
lemma Numbered.answer (num : Numbered κ past s n []) (o : O) (side : Side) (live : Bool)
    (hpending : s.producer.pending = [])
    (hlog : t.mem.log = s.mem.log ++ [.used side live, .answered (n + 1) o])
    (hstands : t.producer.Stands κ (n + 1))
    (ht : t.producer.pending = if κ.succeeded o then [] else [(n + 1, o)]) :
    Numbered κ past t (n + 1) [] := by
  constructor
  case numbers =>
    rw [hlog, numbers_append, num.numbers, List.range'_1_concat, Nat.add_comm n 1]
    rfl
  case stands => exact hstands
  case matched =>
    obtain ⟨before, hanswers, hcounted⟩ := num.matched
    refine ⟨before, ?_, ?_⟩
    · have hnew : failedAnswers κ [.used side live, .answered (n + 1) o] = t.producer.pending := by
        rw [ht]
        cases hs : κ.succeeded o <;> simp [failedAnswers, List.filterMap_cons, Event.failedAnswer, hs]
      rw [hlog, failedAnswers_append, hanswers, hnew, hpending, List.append_nil, List.append_nil,
        List.append_nil]
    · rw [hcounted, hlog, countedFailures_append]
      exact (List.append_nil _).symm
  case late => exact .inl rfl

/-- A step of the producer. -/
lemma Numbered.producerStep (num : Numbered κ past s n late)
    (hstop : s.mem.running = false → s.producer.finished = false → s.owner = .joinProducer)
    {pc' : ProducerPc O} (st : ProducerStep κ s.mem s.producer m' pc') :
    ∃ n' late', Numbered κ (past ++ [s]) { s with mem := m', producer := pc' } n' late' := by
  have hstands := num.stands
  have hlate := num.left
  have hmatched := num.matched
  have hnone := num.none
  have num := num.mono s
  generalize hpc : s.producer = pc at st hstands hlate hmatched hnone hstop
  have hpend : ∀ {q : ProducerPc O}, q.pending = pc.pending → q.pending = s.producer.pending := by
    intro q hq
    rw [hpc, hq]
  cases st with
  | connectFailed =>
    exact ⟨n, late, num.quiet [.errored] rfl (by simp [Event.other]) trivial (hpend rfl)
      (.inl (hnone rfl))⟩
  | connected => exact ⟨n, late, num.still rfl hstands (hpend rfl) (.inl (hnone rfl))⟩
  | refused => exact ⟨n, late, num.still rfl hstands (hpend rfl) (.inl (hnone rfl))⟩
  | assignClient => exact ⟨n, late, num.still rfl (Eq.symm hstands) (hpend rfl) (.inl (hnone rfl))⟩
  | goOn hr =>
    refine ⟨n, late, num.still rfl (congrArg (· + 1) hstands) (hpend rfl) ?_⟩
    rcases hlate with h | ⟨hf, -⟩
    · exact .inl h
    · rw [hr] at hf
      cases hf
  | stop hr =>
    refine ⟨n, late, num.still rfl trivial (hpend rfl) ?_⟩
    exact hlate.imp_right fun _ => ⟨hr, rfl⟩
  | @sent seq o hs =>
    obtain rfl : seq = n + 1 := hstands
    obtain rfl := hnone rfl
    refine ⟨n + 1, [], num.answer o .producer s.mem.producerClient ?_ ?_ rfl ?_⟩
    · rw [hpc]
      rfl
    · simp [Mem.observe]
    · rw [hs]
      rfl
  | @notSent seq o hs =>
    obtain rfl : seq = n + 1 := hstands
    obtain rfl := hnone rfl
    refine ⟨n + 1, [], num.answer o .producer s.mem.producerClient ?_ ?_ ⟨rfl, hs⟩ ?_⟩
    · rw [hpc]
      rfl
    · simp [Mem.observe]
    · rw [hs]
      rfl
  | @failed seq o _ =>
    obtain rfl := hnone rfl
    have hlog : (s.mem.observe (.failed o)).log = s.mem.log ++ [.failed o] := rfl
    refine ⟨n, [], ?_, hstands.1, ?_, .inl rfl⟩
    · show PairWorker.numbers (s.mem.observe (.failed o)).log = _
      rw [hlog, numbers_append, num.numbers]
      exact List.append_nil _
    · -- the failure that was pending is the next one that is counted
      obtain ⟨before, hanswers, hcounted⟩ := hmatched
      refine ⟨before ++ [(seq, o)], ?_, ?_⟩
      · show failedAnswers κ (s.mem.observe (.failed o)).log = _
        rw [hlog, failedAnswers_append, hanswers]
        simp [failedAnswers, Event.failedAnswer, ProducerPc.pending]
      · show _ = countedFailures (s.mem.observe (.failed o)).log
        rw [hlog, countedFailures_append, ← hcounted, List.map_append]
        rfl
  | @ignored seq o hr =>
    obtain rfl := hnone rfl
    obtain ⟨rfl, -⟩ := hstands
    refine ⟨seq, [(seq, o)], num.numbers, rfl, hmatched, .inr ⟨hr, rfl, o, rfl, ?_⟩⟩
    exact ⟨s, List.mem_append_right _ List.mem_cons_self, hr, hstop hr rfl, hpc⟩
  | add => exact ⟨n, late, num.still rfl hstands (hpend rfl) (.inl (hnone rfl))⟩
  | added => exact ⟨n, late, num.still rfl hstands (hpend rfl) (.inl (hnone rfl))⟩

/-- A producer that has not been started has sent nothing. -/
lemma Numbered.unstarted (num : Numbered κ past s n late) (h : s.producer = .unstarted) :
    n = 0 ∧ s.producer.pending = [] ∧ late = [] := by
  have hstands := num.stands
  have hlate := num.none
  rw [h] at hstands hlate
  refine ⟨hstands, ?_, hlate rfl⟩
  rw [h]
  rfl

/-- A step of `Start` or `Stop` starts the producer, or leaves it where it stands. -/
lemma Numbered.ownerStep (num : Numbered κ past s n late) (inv : Inv κ s) (st : OwnerStep κ s t) :
    Numbered κ past t n late := by
  cases st with
  | startProducer ho hf =>
    have hplaced := inv.placed
    rw [ho] at hplaced
    simp only [OwnerPc.Placed, hf, if_true] at hplaced
    obtain ⟨hn, hpending, hlate⟩ := num.unstarted hplaced
    exact num.still rfl hn hpending.symm (.inl hlate)
  | startConsumer _ _ => exact num.still rfl num.stands rfl num.left
  | joinProducer _ _ => exact num.still rfl num.stands rfl num.left
  | joinConsumer _ _ => exact num.still rfl num.stands rfl num.left
  | closeProducer _ => exact num.still rfl num.stands rfl num.left
  | closeConsumer _ =>
    exact num.quiet [.stopReturned s.mem.counters] rfl (by simp [Event.other]) num.stands rfl num.left

/-- `Start` sets `running_` before there is a producer, and only `Stop` clears it. -/
structure Cleared (s : Worker O M) : Prop where
  starting : s.owner = .starting → s.mem.running = true
  waits : s.mem.running = false → s.producer.finished = false → s.owner = .joinProducer

lemma Cleared.step (c : Cleared s) (inv : Inv κ s) {a : Action O M} (st : Step κ s a t) :
    Cleared t := by
  cases st with
  | startConsumer _ _ => exact ⟨fun _ => rfl, nofun⟩
  | startProducer _ _ => exact ⟨fun _ => rfl, nofun⟩
  | beginStop _ => exact ⟨nofun, fun _ _ => rfl⟩
  | owner st =>
    have hplaced := inv.placed
    cases st with
    | startProducer ho _ => exact ⟨nofun, fun hr => absurd ((c.starting ho).symm.trans hr) nofun⟩
    | startConsumer ho _ => exact ⟨nofun, fun hr => absurd ((c.starting ho).symm.trans hr) nofun⟩
    | joinProducer ho hj =>
      refine ⟨nofun, fun _ hf => ?_⟩
      exact absurd (hf.symm.trans (hj (inv.producerThread hf))) nofun
    | joinConsumer ho _ =>
      rw [ho] at hplaced
      exact ⟨nofun, fun _ hf => absurd (hf.symm.trans hplaced) nofun⟩
    | closeProducer ho =>
      rw [ho] at hplaced
      exact ⟨nofun, fun _ hf => absurd (hf.symm.trans hplaced.1) nofun⟩
    | closeConsumer ho =>
      rw [ho] at hplaced
      exact ⟨nofun, fun _ hf => absurd (hf.symm.trans hplaced.1) nofun⟩
  | producer st =>
    have heffect := st.effect inv.producerClient
    refine ⟨fun ho => heffect.running.trans (c.starting ho), fun hr _ => ?_⟩
    exact c.waits (heffect.running.symm.trans hr) (st.client inv.producerClient).1
  | consumer st =>
    have hrunning := st.aside.running
    exact ⟨fun ho => hrunning.trans (c.starting ho), fun hr => c.waits (hrunning.symm.trans hr)⟩
  | reader st =>
    have hrunning := st.aside.running
    exact ⟨fun ho => hrunning.trans (c.starting ho), fun hr => c.waits (hrunning.symm.trans hr)⟩

lemma cleared_reachable (h : (sys κ).Reachable s) : Cleared s := by
  apply h.invariant (I := Cleared)
  · rintro s rfl
    exact ⟨nofun, nofun⟩
  · intro s a t hr c _ hn
    exact c.step (inv_reachable hr) (.of_next hn)

lemma Numbered.step (num : Numbered κ past s n late) (inv : Inv κ s) (c : Cleared s)
    {a : Action O M} (st : Step κ s a t) :
    ∃ n' late', Numbered κ (past ++ [s]) t n' late' := by
  have hfresh : s.owner = .fresh → s.producer = .unstarted := by
    intro ho
    have hplaced := inv.placed
    rw [ho] at hplaced
    exact hplaced.1
  have num' := num.mono s
  cases st with
  | startConsumer ho _ =>
    obtain ⟨-, -, hlate⟩ := num.unstarted (hfresh ho)
    exact ⟨n, late, num'.still rfl num.stands rfl (.inl hlate)⟩
  | startProducer ho _ =>
    obtain ⟨hn, hpending, hlate⟩ := num.unstarted (hfresh ho)
    exact ⟨n, late, num'.still rfl hn hpending.symm (.inl hlate)⟩
  | beginStop _ =>
    refine ⟨n, late, num'.still rfl num.stands rfl ?_⟩
    exact num.left.imp_right fun h => ⟨rfl, h.2⟩
  | owner st => exact ⟨n, late, num'.ownerStep inv st⟩
  | producer st => exact num.producerStep c.waits st
  | consumer st => exact ⟨n, late, num'.aside st.aside rfl rfl⟩
  | reader st => exact ⟨n, late, num'.aside st.aside rfl rfl⟩

/-- The system with every state that the worker has left on record. -/
def recorded (κ : WorkerKind O M) : Lts.Sys (Lts.Recorded (Worker O M) (Worker O M)) (Action O M) :=
  (sys κ).recording fun s _ => [s]

lemma numbered_reachable {v : Lts.Recorded (Worker O M) (Worker O M)}
    (h : (recorded κ).Reachable v) : ∃ n late, Numbered κ v.record v.state n late := by
  apply h.invariant (I := fun v => ∃ n late, Numbered κ v.record v.state n late)
  · rintro ⟨s, record⟩ ⟨rfl, rfl⟩
    exact ⟨0, [], rfl, rfl, ⟨[], rfl, rfl⟩, .inl rfl⟩
  · rintro v a w hr ⟨n, late, num⟩ _ hn
    have hreach : (sys κ).Reachable v.state := Lts.Sys.Reachable.of_recording hr
    obtain ⟨t, ht, rfl⟩ := Lts.Sys.recording_next.mp hn
    exact num.step (inv_reachable hreach) (cleared_reachable hreach) (.of_next ht)

end Numbered

section Requests

variable {R : Type} {γ : WorkerKind (StatusOr R) M} {log : List (Event (StatusOr R) M)}

/-- A worker that makes requests: what it credits, what it debits, and that the messages of its
responder count nothing. -/
structure WorkerKind.Requests (γ : WorkerKind (StatusOr R) M) : Prop where
  succeeded : ∀ o, γ.succeeded o = o.ok
  sent : ∀ r n, (γ.credit (.value r) n).to .sent = 1
  rpcSuccess : ∀ r n, (γ.credit (.value r) n).to .rpcSuccess = 1
  received : ∀ r n, (γ.credit (.value r) n).to .received ≤ 1
  credit : ∀ r n c, c ∈ [.errors, .rpcTimeout, .rpcError] → (γ.credit (.value r) n).to c = 0
  debit : ∀ e, γ.debit (.error e) = rpcDebit e
  delivered : ∀ x, γ.owes (.delivered x) = []

lemma requests_commands (p : String) : (commands p).Requests where
  succeeded := fun _ => rfl
  sent := by
    intro r n
    cases hr : r.executed <;> simp [commands, hr]
  rpcSuccess := by
    intro r n
    cases hr : r.executed <;> simp [commands, hr]
  received := by
    intro r n
    cases hr : r.executed <;> simp [commands, hr]
  credit := by
    intro r n c hc
    simp only [List.mem_cons, List.not_mem_nil, or_false] at hc
    rcases hc with rfl | rfl | rfl
    all_goals cases hr : r.executed <;> simp [commands, hr]
  debit := fun _ => rfl
  delivered := by
    intro x
    simp only [WorkerKind.owes, commands]
    cases CommandReplyBuilder.build _ <;> rfl

lemma requests_queries (p : String) : (queries p).Requests where
  succeeded := fun _ => rfl
  sent := by
    intro r n
    cases hr : r.executed <;> simp [queries, received, hr]
  rpcSuccess := by
    intro r n
    cases hr : r.executed <;> simp [queries, received, hr]
  received := by
    intro r n
    cases hr : r.executed <;> simp [queries, received, hr]
  credit := by
    intro r n c hc
    simp only [List.mem_cons, List.not_mem_nil, or_false] at hc
    rcases hc with rfl | rfl | rfl
    all_goals cases hr : r.executed <;> simp [queries, received, hr]
  debit := fun _ => rfl
  delivered := by
    intro x
    simp only [WorkerKind.owes, queries]
    cases QueryReplyBuilder.build _ <;> rfl

/-- What one entry of the history owes to the counters of requests. -/
structure Owes (γ : WorkerKind (StatusOr R) M) (e : Event (StatusOr R) M) : Prop where
  sent : (γ.owes e).to .sent = if e.success γ then 1 else 0
  rpcSuccess : (γ.owes e).to .rpcSuccess = if e.success γ then 1 else 0
  received : (γ.owes e).to .received ≤ if e.success γ then 1 else 0
  rpcFailed : (γ.owes e).to .rpcTimeout + (γ.owes e).to .rpcError = if e.failure then 1 else 0
  errors : (if e.failure then 1 else 0) ≤ (γ.owes e).to .errors

lemma WorkerKind.Requests.owes (req : γ.Requests) (e : Event (StatusOr R) M)
    (hf : ∀ o, e = .failed o → γ.succeeded o = false) : Owes γ e := by
  cases e with
  | used side live => exact ⟨rfl, rfl, Nat.le_refl _, rfl, Nat.le_refl _⟩
  | stopReturned x => exact ⟨rfl, rfl, Nat.le_refl _, rfl, Nat.le_refl _⟩
  | errored => constructor <;> simp [WorkerKind.owes, Event.success, Event.failure]
  | delivered x =>
    have h := req.delivered x
    constructor <;> simp [h, Event.success, Event.failure]
  | failed o =>
    cases o with
    | value r =>
      have h := hf _ rfl
      rw [req.succeeded] at h
      cases h
    | error st =>
      have h : γ.owes (.failed (.error st)) = rpcDebit st := req.debit st
      by_cases ht : st.code = .kTimeout <;>
        constructor <;> simp [h, rpcDebit, ht, Event.success, Event.failure]
  | answered seq o =>
    cases o with
    | value r =>
      have hs : γ.succeeded (.value r) = true := req.succeeded _
      have h : γ.owes (.answered seq (.value r)) = γ.credit (.value r) (γ.body seq).utf8ByteSize := by
        simp [WorkerKind.owes, hs]
      constructor
      · simp [h, Event.success, hs, req.sent]
      · simp [h, Event.success, hs, req.rpcSuccess]
      · simpa [h, Event.success, hs] using req.received r _
      · simp [h, Event.failure, req.credit]
      · simp [h, Event.failure]
    | error st =>
      have hs : γ.succeeded (.error st) = false := req.succeeded _
      have h : γ.owes (.answered seq (.error st)) = [] := by
        simp [WorkerKind.owes, hs]
      constructor <;> simp [h, Event.success, Event.failure, hs]

/-- What the entries of a history owe, added up. -/
lemma WorkerKind.Requests.owed (req : γ.Requests)
    (hf : ∀ o, .failed o ∈ log → γ.succeeded o = false) :
    γ.owed log .sent = log.countP (Event.success γ) ∧
      γ.owed log .rpcSuccess = log.countP (Event.success γ) ∧
      γ.owed log .received ≤ log.countP (Event.success γ) ∧
      γ.owed log .rpcTimeout + γ.owed log .rpcError = log.countP Event.failure ∧
      log.countP Event.failure ≤ γ.owed log .errors := by
  induction log with
  | nil => exact ⟨rfl, rfl, Nat.le_refl _, rfl, Nat.le_refl _⟩
  | cons e log ih =>
    obtain ⟨hsent, hsuccess, hreceived, hfailed, herrors⟩ :=
      ih fun o ho => hf o (List.mem_cons_of_mem e ho)
    have he := req.owes e fun o ho => hf o (ho ▸ List.mem_cons_self)
    have hcons : ∀ c, γ.owed (e :: log) c = (γ.owes e).to c + γ.owed log c := fun _ => rfl
    simp only [hcons, List.countP_cons]
    refine ⟨?_, ?_, ?_, ?_, ?_⟩
    · rw [he.sent, hsent, Nat.add_comm]
    · rw [he.rpcSuccess, hsuccess, Nat.add_comm]
    · have := he.received
      omega
    · have := he.rpcFailed
      omega
    · have := he.errors
      omega

/-- The requests of a history and the counters that `Stop` returns with: the requests are numbered from
one on, each is counted once as a success or as one kind of failure, but for at most the last one, whose
failure was met while `Stop` waited for the sender; and no response is counted that was not sent for. -/
def Accounts (γ : WorkerKind (StatusOr R) M)
    (v : Lts.Recorded (Worker (StatusOr R) M) (Worker (StatusOr R) M)) : Prop :=
  ∀ before x after, v.state.mem.log = before ++ .stopReturned x :: after →
    ∃ counted late n, numbers before = List.range' 1 n ∧
      n = x .sent + x .rpcTimeout + x .rpcError + late.length ∧
      failedAnswers γ before = counted ++ late ∧ counted.map Prod.snd = countedFailures before ∧
      (late = [] ∨ ∃ o, late = [(n, o)] ∧ PassedOver v.record n o) ∧
      x .sent = before.countP (Event.success γ) ∧
      x .rpcTimeout + x .rpcError = (countedFailures before).length ∧
      x .rpcSuccess = x .sent ∧ x .received ≤ x .sent ∧ x .rpcTimeout + x .rpcError ≤ x .errors

lemma WorkerKind.Requests.accounts (req : γ.Requests)
    {v : Lts.Recorded (Worker (StatusOr R) M) (Worker (StatusOr R) M)}
    (h : (recorded γ).Reachable v) : Accounts γ v := by
  intro before x after hlog
  have inv := inv_reachable (Lts.Sys.Reachable.of_recording h)
  obtain ⟨n, late, num⟩ := numbered_reachable h
  obtain ⟨hx, hafter, -⟩ := inv.past before x after hlog
  have hmem : .stopReturned x ∈ v.state.mem.log := by
    rw [hlog]
    exact List.mem_append_right _ List.mem_cons_self
  have hp := (inv.stopped x hmem).1
  have hpending : v.state.producer.pending = [] := by
    cases hs : v.state.producer
    case failed =>
      rw [hs] at hp
      cases hp
    all_goals rfl
  have hother : ∀ e ∈ .stopReturned x :: after, e.other = true := by
    intro e he
    rcases List.mem_cons.mp he with rfl | he
    · rfl
    · rw [hafter e he]
      rfl
  obtain ⟨hnumbers, hanswers, hcounted⟩ := of_other γ hother
  obtain ⟨counted, hfailed, hmatch⟩ := num.matched
  have hnum := num.numbers
  rw [hlog, numbers_append, hnumbers, List.append_nil] at hnum
  rw [hlog, failedAnswers_append, hanswers, List.append_nil, hpending, List.nil_append] at hfailed
  rw [hlog, countedFailures_append, hcounted, List.append_nil] at hmatch
  have hdebit : ∀ o, .failed o ∈ before → γ.succeeded o = false := by
    intro o ho
    have hcount : o ∈ countedFailures before := List.mem_filterMap.mpr ⟨_, ho, rfl⟩
    rw [← hmatch] at hcount
    obtain ⟨⟨seq, o'⟩, hq, rfl⟩ := List.mem_map.mp hcount
    exact mem_failedAnswers (hfailed ▸ List.mem_append_left _ hq)
  obtain ⟨h1, h2, h3, h4, h5⟩ := req.owed hdebit
  have hlength := length_numbers γ before
  have hcounts := length_countedFailures before
  rw [hnum, hfailed, List.length_range', List.length_append] at hlength
  have hsame := congrArg List.length hmatch
  rw [List.length_map] at hsame
  subst hx
  refine ⟨counted, late, n, hnum, ?_, hfailed, hmatch, ?_, h1, ?_, ?_, ?_, ?_⟩
  · omega
  · exact num.late.imp_right fun h => h.2.2
  · omega
  · omega
  · omega
  · omega

end Requests

/-- Whenever `Stop` of a worker of commands or of queries returns, its counters account for the
requests it made. -/
theorem rpc_counts (p : String) :
    (∀ v, (recorded (commands p)).Reachable v → Accounts (commands p) v) ∧
      ∀ v, (recorded (queries p)).Reachable v → Accounts (queries p) v :=
  ⟨fun _ h => (requests_commands p).accounts h, fun _ h => (requests_queries p).accounts h⟩

/-- A sender makes three requests and is stopped during the third. -/
def threeRequests : List (Action (StatusOr CommandResponse) CommandReceive) :=
  [.beginStart, .owner, .producer (.done true), .producer .tau, .producer .tau,
    .producer (.answer (.value ⟨"r1", "c1", "", true, 0, "", ∅⟩)), .producer .tau, .producer .tau,
    .producer .tau,
    .producer .tau, .producer .tau, .producer .tau,
    .producer (.answer (.error { Status.okStatus with code := .kTimeout })), .producer .tau,
    .producer .tau, .producer .tau, .producer .tau, .producer .tau, .beginStop,
    .producer (.answer (.error kErrClientClosed)), .producer .tau, .producer .tau,
    .consumer (.done false), .consumer .tau, .owner, .owner, .owner, .owner]

theorem rpc_counts_threeRequests :
    ∃ (v : Lts.Recorded (Worker (StatusOr CommandResponse) CommandReceive) _) (x : Counters),
      (recorded (commands "p")).exec ⟨construct, []⟩ threeRequests = some v ∧
        .stopReturned x ∈ v.state.mem.log ∧
        x .sent = 1 ∧ x .rpcTimeout = 1 ∧ x .rpcError = 0 ∧ ∃ o, PassedOver v.record 3 o := by
  obtain ⟨v, hv⟩ : ∃ v, (recorded (commands "p")).exec ⟨construct, []⟩ threeRequests = some v :=
    ⟨_, rfl⟩
  have hlog : ∃ x, v.state.mem.log = v.state.mem.log.dropLast ++ .stopReturned x :: [] ∧
      numbers v.state.mem.log.dropLast = [1, 2, 3] ∧ x .sent = 1 ∧ x .rpcTimeout = 1 ∧
      x .rpcError = 0 := by
    cases hv
    exact ⟨_, rfl, rfl, rfl, rfl, rfl⟩
  obtain ⟨x, hx, hnumbers, hsent, htimeout, herror⟩ := hlog
  have hinit : (recorded (commands "p")).init ⟨construct, []⟩ := ⟨rfl, rfl⟩
  have hreach : (recorded (commands "p")).Reachable v :=
    Lts.Sys.Reachable.exec (.init hinit) threeRequests hv
  obtain ⟨counted, late, n, hn, htotal, -, -, hlate, -⟩ := (rpc_counts "p").1 v hreach _ x [] hx
  have hthree : n = 3 := by
    have hlength := congrArg List.length (hn.symm.trans hnumbers)
    rwa [List.length_range'] at hlength
  refine ⟨v, x, hv, ?_, hsent, htimeout, herror, ?_⟩
  · rw [hx]
    exact List.mem_append_right _ List.mem_cons_self
  · -- two of the three requests are counted, so the third was passed over
    rcases hlate with rfl | ⟨o, -, hpassed⟩
    · rw [hsent, htimeout, herror, hthree] at htotal
      cases htotal
    · exact ⟨o, hthree ▸ hpassed⟩

end KubeMQ.Burnin.PairWorker
