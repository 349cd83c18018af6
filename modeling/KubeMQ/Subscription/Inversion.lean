import KubeMQ.Subscription.Model

/-!
# Inversion of the subscription's steps

`ReaderStep`, `CallStep` and `Step` say, with one constructor for each atomic step, everything
`readerNext`, `callNext` and `next` can do; `of_next` inverts the executable functions.
-/

namespace KubeMQ.Subscription

variable {P R : Type} {κ : SubKind P R} {h : Handlers}

/-- The steps of the reader thread, by its control state; `n` is the stream it reads and `st` the
status of the last `Finish`. -/
inductive ReaderStep (κ : SubKind P R) (h : Handlers) (m : Mem P R) (n : ℕ) (st : GrpcStatus) :
    ReaderPc R → ReaderLabel P → Mem P R → Reader R → Prop where
  | leave :
    m.done = true →
    ReaderStep κ h m n st .outer .tau m ⟨.exitCheck, n, st⟩
  | enter :
    m.done = false →
    ReaderStep κ h m n st .outer .tau (m.observe (.reading n)) ⟨.read, n, st⟩
  | accept {m' p} :
    m.take n p = some m' →
    κ.accepts p = true →
    ReaderStep κ h m n st .read (.msg p) m' ⟨.dispatch (κ.convert p), n, st⟩
  | skip {m' p} :
    m.take n p = some m' →
    κ.accepts p = false →
    ReaderStep κ h m n st .read (.msg p) m' ⟨.read, n, st⟩
  | eos :
    ReaderStep κ h m n st .read .eos m ⟨.finish, n, st⟩
  | call {e} :
    h.onEvent = true →
    ReaderStep κ h m n st (.dispatch e) .tau (m.observe (.onEvent e)) ⟨.inCallback, n, st⟩
  | noCall {e} :
    h.onEvent = false →
    ReaderStep κ h m n st (.dispatch e) .tau m ⟨.read, n, st⟩
  | returned :
    ReaderStep κ h m n st .inCallback (.callback none) m ⟨.read, n, st⟩
  | threw {x} :
    ReaderStep κ h m n st .inCallback (.callback (some x)) (m.observe (.threw x))
      ⟨.report x, n, st⟩
  | report {x} :
    h.onError = true →
    ReaderStep κ h m n st (.report x) .tau (m.observe (.onError (κ.threwError x)))
      ⟨.inReport, n, st⟩
  | noReport {x} :
    h.onError = false →
    ReaderStep κ h m n st (.report x) .tau m ⟨.read, n, st⟩
  | reported {x} :
    ReaderStep κ h m n st .inReport (.callback x) m ⟨.read, n, st⟩
  | finish {st'} :
    ReaderStep κ h m n st .finish (.finish st') (m.observe (.ended n st')) ⟨.postFinish, n, st'⟩
  | closed :
    m.done = true →
    ReaderStep κ h m n st .postFinish .tau m ⟨.exitCheck, n, st⟩
  | broke :
    m.done = false →
    ReaderStep κ h m n st .postFinish .tau m ⟨.backoffLoop initialBackoff, n, st⟩
  | giveUp {b} :
    m.done = true →
    ReaderStep κ h m n st (.backoffLoop b) .tau m ⟨.exitCheck, n, st⟩
  | wait {b} :
    m.done = false →
    ReaderStep κ h m n st (.backoffLoop b) .tau m ⟨.sleep b, n, st⟩
  | slept {b} :
    ReaderStep κ h m n st (.sleep b) .slept m ⟨.recheck b, n, st⟩
  | woken {b} :
    m.done = true →
    ReaderStep κ h m n st (.recheck b) .tau m ⟨.exitCheck, n, st⟩
  | attempt {b} :
    m.done = false →
    ReaderStep κ h m n st (.recheck b) .tau
      ({ m with created := m.created + 1 }.observe (.attempt m.created b))
      ⟨.gate b m.created, n, st⟩
  | gatePassed {b k} :
    ReaderStep κ h m n st (.gate b k) (.gate true) m ⟨.stub b k, n, st⟩
  | gateRefused {b k} :
    ReaderStep κ h m n st (.gate b k) (.gate false) (m.observe (.refused k))
      ⟨.backoffLoop (nextBackoff b), n, st⟩
  | opened {b k} :
    ReaderStep κ h m n st (.stub b k) (.stub true) (m.observe (.opened k m.done))
      ⟨.storeCtx k, n, st⟩
  | stubRefused {b k} :
    ReaderStep κ h m n st (.stub b k) (.stub false) (m.observe (.refused k))
      ⟨.backoffLoop (nextBackoff b), n, st⟩
  | storeCtx {k} :
    ReaderStep κ h m n st (.storeCtx k) .tau { m with ctx := k } ⟨.outer, k, st⟩
  | exit :
    m.done = true →
    ReaderStep κ h m n st .exitCheck .tau m ⟨.exited, n, st⟩
  | unexpected :
    m.done = false →
    ReaderStep κ h m n st .exitCheck .tau m ⟨.exitStore, n, st⟩
  | exitStore :
    ReaderStep κ h m n st .exitStore .tau { m with done := true } ⟨.exitReport, n, st⟩
  | exitReport :
    h.onError = true →
    ReaderStep κ h m n st .exitReport .tau (m.observe (.onError (κ.endedError st)))
      ⟨.inExitReport, n, st⟩
  | noExitReport :
    h.onError = false →
    ReaderStep κ h m n st .exitReport .tau m ⟨.exited, n, st⟩
  | exitReported {x} :
    ReaderStep κ h m n st .inExitReport (.callback x) m ⟨.exited, n, st⟩

/-- The steps of a call. -/
inductive CallStep (exited : Bool) (m : Mem P R) : CallPc → CallLabel → Mem P R → CallPc → Prop where
  | store {j} :
    CallStep exited m (.cancelStore j) .tau { m with done := true } (.cancelRead j)
  | readCtx {j} :
    CallStep exited m (.cancelRead j) .tau m (.cancelTry j m.ctx)
  | tryCancel {c k} :
    CallStep exited m (.cancelTry false c) (.tryCancel k) (m.tryCancel c k) (.cancelled c)
  | tryCancelJoin {c k} :
    CallStep exited m (.cancelTry true c) (.tryCancel k) (m.tryCancel c k) (.join (some c) .enter)
  | join {c p j q} :
    m.joiner.next exited p = some (j, q) →
    q ≠ .returned →
    CallStep exited m (.join c p) .tau { m with joiner := j } (.join c q)
  | joined {c p j} :
    m.joiner.next exited p = some (j, .returned) →
    CallStep exited m (.join c p) .tau { m with joiner := j } (.joined c)
  | isDone :
    CallStep exited m .isDone .tau m (.wasDone m.done)

/-- The steps of a subscription. -/
inductive Step (κ : SubKind P R) (h : Handlers) (s : Sub P R) : Action P → Sub P R → Prop where
  | begin {op} :
    Step κ h s (.begin op) { s with calls := s.calls ++ [op.start] }
  | call {i l pc m' pc'} :
    s.calls[i]? = some pc →
    CallStep s.reader.pc.isExited s.mem pc l m' pc' →
    Step κ h s (.call i l) { s with mem := m', calls := s.calls.set i pc' }
  | reader {l m' r'} :
    ReaderStep κ h s.mem s.reader.stream s.reader.lastStatus s.reader.pc l m' r' →
    Step κ h s (.reader l) { s with mem := m', reader := r' }

lemma ReaderStep.of_next {m m' : Mem P R} {r r' : Reader R} {l : ReaderLabel P}
    (hn : readerNext κ h m r l = some (m', r')) :
    ReaderStep κ h m r.stream r.lastStatus r.pc l m' r' := by
  obtain ⟨pc, n, st⟩ := r
  unfold readerNext at hn
  dsimp only at hn ⊢
  split at hn
  case h_2 p =>
    obtain ⟨m₁, hm, hr⟩ := Option.map_eq_some_iff.mp hn
    cases ha : κ.accepts p <;> simp only [ha, Bool.false_eq_true, if_false, if_true] at hr <;>
      cases hr
    · exact .skip hm ha
    · exact .accept hm ha
  case h_10 =>
    cases hd : m.done <;> simp only [hd, Bool.false_eq_true, if_false, if_true] at hn <;> cases hn
    · exact .broke hd
    · exact .closed hd
  case h_11 =>
    cases hd : m.done <;> simp only [hd, Bool.false_eq_true, if_false, if_true] at hn <;> cases hn
    · exact .wait hd
    · exact .giveUp hd
  case h_19 =>
    cases hd : m.done <;> simp only [hd, Bool.false_eq_true, if_false, if_true] at hn <;> cases hn
    · exact .unexpected hd
    · exact .exit hd
  all_goals (try split at hn) <;> cases hn
  all_goals constructor <;> simp_all

lemma CallStep.of_next {exited : Bool} {m m' : Mem P R} {pc pc' : CallPc} {l : CallLabel}
    (hn : callNext exited m pc l = some (m', pc')) : CallStep exited m pc l m' pc' := by
  unfold callNext at hn
  split at hn
  case h_3 j c k =>
    cases j <;> cases hn
    · exact .tryCancel
    · exact .tryCancelJoin
  case h_4 c p =>
    obtain ⟨⟨j, q⟩, hj, hr⟩ := Option.map_eq_some_iff.mp hn
    by_cases hq : q = .returned <;> simp only [hq, if_true, if_false] at hr <;> cases hr
    · exact .joined (hq ▸ hj)
    · exact .join hj hq
  all_goals cases hn
  all_goals constructor

lemma Step.of_next {s s' : Sub P R} {a : Action P} (hn : next κ h s a = some s') :
    Step κ h s a s' := by
  cases a with
  | begin op =>
    cases hn
    exact .begin
  | call i l =>
    obtain ⟨pc, hpc, hm⟩ := Option.bind_eq_some_iff.mp hn
    obtain ⟨⟨m', pc'⟩, hc, rfl⟩ := Option.map_eq_some_iff.mp hm
    exact .call hpc (.of_next hc)
  | reader l =>
    obtain ⟨⟨m', r'⟩, hr, rfl⟩ := Option.map_eq_some_iff.mp hn
    exact .reader (.of_next hr)

/-- What taking a message changes. -/
lemma Mem.take_spec {m m' : Mem P R} {n : ℕ} {p : P} (ht : m.take n p = some m') :
    m'.done = m.done ∧ m'.ctx = m.ctx ∧ m'.created = m.created ∧ m'.joiner = m.joiner ∧
      m'.log = m.log ++ [.read n p] ∧
      ((m.cancelled n = none ∧ m'.cancelled = m.cancelled) ∨
        ∃ k, m.cancelled n = some (k + 1) ∧
          m'.cancelled = Function.update m.cancelled n (some k)) := by
  unfold Mem.take at ht
  split at ht
  · next hn =>
    cases ht
    exact ⟨rfl, rfl, rfl, rfl, rfl, .inl ⟨hn, rfl⟩⟩
  · cases ht
  · next k hn =>
    cases ht
    exact ⟨rfl, rfl, rfl, rfl, rfl, .inr ⟨k, hn, rfl⟩⟩

/-- `TryCancel` changes only the contexts, and cancels the one it is called on. -/
lemma Mem.tryCancel_spec (m : Mem P R) (c k : ℕ) :
    (m.tryCancel c k).done = m.done ∧ (m.tryCancel c k).ctx = m.ctx ∧
      (m.tryCancel c k).created = m.created ∧ (m.tryCancel c k).joiner = m.joiner ∧
      (m.tryCancel c k).log = m.log ∧ ((m.tryCancel c k).cancelled c).isSome = true ∧
      ∀ n, (m.cancelled n).isSome = true → (m.tryCancel c k).cancelled n = m.cancelled n := by
  unfold Mem.tryCancel
  split
  · next hc =>
    refine ⟨rfl, rfl, rfl, rfl, rfl, by simp, fun n hn => ?_⟩
    refine Function.update_of_ne ?_ _ _
    rintro rfl
    simp [Option.isNone_iff_eq_none.mp hc] at hn
  · next hc =>
    refine ⟨rfl, rfl, rfl, rfl, rfl, ?_, fun n _ => rfl⟩
    simpa [Option.isSome_iff_ne_none, Option.isNone_iff_eq_none] using hc

end KubeMQ.Subscription
