import KubeMQ.StreamHandle.Model

/-!
# Inversion of the stream handle's steps

`ReaderStep`, `CallStep` and `Step` say, with one constructor for each atomic step, everything
`readerNext`, `callNext` and `next` can do. `ReaderStep.of_next`, `CallStep.of_next` and
`Step.of_next` invert the executable functions; every invariant of the handle is proved by cases
on these relations.
-/

namespace KubeMQ.StreamHandle

variable {W R E : Type} {κ : HandleSpec W R E}

/-- The steps of the reader thread. -/
inductive ReaderStep (κ : HandleSpec W R E) :
    Mem W R E → ReaderPc E → ReaderLabel R → Mem W R E → ReaderPc E → Prop where
  | drop {m r} :
    κ.toResult = none →
    ReaderStep κ m .read (.result r) (m.observe (.response r)) .read
  | receive {m r f} :
    κ.toResult = some f →
    ReaderStep κ m .read (.result r) (m.observe (.response r)) (.lockResult (f r))
  | eos {m} :
    ReaderStep κ m .read .eos m .storeDone
  | lockResult {m e} :
    m.callbackMu = none →
    ReaderStep κ m (.lockResult e) .tau { m with callbackMu := some .reader } (.callResult e)
  | skipResult {m e} :
    m.onResult = none →
    ReaderStep κ m (.callResult e) .tau m .unlockResult
  | callResult {m e cb} :
    m.onResult = some cb →
    ReaderStep κ m (.callResult e) .tau (m.observe (.onResult cb e)) .inResult
  | resultReturned {m} :
    ReaderStep κ m .inResult (.callback none) m .unlockResult
  | resultThrew {m x} :
    ReaderStep κ m .inResult (.callback (some x)) m (.callReport x)
  | skipReport {m x} :
    m.onError = none →
    ReaderStep κ m (.callReport x) .tau m .unlockResult
  | callReport {m x cb} :
    m.onError = some cb →
    ReaderStep κ m (.callReport x) .tau (m.observe (.onError cb (κ.onResultThrew x))) .inReport
  | reportReturned {m x} :
    ReaderStep κ m .inReport (.callback x) m .unlockResult
  | unlockResult {m} :
    ReaderStep κ m .unlockResult .tau { m with callbackMu := none } .read
  | storeDone {m} :
    ReaderStep κ m .storeDone .tau { m with done := true } .finish
  | finishOk {m st} :
    st.ok = true →
    ReaderStep κ m .finish (.finish st) (m.observe (.finish st)) .exited
  | finishError {m st} :
    st.ok = false →
    ReaderStep κ m .finish (.finish st) (m.observe (.finish st)) (.lockError st)
  | lockError {m st} :
    m.callbackMu = none →
    ReaderStep κ m (.lockError st) .tau { m with callbackMu := some .reader } (.callError st)
  | skipError {m st} :
    m.onError = none →
    ReaderStep κ m (.callError st) .tau m .unlockError
  | callError {m st cb} :
    m.onError = some cb →
    ReaderStep κ m (.callError st) .tau (m.observe (.onError cb (κ.finishError st))) .inError
  | errorReturned {m x} :
    ReaderStep κ m .inError (.callback x) m .unlockError
  | unlockError {m} :
    ReaderStep κ m .unlockError .tau { m with callbackMu := none } .exited

/-- The steps of call `i`. -/
inductive CallStep (κ : HandleSpec W R E) (exited : Bool) (i : ℕ) :
    Mem W R E → CallPc W → CallLabel → Mem W R E → CallPc W → Prop where
  | sendLock {m w} :
    m.writeMu = none →
    CallStep κ exited i m (.sendLock w) .tau { m with writeMu := some i } (.sendCheck w)
  | sendDone {m w} :
    m.done = true →
    CallStep κ exited i m (.sendCheck w) .tau m (.sendUnlock (κ.closedError w))
  | sendOpen {m w} :
    m.done = false →
    CallStep κ exited i m (.sendCheck w) .tau m (.sendWrite w)
  | sendWrite {m w ok} :
    CallStep κ exited i m (.sendWrite w) (.wrote ok) (m.observe (.write i w ok))
      (.sendUnlock (if ok then .okStatus else κ.writeError w))
  | sendUnlock {m st} :
    CallStep κ exited i m (.sendUnlock st) .tau { m with writeMu := none } (.sent st)
  | closeLock {m} :
    m.writeMu = none →
    CallStep κ exited i m .closeLock .tau { m with writeMu := some i } .closeExchange
  | exchangeDone {m} :
    m.done = true →
    CallStep κ exited i m .closeExchange .tau m .closeEarly
  | exchangeOpen {m} :
    m.done = false →
    CallStep κ exited i m .closeExchange .tau { m with done := true } .closeWritesDone
  | closeEarly {m} :
    CallStep κ exited i m .closeEarly .tau { m with writeMu := none } .closed
  | closeWritesDone {m} :
    CallStep κ exited i m .closeWritesDone .tau (m.observe (.writesDone i)) .closeUnlock
  | closeUnlock {m} :
    CallStep κ exited i m .closeUnlock .tau { m with writeMu := none } (.closeJoin .enter)
  | closeJoin {m p j q} :
    m.joiner.next exited p = some (j, q) →
    q ≠ .returned →
    CallStep κ exited i m (.closeJoin p) .tau { m with joiner := j } (.closeJoin q)
  | closeJoined {m p j} :
    m.joiner.next exited p = some (j, .returned) →
    CallStep κ exited i m (.closeJoin p) .tau { m with joiner := j } .closed
  | waitJoin {m p j q} :
    m.joiner.next exited p = some (j, q) →
    q ≠ .returned →
    CallStep κ exited i m (.waitJoin p) .tau { m with joiner := j } (.waitJoin q)
  | waitJoined {m p j} :
    m.joiner.next exited p = some (j, .returned) →
    CallStep κ exited i m (.waitJoin p) .tau { m with joiner := j } .waited
  | isDone {m} :
    CallStep κ exited i m .isDone .tau m (.wasDone m.done)
  | setLock {m slot cb} :
    m.callbackMu = none →
    CallStep κ exited i m (.setLock slot cb) .tau { m with callbackMu := some (.call i) }
      (.setStore slot cb)
  | setResult {m cb} :
    CallStep κ exited i m (.setStore .onResult cb) .tau { m with onResult := cb } .setUnlock
  | setError {m cb} :
    CallStep κ exited i m (.setStore .onError cb) .tau { m with onError := cb } .setUnlock
  | setUnlock {m} :
    CallStep κ exited i m .setUnlock .tau { m with callbackMu := none } .set

/-- The steps of a handle that has not been terminated. -/
inductive Step (κ : HandleSpec W R E) (s : Handle W R E) : Action W R → Handle W R E → Prop where
  | begin {op} :
    s.dtor = none →
    Step κ s (.begin op) { s with calls := s.calls ++ [op.start] }
  | call {i l pc m' pc'} :
    s.calls[i]? = some pc →
    CallStep κ s.reader.isExited i s.mem pc l m' pc' →
    Step κ s (.call i l) { s with mem := m', calls := s.calls.set i pc' }
  | reader {l m' pc'} :
    ReaderStep κ s.mem s.reader l m' pc' →
    Step κ s (.reader l) { s with mem := m', reader := pc' }
  | destroy :
    s.dtor = none →
    (∀ pc ∈ s.calls, pc.returned = true) →
    Step κ s .destroy { s with calls := s.calls ++ [.closeLock], dtor := some s.calls.length }
  | free {i} :
    s.dtor = some i →
    s.destroyed = false →
    s.calls[i]? = some .closed →
    Step κ s .free { s with destroyed := true, terminated := s.mem.joiner.joinable }

lemma ReaderStep.of_next {m m' : Mem W R E} {pc pc' : ReaderPc E} {l : ReaderLabel R}
    (hn : readerNext κ m pc l = some (m', pc')) : ReaderStep κ m pc l m' pc' := by
  unfold readerNext at hn
  split at hn
  case h_1 =>
    split at hn <;> cases hn
    · exact .drop ‹_›
    · exact .receive ‹_›
  case h_11 st =>
    cases hst : st.ok <;> simp only [hst] at hn <;> cases hn
    · exact .finishError hst
    · exact .finishOk hst
  all_goals (try split at hn) <;> cases hn
  all_goals constructor <;> simp_all

lemma CallStep.of_next {exited : Bool} {i : ℕ} {m m' : Mem W R E} {pc pc' : CallPc W}
    {l : CallLabel} (hn : callNext κ exited m i pc l = some (m', pc')) :
    CallStep κ exited i m pc l m' pc' := by
  unfold callNext at hn
  split at hn
  case h_2 w =>
    cases hd : m.done <;> simp only [hd] at hn <;> cases hn
    · exact .sendOpen hd
    · exact .sendDone hd
  case h_3 =>
    cases hn
    exact .sendWrite
  case h_10 p =>
    obtain ⟨⟨j, q⟩, hj, hr⟩ := Option.map_eq_some_iff.mp hn
    by_cases hq : q = .returned <;> simp only [hq, if_true, if_false] at hr <;> cases hr
    · exact .closeJoined (hq ▸ hj)
    · exact .closeJoin hj hq
  case h_11 p =>
    obtain ⟨⟨j, q⟩, hj, hr⟩ := Option.map_eq_some_iff.mp hn
    by_cases hq : q = .returned <;> simp only [hq, if_true, if_false] at hr <;> cases hr
    · exact .waitJoined (hq ▸ hj)
    · exact .waitJoin hj hq
  all_goals (try split at hn) <;> cases hn
  all_goals constructor <;> simp_all

lemma Step.of_next {s s' : Handle W R E} {a : Action W R} (hn : next κ s a = some s') :
    s.terminated = false ∧ Step κ s a s' := by
  unfold next at hn
  split at hn
  · cases hn
  · next ht =>
    refine ⟨by simpa using ht, ?_⟩
    cases a with
    | begin op =>
      simp only [liveNext, Option.isNone_iff_eq_none] at hn
      split at hn <;> cases hn
      exact .begin ‹_›
    | call i l =>
      obtain ⟨pc, hpc, hm⟩ := Option.bind_eq_some_iff.mp hn
      obtain ⟨⟨m', pc'⟩, hc, rfl⟩ := Option.map_eq_some_iff.mp hm
      exact .call hpc (.of_next hc)
    | reader l =>
      obtain ⟨⟨m', pc'⟩, hr, rfl⟩ := Option.map_eq_some_iff.mp hn
      exact .reader (.of_next hr)
    | destroy =>
      simp only [liveNext, Bool.and_eq_true, Option.isNone_iff_eq_none, List.all_eq_true] at hn
      split at hn <;> cases hn
      next hd => exact .destroy hd.1 hd.2
    | free =>
      obtain ⟨i, hi, hf⟩ := Option.bind_eq_some_iff.mp hn
      obtain ⟨pc, hpc, hf⟩ := Option.bind_eq_some_iff.mp hf
      split at hf
      · split at hf
        · cases hf
        · next hd =>
          cases hf
          exact .free hi (by simpa using hd) hpc
      · cases hf

end KubeMQ.StreamHandle
