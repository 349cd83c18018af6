import KubeMQ.Downstream.Inversion

/-!
# One call on a downstream receiver

How many steps a call has left, what it does to `stream_mu`, which calls are of which method, and when
a call can step.
-/

namespace KubeMQ.Downstream

variable {ε : Env}

def CallPc.remaining : CallPc → ℕ
  | .pollCheck _ => 5
  | .pollLock _ _ => 4
  | .pollWrite _ _ => 3
  | .pollRead _ _ => 2
  | .pollFailed _ => 1
  | .pollGot _ _ => 1
  | .settleStart _ _ => 4
  | .settleAllStart _ _ => 4
  | .settleLock _ _ => 3
  | .settleWrite _ _ => 2
  | .settleUnlock _ => 1
  | .closeExchange => 5
  | .closeLock _ => 4
  | .closeWrite _ => 3
  | .closeWritesDone => 2
  | .closeUnlock => 1
  | _ => 0

lemma CallPc.remaining_le (pc : CallPc) : pc.remaining ≤ 5 := by
  cases pc <;> simp [remaining]

lemma CallStep.remaining_lt {m m' : Mem} {i : ℕ} {pc pc' : CallPc} {l : CallLabel}
    (st : CallStep ε m i pc l m' pc') : pc'.remaining < pc.remaining := by
  cases st <;> simp [CallPc.remaining]

/-- A step of a call takes `stream_mu`, gives it back or leaves it alone. -/
lemma CallStep.streamMu {m m' : Mem} {i : ℕ} {pc pc' : CallPc} {l : CallLabel}
    (st : CallStep ε m i pc l m' pc') :
    (m.streamMu = none ∧ m'.streamMu = some i ∧ pc'.critical = true) ∨
      (pc.critical = true ∧ pc'.critical = false ∧ m'.streamMu = none) ∨
      (m'.streamMu = m.streamMu ∧ pc'.critical = pc.critical) := by
  cases st
  case pollLock h => exact .inl ⟨h, rfl, rfl⟩
  case settleLock h => exact .inl ⟨h, rfl, rfl⟩
  case closeLock h => exact .inl ⟨h, rfl, rfl⟩
  case pollFailed => exact .inr (.inl ⟨rfl, rfl, rfl⟩)
  case pollGot => exact .inr (.inl ⟨rfl, rfl, rfl⟩)
  case settleUnlock => exact .inr (.inl ⟨rfl, rfl, rfl⟩)
  case closeUnlock => exact .inr (.inl ⟨rfl, rfl, rfl⟩)
  all_goals exact .inr (.inr ⟨rfl, rfl⟩)

/-- The unreturned calls of `Poll`. -/
def CallPc.ofPoll : CallPc → Bool
  | .pollCheck _ => true
  | .pollLock _ _ => true
  | .pollWrite _ _ => true
  | .pollRead _ _ => true
  | .pollFailed _ => true
  | .pollGot _ _ => true
  | _ => false

/-- The unreturned settlements. -/
def CallPc.ofSettle : CallPc → Bool
  | .settleStart _ _ => true
  | .settleAllStart _ _ => true
  | .settleLock _ _ => true
  | .settleWrite _ _ => true
  | .settleUnlock _ => true
  | _ => false

/-- The unreturned calls of `Close`. -/
def CallPc.ofClose : CallPc → Bool
  | .closeExchange => true
  | .closeLock _ => true
  | .closeWrite _ => true
  | .closeWritesDone => true
  | .closeUnlock => true
  | _ => false

/-- The calls that wait for `stream_mu`. -/
def CallPc.wantsStream : CallPc → Bool
  | .pollLock _ _ => true
  | .settleLock _ _ => true
  | .closeLock _ => true
  | _ => false

/-- Who waits for `stream_mu` does not hold it. -/
lemma CallPc.outside_of_wants {pc : CallPc} (h : pc.wantsStream = true) : pc.critical = false := by
  cases pc <;> first | rfl | cases h

section

variable {m m' : Mem} {i : ℕ} {pc pc' : CallPc} {l : CallLabel}

lemma CallStep.ofPoll (st : CallStep ε m i pc l m' pc') (h : pc.ofPoll = true) :
    pc'.ofPoll = true ∨ ∃ v, pc' = .polled v := by
  cases st
  case pollClosed => exact .inr ⟨_, rfl⟩
  case pollInvalid => exact .inr ⟨_, rfl⟩
  case pollFailed => exact .inr ⟨_, rfl⟩
  case pollGot => exact .inr ⟨_, rfl⟩
  all_goals first | exact .inl rfl | cases h

lemma CallStep.ofSettle (st : CallStep ε m i pc l m' pc') (h : pc.ofSettle = true) :
    pc'.ofSettle = true ∨ ∃ s, pc' = .settled s := by
  cases st
  case settleReturns => exact .inr ⟨_, rfl⟩
  case settleAllReturns => exact .inr ⟨_, rfl⟩
  case settleUnlock => exact .inr ⟨_, rfl⟩
  all_goals first | exact .inl rfl | cases h

lemma CallStep.ofClose (st : CallStep ε m i pc l m' pc') (h : pc.ofClose = true) :
    pc'.ofClose = true ∨ pc'.isClosed = true := by
  cases st
  case closeAgain => exact .inr rfl
  case closeUnlock => exact .inr rfl
  all_goals first | exact .inl rfl | cases h

/-- A call can step unless it waits for `stream_mu` or for the answer to a `Poll`. -/
lemma call_enabled (ε : Env) (m : Mem) (i : ℕ)
    (h : pc.ofPoll = true ∨ pc.ofSettle = true ∨ pc.ofClose = true)
    (hw : pc.wantsStream = true → m.streamMu = none)
    (hr : ∀ r req, pc = .pollRead r req → m.incoming ≠ [] ∨ m.broken = true) :
    ∃ l r, callNext ε m i pc l = some r := by
  cases pc with
  | pollCheck r =>
    refine ⟨.tau, ?_⟩
    simp only [callNext]
    split
    · exact ⟨_, rfl⟩
    · split <;> exact ⟨_, rfl⟩
  | pollLock r req => exact ⟨.tau, _, if_pos (by rw [hw rfl]; rfl)⟩
  | pollWrite r req => exact ⟨.wrote true, _, rfl⟩
  | pollRead r req =>
    cases hin : m.incoming with
    | nil =>
      have hb := (hr r req rfl).resolve_left fun hne => hne hin
      exact ⟨.readFail, _, by simp only [callNext, hin, hb]; rfl⟩
    | cons a rest => exact ⟨.tau, _, by simp only [callNext, hin]; rfl⟩
  | pollFailed s => exact ⟨.tau, _, rfl⟩
  | pollGot r resp => exact ⟨.tau, _, rfl⟩
  | settleStart q a =>
    refine ⟨.tau, ?_⟩
    simp only [callNext]
    split <;> exact ⟨_, rfl⟩
  | settleAllStart p a =>
    refine ⟨.tau, ?_⟩
    simp only [callNext]
    split <;> exact ⟨_, rfl⟩
  | settleLock op req => exact ⟨.tau, _, if_pos (by rw [hw rfl]; rfl)⟩
  | settleWrite op req => exact ⟨.wrote true, _, rfl⟩
  | settleUnlock s => exact ⟨.tau, _, rfl⟩
  | closeExchange =>
    refine ⟨.tau, ?_⟩
    simp only [callNext]
    split <;> exact ⟨_, rfl⟩
  | closeLock req => exact ⟨.tau, _, if_pos (by rw [hw rfl]; rfl)⟩
  | closeWrite req => exact ⟨.wrote true, _, rfl⟩
  | closeWritesDone => exact ⟨.tau, _, rfl⟩
  | closeUnlock => exact ⟨.tau, _, rfl⟩
  | polled v => simp [CallPc.ofPoll, CallPc.ofSettle, CallPc.ofClose] at h
  | settled s => simp [CallPc.ofPoll, CallPc.ofSettle, CallPc.ofClose] at h
  | closed => simp [CallPc.ofPoll, CallPc.ofSettle, CallPc.ofClose] at h

end

end KubeMQ.Downstream
