import KubeMQ.StreamHandle.Reentrant

/-!
# One call on a stream handle

How many steps a call has left, which calls are of which method, and when a call or the reader can
step: for a thread that makes one call after another.
-/

namespace KubeMQ.StreamHandle

variable {W R E : Type} {κ : HandleSpec W R E}

/-- The steps that a call has left. -/
def CallPc.remaining : CallPc W → ℕ
  | .sendLock _ => 4
  | .sendCheck _ => 3
  | .sendWrite _ => 2
  | .sendUnlock _ => 1
  | .closeLock => 6
  | .closeExchange => 5
  | .closeWritesDone => 4
  | .closeUnlock => 3
  | .closeEarly => 1
  | .closeJoin .enter => 2
  | .closeJoin .body => 1
  | .waitJoin .enter => 2
  | .waitJoin .body => 1
  | .isDone => 1
  | .setLock _ _ => 3
  | .setStore _ _ => 2
  | .setUnlock => 1
  | _ => 0

lemma CallPc.remaining_le (pc : CallPc W) : pc.remaining ≤ 6 := by
  cases pc
  case closeJoin p => cases p <;> simp [remaining]
  case waitJoin p => cases p <;> simp [remaining]
  all_goals simp [remaining]

/-- A call of `JoinReader` that goes on has just entered its body. -/
lemma join_goes_on {exited : Bool} {j j' : Joiner} {p q : JoinPc}
    (hn : j.next exited p = some (j', q)) (hq : q ≠ .returned) : p = .enter ∧ q = .body := by
  cases p with
  | enter =>
    simp only [Joiner.next] at hn
    split at hn
    next =>
      cases hn
      exact absurd rfl hq
    next =>
      split at hn <;> cases hn
      exact ⟨rfl, rfl⟩
  | body =>
    simp only [Joiner.next] at hn
    split at hn
    next =>
      split at hn <;> cases hn
      exact absurd rfl hq
    next =>
      cases hn
      exact absurd rfl hq
  | returned => cases hn

lemma CallStep.remaining_lt {exited : Bool} {i : ℕ} {m m' : Mem W R E} {pc pc' : CallPc W}
    {l : CallLabel} (st : CallStep κ exited i m pc l m' pc') : pc'.remaining < pc.remaining := by
  cases st
  case closeJoin hn hq =>
    obtain ⟨rfl, rfl⟩ := join_goes_on hn hq
    simp [CallPc.remaining]
  case waitJoin hn hq =>
    obtain ⟨rfl, rfl⟩ := join_goes_on hn hq
    simp [CallPc.remaining]
  case closeJoined p j hn =>
    cases p with
    | returned => cases hn
    | _ => simp [CallPc.remaining]
  case waitJoined p j hn =>
    cases p with
    | returned => cases hn
    | _ => simp [CallPc.remaining]
  all_goals simp [CallPc.remaining]

/-- The unreturned calls of `SetOnResult` and `SetOnError`. -/
def CallPc.ofSet : CallPc W → Bool
  | .setLock _ _ => true
  | .setStore _ _ => true
  | .setUnlock => true
  | _ => false

/-- The unreturned calls of `Send`. -/
def CallPc.ofSend : CallPc W → Bool
  | .sendLock _ => true
  | .sendCheck _ => true
  | .sendWrite _ => true
  | .sendUnlock _ => true
  | _ => false

/-- The unreturned calls of `Close`. -/
def CallPc.ofClose : CallPc W → Bool
  | .closeLock => true
  | .closeExchange => true
  | .closeEarly => true
  | .closeWritesDone => true
  | .closeUnlock => true
  | .closeJoin _ => true
  | _ => false

section

variable {exited : Bool} {m m' : Mem W R E} {i : ℕ} {pc pc' : CallPc W} {l : CallLabel}

/-- A returned call holds no lock. -/
lemma CallPc.unlocked_of_returned (h : pc.returned = true) :
    pc.setting = false ∧ pc.writing = false := by
  cases pc <;> first | exact ⟨rfl, rfl⟩ | cases h

/-- Who waits for a lock does not hold it. -/
lemma CallPc.outside_of_wants_write (h : pc.wantsWrite = true) : pc.writing = false := by
  cases pc <;> first | rfl | cases h

lemma CallPc.outside_of_wants_callback (h : pc.wantsCallback = true) : pc.setting = false := by
  cases pc <;> first | rfl | cases h

lemma CallStep.ofSet (st : CallStep κ exited i m pc l m' pc') (h : pc.ofSet = true) :
    pc'.ofSet = true ∨ pc'.returned = true := by
  cases st
  case setUnlock => exact .inr rfl
  all_goals first | exact .inl rfl | cases h

lemma CallStep.ofSend (st : CallStep κ exited i m pc l m' pc') (h : pc.ofSend = true) :
    pc'.ofSend = true ∨ ∃ s, pc' = .sent s := by
  cases st
  case sendUnlock => exact .inr ⟨_, rfl⟩
  all_goals first | exact .inl rfl | cases h

/-- A `Close` leaves `callback_mu` alone. -/
lemma CallStep.ofClose (st : CallStep κ exited i m pc l m' pc') (h : pc.ofClose = true) :
    (pc'.ofClose = true ∨ pc'.returned = true) ∧ m'.callbackMu = m.callbackMu := by
  cases st
  case closeEarly => exact ⟨.inr rfl, rfl⟩
  case closeJoined => exact ⟨.inr rfl, rfl⟩
  all_goals first | exact ⟨.inl rfl, rfl⟩ | cases h

/-- A `Close` that returns is past the join. -/
lemma CallStep.closes (st : CallStep κ exited i m pc l m' pc') (h : pc.ofClose = true)
    (hr : pc'.returned = true) : pc'.pastJoin = true := by
  cases st
  case closeEarly => rfl
  case closeJoined => rfl
  all_goals simp [CallPc.ofClose, CallPc.returned] at h hr

/-- A `Send` or a `Set` can step unless it waits for its lock. -/
lemma call_enabled (κ : HandleSpec W R E) (exited : Bool) (m : Mem W R E) (i : ℕ)
    (h : pc.ofSet = true ∨ pc.ofSend = true) (hw : pc.wantsWrite = true → m.writeMu = none)
    (hc : pc.wantsCallback = true → m.callbackMu = none) :
    ∃ l r, callNext κ exited m i pc l = some r := by
  cases pc with
  | sendLock w => exact ⟨.tau, _, if_pos (by rw [hw rfl]; rfl)⟩
  | sendCheck w => exact ⟨.tau, _, rfl⟩
  | sendWrite w => exact ⟨.wrote true, _, rfl⟩
  | sendUnlock st => exact ⟨.tau, _, rfl⟩
  | setLock slot cb => exact ⟨.tau, _, if_pos (by rw [hc rfl]; rfl)⟩
  | setStore slot cb =>
    cases slot with
    | onResult => exact ⟨.tau, _, rfl⟩
    | onError => exact ⟨.tau, _, rfl⟩
  | setUnlock => exact ⟨.tau, _, rfl⟩
  | _ => simp [CallPc.ofSet, CallPc.ofSend] at h

/-- The thread that holds `callback_mu` for its lambda can step without one that throws. -/
lemma holder_enabled (κ : HandleSpec W R E) (m : Mem W R E) {pc : ReaderPc E}
    (h : pc.holdsCallback = true) :
    ∃ l r, readerNext κ m pc l = some r ∧ ∀ x, l ≠ .callback (some x) := by
  obtain ⟨hx, hw⟩ := ReaderPc.inside h
  apply reader_enabled m hx
  exact fun hw' => absurd (hw.symm.trans hw') nofun

end

end KubeMQ.StreamHandle
