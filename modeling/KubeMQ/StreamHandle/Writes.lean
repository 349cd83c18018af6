import KubeMQ.Lts.History
import KubeMQ.Lts.Lock
import KubeMQ.StreamHandle.Inversion

/-!
# What is written to a stream

`write_mu` is held around every `Write` and `WritesDone`, and by `Close` around its
`done.exchange(true)`; the reader sets `done` without it. `Disciplined` is the invariant of the
handle that follows: a half-closed stream has `done` set and no call left before a stream
operation. `Traced` pairs the handle with the calls as the user made them.
-/

namespace KubeMQ.StreamHandle

variable {W R E M : Type} {κ : HandleSpec W R E}

/-- The calls that hold `write_mu`. -/
def CallPc.writing : CallPc W → Bool
  | .sendCheck _ => true
  | .sendWrite _ => true
  | .sendUnlock _ => true
  | .closeExchange => true
  | .closeEarly => true
  | .closeWritesDone => true
  | .closeUnlock => true
  | _ => false

/-- The calls whose next step is a `Write` or `WritesDone`. -/
def CallPc.onStream : CallPc W → Bool
  | .sendWrite _ => true
  | .closeWritesDone => true
  | _ => false

/-- The calls of `Close` that have made their exchange. -/
def CallPc.exchanged : CallPc W → Bool
  | .closeEarly => true
  | .closeWritesDone => true
  | .closeUnlock => true
  | .closeJoin _ => true
  | .closed => true
  | _ => false

/-- The reader has marked the stream done. -/
def ReaderPc.markedDone : ReaderPc E → Bool
  | .finish => true
  | .lockError _ => true
  | .callError _ => true
  | .inError => true
  | .unlockError => true
  | .exited => true
  | _ => false

def Obs.isWrite : Obs W R E → Bool
  | .write .. => true
  | _ => false

def Obs.isWritesDone : Obs W R E → Bool
  | .writesDone _ => true
  | _ => false

/-- The writes that call `i` made, with their outcomes. -/
def writesBy (i : ℕ) (log : List (Obs W R E)) : List (W × Bool) :=
  log.filterMap fun
    | .write j w ok => if j = i then some (w, ok) else none
    | _ => none

/-- No `Write` stands behind a `WritesDone`. -/
def NoWriteAfter (log : List (Obs W R E)) : Prop :=
  ∀ before i after, log = before ++ .writesDone i :: after → ∀ o ∈ after, o.isWrite = false

lemma writesBy_append (i : ℕ) (log : List (Obs W R E)) (o : Obs W R E) :
    writesBy i (log ++ [o]) = writesBy i log ++ writesBy i [o] :=
  List.filterMap_append

lemma writesBy_concat_of_not_write {o : Obs W R E} (i : ℕ) (log : List (Obs W R E))
    (h : o.isWrite = false) : writesBy i (log ++ [o]) = writesBy i log := by
  rw [writesBy_append]
  cases o with
  | write j w ok => cases h
  | _ => exact List.append_nil _

/-- A step of a call takes `write_mu`, gives it back or leaves it alone. -/
lemma CallStep.writeMu {exited : Bool} {i : ℕ} {m m' : Mem W R E} {pc pc' : CallPc W}
    {l : CallLabel} (st : CallStep κ exited i m pc l m' pc') :
    (m.writeMu = none ∧ m'.writeMu = some i ∧ pc'.writing = true) ∨
      (pc.writing = true ∧ pc'.writing = false ∧ m'.writeMu = none) ∨
      (m'.writeMu = m.writeMu ∧ pc'.writing = pc.writing) := by
  cases st
  case sendLock h => exact .inl ⟨h, rfl, rfl⟩
  case closeLock h => exact .inl ⟨h, rfl, rfl⟩
  case sendUnlock => exact .inr (.inl ⟨rfl, rfl, rfl⟩)
  case closeEarly => exact .inr (.inl ⟨rfl, rfl, rfl⟩)
  case closeUnlock => exact .inr (.inl ⟨rfl, rfl, rfl⟩)
  all_goals exact .inr (.inr ⟨rfl, rfl⟩)

/-- A call that holds `write_mu` can always step. -/
lemma writing_enabled (exited : Bool) (mem : Mem W R E) (i : ℕ) {pc : CallPc W}
    (h : pc.writing = true) : ∃ l r, callNext κ exited mem i pc l = some r := by
  cases pc
  case sendWrite w => exact ⟨.wrote true, _, rfl⟩
  case closeExchange =>
    cases hd : mem.done with
    | true => exact ⟨.tau, _, if_pos hd⟩
    | false => exact ⟨.tau, _, if_neg (by simp [hd])⟩
  all_goals first | exact ⟨.tau, _, rfl⟩ | cases h

/-- What a step of a call adds to the history. -/
lemma CallStep.log {exited : Bool} {i : ℕ} {m m' : Mem W R E} {pc pc' : CallPc W}
    {l : CallLabel} (st : CallStep κ exited i m pc l m' pc') :
    m'.log = m.log ∨
      (∃ w ok, pc = .sendWrite w ∧ m'.log = m.log ++ [.write i w ok]) ∨
      (pc = .closeWritesDone ∧ m'.log = m.log ++ [.writesDone i]) := by
  cases st
  case sendWrite w ok => exact .inr (.inl ⟨w, ok, rfl, rfl⟩)
  case closeWritesDone => exact .inr (.inr ⟨rfl, rfl⟩)
  all_goals exact .inl rfl

/-- `done` is never reset, and it is set when a call has exchanged it. -/
lemma CallStep.done {exited : Bool} {i : ℕ} {m m' : Mem W R E} {pc pc' : CallPc W}
    {l : CallLabel} (st : CallStep κ exited i m pc l m' pc') :
    (m.done = true → m'.done = true) ∧
      (pc'.exchanged = true → pc.exchanged = true ∨ m'.done = true) ∧
      (pc'.onStream = true → m.done = false) := by
  cases st
  case exchangeDone h => exact ⟨id, fun _ => .inr h, nofun⟩
  case exchangeOpen h => exact ⟨fun _ => rfl, fun _ => .inr rfl, fun _ => h⟩
  case sendOpen h => exact ⟨id, nofun, fun _ => h⟩
  case closeWritesDone => exact ⟨id, fun _ => .inl rfl, nofun⟩
  case closeUnlock => exact ⟨id, fun _ => .inl rfl, nofun⟩
  case closeEarly => exact ⟨id, fun _ => .inl rfl, nofun⟩
  case closeJoin => exact ⟨id, fun _ => .inl rfl, nofun⟩
  case closeJoined => exact ⟨id, fun _ => .inl rfl, nofun⟩
  all_goals exact ⟨id, nofun, nofun⟩

/-- The reader neither writes nor touches `write_mu`. -/
lemma ReaderStep.writes {m m' : Mem W R E} {pc pc' : ReaderPc E} {l : ReaderLabel R}
    (st : ReaderStep κ m pc l m' pc') :
    m'.writeMu = m.writeMu ∧ (m.done = true → m'.done = true) ∧
      (pc'.markedDone = true → pc.markedDone = true ∨ m'.done = true) ∧
      (m'.log = m.log ∨
        ∃ o, o.isWrite = false ∧ o.isWritesDone = false ∧ m'.log = m.log ++ [o]) := by
  cases st
  case storeDone => exact ⟨rfl, fun _ => rfl, fun _ => .inr rfl, .inl rfl⟩
  case drop => exact ⟨rfl, id, nofun, .inr ⟨_, rfl, rfl, rfl⟩⟩
  case receive => exact ⟨rfl, id, nofun, .inr ⟨_, rfl, rfl, rfl⟩⟩
  case callResult => exact ⟨rfl, id, nofun, .inr ⟨_, rfl, rfl, rfl⟩⟩
  case callReport => exact ⟨rfl, id, nofun, .inr ⟨_, rfl, rfl, rfl⟩⟩
  case finishOk => exact ⟨rfl, id, fun _ => .inl rfl, .inr ⟨_, rfl, rfl, rfl⟩⟩
  case finishError => exact ⟨rfl, id, fun _ => .inl rfl, .inr ⟨_, rfl, rfl, rfl⟩⟩
  case callError => exact ⟨rfl, id, fun _ => .inl rfl, .inr ⟨_, rfl, rfl, rfl⟩⟩
  case lockError => exact ⟨rfl, id, fun _ => .inl rfl, .inl rfl⟩
  case skipError => exact ⟨rfl, id, fun _ => .inl rfl, .inl rfl⟩
  case errorReturned => exact ⟨rfl, id, fun _ => .inl rfl, .inl rfl⟩
  case unlockError => exact ⟨rfl, id, fun _ => .inl rfl, .inl rfl⟩
  all_goals exact ⟨rfl, id, nofun, .inl rfl⟩

/-- The invariant of a handle. -/
structure Disciplined (s : Handle W R E) : Prop where
  mutex : Lts.Mutex CallPc.writing s.mem.writeMu s.calls
  marked : s.reader.markedDone = true → s.mem.done = true
  exchanged : ∀ pc ∈ s.calls, pc.exchanged = true → s.mem.done = true
  halfClosed : s.mem.log.any Obs.isWritesDone = true →
    s.mem.done = true ∧ ∀ pc ∈ s.calls, pc.onStream = false
  once : s.mem.log.countP Obs.isWritesDone ≤ 1
  order : NoWriteAfter s.mem.log

lemma Op.start_outside (op : Op W) :
    op.start.writing = false ∧ op.start.exchanged = false ∧ op.start.onStream = false := by
  cases op <;> exact ⟨rfl, rfl, rfl⟩

lemma disciplined_start (onResult onError : Option ℕ) :
    Disciplined (start onResult onError : Handle W R E) where
  mutex := .nil
  marked := nofun
  exchanged := List.forall_mem_nil _
  halfClosed := nofun
  once := Nat.zero_le 1
  order := by
    intro before i after e
    cases before <;> cases e

/-- An entry that is not a `Write` may be appended, a `Write` as long as there is no
`WritesDone`. -/
lemma NoWriteAfter.concat {log : List (Obs W R E)} {o : Obs W R E} (h : NoWriteAfter log)
    (ok : o.isWrite = false ∨ log.any Obs.isWritesDone = false) : NoWriteAfter (log ++ [o]) := by
  intro before i after e x hx
  rcases Lts.split_concat e with ⟨rest, hlog, rfl⟩ | ⟨-, -, rfl⟩
  · rcases List.mem_append.mp hx with hx | hx
    · exact h before i rest hlog x hx
    · obtain rfl := List.mem_singleton.mp hx
      rcases ok with ok | ok
      · exact ok
      · -- there is a `WritesDone` in the log
        rw [hlog] at ok
        simp [Obs.isWritesDone] at ok
  · cases hx

/-- A new call has not done anything yet. -/
lemma Disciplined.append {s : Handle W R E} (inv : Disciplined s) (op : Op W) :
    Disciplined { s with calls := s.calls ++ [op.start] } := by
  obtain ⟨hw, he, ho⟩ := op.start_outside
  refine ⟨inv.mutex.append hw, inv.marked, ?_, ?_, inv.once, inv.order⟩
  · intro pc hpc hp
    rcases List.mem_append.mp hpc with hpc | hpc
    · exact inv.exchanged pc hpc hp
    · rw [List.mem_singleton.mp hpc, he] at hp
      cases hp
  · intro hw
    obtain ⟨hd, hs⟩ := inv.halfClosed hw
    refine ⟨hd, ?_⟩
    intro pc hpc
    rcases List.mem_append.mp hpc with hpc | hpc
    · exact hs pc hpc
    · rw [List.mem_singleton.mp hpc]
      exact ho

lemma CallPc.writing_of_onStream {pc : CallPc W} (h : pc.onStream = true) :
    pc.writing = true := by
  cases pc <;> first | rfl | cases h

/-- Two calls are never both before a stream operation. -/
lemma Disciplined.exclusive {s : Handle W R E} (inv : Disciplined s) {i j : ℕ} {pc pc' : CallPc W}
    (hi : s.calls[i]? = some pc) (ci : pc.onStream = true) (hj : s.calls[j]? = some pc')
    (cj : pc'.onStream = true) : i = j :=
  inv.mutex.locked.unique hi (pc.writing_of_onStream ci) hj (pc'.writing_of_onStream cj)

/-- After a half-close no call is before a stream operation. -/
lemma Disciplined.idle {s : Handle W R E} (inv : Disciplined s) {pc : CallPc W}
    (hmem : pc ∈ s.calls) (ho : pc.onStream = true) :
    s.mem.log.any Obs.isWritesDone = false := by
  cases hany : s.mem.log.any Obs.isWritesDone with
  | false => rfl
  | true =>
    rw [(inv.halfClosed hany).2 pc hmem] at ho
    cases ho

section Call

variable {s : Handle W R E} {i : ℕ} {pc pc' : CallPc W} {l : CallLabel} {m' : Mem W R E}

/-- Who half-closes is alone before a stream operation, and gets off it. -/
lemma Disciplined.halfCloses (inv : Disciplined s) (hpc : s.calls[i]? = some .closeWritesDone)
    (st : CallStep κ s.reader.isExited i s.mem .closeWritesDone l m' pc') (q : CallPc W)
    (hq : q ∈ s.calls.set i pc') : q.onStream = false := by
  have hoff : pc'.onStream = false := by
    cases st
    rfl
  cases ho : q.onStream with
  | false => rfl
  | true =>
    -- another call before a stream operation would hold the lock too
    obtain ⟨j, hj⟩ := List.getElem?_of_mem hq
    rcases Lts.getElem?_set_cases hj with ⟨-, rfl⟩ | ⟨hne, hj⟩
    · rw [hoff] at ho
      cases ho
    · exact absurd (inv.exclusive hj ho hpc rfl) hne

lemma Disciplined.call_halfClosed (inv : Disciplined s) (hpc : s.calls[i]? = some pc)
    (st : CallStep κ s.reader.isExited i s.mem pc l m' pc')
    (hany : m'.log.any Obs.isWritesDone = true) :
    m'.done = true ∧ ∀ q ∈ s.calls.set i pc', q.onStream = false := by
  have hmem : pc ∈ s.calls := List.mem_of_getElem? hpc
  obtain ⟨mono, -, openAt⟩ := st.done
  rcases st.log with h | ⟨w, ok, rfl, h⟩ | ⟨rfl, h⟩
  · rw [h] at hany
    obtain ⟨hd, hs⟩ := inv.halfClosed hany
    refine ⟨mono hd, ?_⟩
    intro q hq
    rcases List.mem_or_eq_of_mem_set hq with hq | rfl
    · exact hs q hq
    · -- the flag is set, so the call does not get to the stream
      cases ho : q.onStream with
      | false => rfl
      | true => exact absurd (openAt ho) (by simp [hd])
  · rw [h, List.any_append, inv.idle hmem rfl] at hany
    cases hany
  · exact ⟨mono (inv.exchanged _ hmem rfl), inv.halfCloses hpc st⟩

lemma Disciplined.call_once (inv : Disciplined s) (hpc : s.calls[i]? = some pc)
    (st : CallStep κ s.reader.isExited i s.mem pc l m' pc') :
    m'.log.countP Obs.isWritesDone ≤ 1 := by
  rcases st.log with h | ⟨w, ok, rfl, h⟩ | ⟨rfl, h⟩
  · rw [h]
    exact inv.once
  · rw [h, List.countP_append]
    exact inv.once
  · have hidle := inv.idle (List.mem_of_getElem? hpc) rfl
    have hnone : s.mem.log.countP Obs.isWritesDone = 0 := by
      apply List.countP_eq_zero.mpr
      intro o ho
      exact List.any_eq_false.mp hidle o ho
    rw [h, List.countP_append, hnone]
    exact Nat.le_refl 1

lemma Disciplined.call_order (inv : Disciplined s) (hpc : s.calls[i]? = some pc)
    (st : CallStep κ s.reader.isExited i s.mem pc l m' pc') : NoWriteAfter m'.log := by
  rcases st.log with h | ⟨w, ok, rfl, h⟩ | ⟨rfl, h⟩
  · rw [h]
    exact inv.order
  · rw [h]
    exact inv.order.concat (.inr (inv.idle (List.mem_of_getElem? hpc) rfl))
  · rw [h]
    exact inv.order.concat (.inl rfl)

/-- One step of a call keeps the invariant. -/
lemma Disciplined.call (inv : Disciplined s) (hpc : s.calls[i]? = some pc)
    (st : CallStep κ s.reader.isExited i s.mem pc l m' pc') :
    Disciplined { s with mem := m', calls := s.calls.set i pc' } := by
  obtain ⟨mono, exch, -⟩ := st.done
  refine ⟨inv.mutex.step hpc st.writeMu, fun hm => mono (inv.marked hm), ?_,
    inv.call_halfClosed hpc st, inv.call_once hpc st, inv.call_order hpc st⟩
  intro q hq hp
  rcases List.mem_or_eq_of_mem_set hq with hq | rfl
  · exact mono (inv.exchanged q hq hp)
  · rcases exch hp with h | h
    · exact mono (inv.exchanged pc (List.mem_of_getElem? hpc) h)
    · exact h

end Call

/-- One step of the reader keeps the invariant. -/
lemma Disciplined.reader {s : Handle W R E} (inv : Disciplined s) {l : ReaderLabel R}
    {m' : Mem W R E} {pc' : ReaderPc E} (st : ReaderStep κ s.mem s.reader l m' pc') :
    Disciplined { s with mem := m', reader := pc' } := by
  obtain ⟨hmu, mono, hmark, hlog⟩ := st.writes
  have hsame : m'.log.any Obs.isWritesDone = s.mem.log.any Obs.isWritesDone ∧
      m'.log.countP Obs.isWritesDone = s.mem.log.countP Obs.isWritesDone ∧
      NoWriteAfter m'.log := by
    rcases hlog with h | ⟨o, hw, hd, h⟩
    · rw [h]
      exact ⟨rfl, rfl, inv.order⟩
    · rw [h, List.any_append, List.countP_append]
      refine ⟨?_, ?_, inv.order.concat (.inl hw)⟩
      · simp [hd]
      · simp [hd]
  obtain ⟨hany, hcount, horder⟩ := hsame
  refine ⟨?_, ?_, fun pc hpc hp => mono (inv.exchanged pc hpc hp), ?_, ?_, horder⟩
  · simp only [hmu]
    exact inv.mutex
  · intro hm
    rcases hmark hm with h | h
    · exact mono (inv.marked h)
    · exact h
  · intro h
    simp only at h
    rw [hany] at h
    obtain ⟨hd, hs⟩ := inv.halfClosed h
    exact ⟨mono hd, hs⟩
  · simp only
    rw [hcount]
    exact inv.once

lemma Disciplined.step {s t : Handle W R E} {a : Action W R} (inv : Disciplined s)
    (st : Step κ s a t) : Disciplined t := by
  cases st with
  | begin => exact inv.append _
  | call hpc st => exact inv.call hpc st
  | reader st => exact inv.reader st
  | destroy =>
    have h := inv.append .close
    exact ⟨h.mutex, h.marked, h.exchanged, h.halfClosed, h.once, h.order⟩
  | free => exact ⟨inv.mutex, inv.marked, inv.exchanged, inv.halfClosed, inv.once, inv.order⟩

end KubeMQ.StreamHandle
