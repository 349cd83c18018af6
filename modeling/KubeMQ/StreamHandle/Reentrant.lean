import KubeMQ.StreamHandle.Close
import KubeMQ.StreamHandle.Writes

/-!
# Callbacks that use their own handle

A callback runs on the reader thread, which holds `callback_mu` meanwhile. `Reentrant` adds to the
handle the call that the running callback has made on it: the callback returns only after that
call has. `SelfWait` is a thread that waits for a lock it holds or joins itself; what the code does
after a self-join is not modelled. `gentle` is the condition on what callbacks call: `Send`, `IsDone`
and a `Close` that finds the stream done.
-/

namespace KubeMQ.StreamHandle

variable {W R E : Type} {κ : HandleSpec W R E}

/-- A handle whose callbacks may call its methods; `nested` is the call under way in a callback. -/
structure Reentrant (W R E : Type) where
  mem : Mem W R E
  reader : ReaderPc E
  calls : List (CallPc W)
  nested : Option ℕ

/-- `begin` is a call by another thread, `nest` one by the running callback. -/
inductive NestAction (W R : Type) where
  | begin (op : Op W)
  | nest (op : Op W)
  | call (i : ℕ) (l : CallLabel)
  | reader (l : ReaderLabel R)

/-- The reader thread is inside a user callback. -/
def ReaderPc.inCallback : ReaderPc E → Bool
  | .inResult => true
  | .inReport => true
  | .inError => true
  | _ => false

/-- One step of a handle whose callbacks call its methods. When the call of a callback comes to join the
reader, that is its own thread, the model stops: nothing is said of the `std::system_error` that `join`
throws in the code. -/
def nestNext (κ : HandleSpec W R E) (s : Reentrant W R E) :
    NestAction W R → Option (Reentrant W R E)
  | .begin op => some { s with calls := s.calls ++ [op.start] }
  | .nest op =>
    if s.reader.inCallback && s.nested.isNone then
      some { s with calls := s.calls ++ [op.start], nested := some s.calls.length }
    else none
  | .call i l =>
    s.calls[i]?.bind fun pc =>
      (callNext κ s.reader.isExited s.mem i pc l).map fun r =>
        { s with
          mem := r.1
          calls := s.calls.set i r.2
          nested := if s.nested = some i ∧ r.2.returned then none else s.nested }
  | .reader l =>
    -- the callback goes on when its call has returned
    if s.nested.isSome then none
    else (readerNext κ s.mem s.reader l).map fun r => { s with mem := r.1, reader := r.2 }

/-- The system of a handle with reentrant callbacks. -/
def reentrant (κ : HandleSpec W R E) : Lts.Sys (Reentrant W R E) (NestAction W R) where
  init s := ∃ onResult onError,
    s = ⟨⟨false, none, none, onResult, onError, .start, []⟩, .read, [], none⟩
  next := nestNext κ

/-- A thread: the reader, or the one that makes call `i`. -/
inductive Thread where
  | reader
  | caller (i : ℕ)
  deriving DecidableEq

/-- The thread that executes call `i`. -/
def Reentrant.threadOf (s : Reentrant W R E) (i : ℕ) : Thread :=
  if s.nested = some i then .reader else .caller i

/-- The thread that holds `callback_mu`. -/
def Reentrant.ownerOf (s : Reentrant W R E) : Owner → Thread
  | .reader => .reader
  | .call i => s.threadOf i

/-- The calls that wait for `write_mu`. -/
def CallPc.wantsWrite : CallPc W → Bool
  | .sendLock _ => true
  | .closeLock => true
  | _ => false

/-- The calls that wait for `callback_mu`. -/
def CallPc.wantsCallback : CallPc W → Bool
  | .setLock _ _ => true
  | _ => false

/-- The calls that hold `callback_mu`. -/
def CallPc.setting : CallPc W → Bool
  | .setStore _ _ => true
  | .setUnlock => true
  | _ => false

/-- The call that runs the body of `call_once` and joins the reader. -/
def CallPc.joinBody : CallPc W → Bool
  | .closeJoin .body => true
  | .waitJoin .body => true
  | _ => false

def ReaderPc.wantsCallback : ReaderPc E → Bool
  | .lockResult _ => true
  | .lockError _ => true
  | _ => false

/-- The reader holds `callback_mu`. -/
def ReaderPc.holdsCallback : ReaderPc E → Bool
  | .callResult _ => true
  | .inResult => true
  | .callReport _ => true
  | .inReport => true
  | .unlockResult => true
  | .callError _ => true
  | .inError => true
  | .unlockError => true
  | _ => false

/-- Some thread waits for a lock that it holds, or joins itself. -/
inductive SelfWait (s : Reentrant W R E) : Prop where
  | write {i j pc} :
    s.calls[i]? = some pc →
    pc.wantsWrite = true →
    s.mem.writeMu = some j →
    s.threadOf j = s.threadOf i →
    SelfWait s
  | callback {i o pc} :
    s.calls[i]? = some pc →
    pc.wantsCallback = true →
    s.mem.callbackMu = some o →
    s.ownerOf o = s.threadOf i →
    SelfWait s
  | reader {o} :
    s.reader.wantsCallback = true →
    s.mem.callbackMu = some o →
    s.ownerOf o = .reader →
    SelfWait s
  | join {i pc} :
    s.calls[i]? = some pc →
    pc.joinBody = true →
    s.mem.joiner.joinable = true →
    s.threadOf i = .reader →
    SelfWait s

/-- A step of a thread that is under way, as opposed to the begin of a new call. -/
def NestAction.ofThread : NestAction W R → Bool
  | .call _ _ => true
  | .reader _ => true
  | _ => false

/-- No thread blocks itself, and while some thread has work left some thread can step. -/
structure CallbackSafe (κ : HandleSpec W R E) (s : Reentrant W R E) : Prop where
  noSelfWait : ¬ SelfWait s
  live : (s.reader.isExited = false ∨ ∃ pc ∈ s.calls, pc.returned = false) →
    ∃ a t, NestAction.ofThread a = true ∧ (reentrant κ).next s a = some t

/-- The methods that a callback may call. -/
def Op.gentle : Op W → Bool
  | .send _ => true
  | .close => true
  | .isDone => true
  | _ => false

/-- Callbacks call only `Send`, `IsDone` and `Close`, and the exchange of such a `Close` finds
`done` already set. -/
def gentle (s : Reentrant W R E) : NestAction W R → Bool
  | .nest op => op.gentle
  | .call i _ =>
    match s.calls[i]? with
    | some .closeExchange => decide (s.nested ≠ some i) || s.mem.done
    | _ => true
  | _ => true

/-- The steps of the system. -/
inductive NestStep (κ : HandleSpec W R E) (s : Reentrant W R E) :
    NestAction W R → Reentrant W R E → Prop where
  | begin {op} :
    NestStep κ s (.begin op) { s with calls := s.calls ++ [op.start] }
  | nest {op} :
    s.reader.inCallback = true →
    s.nested = none →
    NestStep κ s (.nest op)
      { s with calls := s.calls ++ [op.start], nested := some s.calls.length }
  | call {i l pc m' pc'} :
    s.calls[i]? = some pc →
    CallStep κ s.reader.isExited i s.mem pc l m' pc' →
    NestStep κ s (.call i l)
      { s with
        mem := m'
        calls := s.calls.set i pc'
        nested := if s.nested = some i ∧ pc'.returned then none else s.nested }
  | reader {l m' pc'} :
    s.nested = none →
    ReaderStep κ s.mem s.reader l m' pc' →
    NestStep κ s (.reader l) { s with mem := m', reader := pc' }

lemma NestStep.of_next {s t : Reentrant W R E} {a : NestAction W R}
    (hn : nestNext κ s a = some t) : NestStep κ s a t := by
  cases a with
  | begin op =>
    cases hn
    exact .begin
  | nest op =>
    simp only [nestNext, Bool.and_eq_true, Option.isNone_iff_eq_none] at hn
    split at hn
    · next h =>
      cases hn
      exact .nest h.1 h.2
    · cases hn
  | call i l =>
    obtain ⟨pc, hpc, hm⟩ := Option.bind_eq_some_iff.mp hn
    obtain ⟨⟨m', pc'⟩, hc, rfl⟩ := Option.map_eq_some_iff.mp hm
    exact .call hpc (.of_next hc)
  | reader l =>
    simp only [nestNext] at hn
    split at hn
    · cases hn
    · next h =>
      obtain ⟨⟨m', pc'⟩, hr, rfl⟩ := Option.map_eq_some_iff.mp hn
      exact .reader (by simpa using h) (.of_next hr)

/-- The call that holds `callback_mu`. -/
def callerOf : Option Owner → Option ℕ
  | some (.call i) => some i
  | _ => none

/-- The unreturned calls that a callback may be in. -/
def CallPc.gentle : CallPc W → Bool
  | .sendLock _ => true
  | .sendCheck _ => true
  | .sendWrite _ => true
  | .sendUnlock _ => true
  | .closeLock => true
  | .closeExchange => true
  | .closeEarly => true
  | .isDone => true
  | _ => false

/-- A step of a call takes `callback_mu`, gives it back or leaves it alone. -/
lemma CallStep.callbackMu {exited : Bool} {i : ℕ} {m m' : Mem W R E} {pc pc' : CallPc W}
    {l : CallLabel} (st : CallStep κ exited i m pc l m' pc') :
    (m.callbackMu = none ∧ m'.callbackMu = some (.call i) ∧ pc'.setting = true) ∨
      (pc.setting = true ∧ pc'.setting = false ∧ m'.callbackMu = none) ∨
      (m'.callbackMu = m.callbackMu ∧ pc'.setting = pc.setting) := by
  cases st
  case setLock h => exact .inl ⟨h, rfl, rfl⟩
  case setUnlock => exact .inr (.inl ⟨rfl, rfl, rfl⟩)
  all_goals exact .inr (.inr ⟨rfl, rfl⟩)

/-- The same for the reader. -/
lemma ReaderStep.callbackMu {m m' : Mem W R E} {pc pc' : ReaderPc E} {l : ReaderLabel R}
    (st : ReaderStep κ m pc l m' pc') :
    (m.callbackMu = none ∧ m'.callbackMu = some .reader ∧ pc'.holdsCallback = true) ∨
      (pc.holdsCallback = true ∧ pc'.holdsCallback = false ∧ m'.callbackMu = none) ∨
      (m'.callbackMu = m.callbackMu ∧ pc'.holdsCallback = pc.holdsCallback) := by
  cases st
  case lockResult h => exact .inl ⟨h, rfl, rfl⟩
  case lockError h => exact .inl ⟨h, rfl, rfl⟩
  case unlockResult => exact .inr (.inl ⟨rfl, rfl, rfl⟩)
  case unlockError => exact .inr (.inl ⟨rfl, rfl, rfl⟩)
  all_goals exact .inr (.inr ⟨rfl, rfl⟩)

/-- Only a call that enters the body of `call_once` sets the once-flag running, and the flag is
running for no longer than that body. -/
lemma CallStep.running {exited : Bool} {i : ℕ} {m m' : Mem W R E} {pc pc' : CallPc W}
    {l : CallLabel} (st : CallStep κ exited i m pc l m' pc') (h : m'.joiner.running = true) :
    pc'.joinBody = true ∨ (m.joiner.running = true ∧ pc.joinBody = false) := by
  cases st
  case closeJoin p j q hj _ =>
    rcases Joiner.next_running hj h with rfl | ⟨hr, hp⟩
    · exact .inl rfl
    · refine .inr ⟨hr, ?_⟩
      cases p <;> first | rfl | exact absurd rfl hp
  case closeJoined p j hj =>
    rcases Joiner.next_running hj h with hq | ⟨hr, hp⟩
    · cases hq
    · refine .inr ⟨hr, ?_⟩
      cases p <;> first | rfl | exact absurd rfl hp
  case waitJoin p j q hj _ =>
    rcases Joiner.next_running hj h with rfl | ⟨hr, hp⟩
    · exact .inl rfl
    · refine .inr ⟨hr, ?_⟩
      cases p <;> first | rfl | exact absurd rfl hp
  case waitJoined p j hj =>
    rcases Joiner.next_running hj h with hq | ⟨hr, hp⟩
    · cases hq
    · refine .inr ⟨hr, ?_⟩
      cases p <;> first | rfl | exact absurd rfl hp
  all_goals exact .inr ⟨h, rfl⟩

/-- A gentle call stays gentle until it returns, if its exchange finds `done` set. -/
lemma CallStep.gentle {exited : Bool} {i : ℕ} {m m' : Mem W R E} {pc pc' : CallPc W}
    {l : CallLabel} (st : CallStep κ exited i m pc l m' pc') (hg : pc.gentle = true)
    (found : pc = .closeExchange → m.done = true) (hr : pc'.returned = false) :
    pc'.gentle = true := by
  cases st
  case exchangeOpen h => simp [found rfl] at h
  all_goals first | rfl | (cases hg; done) | cases hr

/-- `callback_mu` is held by the thread that is in a critical section of it, and by no other. -/
structure CallbackHeld (mu : Option Owner) (reader : ReaderPc E) (calls : List (CallPc W)) :
    Prop where
  callback : Lts.Mutex CallPc.setting (callerOf mu) calls
  reader : reader.holdsCallback = true ↔ mu = some .reader

/-- A step of a call keeps that. -/
lemma CallStep.held {exited : Bool} {i : ℕ} {m m' : Mem W R E} {pc pc' : CallPc W} {l : CallLabel}
    {r : ReaderPc E} {calls : List (CallPc W)} (st : CallStep κ exited i m pc l m' pc')
    (h : CallbackHeld m.callbackMu r calls) (hpc : calls[i]? = some pc) :
    CallbackHeld m'.callbackMu r (calls.set i pc') := by
  constructor
  · apply h.callback.step hpc
    rcases st.callbackMu with ⟨hn, hs, hc⟩ | ⟨hc, hc', hn⟩ | ⟨hk, hc⟩
    · rw [hn, hs]
      exact .inl ⟨rfl, rfl, hc⟩
    · rw [hn]
      exact .inr (.inl ⟨hc, hc', rfl⟩)
    · rw [hk]
      exact .inr (.inr ⟨rfl, hc⟩)
  · rw [h.reader]
    rcases st.callbackMu with ⟨hn, hs, -⟩ | ⟨hc, -, hn⟩ | ⟨hk, -⟩
    · rw [hs, hn]
      simp
    · have hcaller := h.callback.locked i pc hpc hc
      rw [hn]
      constructor
      · intro hr
        rw [hr] at hcaller
        cases hcaller
      · intro hr
        cases hr
    · rw [hk]

/-- So does a step of the reader. -/
lemma ReaderStep.held {m m' : Mem W R E} {pc pc' : ReaderPc E} {l : ReaderLabel R}
    {calls : List (CallPc W)} (st : ReaderStep κ m pc l m' pc')
    (h : CallbackHeld m.callbackMu pc calls) : CallbackHeld m'.callbackMu pc' calls := by
  have hmu := h.callback
  rcases st.callbackMu with ⟨hn, hs, hc⟩ | ⟨hc, hc', hn⟩ | ⟨hk, hc⟩
  · rw [hn] at hmu
    rw [hs]
    exact ⟨hmu, iff_of_true hc rfl⟩
  · rw [h.reader.mp hc] at hmu
    rw [hn]
    exact ⟨hmu, iff_of_false (by simp [hc']) nofun⟩
  · rw [hk]
    refine ⟨hmu, ?_⟩
    rw [hc]
    exact h.reader

/-- The invariant of the gentle runs. -/
structure NestInv (s : Reentrant W R E) : Prop where
  write : Lts.Mutex CallPc.writing s.mem.writeMu s.calls
  callback : Lts.Mutex CallPc.setting (callerOf s.mem.callbackMu) s.calls
  reader : s.reader.holdsCallback = true ↔ s.mem.callbackMu = some .reader
  body : s.mem.joiner.running = true →
    ∃ (i : ℕ) (pc : CallPc W), s.calls[i]? = some pc ∧ pc.joinBody = true
  proper : ∀ pc ∈ s.calls, pc ≠ .closeJoin .returned ∧ pc ≠ .waitJoin .returned
  nested : ∀ i, s.nested = some i →
    s.reader.inCallback = true ∧ ∃ pc, s.calls[i]? = some pc ∧ pc.gentle = true

lemma Op.start_unlocked (op : Op W) :
    op.start.writing = false ∧ op.start.setting = false ∧
      op.start ≠ .closeJoin .returned ∧ op.start ≠ .waitJoin .returned := by
  cases op <;> exact ⟨rfl, rfl, nofun, nofun⟩

/-- A call whose join has returned has returned itself. -/
lemma CallStep.proper {exited : Bool} {i : ℕ} {m m' : Mem W R E} {pc pc' : CallPc W}
    {l : CallLabel} (st : CallStep κ exited i m pc l m' pc') :
    pc' ≠ .closeJoin .returned ∧ pc' ≠ .waitJoin .returned := by
  cases st
  case closeJoin hne => exact ⟨fun h => hne (CallPc.closeJoin.inj h), nofun⟩
  case waitJoin hne => exact ⟨nofun, fun h => hne (CallPc.waitJoin.inj h)⟩
  all_goals exact ⟨nofun, nofun⟩

/-- A new call, by another thread or by the callback. -/
lemma NestInv.append {s : Reentrant W R E} (inv : NestInv s) (op : Op W) (n : Option ℕ)
    (hn : ∀ i, n = some i → s.reader.inCallback = true ∧
      ∃ pc, (s.calls ++ [op.start])[i]? = some pc ∧ pc.gentle = true) :
    NestInv { s with calls := s.calls ++ [op.start], nested := n } := by
  obtain ⟨hw, hset, hproper⟩ := op.start_unlocked
  refine ⟨inv.write.append hw, inv.callback.append hset, inv.reader, ?_, ?_, hn⟩
  · intro hr
    obtain ⟨i, pc, hpc, hb⟩ := inv.body hr
    have hlt := (List.getElem?_eq_some_iff.mp hpc).1
    exact ⟨i, pc, by rwa [List.getElem?_append_left hlt], hb⟩
  · intro pc hpc
    rcases List.mem_append.mp hpc with hpc | hpc
    · exact inv.proper pc hpc
    · rw [List.mem_singleton.mp hpc]
      exact hproper

section Call

variable {s : Reentrant W R E} {i : ℕ} {pc pc' : CallPc W} {l : CallLabel} {m' : Mem W R E}

lemma NestInv.held (inv : NestInv s) : CallbackHeld s.mem.callbackMu s.reader s.calls :=
  ⟨inv.callback, inv.reader⟩

/-- Somebody is in the body of the join. -/
lemma NestInv.call_body (inv : NestInv s) (hpc : s.calls[i]? = some pc)
    (st : CallStep κ s.reader.isExited i s.mem pc l m' pc') (hr : m'.joiner.running = true) :
    ∃ (j : ℕ) (q : CallPc W), (s.calls.set i pc')[j]? = some q ∧ q.joinBody = true := by
  have hself := List.getElem?_set_self (a := pc') (List.getElem?_eq_some_iff.mp hpc).1
  rcases st.running hr with hb | ⟨hrun, hb⟩
  · exact ⟨i, pc', hself, hb⟩
  · obtain ⟨j, q, hq, hqb⟩ := inv.body hrun
    have hne : i ≠ j := by
      rintro rfl
      rw [hpc] at hq
      cases hq
      simp [hb] at hqb
    exact ⟨j, q, by rwa [List.getElem?_set_ne hne], hqb⟩

/-- The call that a callback makes stays gentle until it returns. -/
lemma NestInv.call_nested (inv : NestInv s) (hpc : s.calls[i]? = some pc)
    (st : CallStep κ s.reader.isExited i s.mem pc l m' pc')
    (guard : gentle s (.call i l : NestAction W R) = true) (j : ℕ)
    (hj : (if s.nested = some i ∧ pc'.returned then none else s.nested) = some j) :
    s.reader.inCallback = true ∧
      ∃ q, (s.calls.set i pc')[j]? = some q ∧ q.gentle = true := by
  have hself := List.getElem?_set_self (a := pc') (List.getElem?_eq_some_iff.mp hpc).1
  split at hj
  · cases hj
  · next hret =>
    obtain ⟨hin, q, hq, hg⟩ := inv.nested j hj
    refine ⟨hin, ?_⟩
    by_cases hij : i = j
    · subst hij
      rw [hpc] at hq
      cases hq
      refine ⟨pc', hself, st.gentle hg ?_ ?_⟩
      · rintro rfl
        simpa [gentle, hpc, hj] using guard
      · cases hr : pc'.returned with
        | false => rfl
        | true => exact absurd ⟨hj, hr⟩ hret
    · exact ⟨q, by rwa [List.getElem?_set_ne hij], hg⟩

lemma NestInv.call (inv : NestInv s) (hpc : s.calls[i]? = some pc)
    (st : CallStep κ s.reader.isExited i s.mem pc l m' pc')
    (guard : gentle s (.call i l : NestAction W R) = true) :
    NestInv { s with
      mem := m'
      calls := s.calls.set i pc'
      nested := if s.nested = some i ∧ pc'.returned then none else s.nested } := by
  obtain ⟨hcallback, hreader⟩ := st.held inv.held hpc
  refine ⟨inv.write.step hpc st.writeMu, hcallback, hreader, inv.call_body hpc st, ?_,
    inv.call_nested hpc st guard⟩
  intro q hq
  rcases List.mem_or_eq_of_mem_set hq with hq | rfl
  · exact inv.proper q hq
  · exact st.proper

end Call

lemma NestInv.readerStep {s : Reentrant W R E} (inv : NestInv s) (hnone : s.nested = none)
    {l : ReaderLabel R} {m' : Mem W R E} {pc' : ReaderPc E}
    (st : ReaderStep κ s.mem s.reader l m' pc') :
    NestInv { s with mem := m', reader := pc' } := by
  obtain ⟨hmu, -⟩ := st.writes
  have hjoin := st.joiner
  obtain ⟨hcallback, hreader⟩ := st.held inv.held
  refine ⟨?_, hcallback, hreader, ?_, inv.proper, ?_⟩
  · simp only [hmu]
    exact inv.write
  · simp only [hjoin]
    exact inv.body
  · intro i hi
    rw [hnone] at hi
    cases hi

lemma NestInv.step {s t : Reentrant W R E} {a : NestAction W R} (inv : NestInv s)
    (guard : gentle s a = true) (st : NestStep κ s a t) : NestInv t := by
  cases st with
  | @begin op =>
    apply inv.append op s.nested
    intro i hi
    obtain ⟨hin, pc, hpc, hg⟩ := inv.nested i hi
    have hlt := (List.getElem?_eq_some_iff.mp hpc).1
    exact ⟨hin, pc, by rwa [List.getElem?_append_left hlt], hg⟩
  | @nest op hin _ =>
    apply inv.append op (some s.calls.length)
    intro i hi
    cases hi
    refine ⟨hin, op.start, List.getElem?_concat_length, ?_⟩
    cases op <;> first | rfl | cases guard
  | call hpc st => exact inv.call hpc st guard
  | reader hnone st => exact inv.readerStep hnone st

lemma nestInv_reach {s : Reentrant W R E}
    (h : (reentrant κ).Reach (fun s a => gentle s a = true) s) : NestInv s := by
  induction h with
  | init hi =>
    obtain ⟨onResult, onError, rfl⟩ := hi
    refine ⟨.nil, .nil, ?_, ?_, ?_, ?_⟩
    · constructor <;> intro h <;> cases h
    · intro h
      cases h
    · intro pc h
      cases h
    · intro i h
      cases h
  | step _ guard hn ih => exact ih.step guard (NestStep.of_next hn)

lemma Reentrant.threadOf_reader {s : Reentrant W R E} {i : ℕ} (h : s.threadOf i = .reader) :
    s.nested = some i := by
  unfold Reentrant.threadOf at h
  split at h
  · assumption
  · cases h

/-- Different calls are made by different threads, but for the one in the callback. -/
lemma Reentrant.threadOf_inj {s : Reentrant W R E} {i j : ℕ} (h : s.threadOf i = s.threadOf j) :
    i = j := by
  by_cases hi : s.nested = some i
  · have hj : s.threadOf j = .reader := by
      rw [← h]
      exact if_pos hi
    rw [Reentrant.threadOf_reader hj] at hi
    exact (Option.some.inj hi).symm
  · have hi' : s.threadOf i = .caller i := if_neg hi
    rw [hi', Reentrant.threadOf] at h
    split at h
    · cases h
    · exact Thread.caller.inj h

/-- The callback's call neither sets a callback nor joins. -/
lemma NestInv.nested_gentle {s : Reentrant W R E} (inv : NestInv s) {i : ℕ} {pc : CallPc W}
    (hn : s.nested = some i) (hpc : s.calls[i]? = some pc) : pc.gentle = true := by
  obtain ⟨-, q, hq, hg⟩ := inv.nested i hn
  rw [hpc] at hq
  cases hq
  exact hg

lemma NestInv.not_selfWait {s : Reentrant W R E} (inv : NestInv s) : ¬ SelfWait s := by
  intro h
  cases h with
  | @write i j pc hpc hw hmu hthread =>
    obtain rfl := Reentrant.threadOf_inj hthread
    obtain ⟨q, hq, hqw⟩ := inv.write.held j hmu
    rw [hpc] at hq
    cases hq
    cases pc <;> first | (cases hw; done) | cases hqw
  | @callback i o pc hpc hw hmu hthread =>
    cases o with
    | reader =>
      have hg := inv.nested_gentle (Reentrant.threadOf_reader hthread.symm) hpc
      cases pc <;> first | (cases hw; done) | cases hg
    | call j =>
      obtain rfl := Reentrant.threadOf_inj hthread
      obtain ⟨q, hq, hqs⟩ := inv.callback.held j (by rw [hmu]; rfl)
      rw [hpc] at hq
      cases hq
      cases pc <;> first | (cases hw; done) | cases hqs
  | @reader o hw hmu hthread =>
    cases o with
    | reader =>
      have hh := inv.reader.mpr hmu
      cases hr : s.reader <;> rw [hr] at hw hh <;> first | (cases hw; done) | cases hh
    | call j =>
      -- the callback's call would be under way while the reader is not in a callback
      obtain ⟨hin, -⟩ := inv.nested j (Reentrant.threadOf_reader hthread)
      cases hr : s.reader <;> rw [hr] at hw hin <;> first | (cases hw; done) | cases hin
  | @join i pc hpc hb _ hthread =>
    have hg := inv.nested_gentle (Reentrant.threadOf_reader hthread) hpc
    cases pc <;> first | cases hb | cases hg

lemma reentrant_call {s : Reentrant W R E} {i : ℕ} {pc : CallPc W} {l : CallLabel}
    {r : Mem W R E × CallPc W} (hpc : s.calls[i]? = some pc)
    (hc : callNext κ s.reader.isExited s.mem i pc l = some r) :
    ∃ a t, NestAction.ofThread a = true ∧ (reentrant κ).next s a = some t := by
  refine ⟨.call i l, { s with
    mem := r.1
    calls := s.calls.set i r.2
    nested := if s.nested = some i ∧ r.2.returned then none else s.nested }, rfl, ?_⟩
  simp only [reentrant, nestNext, hpc, Option.bind_some, hc, Option.map_some]

/-- A call that holds `write_mu` can step. -/
lemma reentrant_writing {s : Reentrant W R E} {i : ℕ} {pc : CallPc W} (hpc : s.calls[i]? = some pc)
    (hw : pc.writing = true) :
    ∃ a t, NestAction.ofThread a = true ∧ (reentrant κ).next s a = some t := by
  obtain ⟨l, r, hc⟩ := writing_enabled s.reader.isExited s.mem i hw
  exact reentrant_call hpc hc

/-- A call that waits for `write_mu` can step, or the holder can. -/
lemma NestInv.live_write {s : Reentrant W R E} (inv : NestInv s) {i : ℕ} {pc : CallPc W}
    (hpc : s.calls[i]? = some pc) (hw : pc.wantsWrite = true) :
    ∃ a t, NestAction.ofThread a = true ∧ (reentrant κ).next s a = some t := by
  cases hmu : s.mem.writeMu with
  | none =>
    have hnone : s.mem.writeMu.isNone = true := by rw [hmu]; rfl
    cases pc with
    | sendLock w => exact reentrant_call (l := .tau) hpc (if_pos hnone)
    | closeLock => exact reentrant_call (l := .tau) hpc (if_pos hnone)
    | _ => cases hw
  | some j =>
    obtain ⟨q, hq, hqw⟩ := inv.write.held j hmu
    exact reentrant_writing hq hqw

/-- A call that holds `callback_mu` can step. -/
lemma setting_enabled (exited : Bool) (mem : Mem W R E) (i : ℕ) {pc : CallPc W}
    (h : pc.setting = true) : ∃ r, callNext κ exited mem i pc .tau = some r := by
  cases pc with
  | setStore slot cb => cases slot <;> exact ⟨_, rfl⟩
  | setUnlock => exact ⟨_, rfl⟩
  | _ => cases h

/-- When `callback_mu` is held by a call, that call can step. -/
lemma NestInv.live_callback {s : Reentrant W R E} (inv : NestInv s) {j : ℕ}
    (hmu : s.mem.callbackMu = some (.call j)) :
    ∃ a t, NestAction.ofThread a = true ∧ (reentrant κ).next s a = some t := by
  obtain ⟨q, hq, hqs⟩ := inv.callback.held j (by rw [hmu]; rfl)
  obtain ⟨r, hr⟩ := setting_enabled s.reader.isExited s.mem j hqs
  exact reentrant_call hq hr

/-- A reader that holds `callback_mu` neither waits for it nor has exited. -/
lemma ReaderPc.inside {pc : ReaderPc E} (h : pc.holdsCallback = true) :
    pc.isExited = false ∧ pc.wantsCallback = false := by
  cases pc <;> first | exact ⟨rfl, rfl⟩ | cases h

/-- The reader can step, without a callback that throws, unless it has exited or waits for
`callback_mu`. -/
lemma reader_enabled (mem : Mem W R E) {pc : ReaderPc E} (hx : pc.isExited = false)
    (hw : pc.wantsCallback = true → mem.callbackMu = none) :
    ∃ l r, readerNext κ mem pc l = some r ∧ ∀ x, l ≠ .callback (some x) := by
  have tau : ∀ x, (.tau : ReaderLabel R) ≠ .callback (some x) := nofun
  have returns : ∀ x, (.callback none : ReaderLabel R) ≠ .callback (some x) := nofun
  cases pc with
  | read => exact ⟨.eos, _, rfl, nofun⟩
  | lockResult e => exact ⟨.tau, _, if_pos (by rw [hw rfl]; rfl), tau⟩
  | lockError st => exact ⟨.tau, _, if_pos (by rw [hw rfl]; rfl), tau⟩
  | callResult e =>
    refine ⟨.tau, ?_⟩
    simp only [readerNext]
    split <;> exact ⟨_, rfl, tau⟩
  | callReport x =>
    refine ⟨.tau, ?_⟩
    simp only [readerNext]
    split <;> exact ⟨_, rfl, tau⟩
  | callError st =>
    refine ⟨.tau, ?_⟩
    simp only [readerNext]
    split <;> exact ⟨_, rfl, tau⟩
  | inResult => exact ⟨.callback none, _, rfl, returns⟩
  | inReport => exact ⟨.callback none, _, rfl, returns⟩
  | inError => exact ⟨.callback none, _, rfl, returns⟩
  | finish => exact ⟨.finish ⟨.OK, ""⟩, _, rfl, nofun⟩
  | unlockResult => exact ⟨.tau, _, rfl, tau⟩
  | storeDone => exact ⟨.tau, _, rfl, tau⟩
  | unlockError => exact ⟨.tau, _, rfl, tau⟩
  | exited => cases hx

/-- While the reader runs, it can step, or the call that it waits for can. -/
lemma NestInv.live_reader {s : Reentrant W R E} (inv : NestInv s)
    (hx : s.reader.isExited = false) :
    ∃ a t, NestAction.ofThread a = true ∧ (reentrant κ).next s a = some t := by
  cases hn : s.nested with
  | some i =>
    obtain ⟨-, pc, hpc, hg⟩ := inv.nested i hn
    cases hw : pc.writing with
    | true => exact reentrant_writing hpc hw
    | false =>
      cases pc with
      | sendLock w => exact inv.live_write hpc rfl
      | closeLock => exact inv.live_write hpc rfl
      | isDone => exact reentrant_call (l := .tau) hpc rfl
      | _ => first | (cases hw; done) | cases hg
  | none =>
    have step (hw : s.reader.wantsCallback = true → s.mem.callbackMu = none) :
        ∃ a t, NestAction.ofThread a = true ∧ (reentrant κ).next s a = some t := by
      obtain ⟨l, r, hr, -⟩ := reader_enabled (κ := κ) s.mem hx hw
      refine ⟨.reader l, { s with mem := r.1, reader := r.2 }, rfl, ?_⟩
      simp [reentrant, nestNext, hn, hr]
    cases hmu : s.mem.callbackMu with
    | none => exact step fun _ => hmu
    | some o =>
      cases o with
      | reader =>
        have hh := inv.reader.mpr hmu
        exact step fun hw => absurd ((ReaderPc.inside hh).2.symm.trans hw) nofun
      | call j => exact inv.live_callback hmu

/-- When the reader has exited, a call in the body of `call_once` can step. -/
lemma live_joinBody {s : Reentrant W R E} (hx : s.reader.isExited = true) {i : ℕ} {pc : CallPc W}
    (hpc : s.calls[i]? = some pc) (hb : pc.joinBody = true) :
    ∃ a t, NestAction.ofThread a = true ∧ (reentrant κ).next s a = some t := by
  obtain ⟨r, hr⟩ : ∃ r, s.mem.joiner.next s.reader.isExited .body = some r := by
    rw [hx]
    exact s.mem.joiner.next_enabled nofun nofun
  cases pc with
  | closeJoin p =>
    cases p <;> first | (cases hb; done) | skip
    exact reentrant_call (l := .tau) hpc (by simp only [callNext, hr]; rfl)
  | waitJoin p =>
    cases p <;> first | (cases hb; done) | skip
    exact reentrant_call (l := .tau) hpc (by simp only [callNext, hr]; rfl)
  | _ => cases hb

/-- When the reader has exited, a call that joins it can step, or the one in the body can. -/
lemma NestInv.live_join {s : Reentrant W R E} (inv : NestInv s) (hx : s.reader.isExited = true)
    {i : ℕ} {pc : CallPc W} (hpc : s.calls[i]? = some pc) {p : JoinPc} (hp : p ≠ .returned)
    (hc : ∀ r, s.mem.joiner.next s.reader.isExited p = some r →
      ∃ l r', callNext κ s.reader.isExited s.mem i pc l = some r') :
    ∃ a t, NestAction.ofThread a = true ∧ (reentrant κ).next s a = some t := by
  cases hrun : s.mem.joiner.running with
  | true =>
    obtain ⟨j, q, hq, hb⟩ := inv.body hrun
    exact live_joinBody hx hq hb
  | false =>
    obtain ⟨r, hr⟩ : ∃ r, s.mem.joiner.next s.reader.isExited p = some r := by
      rw [hx]
      exact s.mem.joiner.next_enabled hp fun _ => hrun
    obtain ⟨l, r', hr'⟩ := hc r hr
    exact reentrant_call hpc hr'

/-- When the reader has exited, an unreturned call can step or waits for one that can. -/
lemma NestInv.live_calls {s : Reentrant W R E} (inv : NestInv s)
    (hx : s.reader.isExited = true) {i : ℕ} {pc : CallPc W} (hpc : s.calls[i]? = some pc)
    (hr : pc.returned = false) :
    ∃ a t, NestAction.ofThread a = true ∧ (reentrant κ).next s a = some t := by
  cases hw : pc.writing with
  | true => exact reentrant_writing hpc hw
  | false =>
    cases pc with
    | sendLock w => exact inv.live_write hpc rfl
    | closeLock => exact inv.live_write hpc rfl
    | isDone => exact reentrant_call (l := .tau) hpc rfl
    | setLock slot cb =>
      cases hmu : s.mem.callbackMu with
      | none => exact reentrant_call (l := .tau) hpc (if_pos (by rw [hmu]; rfl))
      | some o =>
        cases o with
        | reader =>
          have hh := inv.reader.mpr hmu
          exact absurd ((ReaderPc.inside hh).1.symm.trans hx) nofun
        | call j => exact inv.live_callback hmu
    | setStore slot cb =>
      cases slot with
      | onResult => exact reentrant_call (l := .tau) hpc rfl
      | onError => exact reentrant_call (l := .tau) hpc rfl
    | setUnlock => exact reentrant_call (l := .tau) hpc rfl
    | closeJoin p =>
      refine inv.live_join hx hpc (p := p) ?_ fun r hr => ⟨.tau, _, by simp only [callNext, hr]; rfl⟩
      rintro rfl
      exact (inv.proper _ (List.mem_of_getElem? hpc)).1 rfl
    | waitJoin p =>
      refine inv.live_join hx hpc (p := p) ?_ fun r hr => ⟨.tau, _, by simp only [callNext, hr]; rfl⟩
      rintro rfl
      exact (inv.proper _ (List.mem_of_getElem? hpc)).2 rfl
    | _ => first | (cases hr; done) | cases hw

/-- In every run in which callbacks call only `Send`, `IsDone` and a `Close` whose exchange finds
`done` set, no thread blocks itself and the handle never gets stuck. -/
theorem gentle_callbacks_safe {W R E : Type} (κ : HandleSpec W R E) (s : Reentrant W R E)
    (h : (reentrant κ).Reach (fun s a => gentle s a = true) s) : CallbackSafe κ s := by
  have inv := nestInv_reach h
  refine ⟨inv.not_selfWait, ?_⟩
  intro work
  cases hx : s.reader.isExited with
  | false => exact inv.live_reader hx
  | true =>
    rcases work with hrun | ⟨pc, hmem, hr⟩
    · rw [hx] at hrun
      cases hrun
    · obtain ⟨i, hpc⟩ := List.getElem?_of_mem hmem
      exact inv.live_calls hx hpc hr

/-- A response arrives and `on_result` makes a call, which then takes `n` steps. -/
def inOnResult {W R : Type} (r : R) (op : Op W) (n : ℕ) : List (NestAction W R) :=
  [.reader (.result r), .reader .tau, .reader .tau, .nest op] ++ List.replicate n (.call 0 .tau)

/-- The callback asks `IsDone` while another thread closes the handle. -/
theorem gentle_callbacks_safe_isDone :
    let r : Proto.QueuesUpstreamResponse := ⟨"request", [], false, ""⟩
    let as := inOnResult r .isDone 1 ++ [.begin .close, .call 1 .tau, .call 1 .tau]
    ∃ s, (reentrant HandleSpec.queueUpstream).execWhere gentle
        ⟨⟨false, none, none, some 0, none, .start, []⟩, .read, [], none⟩ as = some s ∧
      CallbackSafe HandleSpec.queueUpstream s := by
  intro r as
  have hinit : (reentrant HandleSpec.queueUpstream).Reach (fun s a => gentle s a = true)
      ⟨⟨false, none, none, some 0, none, .start, []⟩, .read, [], none⟩ := .init ⟨some 0, none, rfl⟩
  have hsome : ((reentrant HandleSpec.queueUpstream).execWhere gentle
      ⟨⟨false, none, none, some 0, none, .start, []⟩, .read, [], none⟩ as).isSome = true := by
    decide +kernel
  obtain ⟨s, hs⟩ := Option.isSome_iff_exists.mp hsome
  have hreach := hinit.execWhere as hs
  exact ⟨s, hs, gentle_callbacks_safe HandleSpec.queueUpstream s hreach⟩

/-- `on_result` has called `SetOnResult`, which waits for the `callback_mu` of its own thread. -/
def setInCallback {W R E : Type} (f : R → E) (r : R) : Reentrant W R E where
  mem := ⟨false, none, some .reader, some 0, none, .start, [.response r, .onResult 0 (f r)]⟩
  reader := .inResult
  calls := [.setLock .onResult none]
  nested := some 0

/-- `on_result` has called `Close`, which is about to join its own thread. -/
def closeInCallback {W R E : Type} (f : R → E) (r : R) : Reentrant W R E where
  mem := ⟨true, none, some .reader, some 0, none, ⟨true, false, true⟩,
    [.response r, .onResult 0 (f r), .writesDone 0]⟩
  reader := .inResult
  calls := [.closeJoin .body]
  nested := some 0

lemma setInCallback_reachable (name streamName : String) (channelOf : W → String) (f : R → E)
    (r : R) :
    (reentrant ⟨name, streamName, channelOf, some f⟩).Reachable (setInCallback f r) :=
  Lts.Sys.Reachable.exec (.init ⟨some 0, none, rfl⟩) (inOnResult r (.set .onResult none) 0) rfl

lemma closeInCallback_reachable (name streamName : String) (channelOf : W → String) (f : R → E)
    (r : R) :
    (reentrant ⟨name, streamName, channelOf, some f⟩).Reachable (closeInCallback f r) :=
  Lts.Sys.Reachable.exec (.init ⟨some 0, none, rfl⟩) (inOnResult r .close 5) rfl

lemma setInCallback_selfWait (f : R → E) (r : R) :
    SelfWait (setInCallback f r : Reentrant W R E) :=
  .callback (i := 0) (o := .reader) rfl rfl rfl rfl

lemma closeInCallback_selfWait (f : R → E) (r : R) :
    SelfWait (closeInCallback f r : Reentrant W R E) :=
  .join (i := 0) rfl rfl rfl rfl

/-- On both handles, an `on_result` that calls `SetOnResult` waits for the lock its thread holds,
and one that calls `Close` joins itself. -/
theorem callbacks_block_themselves :
    (¬ ∀ s, (reentrant HandleSpec.eventStoreStream).Reachable s →
      CallbackSafe HandleSpec.eventStoreStream s) ∧
    (¬ ∀ s, (reentrant HandleSpec.queueUpstream).Reachable s →
      CallbackSafe HandleSpec.queueUpstream s) ∧
    (reentrant HandleSpec.queueUpstream).Reachable
      (closeInCallback queueUpstreamResponseFromProto ⟨"request", [], false, ""⟩) ∧
    SelfWait (closeInCallback queueUpstreamResponseFromProto ⟨"request", [], false, ""⟩ :
      Reentrant Proto.QueuesUpstreamRequest _ _) := by
  refine ⟨?_, ?_, ?_, ?_⟩
  · intro h
    have hsafe := h _ (setInCallback_reachable _ _ _ storeResult ⟨"event", true, ""⟩)
    exact hsafe.noSelfWait (setInCallback_selfWait _ _)
  · intro h
    have hsafe := h _ (setInCallback_reachable _ _ _ queueUpstreamResponseFromProto
      ⟨"request", [], false, ""⟩)
    exact hsafe.noSelfWait (setInCallback_selfWait _ _)
  · exact closeInCallback_reachable _ _ _ queueUpstreamResponseFromProto _
  · exact closeInCallback_selfWait _ _

end KubeMQ.StreamHandle
