import KubeMQ.StreamHandle.Inversion

/-!
# Closing a stream handle joins its reader

`Close` returns at once when its `done.exchange(true)` finds the flag already set. The flag is set
by the first `Close`, but also by the reader thread when the server ends the stream, and in both
cases the reader may still be running or unjoined. Whenever this early return is taken only after
the reader has been joined (`earlyReturnJoined`), a returned `Close` has joined the reader and
destruction is safe (`close_joins_reader`). Otherwise the destructor reaches `std::terminate`
(`server_end_then_destroy_terminates`).
-/

namespace KubeMQ.StreamHandle

variable {W R E : Type} {κ : HandleSpec W R E}

/-- The early return of `Close` is taken only when the reader thread has been joined. -/
def earlyReturnJoined (s : Handle W R E) : Action W R → Bool
  | .call i _ =>
    match s.calls[i]? with
    | some .closeExchange => !s.mem.done || !s.mem.joiner.joinable
    | _ => true
  | _ => true

/-- A returned `Close` has joined the reader thread, no joinable thread is destroyed, and after
the destructor the reader, which runs the callbacks, takes no step. -/
structure CloseJoins (κ : HandleSpec W R E) (s : Handle W R E) : Prop where
  joined : ∀ pc ∈ s.calls, pc = .closed →
    s.mem.joiner.joinable = false ∧ s.reader.isExited = true
  alive : s.terminated = false
  silent : s.destroyed = true → s.mem.joiner.joinable = false ∧ ∀ l, next κ s (.reader l) = none

/-- A `Close` that has returned or is about to return early. -/
def CallPc.pastJoin : CallPc W → Bool
  | .closeEarly => true
  | .closed => true
  | _ => false

/-- The invariant of the guarded runs. -/
structure JoinInv (s : Handle W R E) : Prop where
  sound : s.mem.joiner.Sound s.reader.isExited
  past : ∀ pc ∈ s.calls, pc.pastJoin = true → s.mem.joiner.joinable = false
  destroyed : s.destroyed = true → s.mem.joiner.joinable = false
  alive : s.terminated = false

/-- The reader thread leaves the joining to others. -/
lemma ReaderStep.joiner {m m' : Mem W R E} {pc pc' : ReaderPc E} {l : ReaderLabel R}
    (st : ReaderStep κ m pc l m' pc') : m'.joiner = m.joiner := by
  cases st <;> rfl

/-- The reader thread does nothing once its function has returned. -/
lemma ReaderStep.running {m m' : Mem W R E} {pc pc' : ReaderPc E} {l : ReaderLabel R}
    (st : ReaderStep κ m pc l m' pc') : pc.isExited = false := by
  cases st <;> rfl

lemma ReaderPc.eq_exited {pc : ReaderPc E} (h : pc.isExited = true) : pc = .exited := by
  cases pc <;> first | rfl | cases h

lemma readerNext_exited (m : Mem W R E) (l : ReaderLabel R) :
    readerNext κ m .exited l = none := rfl

/-- A call leaves the joining alone or makes one step of `JoinReader`. -/
lemma CallStep.joiner {exited : Bool} {i : ℕ} {m m' : Mem W R E} {pc pc' : CallPc W}
    {l : CallLabel} (st : CallStep κ exited i m pc l m' pc') (sound : m.joiner.Sound exited) :
    m'.joiner.Sound exited ∧ (m.joiner.joinable = false → m'.joiner.joinable = false) := by
  cases st
  case closeJoin _ hj _ =>
    obtain ⟨hs, -, -, hk⟩ := Joiner.next_spec sound hj
    exact ⟨hs, hk⟩
  case closeJoined _ hj =>
    obtain ⟨hs, -, -, hk⟩ := Joiner.next_spec sound hj
    exact ⟨hs, hk⟩
  case waitJoin _ hj _ =>
    obtain ⟨hs, -, -, hk⟩ := Joiner.next_spec sound hj
    exact ⟨hs, hk⟩
  case waitJoined _ hj =>
    obtain ⟨hs, -, -, hk⟩ := Joiner.next_spec sound hj
    exact ⟨hs, hk⟩
  all_goals exact ⟨sound, id⟩

/-- How a call gets past the join: by the early return, from there to its end, or by joining. -/
lemma CallStep.past {exited : Bool} {i : ℕ} {m m' : Mem W R E} {pc pc' : CallPc W}
    {l : CallLabel} (st : CallStep κ exited i m pc l m' pc') (sound : m.joiner.Sound exited)
    (hp : pc'.pastJoin = true) :
    (pc = .closeExchange ∧ m.done = true) ∨ pc = .closeEarly ∨ m'.joiner.joinable = false := by
  cases st
  case exchangeDone hd => exact .inl ⟨rfl, hd⟩
  case closeEarly => exact .inr (.inl rfl)
  case closeJoined _ hj =>
    obtain ⟨hs, hc, -, -⟩ := Joiner.next_spec sound hj
    exact .inr (.inr (hs.joined (hc rfl)))
  all_goals cases hp

lemma joinInv_start (onResult onError : Option ℕ) :
    JoinInv (start onResult onError : Handle W R E) where
  sound := Joiner.sound_start _
  past := List.forall_mem_nil _
  destroyed := nofun
  alive := rfl

/-- One step, with the early return of `Close` restricted, keeps the invariant. -/
lemma JoinInv.step {s t : Handle W R E} {a : Action W R} (inv : JoinInv s)
    (guard : earlyReturnJoined s a = true) (st : Step κ s a t) : JoinInv t := by
  obtain ⟨sound, past, destroyed, alive⟩ := inv
  cases st with
  | @begin op _ =>
    refine ⟨sound, fun pc hpc hp => ?_, destroyed, alive⟩
    rcases List.mem_append.mp hpc with hpc | hpc
    · exact past pc hpc hp
    · -- no operation starts past the join
      cases List.mem_singleton.mp hpc
      cases op <;> cases hp
  | @call i l pc m' pc' hpc st =>
    have hmem : pc ∈ s.calls := List.mem_of_getElem? hpc
    obtain ⟨hs, keep⟩ := st.joiner sound
    refine ⟨hs, fun q hq hp => ?_, fun hd => keep (destroyed hd), alive⟩
    rcases List.mem_or_eq_of_mem_set hq with hq | rfl
    · exact keep (past q hq hp)
    · rcases st.past sound hp with ⟨rfl, hd⟩ | rfl | hj
      · -- the early return: here the guard says that the thread is joined
        have hj : s.mem.joiner.joinable = false := by
          simpa [earlyReturnJoined, hpc, hd] using guard
        exact keep hj
      · exact keep (past _ hmem rfl)
      · exact hj
  | reader st =>
    refine ⟨?_, ?_, ?_, alive⟩
    · rw [st.joiner]
      exact sound.mono fun hx => absurd hx (by simp [st.running])
    · rw [st.joiner]
      exact past
    · rw [st.joiner]
      exact destroyed
  | destroy =>
    refine ⟨sound, fun pc hpc hp => ?_, destroyed, alive⟩
    rcases List.mem_append.mp hpc with hpc | hpc
    · exact past pc hpc hp
    · cases List.mem_singleton.mp hpc
      cases hp
  | free _ _ hpc =>
    -- the destructor's own `Close` has returned
    have hj := past _ (List.mem_of_getElem? hpc) rfl
    exact ⟨sound, past, fun _ => hj, hj⟩

lemma JoinInv.closeJoins {s : Handle W R E} (inv : JoinInv s) : CloseJoins κ s := by
  have exited (hj : s.mem.joiner.joinable = false) : s.reader.isExited = true :=
    inv.sound.exited hj
  refine ⟨?_, inv.alive, fun hd => ⟨inv.destroyed hd, fun l => ?_⟩⟩
  · rintro pc hpc rfl
    have hj := inv.past _ hpc rfl
    exact ⟨hj, exited hj⟩
  · have hx := ReaderPc.eq_exited (exited (inv.destroyed hd))
    simp only [next, inv.alive, liveNext, hx, readerNext_exited]
    rfl

/-- In every run that takes the early return of `Close` only after the reader was joined, a
returned `Close` and the destructor leave no reader thread behind. -/
theorem close_joins_reader {W R E : Type} (κ : HandleSpec W R E) (s : Handle W R E)
    (h : (sys κ).Reach (fun s a => earlyReturnJoined s a = true) s) : CloseJoins κ s := by
  refine JoinInv.closeJoins (h.invariant (I := JoinInv) ?_ ?_)
  · rintro s ⟨onResult, onError, rfl⟩
    exact joinInv_start _ _
  · intro s a t _ inv guard hn
    exact inv.step guard (Step.of_next hn).2

/-- The client closes first: the reader is joined, then the handle is destroyed. -/
def clientClosesFirst {W R : Type} : List (Action W R) :=
  [.begin .close] ++ List.replicate 4 (.call 0 .tau) ++
  [.reader .eos, .reader .tau, .reader (.finish ⟨.OK, ""⟩)] ++
  List.replicate 2 (.call 0 .tau) ++
  [.destroy] ++ List.replicate 3 (.call 1 .tau) ++ [.free]

/-- The state in which that schedule ends. -/
def closedAndFreed {W R E : Type} : Handle W R E where
  mem := ⟨true, none, none, none, none, ⟨false, true, false⟩, [.writesDone 0, .finish ⟨.OK, ""⟩]⟩
  reader := .exited
  calls := [.closed, .closed]
  dtor := some 1
  destroyed := true
  terminated := false

theorem close_joins_reader_client_first :
    CloseJoins HandleSpec.queueUpstream closedAndFreed :=
  close_joins_reader HandleSpec.queueUpstream closedAndFreed
    (Lts.Sys.Reach.execWhere (.init ⟨none, none, rfl⟩) clientClosesFirst rfl)

/-- The server ends the stream with OK, then the handle is destroyed: the destructor's `Close`
finds `done` set, returns early, and a joinable thread is destroyed. -/
def serverEndsFirst {W R : Type} : List (Action W R) :=
  [.reader .eos, .reader .tau, .reader (.finish ⟨.OK, ""⟩), .destroy] ++
  List.replicate 3 (.call 0 .tau) ++ [.free]

/-- The state in which that schedule ends. -/
def endedAndTerminated {W R E : Type} : Handle W R E where
  mem := ⟨true, none, none, none, none, .start, [.finish ⟨.OK, ""⟩]⟩
  reader := .exited
  calls := [.closed]
  dtor := some 0
  destroyed := true
  terminated := true

lemma endedAndTerminated_reachable {W R E : Type} (κ : HandleSpec W R E) :
    (sys κ).Reachable endedAndTerminated :=
  Lts.Sys.Reachable.exec (.init ⟨none, none, rfl⟩) serverEndsFirst rfl

/-- After a server end, `Close` returns without joining and the destructor calls
`std::terminate`, for each of the three handles. -/
theorem server_end_then_destroy_terminates :
    (¬ ∀ s, (sys HandleSpec.eventStream).Reachable s → CloseJoins HandleSpec.eventStream s) ∧
    (¬ ∀ s, (sys HandleSpec.eventStoreStream).Reachable s →
      CloseJoins HandleSpec.eventStoreStream s) ∧
    (¬ ∀ s, (sys HandleSpec.queueUpstream).Reachable s → CloseJoins HandleSpec.queueUpstream s) := by
  refine ⟨fun h => ?_, fun h => ?_, fun h => ?_⟩
  · exact absurd (h _ (endedAndTerminated_reachable _)).alive nofun
  · exact absurd (h _ (endedAndTerminated_reachable _)).alive nofun
  · exact absurd (h _ (endedAndTerminated_reachable _)).alive nofun

end KubeMQ.StreamHandle
