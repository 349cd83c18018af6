import KubeMQ.Subscription.Cancel

/-!
# Runs without cancellation, and the history they leave

Only `Cancel` and the destructor set `done` while the reader thread runs, so in a run without
either the thread never leaves its loops (`Alive`): the exits of the nested loops are all guarded
by `done`, and so is every step on the way to the terminal error.

The projections of the log that the delivery, the reporting and the reconnect results are about
are defined here, each with what one more entry adds.
-/

namespace KubeMQ.Subscription

variable {P R : Type} {κ : SubKind P R} {h : Handlers}

/-- Neither `Cancel` nor the destructor begins. -/
def Action.keepsAlive : Action P → Bool
  | .begin .cancel => false
  | .begin .destroy => false
  | _ => true

/-- A call that will set `done`. -/
def CallPc.cancels : CallPc → Bool
  | .cancelStore _ => true
  | _ => false

/-- From the check of `done` after the loops to the end of the thread. -/
def ReaderPc.exiting : ReaderPc R → Bool
  | .exitCheck => true
  | .exitStore => true
  | .exitReport => true
  | .inExitReport => true
  | .exited => true
  | _ => false

/-- The reader thread runs, and nothing is about to stop it. -/
structure Alive (s : Sub P R) : Prop where
  done : s.mem.done = false
  running : s.reader.pc.exiting = false
  calls : ∀ pc ∈ s.calls, pc.cancels = false

lemma alive_start : Alive (start : Sub P R) :=
  ⟨rfl, rfl, fun _ hc => absurd hc List.not_mem_nil⟩

lemma ReaderStep.alive {m m' : Mem P R} {n : ℕ} {lst : GrpcStatus} {pc : ReaderPc R}
    {r' : Reader R} {l : ReaderLabel P} (st : ReaderStep κ h m n lst pc l m' r')
    (hd : m.done = false) (hx : pc.exiting = false) :
    m'.done = false ∧ r'.pc.exiting = false := by
  cases st
  case leave ht => simp [hd] at ht
  case closed ht => simp [hd] at ht
  case giveUp ht => simp [hd] at ht
  case woken ht => simp [hd] at ht
  case accept _ ht => exact ⟨(Mem.take_spec ht).1.trans hd, rfl⟩
  case skip _ ht => exact ⟨(Mem.take_spec ht).1.trans hd, rfl⟩
  all_goals first | exact ⟨hd, rfl⟩ | cases hx

lemma CallStep.alive {exited : Bool} {m m' : Mem P R} {pc pc' : CallPc} {l : CallLabel}
    (st : CallStep exited m pc l m' pc') (hd : m.done = false) (hp : pc.cancels = false) :
    m'.done = false ∧ pc'.cancels = false := by
  cases st
  case store => cases hp
  case tryCancel c k => exact ⟨(m.tryCancel_spec c k).1.trans hd, rfl⟩
  case tryCancelJoin c k => exact ⟨(m.tryCancel_spec c k).1.trans hd, rfl⟩
  all_goals exact ⟨hd, rfl⟩

lemma Alive.step {s t : Sub P R} {a : Action P} (al : Alive s) (ha : a.keepsAlive = true)
    (st : Step κ h s a t) : Alive t := by
  cases st with
  | @begin op =>
    refine ⟨al.done, al.running, fun pc hpc => ?_⟩
    rcases List.mem_append.mp hpc with hpc | hpc
    · exact al.calls pc hpc
    · cases List.mem_singleton.mp hpc
      cases op <;> first | rfl | cases ha
  | @call i l pc m' pc' hpc st =>
    obtain ⟨hd, hp⟩ := st.alive al.done (al.calls pc (List.mem_of_getElem? hpc))
    refine ⟨hd, al.running, fun q hq => ?_⟩
    rcases List.mem_or_eq_of_mem_set hq with hq | rfl
    · exact al.calls q hq
    · exact hp
  | reader st =>
    obtain ⟨hd, hr⟩ := st.alive al.done al.running
    exact ⟨hd, hr, al.calls⟩

/-- The streams handed to the reader thread, in order. -/
def handed (log : List (Obs P R)) : List ℕ :=
  log.filterMap fun o => match o with
    | .opened n _ => some n
    | _ => none

/-- The messages read, in order. -/
def messages (log : List (Obs P R)) : List P :=
  log.filterMap fun o => match o with
    | .read _ p => some p
    | _ => none

/-- How many messages were read from stream `n`. -/
def readCount (n : ℕ) (log : List (Obs P R)) : ℕ :=
  log.countP fun o => match o with
    | .read k _ => k == n
    | _ => false

/-- The arguments of the calls of the event callback, in order. -/
def onEvents (log : List (Obs P R)) : List R :=
  log.filterMap fun o => match o with
    | .onEvent r => some r
    | _ => none

/-- What the event callback threw, in order. -/
def throws (log : List (Obs P R)) : List Exn :=
  log.filterMap fun o => match o with
    | .threw x => some x
    | _ => none

/-- The arguments of the calls of `on_error`, in order. -/
def onErrors (log : List (Obs P R)) : List Status :=
  log.filterMap fun o => match o with
    | .onError st => some st
    | _ => none

lemma handed_append (log e : List (Obs P R)) : handed (log ++ e) = handed log ++ handed e :=
  List.filterMap_append

lemma messages_append (log e : List (Obs P R)) :
    messages (log ++ e) = messages log ++ messages e :=
  List.filterMap_append

lemma readCount_append (n : ℕ) (log e : List (Obs P R)) :
    readCount n (log ++ e) = readCount n log + readCount n e :=
  List.countP_append

lemma onEvents_append (log e : List (Obs P R)) :
    onEvents (log ++ e) = onEvents log ++ onEvents e :=
  List.filterMap_append

lemma throws_append (log e : List (Obs P R)) : throws (log ++ e) = throws log ++ throws e :=
  List.filterMap_append

lemma onErrors_append (log e : List (Obs P R)) :
    onErrors (log ++ e) = onErrors log ++ onErrors e :=
  List.filterMap_append

lemma readCount_eq_zero {n : ℕ} {log : List (Obs P R)} (hf : ∀ o ∈ log, o.source ≠ some n) :
    readCount n log = 0 := by
  refine List.countP_eq_zero.mpr fun o ho => ?_
  cases o with
  | read k p =>
    have hk : k ≠ n := fun hk => hf _ ho (congrArg some hk)
    simpa using hk
  | _ => simp

end KubeMQ.Subscription
