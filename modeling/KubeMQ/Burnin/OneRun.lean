import KubeMQ.Burnin.Engine
import KubeMQ.Lts.History
import KubeMQ.Lts.Lock

/-!
# One run at a time

`StartRun` looks at `state_` in one lock scope and publishes `starting` in another. As long as every
`starting` is published over a state of rest (`overRest`), the call that publishes it owns the engine
until its run enters a state of rest: no second call starts a run meanwhile, no second `RunLoop` is
active and `run_thread_` is not overwritten (`one_run`). Two calls that both look before either of
them publishes both start a run, and the second one assigns to a joinable thread
(`two_starts_overwrite`).
-/

namespace KubeMQ.Burnin

/-- The thread has not exited. -/
def RunPc.active : RunPc → Bool
  | .exited => false
  | _ => true

def Event.isStart : Event → Bool
  | .started _ => true
  | _ => false

/-- An entry into an idle, stopped or error state. -/
def Event.isEntry : Event → Bool
  | .entered _ => true
  | _ => false

/-- The engine runs one test at a time. -/
structure OneAtATime (s : Engine) : Prop where
  /-- Between two entries into a state of rest at most one `StartRun` succeeds. -/
  oneStart : Lts.Separated Event.isStart Event.isEntry s.mem.log
  oneRun : ∀ (j k : ℕ) (pc pc' : RunPc), s.mem.runs[j]? = some pc → pc.active = true →
    s.mem.runs[k]? = some pc' → pc'.active = true → j = k
  notOverwritten : ∀ i, .overwritten i ∉ s.mem.log

/-- A `StartRun` publishes `starting` only over a state of rest. -/
def overRest (s : Engine) : Action → Bool
  | .start i => s.starts[i]? != some .publish || s.mem.state.rest
  | _ => true

/-- The calls that have published `starting` and have not started their run. -/
def StartPc.owning : StartPc → Bool
  | .reset => true
  | .joinable => true
  | .join => true
  | .joining => true
  | .spawn => true
  | _ => false

/-- The runs that have not entered a state of rest. -/
def RunPc.owning : RunPc → Bool
  | .leave => false
  | .exited => false
  | _ => true

/-- What a call has found out about `run_thread_`. -/
def StartPc.Fits (thread : Option ℕ) : StartPc → Prop
  | .join => thread ≠ none
  | .joining => thread ≠ none
  | .spawn => thread = none
  | _ => True

/-- What the members and the history say about the owner of the engine. -/
structure Owned (owner : Option (ℕ ⊕ ℕ)) (m : Mem) : Prop where
  free : m.state.rest = true → owner = none
  current : ∀ (k : ℕ) (pc : RunPc), m.runs[k]? = some pc → pc.active = true → m.thread = some k
  bound : ∀ k : ℕ, m.thread = some k → k < m.runs.length
  log : Lts.Separated Event.isStart Event.isEntry m.log
  running : Lts.Pending Event.isStart Event.isEntry m.log → ∃ k, owner = some (.inr k)
  kept : ∀ i, .overwritten i ∉ m.log

/-- The invariant of the guarded runs. -/
structure Sole (owner : Option (ℕ ⊕ ℕ)) (s : Engine) : Prop where
  shared : Lts.Shared StartPc.owning RunPc.owning owner s.starts s.mem.runs
  owned : Owned owner s.mem
  fits : ∀ (i : ℕ) (pc : StartPc), s.starts[i]? = some pc → pc.Fits s.mem.thread

lemma RunPc.active_of_owning {pc : RunPc} (h : pc.owning = true) : pc.active = true := by
  cases pc
  case exited => cases h
  all_goals rfl

lemma StartPc.fits_of_not_owning {pc : StartPc} (h : pc.owning = false) (thread : Option ℕ) :
    pc.Fits thread := by
  cases pc
  case join => cases h
  case joining => cases h
  case spawn => cases h
  all_goals trivial

lemma Sole.of_atRest {s : Engine} (h : AtRest s) : Sole none s where
  shared := by
    refine ⟨?_, ?_⟩
    · rw [h.starts]
      exact Lts.Mutex.nil
    · refine ⟨fun k pc hpc hc => ?_, nofun⟩
      rw [h.runs k pc hpc] at hc
      cases hc
  owned := by
    constructor
    case free => exact fun _ => rfl
    case current =>
      intro k pc hpc ha
      rw [h.runs k pc hpc] at ha
      cases ha
    case bound => exact h.thread
    case log =>
      rw [h.log]
      exact Lts.Separated.nil
    case running =>
      intro hp
      rw [h.log] at hp
      exact hp.nil.elim
    case kept =>
      intro i hi
      rw [h.log] at hi
      cases hi
  fits := by
    intro i pc hpc
    rw [h.starts] at hpc
    cases hpc

lemma Sole.oneAtATime {owner : Option (ℕ ⊕ ℕ)} {s : Engine} (h : Sole owner s) :
    OneAtATime s where
  oneStart := h.owned.log
  oneRun := by
    intro j k pc pc' hj ha hk ha'
    have htj := h.owned.current j pc hj ha
    have htk := h.owned.current k pc' hk ha'
    rw [htj] at htk
    exact Option.some.inj htk
  notOverwritten := h.owned.kept

/-- An entry that is neither a start, nor an entry into a state of rest, nor an overwriting. -/
lemma Owned.observe {owner : Option (ℕ ⊕ ℕ)} {m : Mem} (h : Owned owner m) {ev : Event}
    (hs : ev.isStart = false) (ho : ∀ i, ev ≠ .overwritten i) : Owned owner (m.observe ev) where
  free := h.free
  current := h.current
  bound := h.bound
  log := h.log.concat fun ht => absurd (hs.symm.trans ht) nofun
  running := fun hp => h.running (hp.of_concat hs)
  kept := by
    intro i hi
    rcases List.mem_append.mp hi with hi | hi
    · exact h.kept i hi
    · exact ho i (List.mem_singleton.mp hi).symm

/-- A state in which the engine is owned may follow another. -/
lemma Owned.setState {owner : Option (ℕ ⊕ ℕ)} {m : Mem} (h : Owned owner m) {state : EngineState}
    (hr : state.rest = false) : Owned owner { m with state := state } where
  free := fun ht => absurd (hr.symm.trans ht) nofun
  current := h.current
  bound := h.bound
  log := h.log
  running := h.running
  kept := h.kept

lemma Owned.setFlag {owner : Option (ℕ ⊕ ℕ)} {m : Mem} (h : Owned owner m) (b : Bool) :
    Owned owner { m with stopRequested := b } where
  free := h.free
  current := h.current
  bound := h.bound
  log := h.log
  running := h.running
  kept := h.kept

/-- A call takes an engine that nobody owns. -/
lemma Owned.take {m : Mem} (h : Owned none m) (i : ℕ) :
    Owned (some (.inl i)) { m with state := .starting } where
  free := nofun
  current := h.current
  bound := h.bound
  log := h.log
  running := fun hp => absurd (h.running hp) (by simp)
  kept := h.kept

/-- A run gives the engine back when it enters a state of rest. -/
lemma Owned.giveBack {owner : Option (ℕ ⊕ ℕ)} {m : Mem} (h : Owned owner m) (state : EngineState) :
    Owned none ({ m with state := state }.observe (.entered state)) where
  free := fun _ => rfl
  current := h.current
  bound := h.bound
  log := h.log.concat fun ht => nomatch ht
  running := fun hp => absurd hp (Lts.Pending.not_concat rfl)
  kept := by
    intro i hi
    rcases List.mem_append.mp hi with hi | hi
    · exact h.kept i hi
    · cases List.mem_singleton.mp hi

/-- `run_thread_` is joined once its thread has exited. -/
lemma Owned.join {owner : Option (ℕ ⊕ ℕ)} {m : Mem} (h : Owned owner m) {k : ℕ}
    (ht : m.thread = some k) (hx : m.runs[k]? = some .exited) :
    Owned owner { m with thread := none } where
  free := h.free
  current := by
    intro j pc hpc ha
    have hj := h.current j pc hpc ha
    rw [ht] at hj
    cases hj
    rw [hx] at hpc
    cases hpc
    cases ha
  bound := nofun
  log := h.log
  running := h.running
  kept := h.kept

/-- The owner starts its run. -/
lemma Owned.spawn {m : Mem} {i : ℕ} (h : Owned (some (.inl i)) m) (ht : m.thread = none) :
    Owned (some (.inr m.runs.length))
      ({ m with thread := some m.runs.length, runs := m.runs ++ [RunPc.create] }.observe
        (.started i)) where
  free := fun hr => absurd (h.free hr) nofun
  current := by
    intro k pc hpc ha
    rcases Lts.getElem?_concat_cases hpc with hpc | ⟨rfl, -⟩
    · have hk := h.current k pc hpc ha
      rw [ht] at hk
      cases hk
    · rfl
  bound := by
    intro k hk
    cases hk
    simp [Mem.observe]
  log := by
    apply h.log.concat
    intro _ hp
    obtain ⟨k, hk⟩ := h.running hp
    cases hk
  running := fun _ => ⟨_, rfl⟩
  kept := by
    intro j hj
    rcases List.mem_append.mp hj with hj | hj
    · exact h.kept j hj
    · cases List.mem_singleton.mp hj

/-- A thread moves on. -/
lemma Owned.setRun {owner : Option (ℕ ⊕ ℕ)} {m : Mem} (h : Owned owner m) {k : ℕ} {pc pc' : RunPc}
    (hpc : m.runs[k]? = some pc) (ha : pc.active = true) :
    Owned owner { m with runs := m.runs.set k pc' } where
  free := h.free
  current := by
    intro j x hx ax
    rcases Lts.getElem?_set_cases hx with ⟨rfl, -⟩ | ⟨-, hx⟩
    · exact h.current j pc hpc ha
    · exact h.current j x hx ax
  bound := by
    intro j hj
    rw [List.length_set]
    exact h.bound j hj
  log := h.log
  running := h.running
  kept := h.kept

/-- A step of a call that leaves `run_thread_` alone. -/
lemma Sole.startStep {owner owner' : Option (ℕ ⊕ ℕ)} {s : Engine} {i : ℕ} {pc pc' : StartPc}
    {m' : Mem} (h : Sole owner s) (hpc : s.starts[i]? = some pc)
    (shared : Lts.Shared StartPc.owning RunPc.owning owner' (s.starts.set i pc') m'.runs)
    (owned : Owned owner' m') (fits : pc'.Fits m'.thread)
    (ht : m'.thread = s.mem.thread ∨ pc.owning = true) :
    Sole owner' { s with mem := m', starts := s.starts.set i pc' } := by
  refine ⟨shared, owned, ?_⟩
  intro j x hx
  rcases Lts.getElem?_set_cases hx with ⟨-, rfl⟩ | ⟨hj, hx⟩
  · exact fits
  · rcases ht with ht | hown
    · rw [ht]
      exact h.fits j x hx
    · -- no second call owns the engine
      apply StartPc.fits_of_not_owning
      cases ho : x.owning with
      | false => rfl
      | true => exact absurd (h.shared.left.locked.unique hx ho hpc hown) hj

/-- A step that neither takes the engine nor gives it away. -/
lemma Sole.startKeep {owner : Option (ℕ ⊕ ℕ)} {s : Engine} {i : ℕ} {pc pc' : StartPc} {m' : Mem}
    (h : Sole owner s) (hpc : s.starts[i]? = some pc) (he : pc'.owning = pc.owning)
    (hruns : m'.runs = s.mem.runs) (owned : Owned owner m') (fits : pc'.Fits m'.thread)
    (ht : m'.thread = s.mem.thread ∨ pc.owning = true) :
    ∃ owner', Sole owner' { s with mem := m', starts := s.starts.set i pc' } := by
  refine ⟨owner, h.startStep hpc ?_ owned fits ht⟩
  rw [hruns]
  exact h.shared.step_left hpc (.inr (.inr ⟨rfl, he⟩))

/-- A call inside `join` is the only one. -/
lemma Sole.not_busy {owner : Option (ℕ ⊕ ℕ)} {s : Engine} {i : ℕ} (h : Sole owner s)
    (hpc : s.starts[i]? = some .join) : s.busy = false := by
  apply List.any_eq_false.mpr
  intro pc hmem hj
  obtain ⟨j, hx⟩ := List.mem_iff_getElem?.mp hmem
  rw [of_decide_eq_true hj] at hx
  have hij := h.shared.left.locked.unique hx rfl hpc rfl
  subst hij
  rw [hpc] at hx
  cases hx

lemma Sole.start {owner : Option (ℕ ⊕ ℕ)} {s : Engine} {i : ℕ} {pc pc' : StartPc} {m' : Mem}
    (h : Sole owner s) (hpc : s.starts[i]? = some pc) (st : StartStep s.busy i s.mem pc m' pc')
    (hr : pc = .publish → s.mem.state.rest = true) :
    ∃ owner', Sole owner' { s with mem := m', starts := s.starts.set i pc' } := by
  cases st with
  | pass _ => exact h.startKeep hpc rfl rfl h.owned trivial (.inl rfl)
  | refuse _ => exact h.startKeep hpc rfl rfl h.owned trivial (.inl rfl)
  | publish =>
    obtain rfl := h.owned.free (hr rfl)
    have hsh := h.shared.step_left hpc (.inl ⟨rfl, rfl, (rfl : StartPc.reset.owning = true)⟩)
    exact ⟨some (.inl i), h.startStep hpc hsh (h.owned.take i) trivial (.inl rfl)⟩
  | reset => exact h.startKeep hpc rfl rfl (h.owned.setFlag false) trivial (.inl rfl)
  | leftover ht =>
    exact h.startKeep hpc rfl rfl h.owned (by simp [StartPc.Fits, ht]) (.inl rfl)
  | clean ht => exact h.startKeep hpc rfl rfl h.owned ht (.inl rfl)
  | overlap hb =>
    have hfree := h.not_busy hpc
    rw [hb] at hfree
    cases hfree
  | join _ ht =>
    exact h.startKeep hpc rfl rfl h.owned (by simp [StartPc.Fits, ht]) (.inl rfl)
  | threw ht => exact absurd ht (h.fits i _ hpc)
  | joined ht hx => exact h.startKeep hpc rfl rfl (h.owned.join ht hx) rfl (.inr rfl)
  | overwrite ht =>
    have hnone : s.mem.thread = none := h.fits i _ hpc
    rw [ht] at hnone
    cases hnone
  | spawn ht =>
    have hsh := h.shared.hand_over hpc rfl (rfl : StartPc.started.owning = false)
      (rfl : RunPc.create.owning = true)
    have ho := h.owned
    rw [h.shared.held_left hpc rfl] at ho
    exact ⟨_, h.startStep hpc hsh (ho.spawn ht) trivial (.inr rfl)⟩

lemma Owned.stop {owner : Option (ℕ ⊕ ℕ)} {m m' : Mem} {j : ℕ} {pc pc' : StopPc}
    (h : Owned owner m) (st : StopStep j m pc m' pc') :
    Owned owner m' := by
  cases st with
  | publish _ => exact h.setState rfl
  | refuse _ => exact h
  | store => exact (h.setFlag true).observe rfl nofun

/-- What a step of a run does to the engine: the run enters a state of rest and gives the engine
back, or the owner stays. -/
lemma Owned.run {owner : Option (ℕ ⊕ ℕ)} {m m' : Mem} {k : ℕ} {pc pc' : RunPc} {l : RunLabel}
    (h : Owned owner m) (st : RunStep k m pc l m' pc') :
    pc.active = true ∧
      ((pc.owning = true ∧ pc'.owning = false ∧ Owned none m') ∨
        (pc'.owning = pc.owning ∧ Owned owner m')) := by
  cases st with
  | create => exact ⟨rfl, .inr ⟨rfl, h⟩⟩
  | publish => exact ⟨rfl, .inr ⟨rfl, h.setState rfl⟩⟩
  | startWorkers => exact ⟨rfl, .inr ⟨rfl, h⟩⟩
  | stop _ => exact ⟨rfl, .inr ⟨rfl, h.observe rfl nofun⟩⟩
  | goOn _ => exact ⟨rfl, .inr ⟨rfl, h.observe rfl nofun⟩⟩
  | passed => exact ⟨rfl, .inr ⟨rfl, h⟩⟩
  | wait => exact ⟨rfl, .inr ⟨rfl, h.observe rfl nofun⟩⟩
  | sleep => exact ⟨rfl, .inr ⟨rfl, h⟩⟩
  | stopWorkers => exact ⟨rfl, .inr ⟨rfl, h⟩⟩
  | report => exact ⟨rfl, .inr ⟨rfl, h⟩⟩
  | finish => exact ⟨rfl, .inl ⟨rfl, rfl, h.giveBack .stopped⟩⟩
  | fail => exact ⟨rfl, .inl ⟨rfl, rfl, h.giveBack .error⟩⟩
  | leave => exact ⟨rfl, .inr ⟨rfl, h⟩⟩
  | throws hg =>
    have hown : pc.owning = true := by
      cases pc
      case fail => cases hg
      case leave => cases hg
      case exited => cases hg
      all_goals rfl
    exact ⟨RunPc.active_of_owning hown, .inr ⟨hown.symm, h⟩⟩

lemma Sole.run {owner : Option (ℕ ⊕ ℕ)} {s : Engine} {k : ℕ} {pc pc' : RunPc} {m' : Mem}
    {l : RunLabel} (h : Sole owner s) (hpc : s.mem.runs[k]? = some pc)
    (st : RunStep k s.mem pc l m' pc') :
    ∃ owner', Sole owner' { s with mem := { m' with runs := m'.runs.set k pc' } } := by
  obtain ⟨ha, hown⟩ := h.owned.run st
  obtain ⟨hruns, hthread, -⟩ := st.frame
  have hpc' : m'.runs[k]? = some pc := by
    rw [hruns]
    exact hpc
  have hfits : ∀ (i : ℕ) (x : StartPc), s.starts[i]? = some x → x.Fits m'.thread := by
    rw [hthread]
    exact h.fits
  have hsh := h.shared
  rw [← hruns] at hsh
  rcases hown with ⟨hc, hc', ho⟩ | ⟨he, ho⟩
  · exact ⟨none, hsh.step_right hpc' (.inr (.inl ⟨hc, hc', rfl⟩)), ho.setRun hpc' ha, hfits⟩
  · exact ⟨owner, hsh.step_right hpc' (.inr (.inr ⟨rfl, he⟩)), ho.setRun hpc' ha, hfits⟩

/-- Every guarded step finds one owner or none and leaves one or none. -/
lemma Sole.step {owner : Option (ℕ ⊕ ℕ)} {s t : Engine} {a : Action} (h : Sole owner s)
    (hg : overRest s a = true) (st : Step s a t) : ∃ owner', Sole owner' t := by
  cases st with
  | beginStart =>
    refine ⟨owner, h.shared.append_left rfl, h.owned, ?_⟩
    intro i pc hpc
    rcases Lts.getElem?_concat_cases hpc with hpc | ⟨-, rfl⟩
    · exact h.fits i pc hpc
    · trivial
  | beginStop => exact ⟨owner, h.shared, h.owned, h.fits⟩
  | start hpc st =>
    apply h.start hpc st
    rintro rfl
    simpa [overRest, hpc] using hg
  | stop hpc st =>
    obtain ⟨hruns, hthread, -⟩ := st.frame
    refine ⟨owner, ?_, h.owned.stop st, ?_⟩
    · rw [hruns]
      exact h.shared
    · rw [hthread]
      exact h.fits
  | run hpc st => exact h.run hpc st

/-- While every `StartRun` publishes `starting` over a state of rest, one test runs at a time. -/
theorem one_run {s : Engine} (h : sys.Reach (fun s a => overRest s a = true) s) : OneAtATime s := by
  have hsole : ∃ owner, Sole owner s := by
    induction h with
    | init hi => exact ⟨none, Sole.of_atRest hi⟩
    | step _ hg hn ih =>
      obtain ⟨owner, hs⟩ := ih
      exact hs.step hg (Step.of_next hn)
  obtain ⟨owner, hs⟩ := hsole
  exact hs.oneAtATime

/-- `n` steps of the `i`-th `StartRun`. -/
def starting (n i : ℕ) : List Action := List.replicate n (.start i)

/-- `n` steps of the `k`-th run. -/
def running (n k : ℕ) : List Action := List.replicate n (.run k .tau)

/-- A run that reaches its duration, and a second one that joins the thread of the first. -/
def oneAfterAnother : List Action :=
  List.flatten [[.beginStart], starting 5 0, running 4 0, [.run 0 (.elapsed true)], running 3 0,
    [.beginStart], starting 5 1, running 1 0, starting 2 1]

theorem one_run_twice :
    ∃ s, sys.execWhere overRest construct oneAfterAnother = some s ∧
      s.starts = [.started, .started] ∧ OneAtATime s := by
  have hsome : (sys.execWhere overRest construct oneAfterAnother).map (·.starts) =
      some [.started, .started] := rfl
  obtain ⟨s, hs, hstarts⟩ := Option.map_eq_some_iff.mp hsome
  have hinit : sys.Reach (fun s a => overRest s a = true) construct := .init atRest_construct
  exact ⟨s, hs, hstarts, one_run (hinit.execWhere oneAfterAnother hs)⟩

/-- Two calls look at the state before either of them publishes. -/
def bothPass : List Action :=
  [.beginStart, .beginStart, .start 0, .start 1] ++ starting 3 0 ++ starting 3 1 ++
    [.start 0, .start 1]

/-- The second call assigns to the thread of the first run. -/
def overwritten : Engine where
  mem := ⟨.starting, false, some 0, [.create], true, [.started 0, .overwritten 1]⟩
  starts := [.started, .spawn]
  stops := []

theorem two_starts_overwrite :
    (¬ ∀ s, sys.Reachable s → OneAtATime s) ∧
    sys.Reachable overwritten ∧ ¬ OneAtATime overwritten := by
  have hreach : sys.Reachable overwritten :=
    Lts.Sys.Reachable.exec (.init atRest_construct) bothPass rfl
  have hnot : ¬ OneAtATime overwritten := by
    intro h
    apply h.notOverwritten 1
    simp [overwritten]
  exact ⟨fun h => hnot (h _ hreach), hreach, hnot⟩

end KubeMQ.Burnin
