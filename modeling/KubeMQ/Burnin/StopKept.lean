import KubeMQ.Burnin.OneCall
import KubeMQ.Lts.History
import Mathlib.Algebra.GroupWithZero.Nat
import Mathlib.Data.List.Count

/-!
# A stop request is kept

What a caller of `StopRun` may rely on once it has returned the empty string (`StopHeard`,
`StateKept`), on an engine on which `StartRun` is called once. `StartRun` clears `stop_requested_`
after it has published `starting`, and `RunLoop` publishes `running` whatever the state is. A request
that is stored before the flag is cleared is lost, and one that comes before `running` is published is
heard, but the state goes back to `running` (`stop_request_lost`). The first does not happen while the
flag is set only after it was cleared (`afterClear`), the second while `running` is not published over
`stopping` (`notOverStopping`): that is `stop_request_kept`.
-/

namespace KubeMQ.Burnin

/-- A `StopRun` has returned the empty string. -/
def Mem.Stopped (m : Mem) : Prop := ∃ j, .stopReturned j ∈ m.log

/-- The call has returned. -/
def StartPc.returned : StartPc → Bool
  | .started => true
  | .refused _ => true
  | .threw => true
  | _ => false

/-- The thread is past the wait loop. -/
def RunPc.leftLoop : RunPc → Bool
  | .stopWorkers => true
  | .report => true
  | .finish => true
  | .fail => true
  | .leave => true
  | .exited => true
  | _ => false

/-- The run has left its wait loop. -/
def Engine.LoopLeft (s : Engine) : Prop :=
  (∀ pc ∈ s.starts, pc.returned = true) ∧ ∀ pc ∈ s.mem.runs, pc.leftLoop = true

/-- The call has returned and its thread has exited. -/
def Engine.Ended (s : Engine) : Prop :=
  (∀ pc ∈ s.starts, pc.returned = true) ∧ ∀ pc ∈ s.mem.runs, pc = .exited

def Event.isTest : Event → Bool
  | .tested _ _ => true
  | _ => false

def Event.isWait : Event → Bool
  | .waited _ => true
  | _ => false

/-- The actions of `StartRun` and of the run. -/
def Action.ofRun : Action → Bool
  | .start _ => true
  | .run _ _ => true
  | _ => false

/-- Once a `StopRun` has returned the empty string the run is bound to end. -/
structure StopHeard (s : Engine) : Prop where
  flag : s.mem.Stopped → ¬ s.LoopLeft → s.mem.stopRequested = true
  /-- The run sleeps at most once more, and not at all when it has not looked at the flag before. -/
  wait : ∀ before j after, s.mem.log = before ++ .stopReturned j :: after →
    after.countP Event.isWait ≤ (before.any Event.isTest).toNat
  bounded : s.mem.Stopped → ∀ as t, single.exec s as = some t → as.countP Action.ofRun ≤ 13
  enabled : s.mem.Stopped → s.Ended ∨ ∃ a, a.ofRun = true ∧ (single.next s a).isSome = true

/-- Nor does the state go back. -/
def StateKept (s : Engine) : Prop :=
  s.mem.Stopped → s.mem.state ≠ .starting ∧ s.mem.state ≠ .running

/-- The stop request is not lost. -/
structure StopKept (s : Engine) : Prop where
  heard : StopHeard s
  state : StateKept s

/-- No `StopRun` sets the flag while a `StartRun` is about to clear it. -/
def afterClear (s : Engine) : Action → Bool
  | .stop j => s.stops[j]? != some .store || !s.starts.any (· = .reset)
  | _ => true

/-- `RunLoop` does not publish `running` over `stopping`. -/
def notOverStopping (s : Engine) : Action → Bool
  | .run k .tau => s.mem.runs[k]? != some .publish || s.mem.state != .stopping
  | _ => true

/-- `starting` has not been published. -/
def Place.early : Place → Bool
  | .idle => true
  | .call .check => true
  | .call .publish => true
  | .call (.refused _) => true
  | _ => false

/-- `starting` has been published and `running` has not. -/
def Place.opening : Place → Bool
  | .call .reset => true
  | .call .joinable => true
  | .call .join => true
  | .call .joining => true
  | .call .spawn => true
  | .run .create => true
  | .run .publish => true
  | _ => false

/-- The flag is about to be cleared. -/
def Place.clearing : Place → Bool
  | .call .reset => true
  | _ => false

/-- The turns of the wait loop that have begun. -/
def Place.credit : Place → ℕ
  | .run .elapsed => 1
  | _ => 0

/-- Before `starting` is published nobody stops the run, and until `running` is the state is one of
two. -/
structure Opens (m : Mem) (stops : List StopPc) (p : Place) : Prop where
  early : p.early = true →
    m.state.rest = true ∧ (∀ j : ℕ, stops[j]? ≠ some .store) ∧ ¬ m.Stopped
  opening : p.opening = true → m.state = .starting ∨ m.state = .stopping

/-- The invariant of the runs in which the flag is set after it was cleared. -/
structure Heard (m : Mem) (p : Place) : Prop where
  fresh : p.clearing = true → ¬ m.Stopped
  flag : m.Stopped → m.stopRequested = true
  wait : ∀ before x after, m.log = before ++ x :: after → ∀ j, x = .stopReturned j →
    after.countP Event.isWait + p.credit ≤ (before.any Event.isTest).toNat
  credit : p.credit ≤ (m.log.any Event.isTest).toNat

/-- The invariant of the runs in which `running` is not published over `stopping`. -/
def Kept (m : Mem) (stops : List StopPc) : Prop :=
  ∀ j : ℕ, stops[j]? = some .store ∨ .stopReturned j ∈ m.log →
    m.state ≠ .starting ∧ m.state ≠ .running

/-- A `StopRun` does not stop an engine at rest. -/
lemma EngineState.not_stoppable {state : EngineState} (h : state.rest = true) :
    state.stoppable = false := by
  cases state with
  | idle => rfl
  | stopped => rfl
  | error => rfl
  | starting => cases h
  | running => cases h
  | stopping => cases h

/-- An entry that is not the return of a `StopRun`. -/
lemma Mem.not_stopped_observe {m : Mem} {ev : Event} (h : ¬ m.Stopped)
    (hev : ∀ j, ev ≠ .stopReturned j) : ¬ (m.observe ev).Stopped := by
  rintro ⟨j, hj⟩
  rcases List.mem_append.mp hj with hj | hj
  · exact h ⟨j, hj⟩
  · exact hev j (List.mem_singleton.mp hj).symm

lemma Mem.stopped_of_observe {m : Mem} {ev : Event} (h : (m.observe ev).Stopped)
    (hev : ∀ j, ev ≠ .stopReturned j) : m.Stopped := by
  by_contra hn
  exact Mem.not_stopped_observe hn hev h

section Opens

variable {m m' : Mem} {stops : List StopPc} {p : Place}

lemma Opens.of_atRest {s : Engine} (h : AtRest s) : Opens s.mem s.stops .idle where
  early := by
    intro _
    refine ⟨h.state, ?_, ?_⟩
    · intro j hj
      rw [h.stops] at hj
      cases hj
    · rintro ⟨j, hj⟩
      rw [h.log] at hj
      cases hj
  opening := nofun

/-- A step of the call. -/
lemma Opens.call {busy : Bool} {i : ℕ} {pc pc' : StartPc} (h : Opens m stops (.call pc))
    (st : StartStep busy i m pc m' pc') : Opens m' stops (.call pc') := by
  cases st with
  | pass _ => exact ⟨fun _ => h.early rfl, nofun⟩
  | refuse _ => exact ⟨fun _ => h.early rfl, nofun⟩
  | publish => exact ⟨nofun, fun _ => .inl rfl⟩
  | reset => exact ⟨nofun, fun _ => h.opening rfl⟩
  | leftover _ => exact ⟨nofun, fun _ => h.opening rfl⟩
  | clean _ => exact ⟨nofun, fun _ => h.opening rfl⟩
  | overlap _ => exact ⟨nofun, fun _ => h.opening rfl⟩
  | join _ _ => exact ⟨nofun, fun _ => h.opening rfl⟩
  | threw _ => exact ⟨nofun, nofun⟩
  | joined _ _ => exact ⟨nofun, fun _ => h.opening rfl⟩
  | overwrite _ => exact ⟨nofun, fun _ => h.opening rfl⟩
  | spawn _ => exact ⟨nofun, nofun⟩

/-- A step of the run. -/
lemma Opens.run {k : ℕ} {l : RunLabel} {pc pc' : RunPc} (h : Opens m stops (.run pc))
    (st : RunStep k m pc l m' pc') : Opens m' stops (.run pc') := by
  refine ⟨nofun, ?_⟩
  cases st with
  | create => exact fun _ => h.opening rfl
  | _ => exact nofun

/-- A step of a `StopRun`, which finds the engine started. -/
lemma Opens.stop {j : ℕ} {pc pc' : StopPc} (h : Opens m stops p) (hpc : stops[j]? = some pc)
    (st : StopStep j m pc m' pc') : Opens m' (stops.set j pc') p := by
  cases st with
  | publish hs =>
    refine ⟨?_, fun _ => .inr rfl⟩
    intro hp
    have hnot := EngineState.not_stoppable (h.early hp).1
    rw [hs] at hnot
    cases hnot
  | refuse _ =>
    refine ⟨?_, h.opening⟩
    intro hp
    obtain ⟨hr, hstore, hns⟩ := h.early hp
    refine ⟨hr, ?_, hns⟩
    intro i hi
    rcases Lts.getElem?_set_cases hi with ⟨-, hx⟩ | ⟨-, hi⟩
    · cases hx
    · exact hstore i hi
  | store =>
    refine ⟨?_, h.opening⟩
    intro hp
    exact absurd hpc ((h.early hp).2.1 j)

lemma Opens.move {s t : Engine} {a : Action} {p' : Place} (h : Opens s.mem s.stops p)
    (hm : Move s t a p p') : Opens t.mem t.stops p' := by
  cases hm with
  | beginStart hmem hstops =>
    rw [hmem, hstops]
    exact ⟨fun _ => h.early rfl, nofun⟩
  | beginStop hmem hstops =>
    rw [hmem, hstops]
    refine ⟨?_, h.opening⟩
    intro hp
    obtain ⟨hr, hstore, hns⟩ := h.early hp
    refine ⟨hr, ?_, hns⟩
    intro j hj
    rcases Lts.getElem?_concat_cases hj with hj | ⟨-, hx⟩
    · exact hstore j hj
    · cases hx
  | stop hpc st hstops =>
    rw [hstops]
    exact h.stop hpc st
  | call st _ hstops =>
    rw [hstops]
    exact h.call st
  | spawn hmem hstops =>
    rw [hmem, hstops]
    exact ⟨nofun, fun _ => h.opening rfl⟩
  | run _ st hmem hstops =>
    have hr := h.run st
    rw [hmem, hstops]
    exact ⟨hr.early, hr.opening⟩

end Opens

section Heard

variable {m m' : Mem} {stops : List StopPc} {p p' : Place}

/-- A step that makes no entry and begins no turn of the wait loop. -/
lemma Heard.keep (h : Heard m p) (hlog : m'.log = m.log) (hflag : m'.stopRequested = m.stopRequested)
    (hp : p'.credit ≤ p.credit) (hc : p'.clearing = true → ¬ m.Stopped) : Heard m' p' where
  fresh := by
    intro hcl hs
    rw [Mem.Stopped, hlog] at hs
    exact hc hcl hs
  flag := by
    intro hs
    rw [Mem.Stopped, hlog] at hs
    rw [hflag]
    exact h.flag hs
  wait := by
    rw [hlog]
    intro before x after heq j hx
    have hle := h.wait before x after heq j hx
    omega
  credit := by
    rw [hlog]
    exact Nat.le_trans hp h.credit

/-- A new entry takes what it costs from the credit, or is a test that gives one turn. -/
lemma Heard.observe {ev : Event} (h : Heard m p) (hev : ∀ j, ev ≠ .stopReturned j)
    (hc : p'.clearing = true → ¬ m.Stopped)
    (hw : (Event.isWait ev).toNat + p'.credit ≤ p.credit ∨
      (Event.isWait ev = false ∧ Event.isTest ev = true ∧ p'.credit ≤ 1 ∧
        (m.Stopped → p'.credit = 0))) : Heard (m.observe ev) p' where
  fresh := fun hcl => Mem.not_stopped_observe (hc hcl) hev
  flag := fun hs => h.flag (Mem.stopped_of_observe hs hev)
  wait := by
    intro before x after heq j hx
    rcases Lts.split_concat heq with ⟨rest, hlog, rfl⟩ | ⟨-, rfl, -⟩
    · have hle := h.wait before x rest hlog j hx
      have hs : m.Stopped := by
        refine ⟨j, ?_⟩
        rw [hlog, ← hx]
        simp
      rw [List.countP_append, List.countP_singleton]
      rcases hw with hw | ⟨hnw, -, -, hz⟩
      · cases hb : Event.isWait ev <;> simp only [hb] at hw ⊢ <;> simp at hw ⊢ <;> omega
      · rw [hnw, hz hs]
        simp
        omega
    · exact absurd hx (hev j)
  credit := by
    have hle := h.credit
    simp only [Mem.observe, List.any_append, List.any_cons, List.any_nil, Bool.or_false]
    rcases hw with hw | ⟨-, ht, hone, -⟩
    · cases hm : m.log.any Event.isTest <;> simp [hm] at hle ⊢ <;> omega
    · rw [ht]
      simpa using hone

/-- A `StopRun` sets the flag and returns. -/
lemma Heard.store (h : Heard m p) (j : ℕ) (hc : p.clearing = false) :
    Heard ({ m with stopRequested := true }.observe (.stopReturned j)) p where
  fresh := fun hcl => absurd (hc.symm.trans hcl) nofun
  flag := fun _ => rfl
  wait := by
    intro before x after heq i hx
    rcases Lts.split_concat heq with ⟨rest, hlog, rfl⟩ | ⟨rfl, -, rfl⟩
    · have hle := h.wait before x rest hlog i hx
      rw [List.countP_append, List.countP_singleton]
      simpa [Event.isWait] using hle
    · simpa using h.credit
  credit := by
    have hle := h.credit
    simpa [Mem.observe, Event.isTest] using hle

/-- A step of the call; the flag is cleared before anybody sets it. -/
lemma Heard.call {busy : Bool} {i : ℕ} {pc pc' : StartPc} (h : Heard m (.call pc))
    (ho : Opens m stops (.call pc)) (st : StartStep busy i m pc m' pc') : Heard m' (.call pc') := by
  cases st with
  | pass _ => exact h.keep rfl rfl (Nat.le_refl 0) nofun
  | refuse _ => exact h.keep rfl rfl (Nat.le_refl 0) nofun
  | publish => exact h.keep rfl rfl (Nat.le_refl 0) fun _ => (ho.early rfl).2.2
  | reset =>
    constructor
    case fresh => exact nofun
    case flag => exact fun hs => absurd hs (h.fresh rfl)
    case wait => exact h.wait
    case credit => exact h.credit
  | leftover _ => exact h.keep rfl rfl (Nat.le_refl 0) nofun
  | clean _ => exact h.keep rfl rfl (Nat.le_refl 0) nofun
  | overlap _ => exact h.keep rfl rfl (Nat.le_refl 0) nofun
  | join _ _ => exact h.keep rfl rfl (Nat.le_refl 0) nofun
  | threw _ => exact h.keep rfl rfl (Nat.le_refl 0) nofun
  | joined _ _ => exact h.keep rfl rfl (Nat.le_refl 0) nofun
  | overwrite _ =>
    have hk : Heard { m with crashed := true } (.call .spawn) :=
      h.keep rfl rfl (Nat.le_refl 0) nofun
    exact hk.observe nofun nofun (.inl (Nat.le_refl 0))
  | spawn _ =>
    have hk : Heard { m with thread := some m.runs.length, runs := m.runs ++ [RunPc.create] }
        (.call .started) := h.keep rfl rfl (Nat.le_refl 0) nofun
    exact hk.observe nofun nofun (.inl (Nat.le_refl 0))

/-- A step of the run, which finds the flag set when somebody has stopped it. -/
lemma Heard.run {k : ℕ} {l : RunLabel} {pc pc' : RunPc} (h : Heard m (.run pc))
    (st : RunStep k m pc l m' pc') : Heard m' (.run pc') := by
  cases st with
  | create => exact h.keep rfl rfl (Nat.le_refl 0) nofun
  | publish => exact h.keep rfl rfl (Nat.le_refl 0) nofun
  | startWorkers => exact h.keep rfl rfl (Nat.le_refl 0) nofun
  | stop _ => exact h.observe nofun nofun (.inl (Nat.le_refl 0))
  | goOn hf =>
    refine h.observe nofun nofun (.inr ⟨rfl, rfl, Nat.le_refl 1, ?_⟩)
    intro hs
    have ht := h.flag hs
    rw [hf] at ht
    cases ht
  | passed => exact h.keep rfl rfl (Nat.zero_le 1) nofun
  | wait => exact h.observe nofun nofun (.inl (Nat.le_refl 1))
  | sleep => exact h.keep rfl rfl (Nat.le_refl 0) nofun
  | stopWorkers => exact h.keep rfl rfl (Nat.le_refl 0) nofun
  | report => exact h.keep rfl rfl (Nat.le_refl 0) nofun
  | finish =>
    have hk : Heard { m with state := .stopped } (.run .finish) :=
      h.keep rfl rfl (Nat.le_refl 0) nofun
    exact hk.observe nofun nofun (.inl (Nat.le_refl 0))
  | fail =>
    have hk : Heard { m with state := .error } (.run .fail) :=
      h.keep rfl rfl (Nat.le_refl 0) nofun
    exact hk.observe nofun nofun (.inl (Nat.le_refl 0))
  | leave => exact h.keep rfl rfl (Nat.le_refl 0) nofun
  | throws _ => exact h.keep rfl rfl (Nat.zero_le _) nofun

lemma Heard.stop {j : ℕ} {pc pc' : StopPc} (h : Heard m p) (st : StopStep j m pc m' pc')
    (hc : pc = .store → p.clearing = false) : Heard m' p := by
  cases st with
  | publish _ => exact h.keep rfl rfl (Nat.le_refl _) h.fresh
  | refuse _ => exact h
  | store => exact h.store j (hc rfl)

lemma Heard.move {s t : Engine} {a : Action} (h : Heard s.mem p) (ho : Opens s.mem s.stops p)
    (hc : ∀ j, a = .stop j → s.stops[j]? = some .store → p.clearing = false)
    (hm : Move s t a p p') : Heard t.mem p' := by
  cases hm with
  | beginStart hmem _ =>
    rw [hmem]
    exact h.keep rfl rfl (Nat.le_refl 0) nofun
  | beginStop hmem _ =>
    rw [hmem]
    exact h
  | stop hpc st _ =>
    apply h.stop st
    rintro rfl
    exact hc _ rfl hpc
  | call st _ _ => exact h.call ho st
  | spawn hmem _ =>
    rw [hmem]
    have hk : Heard { s.mem with
        thread := some s.mem.runs.length, runs := s.mem.runs ++ [RunPc.create] } (.run .create) :=
      h.keep rfl rfl (Nat.le_refl 0) nofun
    exact hk.observe nofun nofun (.inl (Nat.le_refl 0))
  | run _ st hmem _ =>
    have hr := h.run st
    rw [hmem]
    exact hr.keep rfl rfl (Nat.le_refl _) hr.fresh

end Heard

section Kept

variable {m m' : Mem} {stops stops' : List StopPc} {p p' : Place}

/-- Nobody has passed the check of a `StopRun`. -/
lemma Opens.kept (h : Opens m stops p) (hp : p.early = true) {state : EngineState} :
    Kept { m with state := state } stops := by
  obtain ⟨-, hstore, hns⟩ := h.early hp
  intro j hj
  rcases hj with hj | hj
  · exact absurd hj (hstore j)
  · exact absurd ⟨j, hj⟩ hns

/-- A step that leaves the state as it is and lets no further `StopRun` pass. -/
lemma Kept.keep (h : Kept m stops) (hstate : m'.state = m.state)
    (hpass : ∀ j : ℕ, stops'[j]? = some .store ∨ .stopReturned j ∈ m'.log →
      ∃ i : ℕ, stops[i]? = some .store ∨ .stopReturned i ∈ m.log) : Kept m' stops' := by
  intro j hj
  obtain ⟨i, hi⟩ := hpass j hj
  rw [hstate]
  exact h i hi

lemma Kept.observe {ev : Event} (h : Kept m stops) (hev : ∀ j, ev ≠ .stopReturned j) :
    Kept (m.observe ev) stops := by
  have hstate : (m.observe ev).state = m.state := rfl
  apply h.keep hstate
  intro j hj
  rcases hj with hj | hj
  · exact ⟨j, .inl hj⟩
  · rcases List.mem_append.mp hj with hj | hj
    · exact ⟨j, .inr hj⟩
    · exact absurd (List.mem_singleton.mp hj).symm (hev j)

lemma Kept.call {busy : Bool} {i : ℕ} {pc pc' : StartPc} (h : Kept m stops)
    (ho : Opens m stops (.call pc)) (st : StartStep busy i m pc m' pc') : Kept m' stops := by
  cases st with
  | pass _ => exact h
  | refuse _ => exact h
  | publish => exact ho.kept rfl
  | reset => exact h
  | leftover _ => exact h
  | clean _ => exact h
  | overlap _ => exact h
  | join _ _ => exact h
  | threw _ => exact h
  | joined _ _ => exact h
  | overwrite _ =>
    have hk : Kept { m with crashed := true } stops := h
    exact hk.observe nofun
  | spawn _ =>
    have hk : Kept { m with thread := some m.runs.length, runs := m.runs ++ [RunPc.create] } stops := h
    exact hk.observe nofun

/-- `running` is published only over `starting`, and then nobody has passed. -/
lemma Kept.run {k : ℕ} {l : RunLabel} {pc pc' : RunPc} (h : Kept m stops)
    (ho : Opens m stops (.run pc)) (hg : pc = .publish → l = .tau → m.state ≠ .stopping)
    (st : RunStep k m pc l m' pc') : Kept m' stops := by
  cases st with
  | publish =>
    intro j hj
    rcases ho.opening rfl with hs | hs
    · exact absurd hs (h j hj).1
    · exact absurd hs (hg rfl rfl)
  | create => exact h
  | startWorkers => exact h
  | stop _ => exact h.observe nofun
  | goOn _ => exact h.observe nofun
  | passed => exact h
  | wait => exact h.observe nofun
  | sleep => exact h
  | stopWorkers => exact h
  | report => exact h
  | finish =>
    have hk : Kept { m with state := .stopped } stops := fun _ _ => ⟨nofun, nofun⟩
    exact hk.observe nofun
  | fail =>
    have hk : Kept { m with state := .error } stops := fun _ _ => ⟨nofun, nofun⟩
    exact hk.observe nofun
  | leave => exact h
  | throws _ => exact h

lemma Kept.stop {j : ℕ} {pc pc' : StopPc} (h : Kept m stops) (hpc : stops[j]? = some pc)
    (st : StopStep j m pc m' pc') : Kept m' (stops.set j pc') := by
  cases st with
  | publish _ => exact fun _ _ => ⟨nofun, nofun⟩
  | refuse _ =>
    apply h.keep rfl
    intro i hi
    rcases hi with hi | hi
    · rcases Lts.getElem?_set_cases hi with ⟨-, hx⟩ | ⟨-, hi⟩
      · cases hx
      · exact ⟨i, .inl hi⟩
    · exact ⟨i, .inr hi⟩
  | store =>
    -- the call that returns has passed before
    exact h.keep rfl fun _ _ => ⟨j, .inl hpc⟩

lemma Kept.move {s t : Engine} {a : Action} (h : Kept s.mem s.stops) (ho : Opens s.mem s.stops p)
    (hg : notOverStopping s a = true) (hm : Move s t a p p') : Kept t.mem t.stops := by
  cases hm with
  | beginStart hmem hstops =>
    rw [hmem, hstops]
    exact h
  | beginStop hmem hstops =>
    rw [hmem, hstops]
    apply h.keep rfl
    intro j hj
    rcases hj with hj | hj
    · rcases Lts.getElem?_concat_cases hj with hj | ⟨-, hx⟩
      · exact ⟨j, .inl hj⟩
      · cases hx
    · exact ⟨j, .inr hj⟩
  | stop hpc st hstops =>
    rw [hstops]
    exact h.stop hpc st
  | call st _ hstops =>
    rw [hstops]
    exact h.call ho st
  | spawn hmem hstops =>
    rw [hmem, hstops]
    have hk : Kept { s.mem with
        thread := some s.mem.runs.length, runs := s.mem.runs ++ [RunPc.create] } s.stops := h
    exact hk.observe nofun
  | @run k l pc pc' m' hpc st hmem hstops =>
    have hstate : pc = .publish → l = .tau → s.mem.state ≠ .stopping := by
      rintro rfl rfl
      simpa [notOverStopping, hpc] using hg
    have hr := h.run ho hstate st
    rw [hmem, hstops]
    exact hr

end Kept

/-- A guarded step does not set the flag while it is about to be cleared. -/
lemma At.not_clearing {old : List RunPc} {s : Engine} {p : Place} {j : ℕ} (h : At old s p)
    (hg : afterClear s (.stop j) = true) (hj : s.stops[j]? = some .store) :
    p.clearing = false := by
  cases h.threads with
  | idle _ _ => rfl
  | run _ _ => rfl
  | @call pc hs _ _ =>
    cases pc
    case reset => simp [afterClear, hj, hs] at hg
    all_goals rfl

/-- The steps that a call and its run have left once the flag is set. -/
def StartPc.remaining : StartPc → ℕ
  | .check => 16
  | .publish => 15
  | .reset => 14
  | .joinable => 13
  | .join => 12
  | .joining => 11
  | .spawn => 10
  | _ => 0

def RunPc.remaining : RunPc → ℕ
  | .create => 9
  | .publish => 8
  | .startWorkers => 7
  | .elapsed => 8
  | .sleep => 7
  | .test => 6
  | .stopWorkers => 5
  | .report => 4
  | .finish => 3
  | .fail => 2
  | .leave => 1
  | .exited => 0

def Place.remaining : Place → ℕ
  | .idle => 0
  | .call pc => pc.remaining
  | .run pc => pc.remaining

def Engine.remaining (s : Engine) : ℕ :=
  (s.starts.map StartPc.remaining).sum + (s.mem.runs.map RunPc.remaining).sum

lemma sum_exited {old : List RunPc} (h : ∀ pc ∈ old, pc = .exited) :
    (old.map RunPc.remaining).sum = 0 := by
  induction old with
  | nil => rfl
  | cons pc old ih =>
    have hpc : pc = .exited := h pc List.mem_cons_self
    have hrest := ih fun x hx => h x (List.mem_cons_of_mem _ hx)
    rw [List.map_cons, List.sum_cons, hrest, hpc]
    rfl

lemma At.remaining {old : List RunPc} {s : Engine} {p : Place} (h : At old s p) :
    s.remaining = p.remaining := by
  have hold := sum_exited h.exited
  cases h.threads with
  | idle hs hr => simp [Engine.remaining, hs, hr, hold, Place.remaining]
  | call hs hr _ => simp [Engine.remaining, hs, hr, hold, Place.remaining]
  | run hs hr => simp [Engine.remaining, hs, hr, hold, Place.remaining, StartPc.remaining]

lemma StartStep.remaining_lt {busy : Bool} {i : ℕ} {m m' : Mem} {pc pc' : StartPc}
    (st : StartStep busy i m pc m' pc') (ha : m'.crashed = false) :
    pc'.remaining < pc.remaining := by
  cases st with
  | overlap _ => cases ha
  | overwrite _ => cases ha
  | _ => simp [StartPc.remaining]

/-- With the flag set the wait loop does not go on. -/
lemma RunStep.remaining_lt {k : ℕ} {m m' : Mem} {pc pc' : RunPc} {l : RunLabel}
    (st : RunStep k m pc l m' pc') (hf : m.stopRequested = true) :
    pc'.remaining < pc.remaining := by
  cases st with
  | goOn hn =>
    rw [hf] at hn
    cases hn
  | throws hg =>
    cases pc
    case fail => cases hg
    case leave => cases hg
    case exited => cases hg
    all_goals simp [RunPc.remaining]
  | _ => simp [RunPc.remaining]

/-- A run that has been stopped, with the flag set. -/
def Heeded (s : Engine) : Prop :=
  s.mem.Stopped ∧ ∃ old p, At old s p ∧ Opens s.mem s.stops p ∧ Heard s.mem p

/-- A stop that has returned stays in the history. -/
lemma Move.stopped {s t : Engine} {a : Action} {p p' : Place} (hm : Move s t a p p')
    (h : s.mem.Stopped) : t.mem.Stopped := by
  have hsub : s.mem.log ⊆ t.mem.log := by
    cases hm with
    | beginStart hmem _ => exact hmem ▸ List.Subset.refl _
    | beginStop hmem _ => exact hmem ▸ List.Subset.refl _
    | stop _ st _ => exact st.log_subset
    | call st _ _ => exact st.log_subset
    | spawn hmem _ => exact hmem ▸ List.subset_append_left _ _
    | run _ st hmem _ => exact hmem ▸ st.log_subset
  obtain ⟨j, hj⟩ := h
  exact ⟨j, hsub hj⟩

lemma Opens.past {m : Mem} {stops : List StopPc} {p : Place} (h : Opens m stops p)
    (hs : m.Stopped) : p.early = false := by
  cases he : p.early with
  | false => rfl
  | true => exact absurd hs (h.early he).2.2

lemma Heard.past {m : Mem} {p : Place} (h : Heard m p) (hs : m.Stopped) : p.clearing = false := by
  cases hc : p.clearing with
  | false => rfl
  | true => exact absurd hs (h.fresh hc)

/-- Every move of a thread that has been stopped brings it nearer to its end. -/
lemma Move.remaining {old : List RunPc} {s t : Engine} {a : Action} {p p' : Place}
    (hm : Move s t a p p') (ha : At old t p') (hp : p.early = false)
    (hf : s.mem.stopRequested = true) :
    p'.remaining + a.ofRun.toNat ≤ p.remaining := by
  cases hm with
  | beginStart _ _ => cases hp
  | beginStop _ _ => exact Nat.le_refl _
  | stop _ _ _ => exact Nat.le_refl _
  | call st _ _ => exact st.remaining_lt ha.alive
  | spawn _ _ => exact Nat.le_refl _
  | run _ st _ _ => exact st.remaining_lt hf

/-- The stopped run is on its way to its end whatever happens. -/
lemma heeded_paid :
    single.Paid Heeded Action.ofRun (fun _ => false) Engine.remaining where
  keep := by
    rintro s a t ⟨hs, old, p, hat, ho, hh⟩ hn
    obtain ⟨p', hm, hat'⟩ := hat.step hn
    exact ⟨hm.stopped hs, old, p', hat', ho.move hm, hh.move ho (fun _ _ _ => hh.past hs) hm⟩
  pay := by
    rintro s a t ⟨hs, old, p, hat, ho, hh⟩ hn
    obtain ⟨p', hm, hat'⟩ := hat.step hn
    rw [hat.remaining, hat'.remaining]
    exact hm.remaining hat' (ho.past hs) (hh.flag hs)

lemma Heeded.bounded {s t : Engine} {as : List Action} (h : Heeded s)
    (he : single.exec s as = some t) : as.countP Action.ofRun ≤ 13 := by
  have hle := heeded_paid.countP_le h he
  obtain ⟨hs, old, p, hat, ho, hh⟩ := h
  have hp := ho.past hs
  have hc := hh.past hs
  have hrem : p.remaining ≤ 13 := by
    cases p with
    | idle => cases hp
    | call pc =>
      cases pc
      case check => cases hp
      case publish => cases hp
      case reset => cases hc
      all_goals simp [Place.remaining, StartPc.remaining]
    | run pc => cases pc <;> simp [Place.remaining, RunPc.remaining]
  rw [hat.remaining] at hle
  simp only [List.countP_false, Function.const] at hle
  omega

/-- A thread that has not come to its end can go on. -/
lemma At.enabled {old : List RunPc} {s : Engine} {p : Place} (h : At old s p)
    (hp : p.early = false) : s.Ended ∨ ∃ a, a.ofRun = true ∧ (single.next s a).isSome = true := by
  have hcall : ∀ pc r, s.starts = [pc] → startNext s.busy s.mem 0 pc = some r →
      (single.next s (.start 0)).isSome = true := by
    intro pc r hs hr
    simp [single, Lts.Sys.restrict, oneCall, sys, next, h.alive, liveNext, hs, hr]
  have hrun : ∀ (k : ℕ) (pc : RunPc) (l : RunLabel) (r : Mem × RunPc), s.mem.runs[k]? = some pc →
      runNext s.mem k pc l = some r → (single.next s (.run k l)).isSome = true := by
    intro k pc l r hk hr
    simp [single, Lts.Sys.restrict, oneCall, sys, next, h.alive, liveNext, hk, hr]
  cases h.threads with
  | idle _ _ => cases hp
  | @call pc hs hr hj =>
    refine .inr ⟨.start 0, rfl, ?_⟩
    cases pc
    case check => cases hp
    case publish => cases hp
    case refused => cases hp
    case started => cases hj
    case threw => cases hj
    case joining =>
      obtain ⟨k, hk⟩ := Option.ne_none_iff_exists'.mp hj
      have hx : s.mem.runs[k]? = some .exited := by
        have hlt := h.bound k hk
        rw [List.getElem?_eq_getElem hlt]
        exact congrArg some (h.exited _ (hr ▸ List.getElem_mem hlt))
      apply hcall _ ({ s.mem with thread := none }, .spawn) hs
      simp [startNext, Mem.joined, hk, hx]
    case join =>
      have hfree : s.busy = false := by
        rw [Engine.busy, hs]
        rfl
      exact hcall _ _ hs (by rw [startNext, hfree]; rfl)
    case spawn => 
      have hnone : s.mem.thread = none := hj
      exact hcall _ _ hs (by rw [startNext, hnone]; rfl)
    all_goals exact hcall _ _ hs rfl
  | @run pc hs hr =>
    have hk : s.mem.runs[old.length]? = some pc := by
      rw [hr]
      exact List.getElem?_concat_length
    cases pc
    case exited =>
      refine .inl ⟨?_, ?_⟩
      · rw [hs]
        simp [StartPc.returned]
      · rw [hr]
        intro pc hpc
        rcases List.mem_append.mp hpc with hpc | hpc
        · exact h.exited pc hpc
        · exact List.mem_singleton.mp hpc
    case elapsed => exact .inr ⟨_, rfl, hrun _ _ (.elapsed true) _ hk rfl⟩
    all_goals exact .inr ⟨_, rfl, hrun _ _ .tau _ hk rfl⟩

/-- The states of the runs in which the flag is set after it was cleared. -/
lemma heard_of_reach {s : Engine} (h : single.Reach (fun s a => afterClear s a = true) s) :
    ∃ old p, At old s p ∧ Opens s.mem s.stops p ∧ Heard s.mem p := by
  apply at_of_reach (I := fun s p => Opens s.mem s.stops p ∧ Heard s.mem p) ?_ ?_ h
  · intro s hi
    refine ⟨Opens.of_atRest hi, nofun, ?_, ?_, Nat.zero_le _⟩
    · rintro ⟨j, hj⟩
      rw [hi.log] at hj
      cases hj
    · intro before x after heq
      rw [hi.log] at heq
      exact absurd heq (by simp)
  · intro old s t a p p' hat hi hg hm
    refine ⟨hi.1.move hm, hi.2.move hi.1 ?_ hm⟩
    rintro j rfl hj
    exact hat.not_clearing hg hj

lemma kept_of_reach {s : Engine} (h : single.Reach (fun s a => notOverStopping s a = true) s) :
    Kept s.mem s.stops := by
  have hkept := at_of_reach (I := fun s p => Opens s.mem s.stops p ∧ Kept s.mem s.stops) ?_ ?_ h
  · obtain ⟨-, -, -, -, hk⟩ := hkept
    exact hk
  · intro s hi
    exact ⟨Opens.of_atRest hi, (Opens.of_atRest hi).kept rfl⟩
  · intro old s t a p p' _ hi hg hm
    exact ⟨hi.1.move hm, hi.2.move hi.1 hg hm⟩

/-- A run that has been stopped once the flag was cleared ends. -/
lemma stopHeard {s : Engine} (h : single.Reach (fun s a => afterClear s a = true) s) :
    StopHeard s := by
  obtain ⟨old, p, hat, ho, hh⟩ := heard_of_reach h
  constructor
  case flag => exact fun hs _ => hh.flag hs
  case wait =>
    intro before j after heq
    exact Nat.le_trans (Nat.le_add_right _ _) (hh.wait before _ after heq j rfl)
  case bounded =>
    intro hs as t he
    have hheeded : Heeded s := ⟨hs, old, p, hat, ho, hh⟩
    exact hheeded.bounded he
  case enabled => exact fun hs => hat.enabled (ho.past hs)

lemma stateKept {s : Engine} (h : single.Reach (fun s a => notOverStopping s a = true) s) :
    StateKept s := by
  rintro ⟨j, hj⟩
  exact kept_of_reach h j (.inr hj)

/-- While the flag is set only after it was cleared the run ends, while `running` is not published
over `stopping` the state does not go back, and while both hold the stop request is kept. -/
theorem stop_request_kept (s : Engine) :
    (single.Reach (fun s a => afterClear s a = true) s → StopHeard s) ∧
    (single.Reach (fun s a => notOverStopping s a = true) s → StateKept s) ∧
    (single.Reach (fun s a => (afterClear s a && notOverStopping s a) = true) s → StopKept s) := by
  refine ⟨stopHeard, stateKept, ?_⟩
  intro h
  constructor
  case heard =>
    apply stopHeard
    exact h.mono fun s a hg => (Bool.and_eq_true_iff.mp hg).1
  case state =>
    apply stateKept
    exact h.mono fun s a hg => (Bool.and_eq_true_iff.mp hg).2

/-- `n` steps of the call of `StartRun`. -/
def call (n : ℕ) : List Action := List.replicate n (.start 0)

/-- `n` steps of its run. -/
def loop (n : ℕ) : List Action := List.replicate n (.run 0 .tau)

/-- A call of `StopRun` that returns. -/
def stopAtOnce : List Action := [.beginStop, .stop 0, .stop 0]

/-- A run that is stopped while it sleeps. -/
def stoppedAsleep : List Action :=
  List.flatten [[.beginStart], call 5, loop 4, [.run 0 (.elapsed false)], stopAtOnce, loop 6]

theorem stop_request_kept_asleep :
    ∃ s, single.execWhere (fun s a => afterClear s a && notOverStopping s a) construct stoppedAsleep
      = some s ∧ s.mem.runs = [.exited] ∧ s.mem.Stopped ∧ StopKept s := by
  have hsome : (single.execWhere (fun s a => afterClear s a && notOverStopping s a) construct
      stoppedAsleep).map (fun s => (s.mem.runs, s.mem.log)) =
    some ([.exited], [.started 0, .tested 0 false, .waited 0, .stopReturned 0, .tested 0 true,
      .entered .stopped]) := rfl
  obtain ⟨s, hs, hmem⟩ := Option.map_eq_some_iff.mp hsome
  obtain ⟨hruns, hlog⟩ := Prod.mk.inj hmem
  have hinit : single.Reach (fun s a => (afterClear s a && notOverStopping s a) = true) construct :=
    .init atRest_construct
  refine ⟨s, hs, hruns, ⟨0, ?_⟩, ?_⟩
  · rw [hlog]
    simp
  · exact (stop_request_kept s).2.2 (hinit.execWhere stoppedAsleep hs)

/-- The `StopRun` returns before the flag is cleared, and the run sleeps. -/
def lost : Engine where
  mem := ⟨.running, false, some 0, [.sleep], false,
    [.stopReturned 0, .started 0, .tested 0 false, .waited 0]⟩
  starts := [.started]
  stops := [.returned ""]

/-- The `StopRun` returns before `running` is published. -/
def backToRunning : Engine where
  mem := ⟨.running, true, some 0, [.startWorkers], false, [.started 0, .stopReturned 0]⟩
  starts := [.started]
  stops := [.returned ""]

theorem stop_request_lost :
    (¬ ∀ s, single.Reachable s → StopKept s) ∧
    (single.Reachable lost ∧ ¬ StopHeard lost) ∧
    single.Reachable backToRunning ∧ ¬ StateKept backToRunning := by
  have hlost : single.Reachable lost :=
    Lts.Sys.Reachable.exec (.init atRest_construct) (List.flatten [[.beginStart], call 2, stopAtOnce,
      call 3, loop 4, [.run 0 (.elapsed false)]]) rfl
  have hback : single.Reachable backToRunning :=
    Lts.Sys.Reachable.exec (.init atRest_construct) (List.flatten [[.beginStart], call 5, stopAtOnce,
      loop 2]) rfl
  have hnot : ¬ StopHeard lost := by
    intro h
    have hwait := h.wait [] 0 _ rfl
    simp [List.countP_cons, Event.isWait] at hwait
  have hnot' : ¬ StateKept backToRunning := by
    intro h
    exact (h ⟨0, by simp [backToRunning]⟩).2 rfl
  exact ⟨fun h => hnot (h lost hlost).heard, ⟨hlost, hnot⟩, hback, hnot'⟩

end KubeMQ.Burnin
