import KubeMQ.Burnin.ConfigJson
import KubeMQ.Burnin.Runs

/-!
# The report is that of the last run

Who owns the engine is the only one who assigns to its members (`Kept`). So a report that is served
is that of the last run, unless a `StartRun` is just replacing the configuration, and a run that ends
in `stopped` leaves its report and no workers (`report_of_last_run`). The configuration that is served
starts the same run again (`config_replays`).
-/

namespace KubeMQ.Burnin

open Json (Parsed Value)

/-- The members are those of a request. -/
structure OfRequest (q : StartRequest) (d : Members) : Prop where
  config : d.config = q.prepared
  runId : d.runId = q.runId
  startedAt : d.startedAt = q.now

/-- The report is that of the run of the request, with all its workers and with its snapshot. -/
def Published (b : String) (q : StartRequest) (r : RunLocal) (v : Value) : Prop :=
  ∃ endedAt elapsed snapshot, r.snapshot = some snapshot ∧ v = buildReport q.prepared
    ⟨q.runId, b, q.now, endedAt, elapsed, Int32.ofNat (createWorkers b q.runId q.prepared).length,
      snapshot⟩

/-- What a call has assigned so far. -/
def StartCall.Assigned (c : StartCall) (d : Members) : Prop :=
  match c.todo with
  | .config => True
  | .runId => d.config = c.request.config
  | .configRunId => d.config = c.request.config ∧ d.runId = c.request.runId
  | .startedAt => d.config = c.request.prepared ∧ d.runId = c.request.runId
  | .flag => OfRequest c.request d
  | .report => OfRequest c.request d
  | .result => OfRequest c.request d ∧ d.hasReport = false
  | .done => OfRequest c.request d ∧ d.hasReport = false ∧ c.result = some c.request.result

/-- What is known of a call where it stands. -/
def StartPc.Keeps (c : StartCall) (d : Members) : StartPc → Prop
  | .check => c.todo = .config
  | .publish => c.todo = .config
  | .refused _ => c.todo = .config
  | .reset => c.Assigned d
  | .joinable => c.Assigned d
  | .started => c.todo = .done ∧ c.result = some c.request.result
  | .threw => c.todo = .done
  | _ => c.todo = .done ∧ c.Assigned d

/-- What is known of a run of a request where it stands. -/
def RunPc.Keeps (b : String) (q : StartRequest) (r : RunLocal) (d : Members) : RunPc → Prop
  | .create => OfRequest q d ∧ d.hasReport = false
  | .report =>
    OfRequest q d ∧ d.hasReport = false ∧ d.workers = [] ∧
      r.workerCount = Int32.ofNat (createWorkers b q.runId q.prepared).length
  | .finish => OfRequest q d ∧ d.hasReport = true ∧ d.workers = [] ∧ Published b q r d.lastReport
  | .fail => OfRequest q d ∧ (d.hasReport = true → Published b q r d.lastReport)
  | .leave => True
  | .exited => True
  | _ => OfRequest q d ∧ d.hasReport = false ∧ d.workers = createWorkers b q.runId q.prepared

section Calls

variable {c c' : StartCall} {d d' : Members} {pc : StartPc}

/-- Only the call that owns the engine knows anything of the members. -/
lemma StartPc.Keeps.congr (h : pc.Keeps c d) (ho : pc.owning = false) (d' : Members) :
    pc.Keeps c d' := by
  cases pc
  case reset => cases ho
  case joinable => cases ho
  case join => cases ho
  case joining => cases ho
  case spawn => cases ho
  all_goals exact h

lemma owning_of_assigns {t : Assign} (h : assigns pc t = true) : pc.owning = true := by
  cases pc
  case reset => rfl
  case joinable => rfl
  all_goals cases h

/-- An assignment goes on with the request of the call; once the configuration is replaced, the report
is withdrawn before the call stops replacing. -/
lemma Assigned.step (h : c.Assigned d) (hn : assignNext d c = some (d', c')) :
    c'.Assigned d' ∧ c'.request = c.request ∧
      (c'.replacing = false → d'.hasReport = false ∧ OfRequest c.request d') := by
  obtain ⟨q, todo, result⟩ := c
  cases todo with
  | config =>
    cases hn
    exact ⟨rfl, rfl, nofun⟩
  | runId =>
    cases hn
    exact ⟨⟨h, rfl⟩, rfl, nofun⟩
  | configRunId =>
    cases hn
    obtain ⟨hconfig, hrun⟩ := h
    refine ⟨⟨?_, hrun⟩, rfl, nofun⟩
    rw [hconfig, hrun]
    rfl
  | startedAt =>
    cases hn
    exact ⟨⟨h.1, h.2, rfl⟩, rfl, nofun⟩
  | flag => cases hn
  | report =>
    cases hn
    exact ⟨⟨⟨h.config, h.runId, h.startedAt⟩, rfl⟩, rfl, fun _ => ⟨rfl, h.config, h.runId, h.startedAt⟩⟩
  | result =>
    cases hn
    obtain ⟨ho, hr⟩ := h
    refine ⟨⟨ho, hr, ?_⟩, rfl, fun _ => ⟨hr, ho⟩⟩
    rw [ho.config, ho.runId]
    rfl
  | done => cases hn

end Calls

section RunLoop

variable {b : String} {q : StartRequest} {r : RunLocal} {d : Members} {k : ℕ} {m m' : Mem}
  {pc pc' : RunPc} {l : RunLabel}

lemma RunPc.Keeps.ofRequest (h : pc.Keeps b q r d) (ho : pc.owning = true) : OfRequest q d := by
  cases pc
  case leave => cases ho
  case exited => cases ho
  all_goals exact h.1

/-- What a step of the owner does: its report is published as that of its request, and a run that
enters `stopped` has published it and has no workers. -/
lemma RunStep.keeps (st : RunStep k m pc l m' pc') (h : pc.Keeps b q r d) (ho : pc.owning = true)
    (x : Surroundings) :
    let y := runEffect b d r x pc l
    pc'.Keeps b q y.2 y.1 ∧ OfRequest q y.1 ∧
      (y.1.hasReport = true → Published b q y.2 y.1.lastReport) ∧
      (m'.state = .stopped → m.state = .stopped ∨ (y.1.hasReport = true ∧ y.1.workers = [])) := by
  have hof := h.ofRequest ho
  cases st with
  | create =>
    obtain ⟨-, hr⟩ := h
    refine ⟨⟨⟨hof.config, hof.runId, hof.startedAt⟩, hr, ?_⟩, ⟨hof.config, hof.runId, hof.startedAt⟩,
      fun ht => absurd (hr.symm.trans ht) nofun, .inl⟩
    show createWorkers b d.runId d.config = _
    rw [hof.config, hof.runId]
  | publish => exact ⟨h, hof, fun ht => absurd (h.2.1.symm.trans ht) nofun, nofun⟩
  | startWorkers => exact ⟨h, hof, fun ht => absurd (h.2.1.symm.trans ht) nofun, .inl⟩
  | stop _ => exact ⟨h, hof, fun ht => absurd (h.2.1.symm.trans ht) nofun, .inl⟩
  | goOn _ => exact ⟨h, hof, fun ht => absurd (h.2.1.symm.trans ht) nofun, .inl⟩
  | passed => exact ⟨h, hof, fun ht => absurd (h.2.1.symm.trans ht) nofun, .inl⟩
  | wait => exact ⟨h, hof, fun ht => absurd (h.2.1.symm.trans ht) nofun, .inl⟩
  | sleep => exact ⟨h, hof, fun ht => absurd (h.2.1.symm.trans ht) nofun, .inl⟩
  | stopWorkers =>
    obtain ⟨-, hr, hw⟩ := h
    refine ⟨⟨⟨hof.config, hof.runId, hof.startedAt⟩, hr, rfl, ?_⟩,
      ⟨hof.config, hof.runId, hof.startedAt⟩, fun ht => absurd (hr.symm.trans ht) nofun, .inl⟩
    show Int32.ofNat d.workers.length = _
    rw [hw]
  | report =>
    obtain ⟨-, -, hw, hn⟩ := h
    have hp : Published b q { r with snapshot := some x.snapshot } (buildReport d.config
        ⟨d.runId, b, d.startedAt, x.endedAt, x.elapsed, r.workerCount, x.snapshot⟩) := by
      refine ⟨x.endedAt, x.elapsed, x.snapshot, rfl, ?_⟩
      rw [hof.config, hof.runId, hof.startedAt, hn]
    exact ⟨⟨⟨hof.config, hof.runId, hof.startedAt⟩, rfl, hw, hp⟩,
      ⟨hof.config, hof.runId, hof.startedAt⟩, fun _ => hp, .inl⟩
  | finish => exact ⟨trivial, hof, fun _ => h.2.2.2, fun _ => .inr ⟨h.2.1, h.2.2.1⟩⟩
  | fail => exact ⟨trivial, hof, h.2, nofun⟩
  | leave => cases ho
  | throws hg =>
    -- only `CreateWorkers` leaves something behind
    cases pc
    case create =>
      obtain ⟨-, hr⟩ := h
      exact ⟨⟨⟨hof.config, hof.runId, hof.startedAt⟩, fun ht => absurd (hr.symm.trans ht) nofun⟩,
        ⟨hof.config, hof.runId, hof.startedAt⟩, fun ht => absurd (hr.symm.trans ht) nofun, .inl⟩
    case finish => exact ⟨⟨hof, fun _ => h.2.2.2⟩, hof, fun _ => h.2.2.2, .inl⟩
    case fail => cases hg
    case leave => cases hg
    case exited => cases hg
    all_goals
      exact ⟨⟨hof, fun ht => absurd (h.2.1.symm.trans ht) nofun⟩, hof,
        fun ht => absurd (h.2.1.symm.trans ht) nofun, .inl⟩

/-- A run on its way out leaves the members alone. -/
lemma RunStep.quiet (st : RunStep k m pc l m' pc') (ho : pc.owning = false) (x : Surroundings) :
    runEffect b d r x pc l = (d, r) ∧ m' = m ∧ pc'.owning = false := by
  cases st with
  | leave => exact ⟨rfl, rfl, rfl⟩
  | throws hg =>
    cases pc
    case leave => cases hg
    case exited => cases hg
    all_goals cases ho
  | _ => cases ho

end RunLoop

/-- A call that has started a run. -/
structure Runs.Started (s : Runs) (i : ℕ) (c : StartCall) : Prop where
  call : s.calls[i]? = some c
  pc : s.engine.starts[i]? = some .started

/-- The report is that of the last run, and the members are those of its request. -/
def Runs.Reported (b : String) (s : Runs) : Prop :=
  ∃ r c, s.locals.getLast? = some r ∧ s.Started r.call c ∧ OfRequest c.request s.members ∧
    Published b c.request r s.members.lastReport

/-- The run is the last one, and what is known of it. -/
def Runs.Current (b : String) (s : Runs) (k : ℕ) (pc : RunPc) : Prop :=
  k + 1 = s.locals.length ∧ ∃ r c, s.locals[k]? = some r ∧ s.Started r.call c ∧
    pc.Keeps b c.request r s.members

/-- The members are those of the request that the last run was started with. -/
def Runs.Latest (s : Runs) : Prop :=
  ∀ r, s.locals.getLast? = some r → ∃ c, s.Started r.call c ∧ OfRequest c.request s.members

namespace Runs

/-- The invariant of the guarded runs. -/
structure Inv (b : String) (s : Runs) : Prop where
  calls : s.calls.length = s.engine.starts.length
  locals : s.locals.length = s.engine.mem.runs.length
  call : ∀ (i : ℕ) (pc : StartPc) (c : StartCall), s.engine.starts[i]? = some pc →
    s.calls[i]? = some c → pc.Keeps c s.members
  run : ∀ (k : ℕ) (pc : RunPc), s.engine.mem.runs[k]? = some pc → pc.owning = true → s.Current b k pc
  report : (∀ c ∈ s.calls, c.replacing = false) → s.members.hasReport = true → s.Reported b
  stopped : s.engine.mem.state = .stopped → s.members.hasReport = true ∧ s.members.workers = []
  named : (∀ c ∈ s.calls, c.replacing = false) → s.members.config.runId = s.members.runId
  latest : (∀ pc ∈ s.engine.starts, pc.owning = false) → s.Latest

section Inv

variable {b : String} {s : Runs} {i j k : ℕ} {pc pc' : StartPc} {c c' : StartCall} {d : Members}
  {m' : Mem}

lemma inv_new : Inv b new where
  calls := rfl
  locals := rfl
  call := nofun
  run := nofun
  report := fun _ => nofun
  stopped := nofun
  named := fun _ => rfl
  latest := fun _ => nofun

/-- Calls that have started a run are not touched by a step of another call. -/
lemma Started.ne (h : s.Started j c) (hpc : s.engine.starts[i]? = some pc) (hne : pc ≠ .started) :
    i ≠ j := by
  rintro rfl
  have heq := h.pc
  rw [hpc] at heq
  exact hne (Option.some.inj heq)

lemma mem_set_of_replacing {x : StartCall} (hc : s.calls[i]? = some c)
    (he : c'.replacing = c.replacing) (h : ∀ x ∈ s.calls.set i c', x.replacing = false)
    (hx : x ∈ s.calls) : x.replacing = false := by
  obtain ⟨j, hj⟩ := List.mem_iff_getElem?.mp hx
  by_cases hij : i = j
  · subst hij
    rw [hc] at hj
    cases hj
    rw [← he]
    exact h c' (List.mem_set (List.getElem?_eq_some_iff.mp hc).1 c')
  · exact h x (List.mem_iff_getElem?.mpr ⟨j, by rwa [List.getElem?_set_ne hij]⟩)

/-- When a step of a call leaves no owner there was none. -/
lemma not_owning_of_set {starts : List StartPc} (hpc : starts[i]? = some pc)
    (ho : pc'.owning = false → pc.owning = false)
    (h : ∀ q ∈ starts.set i pc', q.owning = false) : ∀ q ∈ starts, q.owning = false := by
  intro q hq
  obtain ⟨j, hj⟩ := List.mem_iff_getElem?.mp hq
  by_cases hij : i = j
  · subst hij
    rw [hpc] at hj
    cases hj
    exact ho (h pc' (List.mem_set (List.getElem?_eq_some_iff.mp hpc).1 pc'))
  · exact h q (List.mem_iff_getElem?.mpr ⟨j, by rwa [List.getElem?_set_ne hij]⟩)

/-- A step of a call that leaves the members and the runs alone. -/
lemma Inv.move (inv : Inv b s) (hpc : s.engine.starts[i]? = some pc) (hne : pc ≠ .started)
    (hc : s.calls[i]? = some c) (hk : pc'.Keeps c' s.members) (he : c'.replacing = c.replacing)
    (ho : pc'.owning = false → pc.owning = false) (hruns : m'.runs = s.engine.mem.runs)
    (hstate : m'.state = .stopped → s.engine.mem.state = .stopped) :
    Inv b { s with
      engine := { s.engine with mem := m', starts := s.engine.starts.set i pc' }
      calls := s.calls.set i c' } := by
  have hstarted {j : ℕ} {x : StartCall} (h : s.Started j x) : Started { s with
      engine := { s.engine with mem := m', starts := s.engine.starts.set i pc' }
      calls := s.calls.set i c' } j x := by
    have hij := h.ne hpc hne
    exact ⟨(List.getElem?_set_ne hij).trans h.call, (List.getElem?_set_ne hij).trans h.pc⟩
  constructor
  case calls => simp [inv.calls]
  case locals => rw [hruns, inv.locals]
  case call =>
    intro j q x hq hx
    rcases Lts.getElem?_set_cases hq with ⟨rfl, rfl⟩ | ⟨hj, hq⟩
    · rcases Lts.getElem?_set_cases hx with ⟨-, rfl⟩ | ⟨hj, -⟩
      · exact hk
      · exact absurd rfl hj
    · rcases Lts.getElem?_set_cases hx with ⟨rfl, -⟩ | ⟨-, hx⟩
      · exact absurd rfl hj
      · exact inv.call j q x hq hx
  case run =>
    intro k q hq ho
    rw [hruns] at hq
    obtain ⟨hlast, r, x, hr, hs, hkeeps⟩ := inv.run k q hq ho
    exact ⟨hlast, r, x, hr, hstarted hs, hkeeps⟩
  case report =>
    intro hclean hr
    obtain ⟨r, x, hlast, hs, hof, hp⟩ :=
      inv.report (fun x hx => mem_set_of_replacing hc he hclean hx) hr
    exact ⟨r, x, hlast, hstarted hs, hof, hp⟩
  case stopped => exact fun hs => inv.stopped (hstate hs)
  case named => exact fun hclean => inv.named fun x hx => mem_set_of_replacing hc he hclean hx
  case latest =>
    intro hfree r hr
    obtain ⟨x, hs, hof⟩ := inv.latest (not_owning_of_set hpc ho hfree) r hr
    exact ⟨x, hstarted hs, hof⟩

/-- A step of a call that leaves what the call is doing as it was. -/
lemma Inv.stay (inv : Inv b s) (hpc : s.engine.starts[i]? = some pc) (hne : pc ≠ .started)
    (hc : s.calls[i]? = some c) (hk : pc'.Keeps c s.members)
    (ho : pc'.owning = false → pc.owning = false) (hruns : m'.runs = s.engine.mem.runs)
    (hstate : m'.state = .stopped → s.engine.mem.state = .stopped) :
    Inv b { s with engine := { s.engine with mem := m', starts := s.engine.starts.set i pc' } } := by
  have h := inv.move hpc hne hc hk rfl ho hruns hstate
  obtain ⟨hi, heq⟩ := List.getElem?_eq_some_iff.mp hc
  rw [← heq, List.set_getElem_self hi] at h
  exact h

/-- The owner starts its run. -/
lemma Inv.spawn (inv : Inv b s) {owner : Option (ℕ ⊕ ℕ)} (hsole : Sole owner s.engine)
    (hpc : s.engine.starts[i]? = some .spawn) (hc : s.calls[i]? = some c) :
    Inv b { s with
      engine := { s.engine with
        mem := { s.engine.mem with
          thread := some s.engine.mem.runs.length
          runs := s.engine.mem.runs ++ [RunPc.create] }.observe (.started i)
        starts := s.engine.starts.set i .started }
      locals := s.locals ++ [⟨i, 0, none⟩] } := by
  obtain ⟨htodo, hassigned⟩ := inv.call i .spawn c hpc hc
  obtain ⟨hof, hr, hresult⟩ : OfRequest c.request s.members ∧ s.members.hasReport = false ∧
      c.result = some c.request.result := by
    unfold StartCall.Assigned at hassigned
    rwa [htodo] at hassigned
  have hi := (List.getElem?_eq_some_iff.mp hpc).1
  constructor
  case calls => simp [inv.calls]
  case locals => simp [inv.locals, Mem.observe]
  case call =>
    intro j q x hq hx
    rcases Lts.getElem?_set_cases hq with ⟨rfl, rfl⟩ | ⟨-, hq⟩
    · rw [hc] at hx
      cases hx
      exact ⟨htodo, hresult⟩
    · exact inv.call j q x hq hx
  case run =>
    intro k q hq ho
    rcases Lts.getElem?_concat_cases hq with hq | ⟨rfl, rfl⟩
    · -- the call owns the engine, so no run does
      have hown := hsole.shared.held_left hpc rfl
      rw [hsole.shared.held_right hq ho] at hown
      cases hown
    · refine ⟨by simp [inv.locals], ⟨i, 0, none⟩, c, ?_, ⟨hc, List.getElem?_set_self hi⟩, hof, hr⟩
      rw [← inv.locals]
      exact List.getElem?_concat_length
  case report =>
    intro _ ht
    cases hr.symm.trans ht
  case stopped => exact inv.stopped
  case named => exact inv.named
  case latest =>
    intro _ r hr
    rw [List.getLast?_concat] at hr
    cases hr
    exact ⟨c, ⟨hc, List.getElem?_set_self hi⟩, hof⟩

/-- An assignment is made by the owner. -/
lemma Inv.assign (inv : Inv b s) {owner : Option (ℕ ⊕ ℕ)} (hsole : Sole owner s.engine)
    (hpc : s.engine.starts[i]? = some pc) (hc : s.calls[i]? = some c)
    (ha : assigns pc c.todo = true) (hn : assignNext s.members c = some (d, c')) :
    Inv b { s with members := d, calls := s.calls.set i c' } := by
  have ho := owning_of_assigns ha
  have hown := hsole.shared.held_left hpc ho
  have hassigned : c.Assigned s.members := by
    have hk := inv.call i pc c hpc hc
    cases pc
    case reset => exact hk
    case joinable => exact hk
    all_goals cases ha
  obtain ⟨hstep, hrequest, hwithdrawn⟩ := Assigned.step hassigned hn
  have hclean : (∀ x ∈ s.calls.set i c', x.replacing = false) →
      d.hasReport = false ∧ OfRequest c.request d := fun h =>
    hwithdrawn (h c' (List.mem_set (List.getElem?_eq_some_iff.mp hc).1 c'))
  constructor
  case calls => simp [inv.calls]
  case locals => exact inv.locals
  case call =>
    intro j q x hq hx
    rcases Lts.getElem?_set_cases hx with ⟨rfl, rfl⟩ | ⟨hj, hx⟩
    · rw [hpc] at hq
      cases hq
      cases pc
      case reset => exact hstep
      case joinable => exact hstep
      all_goals cases ha
    · cases hq' : q.owning with
      | false => exact (inv.call j q x hq hx).congr hq' d
      | true => exact absurd (hsole.shared.left.locked.unique hq hq' hpc ho) hj
  case run =>
    intro k q hq hq'
    have hright := hsole.shared.held_right hq hq'
    rw [hown] at hright
    cases hright
  case report =>
    intro h hr
    rw [(hclean h).1] at hr
    cases hr
  case stopped =>
    intro hs
    have hfree := hsole.owned.free (congrArg EngineState.rest hs)
    rw [hown] at hfree
    cases hfree
  case named =>
    intro h
    obtain ⟨-, hof⟩ := hclean h
    show d.config.runId = d.runId
    rw [hof.config, hof.runId]
    rfl
  case latest =>
    intro hfree
    have hfalse := hfree pc (List.mem_of_getElem? hpc)
    rw [ho] at hfalse
    cases hfalse

/-- A step of a call that is not an assignment. -/
lemma Inv.start (inv : Inv b s) {owner : Option (ℕ ⊕ ℕ)} (hsole : Sole owner s.engine)
    (hpc : s.engine.starts[i]? = some pc) (hc : s.calls[i]? = some c)
    (ha : assigns pc c.todo = false) (st : StartStep s.engine.busy i s.engine.mem pc m' pc') :
    Inv b (started s i c { s.engine with mem := m', starts := s.engine.starts.set i pc' } pc) := by
  have hk := inv.call i pc c hpc hc
  cases st with
  | pass _ => exact inv.stay hpc nofun hc hk (fun _ => rfl) rfl id
  | refuse _ => exact inv.stay hpc nofun hc hk (fun _ => rfl) rfl id
  | publish =>
    refine inv.stay hpc nofun hc ?_ nofun rfl nofun
    have htodo : c.todo = .config := hk
    show c.Assigned s.members
    simp [StartCall.Assigned, htodo]
  | reset =>
    have htodo : c.todo = .flag := by simpa [assigns] using ha
    refine inv.move hpc nofun hc ?_ ?_ nofun rfl id
    · have hassigned : c.Assigned s.members := hk
      unfold StartCall.Assigned at hassigned
      rw [htodo] at hassigned
      exact hassigned
    · simp [StartCall.replacing, htodo]
  | leftover _ => exact inv.stay hpc nofun hc ⟨by simpa [assigns] using ha, hk⟩ nofun rfl id
  | clean _ => exact inv.stay hpc nofun hc ⟨by simpa [assigns] using ha, hk⟩ nofun rfl id
  | overlap _ => exact inv.stay hpc nofun hc hk nofun rfl id
  | join _ _ => exact inv.stay hpc nofun hc hk nofun rfl id
  | threw hnone => exact absurd hnone (hsole.fits i .join hpc)
  | joined _ _ => exact inv.stay hpc nofun hc hk nofun rfl id
  | overwrite ht =>
    have hruns : ({ s.engine.mem with crashed := true }.observe (.overwritten i)).runs =
      s.engine.mem.runs := rfl
    have h := inv.stay hpc nofun hc hk id hruns id
    simpa [started, ht] using h
  | spawn ht =>
    have h := inv.spawn hsole hpc hc
    simpa [started, ht] using h

/-- A step after which the same runs own the engine and the calls of `StartRun` are where they were. -/
lemma Inv.elsewhere (inv : Inv b s) {e : Engine} (hstarts : e.starts = s.engine.starts)
    (hlength : e.mem.runs.length = s.engine.mem.runs.length)
    (hruns : ∀ (k : ℕ) (pc : RunPc), e.mem.runs[k]? = some pc → pc.owning = true →
      s.engine.mem.runs[k]? = some pc)
    (hstate : e.mem.state = .stopped → s.engine.mem.state = .stopped) :
    Inv b { s with engine := e } := by
  have hstarted {j : ℕ} {x : StartCall} (h : s.Started j x) : Started { s with engine := e } j x :=
    ⟨h.call, (congrArg (·[j]?) hstarts).trans h.pc⟩
  constructor
  case calls => rw [hstarts, inv.calls]
  case locals => rw [hlength, inv.locals]
  case call =>
    rw [hstarts]
    exact inv.call
  case run =>
    intro k pc hpc ho
    obtain ⟨hlast, r, x, hr, hs, hkeeps⟩ := inv.run k pc (hruns k pc hpc ho) ho
    exact ⟨hlast, r, x, hr, hstarted hs, hkeeps⟩
  case report =>
    intro h hr
    obtain ⟨r, x, hlast, hs, hof, hp⟩ := inv.report h hr
    exact ⟨r, x, hlast, hstarted hs, hof, hp⟩
  case stopped => exact fun hs => inv.stopped (hstate hs)
  case named => exact inv.named
  case latest =>
    rw [hstarts]
    intro hfree r hr
    obtain ⟨x, hs, hof⟩ := inv.latest hfree r hr
    exact ⟨x, hstarted hs, hof⟩

/-- A step of the run that owns the engine. -/
lemma Inv.run_owner (inv : Inv b s) {owner : Option (ℕ ⊕ ℕ)} (hsole : Sole owner s.engine)
    {rpc rpc' : RunPc} {r : RunLocal} {l : RunLabel} (hrpc : s.engine.mem.runs[k]? = some rpc)
    (hr : s.locals[k]? = some r) (st : RunStep k s.engine.mem rpc l m' rpc')
    (ho : rpc.owning = true) (x : Surroundings) :
    Inv b { s with
      engine := { s.engine with mem := { m' with runs := m'.runs.set k rpc' } }
      members := (runEffect b s.members r x rpc l).1
      locals := s.locals.set k (runEffect b s.members r x rpc l).2 } := by
  obtain ⟨hruns, -, -⟩ := st.frame
  have hown := hsole.shared.held_right hrpc ho
  obtain ⟨hlast, r', c, hr', hs, hkeeps⟩ := inv.run k rpc hrpc ho
  rw [hr] at hr'
  cases hr'
  obtain ⟨hkeeps', hof, hpublished, hstopped⟩ := st.keeps hkeeps ho x
  have hklt := (List.getElem?_eq_some_iff.mp hr).1
  have hlocal := List.getElem?_set_self (l := s.locals) (i := k)
    (a := (runEffect b s.members r x rpc l).2) hklt
  have hlast' : (s.locals.set k (runEffect b s.members r x rpc l).2).getLast? =
      some (runEffect b s.members r x rpc l).2 := by
    rw [List.getLast?_eq_getElem?, List.length_set, ← hlast, Nat.add_sub_cancel]
    exact hlocal
  rw [← runEffect_call b s.members r x rpc l] at hs
  constructor
  case calls => exact inv.calls
  case locals => simp [hruns, inv.locals]
  case call =>
    intro j q y hq hy
    cases hq' : q.owning with
    | false => exact (inv.call j q y hq hy).congr hq' _
    | true =>
      have hleft := hsole.shared.held_left hq hq'
      rw [hown] at hleft
      cases hleft
  case run =>
    intro j q hq hq'
    rcases Lts.getElem?_set_cases hq with ⟨rfl, rfl⟩ | ⟨hj, hq⟩
    · exact ⟨by rw [List.length_set, hlast], _, c, hlocal, ⟨hs.call, hs.pc⟩, hkeeps'⟩
    · rw [hruns] at hq
      exact absurd (hsole.shared.right.locked.unique hq hq' hrpc ho) hj
  case report =>
    intro _ hreport
    exact ⟨_, c, hlast', ⟨hs.call, hs.pc⟩, hof, hpublished hreport⟩
  case stopped =>
    intro hst
    rcases hstopped hst with hbefore | hnow
    · have hfree := hsole.owned.free (congrArg EngineState.rest hbefore)
      rw [hown] at hfree
      cases hfree
    · exact hnow
  case named =>
    intro _
    show Config.runId (Members.config _) = _
    rw [hof.config, hof.runId]
    rfl
  case latest =>
    intro _ y hy
    rw [hlast'] at hy
    cases hy
    exact ⟨c, ⟨hs.call, hs.pc⟩, hof⟩

/-- A step of a run. -/
lemma Inv.runStep (inv : Inv b s) {owner : Option (ℕ ⊕ ℕ)} (hsole : Sole owner s.engine)
    {rpc rpc' : RunPc} {r : RunLocal} {l : RunLabel} (hrpc : s.engine.mem.runs[k]? = some rpc)
    (hr : s.locals[k]? = some r) (st : RunStep k s.engine.mem rpc l m' rpc') (x : Surroundings) :
    Inv b { s with
      engine := { s.engine with mem := { m' with runs := m'.runs.set k rpc' } }
      members := (runEffect b s.members r x rpc l).1
      locals := s.locals.set k (runEffect b s.members r x rpc l).2 } := by
  cases ho : rpc.owning with
  | true => exact inv.run_owner hsole hrpc hr st ho x
  | false =>
    obtain ⟨heffect, rfl, ho'⟩ := st.quiet (b := b) (d := s.members) (r := r) ho x
    obtain ⟨hk, heq⟩ := List.getElem?_eq_some_iff.mp hr
    have hset : s.locals.set k r = s.locals := by
      rw [← heq]
      exact List.set_getElem_self hk
    rw [heffect]
    show Inv b { s with
      engine := { s.engine with
        mem := { s.engine.mem with runs := s.engine.mem.runs.set k rpc' } }
      members := s.members
      locals := s.locals.set k r }
    rw [hset]
    refine inv.elsewhere (by rfl) ?_ ?_ ?_
    · exact List.length_set
    · intro j q hq hq'
      rcases Lts.getElem?_set_cases hq with ⟨-, rfl⟩ | ⟨-, hq⟩
      · rw [ho'] at hq'
        cases hq'
      · exact hq
    · exact id

/-- A call begins. -/
lemma Inv.beginStart (inv : Inv b s) (q : StartRequest) :
    Inv b { s with
      engine := { s.engine with starts := s.engine.starts ++ [.check] }
      calls := s.calls ++ [⟨q, .config, none⟩] } := by
  have hstarted {j : ℕ} {x : StartCall} (h : s.Started j x) : Started { s with
      engine := { s.engine with starts := s.engine.starts ++ [.check] }
      calls := s.calls ++ [⟨q, .config, none⟩] } j x := by
    have hj := (List.getElem?_eq_some_iff.mp h.call).1
    have hj' := (List.getElem?_eq_some_iff.mp h.pc).1
    exact ⟨(List.getElem?_append_left hj).trans h.call, (List.getElem?_append_left hj').trans h.pc⟩
  constructor
  case calls => simp [inv.calls]
  case locals => exact inv.locals
  case call =>
    intro j pc x hpc hx
    rcases Lts.getElem?_concat_cases hpc with hpc | ⟨rfl, rfl⟩
    · rcases Lts.getElem?_concat_cases hx with hx | ⟨rfl, -⟩
      · exact inv.call j pc x hpc hx
      · have hlt := (List.getElem?_eq_some_iff.mp hpc).1
        rw [inv.calls] at hlt
        exact absurd hlt (Nat.lt_irrefl _)
    · rw [← inv.calls, List.getElem?_concat_length] at hx
      cases hx
      rfl
  case run =>
    intro k pc hpc ho
    obtain ⟨hlast, r, x, hr, hs, hkeeps⟩ := inv.run k pc hpc ho
    exact ⟨hlast, r, x, hr, hstarted hs, hkeeps⟩
  case report =>
    intro h hr
    obtain ⟨r, x, hlast, hs, hof, hp⟩ := inv.report (fun x hx => h x (List.mem_append_left _ hx)) hr
    exact ⟨r, x, hlast, hstarted hs, hof, hp⟩
  case stopped => exact inv.stopped
  case named => exact fun h => inv.named fun x hx => h x (List.mem_append_left _ hx)
  case latest =>
    intro hfree r hr
    obtain ⟨x, hs, hof⟩ := inv.latest (fun pc hpc => hfree pc (List.mem_append_left _ hpc)) r hr
    exact ⟨x, hstarted hs, hof⟩

/-- A step of `StopRun`. -/
lemma Inv.stop (inv : Inv b s) {pc pc' : StopPc} (st : StopStep j s.engine.mem pc m' pc') :
    Inv b { s with
      engine := { s.engine with mem := m', stops := s.engine.stops.set j pc' } } := by
  obtain ⟨hruns, -, -⟩ := st.frame
  refine inv.elsewhere (by rfl) ?_ ?_ ?_
  · exact congrArg List.length hruns
  · rw [hruns]
    exact fun _ _ h _ => h
  · intro hs
    cases st with
    | publish _ => cases hs
    | refuse _ => exact hs
    | store => exact hs

end Inv

/-- Every guarded step keeps the invariant. -/
lemma Inv.step {b : String} {s t : Runs} {a : RunsAction} {owner : Option (ℕ ⊕ ℕ)} (inv : Inv b s)
    (hsole : Sole owner s.engine) (st : Step b s a t) : Inv b t := by
  cases st with
  | beginStart => exact inv.beginStart _
  | beginStop => exact inv.elsewhere rfl rfl (fun _ _ h _ => h) id
  | assign hpc hc ha hn => exact inv.assign hsole hpc hc ha hn
  | start hpc hc ha st => exact inv.start hsole hpc hc ha st
  | stop _ st => exact inv.stop st
  | run hpc hr st => exact inv.runStep hsole hpc hr st _

/-- What a step means for the engine: nothing, or a step of its own. -/
lemma Step.engine {b : String} {s t : Runs} {a : RunsAction} (st : Step b s a t) :
    t.engine = s.engine ∨ Burnin.Step s.engine a.toAction t.engine := by
  cases st with
  | beginStart => exact .inr .beginStart
  | beginStop => exact .inr .beginStop
  | assign => exact .inl rfl
  | @start i pc c m' pc' hpc hc ha st =>
    right
    cases pc
    all_goals exact .start hpc st
  | stop hpc st => exact .inr (.stop hpc st)
  | run hpc hr st => exact .inr (.run hpc st)

lemma inv_reach {b : String} {s : Runs} (h : (sys b).Reach (fun s a => admits s a = true) s) :
    Inv b s ∧ ∃ owner, Sole owner s.engine := by
  induction h with
  | init hi =>
    obtain rfl := hi
    exact ⟨inv_new, none, Sole.of_atRest atRest_construct⟩
  | step _ hg hn ih =>
    obtain ⟨inv, owner, hsole⟩ := ih
    have st := Step.of_next hn
    refine ⟨inv.step hsole st, ?_⟩
    rcases st.engine with heq | ste
    · exact ⟨owner, heq ▸ hsole⟩
    · exact hsole.step hg ste

end Runs

/-- While every `StartRun` publishes `starting` over a state of rest: a call that has returned names
the run that it was asked for; while none is on its way to replace it, the last one names the run of the
engine; a run that ends in `stopped` leaves a report and no workers; and the report that is served is
that of the last run, with the configuration that is served beside it, unless a call is about to
withdraw it. -/
theorem report_of_last_run (b : String) (s : Runs)
    (h : (Runs.sys b).Reach (fun s a => s.admits a = true) s) :
    (∀ i c, s.Started i c → c.result = some c.request.result) ∧
      ((∀ pc ∈ s.engine.starts, pc.owning = false) → ∀ r, s.locals.getLast? = some r →
        ∃ c, s.Started r.call c ∧
          c.result = some ⟨s.members.runId, enabledCount s.members.config⟩) ∧
      (s.engine.mem.state = .stopped → s.members.hasReport = true ∧ s.members.workers = []) ∧
      ((∀ c ∈ s.calls, c.replacing = false) → ∀ v, s.members.getRunReport = some v →
        ∃ r c, s.locals.getLast? = some r ∧ s.Started r.call c ∧ OfRequest c.request s.members ∧
          Published b c.request r v) := by
  obtain ⟨inv, -⟩ := Runs.inv_reach h
  have hresult : ∀ i c, s.Started i c → c.result = some c.request.result :=
    fun i c hs => (inv.call i .started c hs.pc hs.call).2
  refine ⟨hresult, ?_, inv.stopped, ?_⟩
  · intro hfree r hr
    obtain ⟨c, hs, hof⟩ := inv.latest hfree r hr
    refine ⟨c, hs, ?_⟩
    rw [hresult r.call c hs, hof.config, hof.runId]
    rfl
  · intro hclean v hv
    obtain ⟨hr, rfl⟩ := Members.getRunReport_eq_some hv
    exact inv.report hclean hr

/-- A configuration of one minute. -/
def oneMinute : Config := { durationSeconds := 60, runId := "r1" }

/-- The steps of a call, its assignments included, until it has started its run. -/
def startSteps (i : ℕ) : List RunsAction := List.replicate 11 (.start i)

def quietly : Surroundings := ⟨0, "2026-01-01T00:01:00Z", 60, ⟨[], [], [], []⟩⟩

/-- The steps of a run that reaches its duration. -/
def runSteps (k : ℕ) : List RunsAction :=
  List.replicate 4 (.run k .tau quietly) ++ [.run k (.elapsed true) quietly] ++
    List.replicate 3 (.run k .tau quietly)

def oneReport : List RunsAction :=
  .beginStart ⟨oneMinute, 0, "2026-01-01T00:00:00Z"⟩ :: startSteps 0 ++ runSteps 0

lemma oneReport_reach :
    ∃ s, (Runs.sys "localhost:50000").Reach (fun s a => s.admits a = true) s ∧
      s.engine.mem.state = .stopped ∧ (∀ c ∈ s.calls, c.replacing = false) ∧
      s.locals = [⟨0, 0, some quietly.snapshot⟩] ∧
      s.members.getRunConfig = some oneMinute.toJson := by
  have hsome : ((Runs.sys "localhost:50000").execWhere Runs.admits Runs.new oneReport).map
      (fun s => (s.engine.mem.state, s.calls.map (·.replacing), s.locals, s.members.config,
        s.members.runId)) =
        some (.stopped, [false], [⟨0, 0, some quietly.snapshot⟩], oneMinute, "r1") := rfl
  obtain ⟨s, hs, hfields⟩ := Option.map_eq_some_iff.mp hsome
  obtain ⟨hstate, hfields⟩ := Prod.mk.inj hfields
  obtain ⟨hcalls, hfields⟩ := Prod.mk.inj hfields
  obtain ⟨hlocals, hfields⟩ := Prod.mk.inj hfields
  obtain ⟨hconfig, hid⟩ := Prod.mk.inj hfields
  refine ⟨s, Lts.Sys.Reach.execWhere (.init rfl) oneReport hs, hstate, ?_, hlocals, ?_⟩
  · intro c hc
    have hmem : c.replacing ∈ s.calls.map (·.replacing) := List.mem_map_of_mem hc
    rw [hcalls] at hmem
    exact List.mem_singleton.mp hmem
  · unfold Members.getRunConfig
    rw [hconfig, hid]
    rfl

theorem report_of_last_run_once :
    ∃ s v, (Runs.sys "localhost:50000").Reach (fun s a => s.admits a = true) s ∧
      s.members.getRunReport = some v ∧
      ∃ r c, s.locals.getLast? = some r ∧ s.Started r.call c ∧ OfRequest c.request s.members ∧
        Published "localhost:50000" c.request r v := by
  obtain ⟨s, hs, hstate, hclean, -⟩ := oneReport_reach
  obtain ⟨-, -, hstopped, hreport⟩ := report_of_last_run "localhost:50000" s hs
  have hv : s.members.getRunReport = some s.members.lastReport := by
    unfold Members.getRunReport
    rw [(hstopped hstate).1]
    rfl
  exact ⟨s, _, hs, hv, hreport hclean _ hv⟩

-- A report may be served while the run id is already that of the next run.
example : ((Runs.sys "localhost:50000").execWhere Runs.admits Runs.new
    (oneReport ++ .beginStart ⟨{ oneMinute with runId := "r2" }, 0, "2026-01-01T00:02:00Z"⟩ ::
      List.replicate 5 (.start 1))).map
    (fun s => (s.members.runId, s.members.getRunReport.bind (·.find? "run_id"))) =
      some ("r2", some (.string "r1")) := rfl

section BuildReport

variable (c : Config) (y : ReportInput)

end BuildReport

/-- The configuration that is served starts the same run again: the same run id, the same workers, the
same duration. -/
theorem config_replays (b : String) (s : Runs)
    (h : (Runs.sys b).Reach (fun s a => s.admits a = true) s)
    (hclean : ∀ c ∈ s.calls, c.replacing = false) (j : Value)
    (hj : s.members.getRunConfig = some j) (parse : String → Parsed) (dump : Value → String)
    (hne : dump j ≠ "") (hparse : parse (dump j) = .value j.reparsed) :
    ∃ c, Config.fromJson parse (dump j) = .ok c ∧ ∀ draw now,
      let q : StartRequest := ⟨c, draw, now⟩
      q.runId = s.members.runId ∧
        createWorkers b q.runId q.prepared = createWorkers b s.members.runId s.members.config ∧
        q.prepared.durationSeconds = s.members.config.durationSeconds := by
  have hnamed := (Runs.inv_reach h).1.named hclean
  unfold Members.getRunConfig at hj
  cases hid : s.members.runId.isEmpty with
  | true =>
    rw [hid] at hj
    cases hj
  | false =>
    rw [hid] at hj
    cases hj
    refine ⟨_, fromJson_of_read hne hparse (s.members.config.readJson_toJson {}), ?_⟩
    intro draw now
    have hrun : runIdOf s.members.config draw = s.members.runId := by
      have hempty : s.members.config.runId ≠ "" := by
        intro he
        rw [← hnamed, he] at hid
        cases hid
      rw [runIdOf, if_neg hempty, hnamed]
    refine ⟨hrun, ?_, rfl⟩
    show createWorkers b (runIdOf s.members.config draw) _ = _
    rw [hrun]
    rfl

theorem config_replays_once :
    let text :=
      "\x7b\"broker_address\":\"localhost:50000\",\"client_id_prefix\":\"cpp-burnin\"," ++
      "\"duration_seconds\":60,\"patterns\":\x7b\x7d,\"payload_size\":256,\"queue\":" ++
      "\x7b\"auto_ack\":false,\"poll_max_messages\":10,\"poll_wait_timeout_seconds\":5\x7d," ++
      "\"run_id\":\"r1\",\"warmup_seconds\":10\x7d"
    let parse := fun t =>
      if t = text then .value oneMinute.toJson.reparsed else .parseError "syntax error"
    ∃ (s : Runs) (c : Config), s.members.getRunConfig = some oneMinute.toJson ∧
      Config.fromJson parse text = .ok c ∧
      (⟨c, 7, "2026-01-01T00:02:00Z"⟩ : StartRequest).runId = s.members.runId := by
  intro text parse
  obtain ⟨s, hs, -, hclean, -, hconfig⟩ := oneReport_reach
  have hne : text ≠ "" := by decide
  obtain ⟨c, hc, hruns⟩ := config_replays "localhost:50000" s hs hclean oneMinute.toJson hconfig parse
    (fun _ => text) hne (if_pos rfl)
  exact ⟨s, c, hconfig, hc, (hruns 7 "2026-01-01T00:02:00Z").1⟩

end KubeMQ.Burnin
