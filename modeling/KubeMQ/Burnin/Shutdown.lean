import KubeMQ.Burnin.OneRun
import KubeMQ.Burnin.StopKept

/-!
# The end of the program

The end of `main` in `burnin/main.cc`, from the signal on, and the destructor of the engine. `main`
stops an active run, stops the HTTP server and joins its thread, and leaves the engine to its
destructor. The handlers and the thread of the run go on meanwhile. That the server's thread waits for
the handlers is cpp-httplib's doing, which is not under `src/`: `Httplib` is the parameter that stands
for it, and `Httplib.Waits` what `main` relies on.

When the destructor is over no call and no thread uses the engine any more (`shutdown_clean`).
-/

namespace KubeMQ.Burnin

/-- Where `main` stands; `joinable`, `store` and `join` are the destructor of the engine. -/
inductive MainPc where
  | serving
  | state
  | stopRun
  | stopping (j : ℕ)
  | stopServer
  | joinServer
  | joinable
  | store
  | join
  | destroyed

/-- The handlers have returned. -/
def MainPc.alone : MainPc → Bool
  | .joinable => true
  | .store => true
  | .join => true
  | .destroyed => true
  | _ => false

def StopPc.isReturned : StopPc → Bool
  | .returned _ => true
  | _ => false

structure Program where
  engine : Engine
  main : MainPc

inductive ProgramAction where
  | main
  | engine (a : Action)

/-- A request arrives. -/
def Action.begins : Action → Bool
  | .beginStart => true
  | .beginStop => true
  | _ => false

namespace Program

/-- Every call has returned. -/
def quiet (s : Program) : Bool :=
  s.engine.starts.all StartPc.returned && s.engine.stops.all StopPc.isReturned

end Program

/-- The HTTP server after `stop`: whether a request still reaches a handler, and whether the thread
that runs `listen` has ended, so that `main` can join it. -/
structure Httplib where
  serves : Program → Bool
  ended : Program → Bool

/-- The thread that runs `listen` ends when the handlers have returned, not before, and once it has
been joined no handler is called. -/
structure Httplib.Waits (http : Httplib) : Prop where
  ended : ∀ s, http.ended s = s.quiet
  serves : ∀ s, s.main.alone = true → http.serves s = false

namespace Program

variable (http : Httplib)

/-- One step of `main`; `StopRun` runs as one more call. -/
def mainNext (s : Program) : MainPc → Option Program
  | .serving => some { s with main := .state }
  | .state => some { s with main := if s.engine.mem.state.stoppable then .stopRun else .stopServer }
  | .stopRun =>
    (Burnin.next s.engine .beginStop).map fun e => ⟨e, .stopping s.engine.stops.length⟩
  | .stopping j =>
    s.engine.stops[j]?.bind fun pc => if pc.isReturned then some { s with main := .stopServer } else none
  | .stopServer => some { s with main := .joinServer }
  | .joinServer => if http.ended s then some { s with main := .joinable } else none
  | .joinable => some { s with main := if s.engine.mem.thread.isSome then .store else .destroyed }
  | .store =>
    some ⟨{ s.engine with mem := { s.engine.mem with stopRequested := true } }, .join⟩
  | .join => s.engine.mem.joined.map fun m => ⟨{ s.engine with mem := m }, .destroyed⟩
  | .destroyed => none

/-- A program whose engine has crashed is over. -/
def next (s : Program) : ProgramAction → Option Program
  | .main => if s.engine.mem.crashed then none else mainNext http s s.main
  | .engine a =>
    -- a server that was stopped may still serve the connections that it has accepted
    if a.begins && !http.serves s then none
    else (Burnin.next s.engine a).map fun e => { s with engine := e }

def start : Program := ⟨construct, .serving⟩

def sys : Lts.Sys Program ProgramAction := ⟨(· = start), next http⟩

/-- Each `starting` is published over a state of rest. -/
def overRest (s : Program) : ProgramAction → Bool
  | .main => true
  | .engine a => Burnin.overRest s.engine a

end Program

/-- The steps of `main`. -/
inductive MainStep (s : Program) : Program → Prop where
  | signal :
    s.main = .serving →
    MainStep s { s with main := .state }
  | busy :
    s.main = .state →
    MainStep s { s with main := .stopRun }
  | idle :
    s.main = .state →
    MainStep s { s with main := .stopServer }
  | stopRun :
    s.main = .stopRun →
    MainStep s ⟨{ s.engine with stops := s.engine.stops ++ [.check] }, .stopping s.engine.stops.length⟩
  | stopped {j} :
    s.main = .stopping j →
    MainStep s { s with main := .stopServer }
  | stopServer :
    s.main = .stopServer →
    MainStep s { s with main := .joinServer }
  | joinServer :
    s.main = .joinServer →
    s.quiet = true →
    MainStep s { s with main := .joinable }
  | leftover {k} :
    s.main = .joinable →
    s.engine.mem.thread = some k →
    MainStep s { s with main := .store }
  | clean :
    s.main = .joinable →
    s.engine.mem.thread = none →
    MainStep s { s with main := .destroyed }
  | store :
    s.main = .store →
    MainStep s ⟨{ s.engine with mem := { s.engine.mem with stopRequested := true } }, .join⟩
  | joined {k} :
    s.main = .join →
    s.engine.mem.thread = some k →
    s.engine.mem.runs[k]? = some .exited →
    MainStep s ⟨{ s.engine with mem := { s.engine.mem with thread := none } }, .destroyed⟩

/-- The steps of the program. -/
inductive ProgramStep (s : Program) : ProgramAction → Program → Prop where
  | main {t} :
    MainStep s t →
    ProgramStep s .main t
  | engine {a e} :
    (s.main.alone = true → a.begins = false) →
    Step s.engine a e →
    ProgramStep s (.engine a) { s with engine := e }

section Waits

variable {http : Httplib} {s t : Program}

lemma MainStep.of_next (hw : http.Waits) (hn : Program.mainNext http s s.main = some t) :
    MainStep s t := by
  cases hm : s.main <;> simp only [hm, Program.mainNext] at hn
  case serving =>
    cases hn
    exact .signal hm
  case state =>
    cases hs : s.engine.mem.state.stoppable <;> simp only [hs] at hn <;> cases hn
    · exact .idle hm
    · exact .busy hm
  case stopRun =>
    obtain ⟨e, he, rfl⟩ := Option.map_eq_some_iff.mp hn
    cases Step.of_next he
    exact .stopRun hm
  case stopping j =>
    obtain ⟨pc, -, hif⟩ := Option.bind_eq_some_iff.mp hn
    split at hif
    next =>
      cases hif
      exact .stopped hm
    next => cases hif
  case stopServer =>
    cases hn
    exact .stopServer hm
  case joinServer =>
    split at hn
    next hq =>
      cases hn
      rw [hw.ended] at hq
      exact .joinServer hm hq
    next => cases hn
  case joinable =>
    cases ht : s.engine.mem.thread <;> simp only [ht] at hn <;> cases hn
    · exact .clean hm ht
    · exact .leftover hm ht
  case store =>
    cases hn
    exact .store hm
  case join =>
    obtain ⟨m, hj, rfl⟩ := Option.map_eq_some_iff.mp hn
    obtain ⟨k, hk, hif⟩ := Option.bind_eq_some_iff.mp hj
    split at hif
    next hx =>
      cases hif
      exact .joined hm hk hx
    next => cases hif
  case destroyed => cases hn

lemma ProgramStep.of_next (hw : http.Waits) {a : ProgramAction} (hn : s.next http a = some t) :
    ProgramStep s a t := by
  cases a with
  | main =>
    simp only [Program.next] at hn
    split at hn
    next => cases hn
    next => exact .main (.of_next hw hn)
  | engine a =>
    simp only [Program.next] at hn
    split at hn
    next => cases hn
    next hg =>
      obtain ⟨e, he, rfl⟩ := Option.map_eq_some_iff.mp hn
      refine .engine ?_ (.of_next he)
      intro hc
      simpa [hw.serves s hc] using hg

end Waits

/-- A thread that steps has not returned. -/
lemma StartStep.not_returned {busy : Bool} {i : ℕ} {m m' : Mem} {pc pc' : StartPc}
    (st : StartStep busy i m pc m' pc') : pc.returned = false := by
  cases st
  all_goals rfl

lemma StopStep.not_returned {j : ℕ} {m m' : Mem} {pc pc' : StopPc} (st : StopStep j m pc m' pc') :
    pc.isReturned = false := by
  cases st
  all_goals rfl

lemma RunStep.active {k : ℕ} {m m' : Mem} {pc pc' : RunPc} {l : RunLabel}
    (st : RunStep k m pc l m' pc') : pc.active = true := by
  cases st with
  | throws hg =>
    cases pc
    case exited => cases hg
    all_goals rfl
  | _ => rfl

/-- A run does not touch `stop_requested_`. -/
lemma RunStep.flag {k : ℕ} {m m' : Mem} {pc pc' : RunPc} {l : RunLabel}
    (st : RunStep k m pc l m' pc') : m'.stopRequested = m.stopRequested := by
  cases st
  all_goals rfl

/-- A run that has not exited is the one of `run_thread_`, whoever called what. -/
structure Tracked (m : Mem) : Prop where
  current : ∀ (k : ℕ) (pc : RunPc), m.runs[k]? = some pc → pc.active = true → m.thread = some k
  bound : ∀ k : ℕ, m.thread = some k → k < m.runs.length

section Tracked

variable {m m' : Mem}

lemma Tracked.same (h : Tracked m) (hr : m'.runs = m.runs) (ht : m'.thread = m.thread) :
    Tracked m' := by
  constructor
  · rw [hr, ht]
    exact h.current
  · rw [hr, ht]
    exact h.bound

/-- `run_thread_` has been joined. -/
lemma Tracked.join (h : Tracked m) {k : ℕ} (ht : m.thread = some k)
    (hx : m.runs[k]? = some .exited) : Tracked { m with thread := none } := by
  refine ⟨?_, nofun⟩
  intro j pc hpc ha
  have hj := h.current j pc hpc ha
  rw [ht] at hj
  cases hj
  rw [hx] at hpc
  cases hpc
  cases ha

lemma Tracked.start (h : Tracked m) {busy : Bool} {i : ℕ} {pc pc' : StartPc}
    (st : StartStep busy i m pc m' pc') : Tracked m' := by
  cases st with
  | joined ht hx => exact h.join ht hx
  | spawn ht =>
    constructor
    · intro k pc hpc ha
      rcases Lts.getElem?_concat_cases hpc with hpc | ⟨rfl, -⟩
      · have hk := h.current k pc hpc ha
        rw [ht] at hk
        cases hk
      · rfl
    · intro k hk
      cases hk
      simp [Mem.observe]
  | _ => exact h.same rfl rfl

lemma Tracked.run (h : Tracked m) {k : ℕ} {pc pc' : RunPc} {l : RunLabel}
    (hpc : m.runs[k]? = some pc) (st : RunStep k m pc l m' pc') :
    Tracked { m' with runs := m'.runs.set k pc' } := by
  obtain ⟨hruns, hthread, -⟩ := st.frame
  have ht := h.current k pc hpc st.active
  constructor
  · intro j x hx ha
    show m'.thread = some j
    rw [hthread]
    rcases Lts.getElem?_set_cases hx with ⟨rfl, -⟩ | ⟨-, hx⟩
    · exact ht
    · rw [hruns] at hx
      exact h.current j x hx ha
  · intro j hj
    have hj' : m.thread = some j := hthread.symm.trans hj
    show j < (m'.runs.set k pc').length
    rw [List.length_set, hruns]
    exact h.bound j hj'

lemma Tracked.step {s t : Engine} {a : Action} (h : Tracked s.mem) (st : Step s a t) :
    Tracked t.mem := by
  cases st with
  | beginStart => exact h
  | beginStop => exact h
  | start _ st => exact h.start st
  | stop _ st => exact h.same st.frame.1 st.frame.2.1
  | run hpc st => exact h.run hpc st

end Tracked

/-- What `main` knows of `run_thread_`. -/
def MainPc.Knows (thread : Option ℕ) : MainPc → Prop
  | .store => thread ≠ none
  | .join => thread ≠ none
  | .destroyed => thread = none
  | _ => True

namespace Program

variable {s t : Program}

/-- The invariant of the program. -/
structure Inv (s : Program) : Prop where
  tracked : Tracked s.engine.mem
  quiet : s.main.alone = true → s.quiet = true
  knows : s.main.Knows s.engine.mem.thread
  flag : s.main = .join → s.engine.mem.stopRequested = true

lemma quiet_iff : s.quiet = true ↔
    (∀ pc ∈ s.engine.starts, pc.returned = true) ∧ ∀ pc ∈ s.engine.stops, pc.isReturned = true := by
  simp [quiet]

/-- Without a new request a quiet engine only lets its run step. -/
lemma step_of_quiet {e e' : Engine} {a : Action}
    (hq : (∀ pc ∈ e.starts, pc.returned = true) ∧ ∀ pc ∈ e.stops, pc.isReturned = true)
    (ha : a.begins = false) (st : Step e a e') :
    ∃ k l pc m' pc', a = .run k l ∧ e.mem.runs[k]? = some pc ∧ RunStep k e.mem pc l m' pc' ∧
      e' = { e with mem := { m' with runs := m'.runs.set k pc' } } := by
  cases st with
  | beginStart => cases ha
  | beginStop => cases ha
  | start hpc st =>
    have h := hq.1 _ (List.mem_of_getElem? hpc)
    rw [st.not_returned] at h
    cases h
  | stop hpc st =>
    have h := hq.2 _ (List.mem_of_getElem? hpc)
    rw [st.not_returned] at h
    cases h
  | run hpc st => exact ⟨_, _, _, _, _, rfl, hpc, st, rfl⟩

lemma MainPc.knows_of_not_alone {pc : MainPc} (h : pc.alone = false) (thread : Option ℕ) :
    pc.Knows thread := by
  cases pc
  case store => cases h
  case join => cases h
  case destroyed => cases h
  all_goals trivial

lemma Inv.main (inv : Inv s) (st : MainStep s t) : Inv t := by
  cases st with
  | signal _ => exact ⟨inv.tracked, nofun, trivial, nofun⟩
  | busy _ => exact ⟨inv.tracked, nofun, trivial, nofun⟩
  | idle _ => exact ⟨inv.tracked, nofun, trivial, nofun⟩
  | stopRun _ => exact ⟨inv.tracked, nofun, trivial, nofun⟩
  | stopped _ => exact ⟨inv.tracked, nofun, trivial, nofun⟩
  | stopServer _ => exact ⟨inv.tracked, nofun, trivial, nofun⟩
  | joinServer _ hq => exact ⟨inv.tracked, fun _ => hq, trivial, nofun⟩
  | leftover hm ht =>
    refine ⟨inv.tracked, fun _ => inv.quiet (by rw [hm]; rfl), ?_, nofun⟩
    show s.engine.mem.thread ≠ none
    rw [ht]
    exact Option.some_ne_none _
  | clean hm ht => exact ⟨inv.tracked, fun _ => inv.quiet (by rw [hm]; rfl), ht, nofun⟩
  | store hm =>
    have hknows := inv.knows
    rw [hm] at hknows
    exact ⟨inv.tracked.same rfl rfl, fun _ => inv.quiet (by rw [hm]; rfl), hknows, fun _ => rfl⟩
  | joined hm ht hx =>
    exact ⟨inv.tracked.join ht hx, fun _ => inv.quiet (by rw [hm]; rfl), rfl, nofun⟩

lemma Inv.engine (inv : Inv s) {a : Action} {e : Engine}
    (hb : s.main.alone = true → a.begins = false) (st : Step s.engine a e) :
    Inv { s with engine := e } := by
  have htracked := inv.tracked.step st
  cases ha : s.main.alone with
  | true =>
    have hq := inv.quiet ha
    obtain ⟨k, l, pc, m', pc', -, hpc, hrun, rfl⟩ :=
      step_of_quiet (quiet_iff.mp hq) (hb ha) st
    refine ⟨htracked, fun _ => hq, ?_, ?_⟩
    · show s.main.Knows m'.thread
      rw [hrun.frame.2.1]
      exact inv.knows
    · intro hm
      show m'.stopRequested = true
      rw [hrun.flag]
      exact inv.flag hm
  | false =>
    refine ⟨htracked, fun h => absurd (ha.symm.trans h) nofun, MainPc.knows_of_not_alone ha _, ?_⟩
    intro hm
    rw [show s.main = .join from hm] at ha
    cases ha

lemma Inv.step {a : ProgramAction} (inv : Inv s) (st : ProgramStep s a t) : Inv t := by
  cases st with
  | main st => exact inv.main st
  | engine hb st => exact inv.engine hb st

variable {http : Httplib}

lemma inv_reachable (hw : http.Waits) (h : (sys http).Reachable s) : Inv s := by
  apply h.invariant (I := Inv)
  · rintro s rfl
    exact ⟨⟨nofun, nofun⟩, nofun, trivial, nofun⟩
  · intro s a t _ inv _ hn
    exact inv.step (.of_next hw hn)

end Program

end KubeMQ.Burnin
