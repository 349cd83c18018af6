import KubeMQ.Lts.Basic

/-!
# The burn-in engine

`StartRun`, `StopRun` and `RunLoop` of `burnin/engine/engine.cc`. Any number of handlers call the
first two, and each successful `StartRun` starts a thread that executes `RunLoop`. One step is a
lock scope of `mu_`, an access to `stop_requested_` or a step of `run_thread_`; a method returns with
the last of its steps. What a run does between them (the workers, the metrics, the report) is one
step, which may throw.

Assigning to a joinable `std::thread` calls `std::terminate`; joining one that is not joinable
throws. Two joins of one thread at the same time have no defined behaviour, and the model ends there
as well.
-/

namespace KubeMQ.Burnin

/-- The values of `state_`. -/
inductive EngineState where
  | idle | starting | running | stopping | stopped | error
  deriving DecidableEq

/-- The constants `kStateIdle` to `kStateError`. -/
def EngineState.text : EngineState → String
  | .idle => "idle"
  | .starting => "starting"
  | .running => "running"
  | .stopping => "stopping"
  | .stopped => "stopped"
  | .error => "error"

/-- The states in which `StartRun` may start. -/
def EngineState.rest : EngineState → Bool
  | .idle => true
  | .stopped => true
  | .error => true
  | _ => false

/-- The states in which `StopRun` may stop. -/
def EngineState.stoppable : EngineState → Bool
  | .running => true
  | .starting => true
  | _ => false

/-- Where a call of `StartRun` stands; the last three constructors are returned calls. -/
inductive StartPc where
  | check
  | publish
  | reset
  | joinable
  | join
  | joining
  | spawn
  | started
  | refused (error : String)
  | threw
  deriving DecidableEq

/-- Where a call of `StopRun` stands, and what it has returned. -/
inductive StopPc where
  | check
  | store
  | returned (error : String)
  deriving DecidableEq

/-- Where a thread stands in `RunLoop`. -/
inductive RunPc where
  | create
  | publish
  | startWorkers
  | test
  | elapsed
  | sleep
  | stopWorkers
  | report
  | finish
  | fail
  | leave
  | exited
  deriving DecidableEq

/-- What the environment decides about a step of `RunLoop`: whether the duration has passed, and
whether the step throws. -/
inductive RunLabel where
  | tau
  | elapsed (passed : Bool)
  | throws

/-- What happened, in order: an entry into a state of rest, a successful `StartRun`, an assignment to
a joinable `run_thread_`, the return of the empty string by a `StopRun`, and in the wait loop a look at
`stop_requested_` and a sleep. -/
inductive Event where
  | entered (state : EngineState)
  | started (call : ℕ)
  | overwritten (call : ℕ)
  | stopReturned (call : ℕ)
  | tested (run : ℕ) (stop : Bool)
  | waited (run : ℕ)
  deriving DecidableEq

/-- The members that the threads share, the runs started so far, and the history. `thread` is the
run that `run_thread_` represents. -/
structure Mem where
  state : EngineState
  stopRequested : Bool
  thread : Option ℕ
  runs : List RunPc
  crashed : Bool
  log : List Event

def Mem.observe (m : Mem) (ev : Event) : Mem :=
  { m with log := m.log ++ [ev] }

/-- `SetState`. -/
def Mem.setState (m : Mem) (state : EngineState) : Mem :=
  let m := { m with state := state }
  if state.rest then m.observe (.entered state) else m

/-- `run_thread_.join()` returns when the thread has exited. -/
def Mem.joined (m : Mem) : Option Mem :=
  m.thread.bind fun k =>
    if m.runs[k]? = some .exited then some { m with thread := none } else none

/-- One step of the `i`-th call of `StartRun`; `busy` tells whether a call is inside
`run_thread_.join()`. -/
def startNext (busy : Bool) (m : Mem) (i : ℕ) : StartPc → Option (Mem × StartPc)
  | .check =>
    some (m, if m.state.rest then .publish
      else .refused ("cannot start: current state is " ++ m.state.text))
  | .publish => some (m.setState .starting, .reset)
  | .reset => some ({ m with stopRequested := false }, .joinable)
  | .joinable => some (m, if m.thread.isSome then .join else .spawn)
  | .join =>
    if busy then some ({ m with crashed := true }, .join)
    else some (m, if m.thread.isSome then .joining else .threw)
  | .joining => m.joined.map fun m => (m, .spawn)
  | .spawn =>
    if m.thread.isSome then some ({ m with crashed := true }.observe (.overwritten i), .spawn)
    else
      some ({ m with thread := some m.runs.length, runs := m.runs ++ [RunPc.create] }.observe
        (.started i), .started)
  | _ => none

/-- One step of the `j`-th call of `StopRun`. -/
def stopNext (m : Mem) (j : ℕ) : StopPc → Option (Mem × StopPc)
  | .check =>
    if m.state.stoppable then some (m.setState .stopping, .store)
    else some (m, .returned ("cannot stop: current state is " ++ m.state.text))
  | .store => some ({ m with stopRequested := true }.observe (.stopReturned j), .returned "")
  | _ => none

/-- The steps inside the `try` block. -/
def RunPc.guarded : RunPc → Bool
  | .fail => false
  | .leave => false
  | .exited => false
  | _ => true

/-- One step of the `k`-th run. -/
def runNext (m : Mem) (k : ℕ) : RunPc → RunLabel → Option (Mem × RunPc)
  | .create, .tau => some (m, .publish)
  | .publish, .tau => some (m.setState .running, .startWorkers)
  | .startWorkers, .tau => some (m, .test)
  | .test, .tau =>
    some (m.observe (.tested k m.stopRequested), if m.stopRequested then .stopWorkers else .elapsed)
  | .elapsed, .elapsed passed =>
    if passed then some (m, .stopWorkers) else some (m.observe (.waited k), .sleep)
  | .sleep, .tau => some (m, .test)
  | .stopWorkers, .tau => some (m, .report)
  | .report, .tau => some (m, .finish)
  | .finish, .tau => some (m.setState .stopped, .leave)
  | .fail, .tau => some (m.setState .error, .leave)
  | .leave, .tau => some (m, .exited)
  | pc, .throws => if pc.guarded then some (m, .fail) else none
  | _, _ => none

/-- An engine with the calls made on it so far. -/
structure Engine where
  mem : Mem
  starts : List StartPc
  stops : List StopPc

/-- A call is inside `run_thread_.join()`. -/
def Engine.busy (s : Engine) : Bool := s.starts.any (· = .joining)

/-- One action of the system. -/
inductive Action where
  | beginStart
  | beginStop
  | start (i : ℕ)
  | stop (j : ℕ)
  | run (k : ℕ) (l : RunLabel)

/-- One step of an engine that has not crashed. -/
def liveNext (s : Engine) : Action → Option Engine
  | .beginStart => some { s with starts := s.starts ++ [.check] }
  | .beginStop => some { s with stops := s.stops ++ [.check] }
  | .start i =>
    s.starts[i]?.bind fun pc =>
      (startNext s.busy s.mem i pc).map fun r =>
        { s with mem := r.1, starts := s.starts.set i r.2 }
  | .stop j =>
    s.stops[j]?.bind fun pc =>
      (stopNext s.mem j pc).map fun r =>
        { s with mem := r.1, stops := s.stops.set j r.2 }
  | .run k l =>
    s.mem.runs[k]?.bind fun pc =>
      (runNext s.mem k pc l).map fun r =>
        { s with mem := { r.1 with runs := r.1.runs.set k r.2 } }

def next (s : Engine) (a : Action) : Option Engine :=
  if s.mem.crashed then none else liveNext s a

/-- An engine at rest: every run so far has exited, and the last one may be left to join. -/
structure AtRest (s : Engine) : Prop where
  state : s.mem.state.rest = true
  runs : ∀ (k : ℕ) (pc : RunPc), s.mem.runs[k]? = some pc → pc = .exited
  thread : ∀ k : ℕ, s.mem.thread = some k → k < s.mem.runs.length
  alive : s.mem.crashed = false
  log : s.mem.log = []
  starts : s.starts = []
  stops : s.stops = []

/-- An engine as it is constructed. -/
def construct : Engine where
  mem := ⟨.idle, false, none, [], false, []⟩
  starts := []
  stops := []

lemma atRest_construct : AtRest construct :=
  ⟨rfl, nofun, nofun, rfl, rfl, rfl, rfl⟩

/-- The system of one engine. -/
def sys : Lts.Sys Engine Action where
  init := AtRest
  next := next

/-- The steps of the `i`-th call of `StartRun`. -/
inductive StartStep (busy : Bool) (i : ℕ) (m : Mem) : StartPc → Mem → StartPc → Prop where
  | pass :
    m.state.rest = true →
    StartStep busy i m .check m .publish
  | refuse :
    m.state.rest = false →
    StartStep busy i m .check m (.refused ("cannot start: current state is " ++ m.state.text))
  | publish :
    StartStep busy i m .publish { m with state := .starting } .reset
  | reset :
    StartStep busy i m .reset { m with stopRequested := false } .joinable
  | leftover {k} :
    m.thread = some k →
    StartStep busy i m .joinable m .join
  | clean :
    m.thread = none →
    StartStep busy i m .joinable m .spawn
  | overlap :
    busy = true →
    StartStep busy i m .join { m with crashed := true } .join
  | join {k} :
    busy = false →
    m.thread = some k →
    StartStep busy i m .join m .joining
  | threw :
    m.thread = none →
    StartStep busy i m .join m .threw
  | joined {k} :
    m.thread = some k →
    m.runs[k]? = some .exited →
    StartStep busy i m .joining { m with thread := none } .spawn
  | overwrite {k} :
    m.thread = some k →
    StartStep busy i m .spawn ({ m with crashed := true }.observe (.overwritten i)) .spawn
  | spawn :
    m.thread = none →
    StartStep busy i m .spawn
      ({ m with thread := some m.runs.length, runs := m.runs ++ [RunPc.create] }.observe
        (.started i)) .started

/-- The steps of the `j`-th call of `StopRun`. -/
inductive StopStep (j : ℕ) (m : Mem) : StopPc → Mem → StopPc → Prop where
  | publish :
    m.state.stoppable = true →
    StopStep j m .check { m with state := .stopping } .store
  | refuse :
    m.state.stoppable = false →
    StopStep j m .check m (.returned ("cannot stop: current state is " ++ m.state.text))
  | store :
    StopStep j m .store ({ m with stopRequested := true }.observe (.stopReturned j))
      (.returned "")

/-- The steps of the `k`-th run. -/
inductive RunStep (k : ℕ) (m : Mem) : RunPc → RunLabel → Mem → RunPc → Prop where
  | create :
    RunStep k m .create .tau m .publish
  | publish :
    RunStep k m .publish .tau { m with state := .running } .startWorkers
  | startWorkers :
    RunStep k m .startWorkers .tau m .test
  | stop :
    m.stopRequested = true →
    RunStep k m .test .tau (m.observe (.tested k true)) .stopWorkers
  | goOn :
    m.stopRequested = false →
    RunStep k m .test .tau (m.observe (.tested k false)) .elapsed
  | passed :
    RunStep k m .elapsed (.elapsed true) m .stopWorkers
  | wait :
    RunStep k m .elapsed (.elapsed false) (m.observe (.waited k)) .sleep
  | sleep :
    RunStep k m .sleep .tau m .test
  | stopWorkers :
    RunStep k m .stopWorkers .tau m .report
  | report :
    RunStep k m .report .tau m .finish
  | finish :
    RunStep k m .finish .tau ({ m with state := .stopped }.observe (.entered .stopped)) .leave
  | fail :
    RunStep k m .fail .tau ({ m with state := .error }.observe (.entered .error)) .leave
  | leave :
    RunStep k m .leave .tau m .exited
  | throws {pc} :
    pc.guarded = true →
    RunStep k m pc .throws m .fail

/-- The history grows. -/
lemma StartStep.log_subset {busy : Bool} {i : ℕ} {m m' : Mem} {pc pc' : StartPc}
    (st : StartStep busy i m pc m' pc') : m.log ⊆ m'.log := by
  cases st with
  | overwrite _ => exact List.subset_append_left _ _
  | spawn _ => exact List.subset_append_left _ _
  | _ => exact List.Subset.refl _

lemma StopStep.log_subset {j : ℕ} {m m' : Mem} {pc pc' : StopPc} (st : StopStep j m pc m' pc') :
    m.log ⊆ m'.log := by
  cases st with
  | store => exact List.subset_append_left _ _
  | _ => exact List.Subset.refl _

lemma RunStep.log_subset {k : ℕ} {m m' : Mem} {pc pc' : RunPc} {l : RunLabel}
    (st : RunStep k m pc l m' pc') : m.log ⊆ m'.log := by
  cases st with
  | stop _ => exact List.subset_append_left _ _
  | goOn _ => exact List.subset_append_left _ _
  | wait => exact List.subset_append_left _ _
  | finish => exact List.subset_append_left _ _
  | fail => exact List.subset_append_left _ _
  | _ => exact List.Subset.refl _

/-- A step of `StopRun` leaves the threads alone. -/
lemma StopStep.frame {j : ℕ} {m m' : Mem} {pc pc' : StopPc} (st : StopStep j m pc m' pc') :
    m'.runs = m.runs ∧ m'.thread = m.thread ∧ m'.crashed = m.crashed := by
  cases st
  all_goals exact ⟨rfl, rfl, rfl⟩

/-- So does one of `RunLoop`, but for its own thread. -/
lemma RunStep.frame {k : ℕ} {m m' : Mem} {pc pc' : RunPc} {l : RunLabel}
    (st : RunStep k m pc l m' pc') :
    m'.runs = m.runs ∧ m'.thread = m.thread ∧ m'.crashed = m.crashed := by
  cases st
  all_goals exact ⟨rfl, rfl, rfl⟩

/-- The steps of an engine. -/
inductive Step (s : Engine) : Action → Engine → Prop where
  | beginStart :
    Step s .beginStart { s with starts := s.starts ++ [.check] }
  | beginStop :
    Step s .beginStop { s with stops := s.stops ++ [.check] }
  | start {i pc m' pc'} :
    s.starts[i]? = some pc →
    StartStep s.busy i s.mem pc m' pc' →
    Step s (.start i) { s with mem := m', starts := s.starts.set i pc' }
  | stop {j pc m' pc'} :
    s.stops[j]? = some pc →
    StopStep j s.mem pc m' pc' →
    Step s (.stop j) { s with mem := m', stops := s.stops.set j pc' }
  | run {k l pc m' pc'} :
    s.mem.runs[k]? = some pc →
    RunStep k s.mem pc l m' pc' →
    Step s (.run k l) { s with mem := { m' with runs := m'.runs.set k pc' } }

lemma StartStep.of_next {busy : Bool} {i : ℕ} {m m' : Mem} {pc pc' : StartPc}
    (hn : startNext busy m i pc = some (m', pc')) : StartStep busy i m pc m' pc' := by
  cases pc with
  | check =>
    cases hr : m.state.rest <;> simp only [startNext, hr] at hn <;> cases hn
    · exact .refuse hr
    · exact .pass hr
  | publish =>
    cases hn
    exact .publish
  | reset =>
    cases hn
    exact .reset
  | joinable =>
    cases ht : m.thread <;> simp only [startNext, ht] at hn <;> cases hn
    · exact .clean ht
    · exact .leftover ht
  | join =>
    cases busy
    · cases ht : m.thread <;> simp only [startNext, ht] at hn <;> cases hn
      · exact .threw ht
      · exact .join rfl ht
    · cases hn
      exact .overlap rfl
  | joining =>
    obtain ⟨m₁, hm, heq⟩ := Option.map_eq_some_iff.mp hn
    obtain ⟨k, hk, hif⟩ := Option.bind_eq_some_iff.mp hm
    split at hif
    next hx =>
      cases hif
      cases heq
      exact .joined hk hx
    next => cases hif
  | spawn =>
    cases ht : m.thread <;> simp only [startNext, ht] at hn <;> cases hn
    · exact .spawn ht
    · exact ht ▸ StartStep.overwrite ht
  | started => cases hn
  | refused error => cases hn
  | threw => cases hn

lemma StopStep.of_next {j : ℕ} {m m' : Mem} {pc pc' : StopPc}
    (hn : stopNext m j pc = some (m', pc')) : StopStep j m pc m' pc' := by
  cases pc with
  | check =>
    cases hs : m.state.stoppable <;> simp only [stopNext, hs] at hn <;> cases hn
    · exact .refuse hs
    · exact .publish hs
  | store =>
    cases hn
    exact .store
  | returned error => cases hn

lemma RunStep.of_next {k : ℕ} {m m' : Mem} {pc pc' : RunPc} {l : RunLabel}
    (hn : runNext m k pc l = some (m', pc')) : RunStep k m pc l m' pc' := by
  unfold runNext at hn
  split at hn
  case h_4 =>
    cases hs : m.stopRequested <;> simp only [hs] at hn <;> cases hn
    · exact .goOn hs
    · exact .stop hs
  case h_5 passed =>
    cases passed <;> cases hn
    · exact .wait
    · exact .passed
  case h_12 =>
    split at hn
    next hg =>
      cases hn
      exact .throws hg
    next => cases hn
  all_goals cases hn
  all_goals constructor

lemma Step.of_next {s t : Engine} {a : Action} (hn : next s a = some t) : Step s a t := by
  unfold next at hn
  split at hn
  next => cases hn
  next =>
    cases a with
    | beginStart =>
      cases hn
      exact .beginStart
    | beginStop =>
      cases hn
      exact .beginStop
    | start i =>
      obtain ⟨pc, hpc, hm⟩ := Option.bind_eq_some_iff.mp hn
      obtain ⟨⟨m', pc'⟩, hc, rfl⟩ := Option.map_eq_some_iff.mp hm
      exact .start hpc (.of_next hc)
    | stop j =>
      obtain ⟨pc, hpc, hm⟩ := Option.bind_eq_some_iff.mp hn
      obtain ⟨⟨m', pc'⟩, hc, rfl⟩ := Option.map_eq_some_iff.mp hm
      exact .stop hpc (.of_next hc)
    | run k l =>
      obtain ⟨pc, hpc, hm⟩ := Option.bind_eq_some_iff.mp hn
      obtain ⟨⟨m', pc'⟩, hr, rfl⟩ := Option.map_eq_some_iff.mp hm
      exact .run hpc (.of_next hr)

end KubeMQ.Burnin
