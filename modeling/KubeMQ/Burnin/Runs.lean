import KubeMQ.Burnin.OneRun
import KubeMQ.Burnin.Report

/-!
# What a burn-in run leaves behind

The members that `StartRun` and `RunLoop` assign to without `mu_`: the configuration, the run id, the
workers and the last report. `Runs` adds them to the engine; in `StartRun` the assignments before and
after `stop_requested_.store(false)` are steps of their own. While every `StartRun` publishes
`starting` over a state of rest, whoever owns the engine is the only one who assigns (`Kept`), which
gives `report_of_last_run`. `run_error_`, which nobody reads, is left out.
-/

namespace KubeMQ.Burnin

open Json (Value)

/-- What `StartRun` is called with, the number that `GenerateRunId` draws and the clock. -/
structure StartRequest where
  config : Config
  draw : UInt32
  now : String

namespace StartRequest

def runId (q : StartRequest) : String := runIdOf q.config q.draw

/-- The configuration with the run id. -/
def prepared (q : StartRequest) : Config := { q.config with runId := q.runId }

end StartRequest

structure StartResult where
  runId : String
  enabledCount : Int32
  deriving DecidableEq

/-- The loop over the patterns in `StartRun`. -/
def enabledCount (c : Config) : Int32 := Int32.ofNat (c.patterns.toList.countP (·.2.enabled))

/-- What `StartRun` assigns to next; `flag` is `stop_requested_`, which belongs to the engine. -/
inductive Assign where
  | config | runId | configRunId | startedAt | flag | report | result | done
  deriving DecidableEq

/-- A call of `StartRun`. -/
structure StartCall where
  request : StartRequest
  todo : Assign
  result : Option StartResult

/-- The call has replaced the configuration and not yet withdrawn the report. -/
def StartCall.replacing (c : StartCall) : Bool :=
  match c.todo with
  | .config => false
  | .result => false
  | .done => false
  | _ => true

/-- What a successful call returns. -/
def StartRequest.result (q : StartRequest) : StartResult := ⟨q.runId, enabledCount q.prepared⟩

/-- The members of `Engine` that no lock guards. -/
structure Members where
  config : Config
  runId : String
  startedAt : String
  workers : List WorkerSpec
  hasReport : Bool
  lastReport : Value

/-- `GetRunReport`. -/
def Members.getRunReport (d : Members) : Option Value :=
  if !d.hasReport then none else some d.lastReport

lemma Members.getRunReport_eq_some {d : Members} {v : Value} (h : d.getRunReport = some v) :
    d.hasReport = true ∧ v = d.lastReport := by
  unfold getRunReport at h
  cases hr : d.hasReport with
  | false =>
    rw [hr] at h
    cases h
  | true =>
    rw [hr] at h
    cases h
    exact ⟨rfl, rfl⟩

/-- `GetRunConfig`. -/
def Members.getRunConfig (d : Members) : Option Value :=
  if d.runId.isEmpty then none else some d.config.toJson

/-- The next assignment of a call. -/
def assignNext (d : Members) (c : StartCall) : Option (Members × StartCall) :=
  match c.todo with
  | .config => some ({ d with config := c.request.config }, { c with todo := .runId })
  | .runId => some ({ d with runId := c.request.runId }, { c with todo := .configRunId })
  | .configRunId =>
    some ({ d with config := { d.config with runId := d.runId } }, { c with todo := .startedAt })
  | .startedAt => some ({ d with startedAt := c.request.now }, { c with todo := .flag })
  | .report => some ({ d with hasReport := false }, { c with todo := .result })
  | .result =>
    some (d, { c with todo := .done, result := some ⟨d.runId, enabledCount d.config⟩ })
  | .flag => none
  | .done => none

/-- The next step of a call is an assignment. -/
def assigns : StartPc → Assign → Bool
  | .reset, t => t != .flag
  | .joinable, t => t != .done
  | _, _ => false

/-- What a run keeps on its stack: the call that started it, `worker_count`, and `snapshot` once the
report is built. -/
structure RunLocal where
  call : ℕ
  workerCount : Int32
  snapshot : Option Snapshot

/-- What the environment decides about a step of `RunLoop`: how many workers there are when
`CreateWorkers` throws, and what the clock and the metrics say to the report. -/
structure Surroundings where
  created : ℕ
  endedAt : String
  elapsed : Int64
  snapshot : Snapshot

/-- What a step of `RunLoop` does to the members and to its own variables. -/
def runEffect (b : String) (d : Members) (r : RunLocal) (x : Surroundings) :
    RunPc → RunLabel → Members × RunLocal
  | .create, .tau => ({ d with workers := createWorkers b d.runId d.config }, r)
  | .create, .throws =>
    ({ d with workers := (createWorkers b d.runId d.config).take x.created }, r)
  | .stopWorkers, .tau =>
    ({ d with workers := [] }, { r with workerCount := Int32.ofNat d.workers.length })
  | .report, .tau =>
    ({ d with
      hasReport := true
      lastReport := buildReport d.config
        ⟨d.runId, b, d.startedAt, x.endedAt, x.elapsed, r.workerCount, x.snapshot⟩ },
      { r with snapshot := some x.snapshot })
  | _, _ => (d, r)

/-- A run does not forget who started it. -/
lemma runEffect_call (b : String) (d : Members) (r : RunLocal) (x : Surroundings) (pc : RunPc)
    (l : RunLabel) : (runEffect b d r x pc l).2.call = r.call := by
  cases pc <;> cases l <;> rfl

/-- An engine with its members. -/
structure Runs where
  engine : Engine
  members : Members
  calls : List StartCall
  locals : List RunLocal

inductive RunsAction where
  | beginStart (q : StartRequest)
  | beginStop
  | start (i : ℕ)
  | stop (j : ℕ)
  | run (k : ℕ) (l : RunLabel) (x : Surroundings)

def RunsAction.toAction : RunsAction → Action
  | .beginStart _ => .beginStart
  | .beginStop => .beginStop
  | .start i => .start i
  | .stop j => .stop j
  | .run k l _ => .run k l

namespace Runs

/-- What a step of the engine means for the call that takes it and for the runs. -/
def started (s : Runs) (i : ℕ) (c : StartCall) (e : Engine) : StartPc → Runs
  | .reset => { s with engine := e, calls := s.calls.set i { c with todo := .report } }
  | .spawn =>
    { s with
      engine := e
      locals := if s.engine.mem.thread.isSome then s.locals else s.locals ++ [⟨i, 0, none⟩] }
  | _ => { s with engine := e }

def next (b : String) (s : Runs) : RunsAction → Option Runs
  | .beginStart q =>
    (Burnin.next s.engine .beginStart).map fun e =>
      { s with engine := e, calls := s.calls ++ [⟨q, .config, none⟩] }
  | .beginStop => (Burnin.next s.engine .beginStop).map fun e => { s with engine := e }
  | .start i =>
    s.engine.starts[i]?.bind fun pc =>
      s.calls[i]?.bind fun c =>
        if assigns pc c.todo then
          if s.engine.mem.crashed then none
          else
            (assignNext s.members c).map fun r =>
              { s with members := r.1, calls := s.calls.set i r.2 }
        else (Burnin.next s.engine (.start i)).map fun e => started s i c e pc
  | .stop j => (Burnin.next s.engine (.stop j)).map fun e => { s with engine := e }
  | .run k l x =>
    s.engine.mem.runs[k]?.bind fun pc =>
      s.locals[k]?.bind fun r =>
        (Burnin.next s.engine (.run k l)).map fun e =>
          let y := runEffect b s.members r x pc l
          { s with engine := e, members := y.1, locals := s.locals.set k y.2 }

/-- An engine as it is constructed. -/
def new : Runs where
  engine := construct
  members := ⟨{}, "", "", [], false, .null⟩
  calls := []
  locals := []

/-- The system of an engine that was constructed with the broker's address `b`. -/
def sys (b : String) : Lts.Sys Runs RunsAction := ⟨(· = new), next b⟩

/-- Every `StartRun` publishes `starting` over a state of rest. -/
def admits (s : Runs) (a : RunsAction) : Bool := overRest s.engine a.toAction

/-- The steps of an engine with its members. -/
inductive Step (b : String) (s : Runs) : RunsAction → Runs → Prop where
  | beginStart {q} :
    Step b s (.beginStart q)
      { s with
        engine := { s.engine with starts := s.engine.starts ++ [.check] }
        calls := s.calls ++ [⟨q, .config, none⟩] }
  | beginStop :
    Step b s .beginStop
      { s with engine := { s.engine with stops := s.engine.stops ++ [.check] } }
  | assign {i pc c d c'} :
    s.engine.starts[i]? = some pc →
    s.calls[i]? = some c →
    assigns pc c.todo = true →
    assignNext s.members c = some (d, c') →
    Step b s (.start i) { s with members := d, calls := s.calls.set i c' }
  | start {i pc c m' pc'} :
    s.engine.starts[i]? = some pc →
    s.calls[i]? = some c →
    assigns pc c.todo = false →
    StartStep s.engine.busy i s.engine.mem pc m' pc' →
    Step b s (.start i)
      (started s i c { s.engine with mem := m', starts := s.engine.starts.set i pc' } pc)
  | stop {j pc m' pc'} :
    s.engine.stops[j]? = some pc →
    StopStep j s.engine.mem pc m' pc' →
    Step b s (.stop j)
      { s with engine := { s.engine with mem := m', stops := s.engine.stops.set j pc' } }
  | run {k l x pc r m' pc'} :
    s.engine.mem.runs[k]? = some pc →
    s.locals[k]? = some r →
    RunStep k s.engine.mem pc l m' pc' →
    Step b s (.run k l x)
      { s with
        engine := { s.engine with mem := { m' with runs := m'.runs.set k pc' } }
        members := (runEffect b s.members r x pc l).1
        locals := s.locals.set k (runEffect b s.members r x pc l).2 }

lemma Step.of_next {b : String} {s t : Runs} {a : RunsAction} (hn : next b s a = some t) :
    Step b s a t := by
  cases a with
  | beginStart q =>
    obtain ⟨e, he, rfl⟩ := Option.map_eq_some_iff.mp hn
    cases Burnin.Step.of_next he
    exact .beginStart
  | beginStop =>
    obtain ⟨e, he, rfl⟩ := Option.map_eq_some_iff.mp hn
    cases Burnin.Step.of_next he
    exact .beginStop
  | start i =>
    obtain ⟨pc, hpc, hn⟩ := Option.bind_eq_some_iff.mp hn
    obtain ⟨c, hc, hn⟩ := Option.bind_eq_some_iff.mp hn
    cases ha : assigns pc c.todo with
    | true =>
      rw [ha, if_pos rfl] at hn
      split at hn
      · cases hn
      · obtain ⟨⟨d, c'⟩, hd, rfl⟩ := Option.map_eq_some_iff.mp hn
        exact .assign hpc hc ha hd
    | false =>
      rw [ha, if_neg Bool.false_ne_true] at hn
      obtain ⟨e, he, rfl⟩ := Option.map_eq_some_iff.mp hn
      cases Burnin.Step.of_next he with
      | start hpc' st =>
        rw [hpc] at hpc'
        cases hpc'
        exact .start hpc hc ha st
  | stop j =>
    obtain ⟨e, he, rfl⟩ := Option.map_eq_some_iff.mp hn
    cases Burnin.Step.of_next he with
    | stop hpc st => exact .stop hpc st
  | run k l x =>
    obtain ⟨pc, hpc, hn⟩ := Option.bind_eq_some_iff.mp hn
    obtain ⟨r, hr, hn⟩ := Option.bind_eq_some_iff.mp hn
    obtain ⟨e, he, rfl⟩ := Option.map_eq_some_iff.mp hn
    cases Burnin.Step.of_next he with
    | run hpc' st =>
      rw [hpc] at hpc'
      cases hpc'
      exact .run hpc hr st

end Runs

end KubeMQ.Burnin
