import KubeMQ.Lts.Basic
import KubeMQ.Policy.Backoff

/-!
# The reconnect loop

`ReconnectLoop` (`internal/transport/reconnect.h`, `reconnect.cc`): `Start` runs a function on a
thread of the loop's own until it succeeds, `Stop` ends that thread, and any thread but the loop's
own may call both. One step is a lock acquisition or release, an access to an atomic or to
`thread_`, or the call or the return of the function; a method returns with the last of its steps.
`callNext` is a step of a call, `runNext` one of the thread that executes `Run`.

Assigning to a joinable `std::thread` and destroying one call `std::terminate`; joining one that is
not joinable throws. Two joins of one thread at the same time have no defined behaviour, and the
model ends there as well.
-/

namespace KubeMQ.ReconnectLoop

/-- Where a call stands; the last four constructors are returned calls. -/
inductive CallPc where
  | startLock
  | startCheck
  | startReset
  | startJoinable
  | startJoin
  | startJoining
  | startRunning
  | startSpawn
  | startUnlock
  | stopLock
  | stopCheck
  | stopEarly
  | stopRequest
  | stopUnlock
  | stopJoinable
  | stopJoin
  | stopJoining
  | isRunning
  | started
  | stopped
  | wasRunning (b : Bool)
  | threw
  deriving DecidableEq

/-- Where the thread that executes `Run` stands. -/
inductive RunPc where
  | check (attempt : ℕ)
  | connect (attempt : ℕ)
  | connecting (attempt : ℕ)
  | lock (attempt : ℕ)
  | wait (timedOut : Bool) (attempt : ℕ)
  | asleep (attempt : ℕ)
  | finish
  | store
  | unlock
  | exited
  deriving DecidableEq

/-- What the environment decides about a step of `Run`: what the function returned, and whether
the condition variable woke up because the backoff had passed. -/
inductive RunLabel where
  | tau
  | connected (ok : Bool)
  | wake (timedOut : Bool)

/-- The public methods. -/
inductive Op where
  | start
  | stop
  | isRunning

def Op.first : Op → CallPc
  | .start => .startLock
  | .stop => .stopLock
  | .isRunning => .isRunning

def CallPc.returned : CallPc → Bool
  | .started => true
  | .stopped => true
  | .wasRunning _ => true
  | .threw => true
  | _ => false

/-- The call is inside `thread_.join()`. -/
def CallPc.joining : CallPc → Bool
  | .startJoining => true
  | .stopJoining => true
  | _ => false

/-- What happened to the threads of the loop, in order; `stopReturned` is a call of `Stop`. -/
inductive Event where
  | spawned (run : ℕ)
  | connect (run : ℕ)
  | joined (run : ℕ)
  | stopReturned (call : ℕ)
  deriving DecidableEq

/-- The members that the threads share, the threads started so far, and the history. `thread` is
the one that `thread_` represents. -/
structure Mem where
  mu : Option (ℕ ⊕ ℕ)
  running : Bool
  stopRequested : Bool
  thread : Option ℕ
  runs : List RunPc
  crashed : Bool
  log : List Event

def Mem.observe (m : Mem) (ev : Event) : Mem :=
  { m with log := m.log ++ [ev] }

/-- `thread_.join()` returns when the thread has exited. -/
def Mem.joined (m : Mem) : Option Mem :=
  m.thread.bind fun k =>
    if m.runs[k]? = some .exited then some ({ m with thread := none }.observe (.joined k)) else none

/-- One step of call `i`; `busy` tells whether a call is inside `thread_.join()`. -/
def callNext (busy : Bool) (m : Mem) (i : ℕ) : CallPc → Option (Mem × CallPc)
  | .startLock => if m.mu.isNone then some ({ m with mu := some (.inl i) }, .startCheck) else none
  | .startCheck => some (m, if m.running then .startUnlock else .startReset)
  | .startReset => some ({ m with stopRequested := false }, .startJoinable)
  | .startJoinable => some (m, if m.thread.isSome then .startJoin else .startRunning)
  | .startJoin =>
    if busy then some ({ m with crashed := true }, .startJoin)
    else if m.thread.isSome then some (m, .startJoining)
    else some ({ m with mu := none }, .threw)
  | .startJoining => m.joined.map fun m => (m, .startRunning)
  | .startRunning => some ({ m with running := true }, .startSpawn)
  | .startSpawn =>
    if m.thread.isSome then some ({ m with crashed := true }, .startSpawn)
    else
      let k := m.runs.length
      let started := { m with thread := some k, runs := m.runs ++ [RunPc.check 0] }
      some (started.observe (.spawned k), .startUnlock)
  | .startUnlock => some ({ m with mu := none }, .started)
  | .stopLock => if m.mu.isNone then some ({ m with mu := some (.inl i) }, .stopCheck) else none
  | .stopCheck => some (m, if m.running then .stopRequest else .stopEarly)
  | .stopEarly => some ({ m with mu := none }.observe (.stopReturned i), .stopped)
  -- cv_.notify_all(): a thread that waits may wake up at any time
  | .stopRequest => some ({ m with stopRequested := true }, .stopUnlock)
  | .stopUnlock => some ({ m with mu := none }, .stopJoinable)
  | .stopJoinable =>
    if m.thread.isSome then some (m, .stopJoin)
    else some (m.observe (.stopReturned i), .stopped)
  | .stopJoin =>
    if busy then some ({ m with crashed := true }, .stopJoin)
    else some (m, if m.thread.isSome then .stopJoining else .threw)
  | .stopJoining => m.joined.map fun m => (m.observe (.stopReturned i), .stopped)
  | .isRunning => some (m, .wasRunning m.running)
  | _ => none

/-- `policy_.max_attempts > 0 && attempt >= policy_.max_attempts`. -/
def exhausted (policy : ReconnectPolicy) (attempt : ℕ) : Bool :=
  0 < policy.maxAttempts && policy.maxAttempts ≤ attempt

/-- One step of the `k`-th thread (`Run`). -/
def runNext (policy : ReconnectPolicy) (m : Mem) (k : ℕ) : RunPc → RunLabel → Option (Mem × RunPc)
  | .check attempt, .tau =>
    some (m, if m.stopRequested || exhausted policy attempt then .finish else .connect attempt)
  | .connect attempt, .tau => some (m.observe (.connect k), .connecting attempt)
  | .connecting attempt, .connected ok => some (m, if ok then .finish else .lock (attempt + 1))
  | .lock attempt, .tau =>
    if m.mu.isNone then some ({ m with mu := some (.inr k) }, .wait false attempt) else none
  -- cv_.wait_for(lock, backoff, [this]() { return stop_requested_.load(); })
  | .wait timedOut attempt, .tau =>
    some ({ m with mu := none },
      if m.stopRequested || timedOut then .check attempt else .asleep attempt)
  | .asleep attempt, .wake timedOut =>
    if m.mu.isNone then some ({ m with mu := some (.inr k) }, .wait timedOut attempt) else none
  | .finish, .tau =>
    if m.mu.isNone then some ({ m with mu := some (.inr k) }, .store) else none
  | .store, .tau => some ({ m with running := false }, .unlock)
  | .unlock, .tau => some ({ m with mu := none }, .exited)
  | _, _ => none

/-- A loop with the calls made on it so far, and its destruction. -/
structure Loop where
  mem : Mem
  calls : List CallPc
  /-- The destructor's `Stop` call. -/
  dtor : Option ℕ
  destroyed : Bool

/-- A call is inside `thread_.join()`. -/
def Loop.busy (s : Loop) : Bool := s.calls.any CallPc.joining

/-- One action of the system. -/
inductive Action where
  | begin (op : Op)
  | call (i : ℕ)
  | run (k : ℕ) (l : RunLabel)
  | destroy
  | free

/-- One step of a loop that has not crashed. -/
def liveNext (policy : ReconnectPolicy) (s : Loop) : Action → Option Loop
  | .begin op =>
    if s.dtor.isNone then some { s with calls := s.calls ++ [op.first] } else none
  | .call i =>
    s.calls[i]?.bind fun pc =>
      (callNext s.busy s.mem i pc).map fun r =>
        { s with mem := r.1, calls := s.calls.set i r.2 }
  | .run k l =>
    s.mem.runs[k]?.bind fun pc =>
      (runNext policy s.mem k pc l).map fun r =>
        { s with mem := { r.1 with runs := r.1.runs.set k r.2 } }
  | .destroy =>
    -- the owner destroys a loop that nobody else is using
    if s.dtor.isNone && s.calls.all CallPc.returned then
      some { s with calls := s.calls ++ [.stopLock], dtor := some s.calls.length }
    else none
  | .free =>
    s.dtor.bind fun i => s.calls[i]?.bind fun pc =>
      match pc with
      | .stopped =>
        if s.destroyed then none
        else some { s with destroyed := true, mem := { s.mem with crashed := s.mem.thread.isSome } }
      -- a destructor must not throw
      | .threw => some { s with mem := { s.mem with crashed := true } }
      | _ => none

/-- One step of the system. -/
def next (policy : ReconnectPolicy) (s : Loop) (a : Action) : Option Loop :=
  if s.mem.crashed then none else liveNext policy s a

/-- A loop as it is constructed. -/
def create : Loop where
  mem := ⟨none, false, false, none, [], false, []⟩
  calls := []
  dtor := none
  destroyed := false

/-- The system of one loop. -/
def sys (policy : ReconnectPolicy) : Lts.Sys Loop Action where
  init s := s = create
  next := next policy

/-- The steps of call `i`. -/
inductive CallStep (busy : Bool) (i : ℕ) (m : Mem) : CallPc → Mem → CallPc → Prop where
  | startLock :
    m.mu = none →
    CallStep busy i m .startLock { m with mu := some (.inl i) } .startCheck
  | startRefused :
    m.running = true →
    CallStep busy i m .startCheck m .startUnlock
  | startFresh :
    m.running = false →
    CallStep busy i m .startCheck m .startReset
  | startReset :
    CallStep busy i m .startReset { m with stopRequested := false } .startJoinable
  | startLeftover {k} :
    m.thread = some k →
    CallStep busy i m .startJoinable m .startJoin
  | startClean :
    m.thread = none →
    CallStep busy i m .startJoinable m .startRunning
  | startOverlap :
    busy = true →
    CallStep busy i m .startJoin { m with crashed := true } .startJoin
  | startJoin {k} :
    m.thread = some k →
    CallStep busy i m .startJoin m .startJoining
  | startThrew :
    m.thread = none →
    CallStep busy i m .startJoin { m with mu := none } .threw
  | startJoined {k} :
    m.thread = some k →
    m.runs[k]? = some .exited →
    CallStep busy i m .startJoining ({ m with thread := none }.observe (.joined k)) .startRunning
  | startRunning :
    CallStep busy i m .startRunning { m with running := true } .startSpawn
  | startOverwrite {k} :
    m.thread = some k →
    CallStep busy i m .startSpawn { m with crashed := true } .startSpawn
  | startSpawn :
    m.thread = none →
    CallStep busy i m .startSpawn
      ({ m with thread := some m.runs.length, runs := m.runs ++ [RunPc.check 0] }.observe
        (.spawned m.runs.length)) .startUnlock
  | startUnlock :
    CallStep busy i m .startUnlock { m with mu := none } .started
  | stopLock :
    m.mu = none →
    CallStep busy i m .stopLock { m with mu := some (.inl i) } .stopCheck
  | stopRunning :
    m.running = true →
    CallStep busy i m .stopCheck m .stopRequest
  | stopIdle :
    m.running = false →
    CallStep busy i m .stopCheck m .stopEarly
  | stopEarly :
    CallStep busy i m .stopEarly ({ m with mu := none }.observe (.stopReturned i)) .stopped
  | stopRequest :
    CallStep busy i m .stopRequest { m with stopRequested := true } .stopUnlock
  | stopUnlock :
    CallStep busy i m .stopUnlock { m with mu := none } .stopJoinable
  | stopJoinable {k} :
    m.thread = some k →
    CallStep busy i m .stopJoinable m .stopJoin
  | stopClean :
    m.thread = none →
    CallStep busy i m .stopJoinable (m.observe (.stopReturned i)) .stopped
  | stopOverlap :
    busy = true →
    CallStep busy i m .stopJoin { m with crashed := true } .stopJoin
  | stopJoin {k} :
    m.thread = some k →
    CallStep busy i m .stopJoin m .stopJoining
  | stopThrew :
    m.thread = none →
    CallStep busy i m .stopJoin m .threw
  | stopJoined {k} :
    m.thread = some k →
    m.runs[k]? = some .exited →
    CallStep busy i m .stopJoining
      (({ m with thread := none }.observe (.joined k)).observe (.stopReturned i)) .stopped
  | isRunning :
    CallStep busy i m .isRunning m (.wasRunning m.running)

/-- The steps of the `k`-th thread. -/
inductive RunStep (policy : ReconnectPolicy) (k : ℕ) (m : Mem) :
    RunPc → RunLabel → Mem → RunPc → Prop where
  | leave {attempt} :
    (m.stopRequested || exhausted policy attempt) = true →
    RunStep policy k m (.check attempt) .tau m .finish
  | goOn {attempt} :
    (m.stopRequested || exhausted policy attempt) = false →
    RunStep policy k m (.check attempt) .tau m (.connect attempt)
  | connect {attempt} :
    RunStep policy k m (.connect attempt) .tau (m.observe (.connect k)) (.connecting attempt)
  | connected {attempt} :
    RunStep policy k m (.connecting attempt) (.connected true) m .finish
  | refused {attempt} :
    RunStep policy k m (.connecting attempt) (.connected false) m (.lock (attempt + 1))
  | lock {attempt} :
    m.mu = none →
    RunStep policy k m (.lock attempt) .tau { m with mu := some (.inr k) } (.wait false attempt)
  | waited {timedOut attempt} :
    (m.stopRequested || timedOut) = true →
    RunStep policy k m (.wait timedOut attempt) .tau { m with mu := none } (.check attempt)
  | sleep {timedOut attempt} :
    (m.stopRequested || timedOut) = false →
    RunStep policy k m (.wait timedOut attempt) .tau { m with mu := none } (.asleep attempt)
  | wake {timedOut attempt} :
    m.mu = none →
    RunStep policy k m (.asleep attempt) (.wake timedOut) { m with mu := some (.inr k) }
      (.wait timedOut attempt)
  | finish :
    m.mu = none →
    RunStep policy k m .finish .tau { m with mu := some (.inr k) } .store
  | store :
    RunStep policy k m .store .tau { m with running := false } .unlock
  | unlock :
    RunStep policy k m .unlock .tau { m with mu := none } .exited

/-- The steps of a loop. -/
inductive Step (policy : ReconnectPolicy) (s : Loop) : Action → Loop → Prop where
  | begin {op} :
    s.dtor = none →
    Step policy s (.begin op) { s with calls := s.calls ++ [op.first] }
  | call {i pc m' pc'} :
    s.calls[i]? = some pc →
    CallStep s.busy i s.mem pc m' pc' →
    Step policy s (.call i) { s with mem := m', calls := s.calls.set i pc' }
  | run {k l pc m' pc'} :
    s.mem.runs[k]? = some pc →
    RunStep policy k s.mem pc l m' pc' →
    Step policy s (.run k l) { s with mem := { m' with runs := m'.runs.set k pc' } }
  | destroy :
    s.dtor = none →
    (∀ pc ∈ s.calls, pc.returned = true) →
    Step policy s .destroy { s with calls := s.calls ++ [.stopLock], dtor := some s.calls.length }
  | free {i} :
    s.dtor = some i →
    s.destroyed = false →
    s.calls[i]? = some .stopped →
    Step policy s .free
      { s with destroyed := true, mem := { s.mem with crashed := s.mem.thread.isSome } }
  | throwing {i} :
    s.dtor = some i →
    s.calls[i]? = some .threw →
    Step policy s .free { s with mem := { s.mem with crashed := true } }

lemma Mem.joined_eq_some {m m' : Mem} (h : m.joined = some m') :
    ∃ k, m.thread = some k ∧ m.runs[k]? = some .exited ∧
      m' = { m with thread := none }.observe (.joined k) := by
  obtain ⟨k, hk, hif⟩ := Option.bind_eq_some_iff.mp h
  split at hif
  · next hx =>
    cases hif
    exact ⟨k, hk, hx, rfl⟩
  · cases hif

lemma CallStep.of_next {busy : Bool} {i : ℕ} {m m' : Mem} {pc pc' : CallPc}
    (hn : callNext busy m i pc = some (m', pc')) : CallStep busy i m pc m' pc' := by
  cases pc
  case startJoining =>
    obtain ⟨m₁, hm, heq⟩ := Option.map_eq_some_iff.mp hn
    obtain ⟨k, hk, hx, rfl⟩ := Mem.joined_eq_some hm
    cases heq
    exact .startJoined hk hx
  case stopJoining =>
    obtain ⟨m₁, hm, heq⟩ := Option.map_eq_some_iff.mp hn
    obtain ⟨k, hk, hx, rfl⟩ := Mem.joined_eq_some hm
    cases heq
    exact .stopJoined hk hx
  case startCheck =>
    cases hr : m.running <;> simp only [callNext, hr] at hn <;> cases hn
    · exact .startFresh hr
    · exact .startRefused hr
  case stopCheck =>
    cases hr : m.running <;> simp only [callNext, hr] at hn <;> cases hn
    · exact .stopIdle hr
    · exact .stopRunning hr
  case startJoinable =>
    cases ht : m.thread <;> simp only [callNext, ht] at hn <;> cases hn
    · exact .startClean ht
    · exact .startLeftover ht
  case stopJoin =>
    cases busy
    · cases ht : m.thread <;> simp only [callNext, ht] at hn <;> cases hn
      · exact .stopThrew ht
      · exact .stopJoin ht
    · cases hn
      exact .stopOverlap rfl
  case startLock =>
    simp only [callNext, Option.isNone_iff_eq_none] at hn
    split at hn <;> cases hn
    exact .startLock ‹_›
  case stopLock =>
    simp only [callNext, Option.isNone_iff_eq_none] at hn
    split at hn <;> cases hn
    exact .stopLock ‹_›
  case startJoin =>
    simp only [callNext] at hn
    split at hn
    · cases hn
      exact .startOverlap ‹_›
    · split at hn <;> cases hn
      · next hk =>
        obtain ⟨k, hk⟩ := Option.isSome_iff_exists.mp hk
        exact .startJoin hk
      · next hk => exact .startThrew (by simpa using hk)
  case startSpawn =>
    simp only [callNext] at hn
    split at hn <;> cases hn
    · next hk =>
      obtain ⟨k, hk⟩ := Option.isSome_iff_exists.mp hk
      exact .startOverwrite hk
    · next hk => exact .startSpawn (by simpa using hk)
  case stopJoinable =>
    simp only [callNext] at hn
    split at hn <;> cases hn
    · next hk =>
      obtain ⟨k, hk⟩ := Option.isSome_iff_exists.mp hk
      exact .stopJoinable hk
    · next hk => exact .stopClean (by simpa using hk)
  all_goals cases hn
  all_goals constructor

lemma RunStep.of_next {policy : ReconnectPolicy} {k : ℕ} {m m' : Mem} {pc pc' : RunPc}
    {l : RunLabel} (hn : runNext policy m k pc l = some (m', pc')) :
    RunStep policy k m pc l m' pc' := by
  unfold runNext at hn
  split at hn
  case h_1 attempt =>
    cases hs : m.stopRequested || exhausted policy attempt <;> simp only [hs] at hn <;> cases hn
    · exact .goOn hs
    · exact .leave hs
  case h_3 attempt ok =>
    cases ok <;> cases hn
    · exact .refused
    · exact .connected
  case h_5 timedOut attempt =>
    cases hs : m.stopRequested || timedOut <;> simp only [hs] at hn <;> cases hn
    · exact .sleep hs
    · exact .waited hs
  all_goals (try split at hn) <;> cases hn
  all_goals constructor <;> simp_all

lemma Step.of_next {policy : ReconnectPolicy} {s t : Loop} {a : Action}
    (hn : next policy s a = some t) : Step policy s a t := by
  unfold next at hn
  split at hn
  · cases hn
  · cases a with
    | begin op =>
      simp only [liveNext, Option.isNone_iff_eq_none] at hn
      split at hn <;> cases hn
      exact .begin ‹_›
    | call i =>
      obtain ⟨pc, hpc, hm⟩ := Option.bind_eq_some_iff.mp hn
      obtain ⟨⟨m', pc'⟩, hc, rfl⟩ := Option.map_eq_some_iff.mp hm
      exact .call hpc (.of_next hc)
    | run k l =>
      obtain ⟨pc, hpc, hm⟩ := Option.bind_eq_some_iff.mp hn
      obtain ⟨⟨m', pc'⟩, hr, rfl⟩ := Option.map_eq_some_iff.mp hm
      exact .run hpc (.of_next hr)
    | destroy =>
      simp only [liveNext, Bool.and_eq_true, Option.isNone_iff_eq_none, List.all_eq_true] at hn
      split at hn <;> cases hn
      next hd => exact .destroy hd.1 hd.2
    | free =>
      obtain ⟨i, hi, hf⟩ := Option.bind_eq_some_iff.mp hn
      obtain ⟨pc, hpc, hf⟩ := Option.bind_eq_some_iff.mp hf
      split at hf
      · split at hf
        · cases hf
        · next hd =>
          cases hf
          exact .free hi (by simpa using hd) hpc
      · cases hf
        exact .throwing hi hpc
      · cases hf

end KubeMQ.ReconnectLoop
