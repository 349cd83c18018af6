import KubeMQ.Client.Create
import KubeMQ.Lts.Basic
import KubeMQ.Thread.Once

/-!
# Closing a client while it is used

`Client::Close`, `Client::State` and the destructor (`client.cc`), `GrpcTransport::Close`, `State`
and `CheckClosed` (`grpc_transport.cc`), and the beginning of every other operation of the client.
`callNext` is one atomic step of one call: an access to one of the two closed flags or to one of
the two once-flags, a lock acquisition or release, a `Transition`, the start or the end of a user
callback. The destructor of the client is a `Close` call that begins once every other call has
returned, followed by the destructor of the transport, which closes it again.

Past `CheckClosed` an operation may call methods of the transport in any order and return any
status; each of those methods looks at the closed flag of the transport before it starts an RPC or
opens a stream. User callbacks return; a call that one of them makes is a call like any other, which
begins while the callback runs.
-/

namespace KubeMQ

/-- The operations that begin with `CheckClosed`. The typed variants of the channel operations
only add an argument. -/
inductive PlainOperation where
  | ping | sendEvent | sendEventStream | subscribeToEvents | sendEventStore | sendEventStoreStream
  | subscribeToEventsStore | queueUpstream | newQueueDownstreamReceiver | pollQueue
  | sendQueueMessage | sendQueueMessages | receiveQueueMessages | ackAllQueueMessages | sendCommand
  | subscribeToCommands | sendCommandResponse | sendQuery | subscribeToQueries | sendQueryResponse
  | createChannel | deleteChannel | listChannels
  deriving DecidableEq

/-- The operations other than `State` and `Close`. Five of them build a message first, with the
arguments that the builder checks. -/
inductive Operation where
  | plain (o : PlainOperation)
  | publishEvent (channel : String) (body : Body) (metadata : String)
  | publishEventStore (channel : String) (body : Body) (metadata : String)
  | sendQueueMessageSimple (channel : String) (body : Body)
  | sendCommandSimple (channel : String) (body : Body) (timeout : Int)
  | sendQuerySimple (channel : String) (body : Body) (timeout : Int)
  deriving DecidableEq

/-- The status of the builder that an operation runs before anything else. -/
def Operation.builder : Operation → Status
  | .plain _ => .okStatus
  | .publishEvent channel body metadata => builderCheck channel body metadata
  | .publishEventStore channel body metadata => builderCheck channel body metadata
  | .sendQueueMessageSimple channel body => builderCheck channel body ""
  | .sendCommandSimple channel body timeout => rpcBuilderCheck channel body "" timeout
  | .sendQuerySimple channel body timeout => rpcBuilderCheck channel body "" timeout

/-- The status of an operation on a closed client. -/
def Operation.closedStatus (o : Operation) : Status :=
  if !o.builder.ok then o.builder else kErrClientClosed

namespace Closing

/-- What the calls share, with the history of the transport. -/
structure Mem where
  closed : Bool
  closeOnce : Once
  /-- `closed_` and `close_once_` of the transport. -/
  transportClosed : Bool
  transportOnce : Once
  mu : Option ℕ
  machine : StateMachine
  accepted : List Accepted
  fired : List Callback
  /-- How often the transport has been closed. -/
  closes : ℕ
  /-- The calls that started an RPC or opened a stream. -/
  started : List ℕ

/-- Who calls `GrpcTransport::Close`: the client's `Close` (`d` for its destructor's) or the
destructor of the transport. -/
inductive Caller where
  | close (d : Bool)
  | dtor
  deriving DecidableEq

/-- Where a call of `GrpcTransport::Close` stands. -/
inductive TransportPc where
  | enter
  | store
  | lock
  | transition
  | invoke (cbs : List Callback)
  | inCallback (cbs : List Callback)
  | unlock
  | finish
  deriving DecidableEq

/-- Where a call stands; `closed`, `destroyed`, `state` and `returned` are returned calls. -/
inductive CallPc where
  | closeEnter (d : Bool)
  | closeStore (d : Bool)
  | closeDrain (d : Bool)
  | transport (k : Caller) (p : TransportPc)
  | closeFinish (d : Bool)
  | closed
  | destroyed
  | stateCheck
  | stateTransport
  | stateLock
  | stateRead
  | stateUnlock (v : ConnectionState)
  | state (v : ConnectionState)
  | build (o : Operation)
  | check
  | body
  | gate
  | start
  | returned (s : Status)

/-- What an operation does next, once it is past `CheckClosed`. -/
inductive CallLabel where
  | tau
  | transport
  | ret (s : Status)

/-- Where the client's `Close` ends. -/
def afterClose (d : Bool) : CallPc := if d then .transport .dtor .enter else .closed

/-- Where `GrpcTransport::Close` ends. -/
def afterTransport : Caller → CallPc
  | .close d => .closeFinish d
  | .dtor => .destroyed

/-- One step of a call of `GrpcTransport::Close`. -/
def transportNext (m : Mem) (i : ℕ) (k : Caller) : TransportPc → Option (Mem × CallPc)
  | .enter =>
    match m.transportOnce.enter i with
    | .runs o => some ({ m with transportOnce := o, closes := m.closes + 1 }, .transport k .store)
    | .skips => some (m, afterTransport k)
    | .waits => none
  | .store => some ({ m with transportClosed := true }, .transport k .lock)
  | .lock => if m.mu.isNone then some ({ m with mu := some i }, .transport k .transition) else none
  | .transition =>
    let r := m.machine.transition .kClosed
    some ({ m with
      machine := r.1
      accepted := if r.2.1 then m.accepted ++ [(m.machine.state, .kClosed)] else m.accepted },
      .transport k (.invoke r.2.2))
  | .invoke [] => some (m, .transport k .unlock)
  | .invoke (c :: cs) => some ({ m with fired := m.fired ++ [c] }, .transport k (.inCallback cs))
  | .inCallback cs => some (m, .transport k (.invoke cs))
  | .unlock => some ({ m with mu := none }, .transport k .finish)
  | .finish => some ({ m with transportOnce := .done }, afterTransport k)

/-- One step of call `i`. -/
def callNext (m : Mem) (i : ℕ) : CallPc → CallLabel → Option (Mem × CallPc)
  | .closeEnter d, .tau =>
    match m.closeOnce.enter i with
    | .runs o => some ({ m with closeOnce := o }, .closeStore d)
    | .skips => some (m, afterClose d)
    | .waits => none
  | .closeStore d, .tau => some ({ m with closed := true }, .closeDrain d)
  | .closeDrain d, .tau => some (m, .transport (.close d) .enter)
  | .transport k p, .tau => transportNext m i k p
  | .closeFinish d, .tau => some ({ m with closeOnce := .done }, afterClose d)
  | .stateCheck, .tau => some (m, if m.closed then .state .kClosed else .stateTransport)
  | .stateTransport, .tau => some (m, if m.transportClosed then .state .kClosed else .stateLock)
  | .stateLock, .tau => if m.mu.isNone then some ({ m with mu := some i }, .stateRead) else none
  | .stateRead, .tau => some (m, .stateUnlock m.machine.state)
  | .stateUnlock v, .tau => some ({ m with mu := none }, .state v)
  | .build o, .tau => some (m, if !o.builder.ok then .returned o.builder else .check)
  | .check, .tau => some (m, if m.closed then .returned kErrClientClosed else .body)
  | .body, .transport => some (m, .gate)
  | .body, .ret s => some (m, .returned s)
  -- CheckClosed of the transport
  | .gate, .tau => some (m, if m.transportClosed then .body else .start)
  | .start, .tau => some ({ m with started := m.started ++ [i] }, .body)
  | _, _ => none

/-- The methods of the client. -/
inductive Method where
  | close
  | state
  | run (o : Operation)

def Method.start : Method → CallPc
  | .close => .closeEnter false
  | .state => .stateCheck
  | .run o => .build o

/-- A call, and whether some `Close` had returned when it began. -/
structure Call where
  method : Method
  late : Bool
  pc : CallPc

structure Sys where
  mem : Mem
  calls : List Call
  /-- The destructor has begun. -/
  destroying : Bool

inductive Action where
  | begin (m : Method)
  | destroy
  | call (i : ℕ) (l : CallLabel)

/-- The client's `Close` has returned, to its caller or to the destructor. -/
def CallPc.pastClose : CallPc → Bool
  | .closed => true
  | .transport .dtor _ => true
  | .destroyed => true
  | _ => false

def CallPc.isReturned : CallPc → Bool
  | .closed => true
  | .destroyed => true
  | .state _ => true
  | .returned _ => true
  | _ => false

/-- Some call of `Close` has returned. -/
def Sys.closeReturned (s : Sys) : Bool := s.calls.any fun c => c.pc.pastClose

/-- One step of the system. -/
def next (s : Sys) : Action → Option Sys
  | .begin m =>
    if s.destroying then none
    else some { s with calls := s.calls ++ [⟨m, s.closeReturned, m.start⟩] }
  | .destroy =>
    -- the owner destroys a client that nobody else is using
    if !s.destroying && s.calls.all (fun c => c.pc.isReturned) then
      some { s with
        calls := s.calls ++ [⟨.close, s.closeReturned, .closeEnter true⟩], destroying := true }
    else none
  | .call i l => s.calls[i]?.bind fun c => (callNext s.mem i c.pc l).map fun r =>
      { s with mem := r.1, calls := s.calls.set i { c with pc := r.2 } }

/-- A client as `Create` returns it. -/
def start (c : Connection) : Sys where
  mem := ⟨false, .fresh, false, .fresh, none, c.machine, c.accepted, c.fired, 0, []⟩
  calls := []
  destroying := false

/-- The system of the clients that `Create` makes of these options. -/
def sys (options : CreateOptions) (env : CreateEnv) : Lts.Sys Sys Action where
  init s := ∃ opts c, Client.create options env = .client opts c ∧ s = start c
  next := next

/-- What a step of call `i` does, one constructor for each atomic step. -/
inductive CallStep (m : Mem) (i : ℕ) : CallPc → CallLabel → Mem → CallPc → Prop where
  | closeRuns {d} :
    m.closeOnce = .fresh →
    CallStep m i (.closeEnter d) .tau { m with closeOnce := ⟨some i, false⟩ } (.closeStore d)
  | closeSkips {d} :
    m.closeOnce.completed = true →
    CallStep m i (.closeEnter d) .tau m (afterClose d)
  | closeStore {d} :
    CallStep m i (.closeStore d) .tau { m with closed := true } (.closeDrain d)
  | closeDrain {d} :
    CallStep m i (.closeDrain d) .tau m (.transport (.close d) .enter)
  | transportRuns {k} :
    m.transportOnce = .fresh →
    CallStep m i (.transport k .enter) .tau
      { m with transportOnce := ⟨some i, false⟩, closes := m.closes + 1 } (.transport k .store)
  | transportSkips {k} :
    m.transportOnce.completed = true →
    CallStep m i (.transport k .enter) .tau m (afterTransport k)
  | transportStore {k} :
    CallStep m i (.transport k .store) .tau { m with transportClosed := true } (.transport k .lock)
  | transportLock {k} :
    m.mu = none →
    CallStep m i (.transport k .lock) .tau { m with mu := some i } (.transport k .transition)
  | transition {k} :
    CallStep m i (.transport k .transition) .tau
      { m with
        machine := (m.machine.transition .kClosed).1
        accepted :=
          if (m.machine.transition .kClosed).2.1 then m.accepted ++ [(m.machine.state, .kClosed)]
          else m.accepted }
      (.transport k (.invoke (m.machine.transition .kClosed).2.2))
  | invoked {k} :
    CallStep m i (.transport k (.invoke [])) .tau m (.transport k .unlock)
  | invoke {k c cs} :
    CallStep m i (.transport k (.invoke (c :: cs))) .tau { m with fired := m.fired ++ [c] }
      (.transport k (.inCallback cs))
  | callbackReturned {k cs} :
    CallStep m i (.transport k (.inCallback cs)) .tau m (.transport k (.invoke cs))
  | transportUnlock {k} :
    CallStep m i (.transport k .unlock) .tau { m with mu := none } (.transport k .finish)
  | transportFinish {k} :
    CallStep m i (.transport k .finish) .tau { m with transportOnce := .done } (afterTransport k)
  | closeFinish {d} :
    CallStep m i (.closeFinish d) .tau { m with closeOnce := .done } (afterClose d)
  | stateClosed :
    m.closed = true →
    CallStep m i .stateCheck .tau m (.state .kClosed)
  | stateOpen :
    m.closed = false →
    CallStep m i .stateCheck .tau m .stateTransport
  | transportStateClosed :
    m.transportClosed = true →
    CallStep m i .stateTransport .tau m (.state .kClosed)
  | transportStateOpen :
    m.transportClosed = false →
    CallStep m i .stateTransport .tau m .stateLock
  | stateLock :
    m.mu = none →
    CallStep m i .stateLock .tau { m with mu := some i } .stateRead
  | stateRead :
    CallStep m i .stateRead .tau m (.stateUnlock m.machine.state)
  | stateUnlock {v} :
    CallStep m i (.stateUnlock v) .tau { m with mu := none } (.state v)
  | buildFailed {o} :
    o.builder.ok = false →
    CallStep m i (.build o) .tau m (.returned o.builder)
  | built {o} :
    o.builder.ok = true →
    CallStep m i (.build o) .tau m .check
  | checkClosed :
    m.closed = true →
    CallStep m i .check .tau m (.returned kErrClientClosed)
  | checkOpen :
    m.closed = false →
    CallStep m i .check .tau m .body
  | call :
    CallStep m i .body .transport m .gate
  | ret {s} :
    CallStep m i .body (.ret s) m (.returned s)
  | gateClosed :
    m.transportClosed = true →
    CallStep m i .gate .tau m .body
  | gateOpen :
    m.transportClosed = false →
    CallStep m i .gate .tau m .start
  | start :
    CallStep m i .start .tau { m with started := m.started ++ [i] } .body

lemma CallStep.of_transport {m m' : Mem} {i : ℕ} {k : Caller} {p : TransportPc} {pc' : CallPc}
    (hn : transportNext m i k p = some (m', pc')) :
    CallStep m i (.transport k p) .tau m' pc' := by
  cases p with
  | enter =>
    simp only [transportNext] at hn
    split at hn
    · next o ho =>
      cases hn
      obtain ⟨hfresh, rfl⟩ := Once.enter_runs ho
      exact .transportRuns hfresh
    · next ho =>
      cases hn
      exact .transportSkips (Once.enter_skips ho)
    · cases hn
  | lock =>
    simp only [transportNext] at hn
    split at hn
    · next hmu =>
      cases hn
      exact .transportLock (by simpa using hmu)
    · cases hn
  | invoke cbs =>
    cases cbs with
    | nil =>
      cases hn
      exact .invoked
    | cons c cs =>
      cases hn
      exact .invoke
  | store =>
    cases hn
    exact .transportStore
  | transition =>
    cases hn
    exact .transition
  | inCallback cs =>
    cases hn
    exact .callbackReturned
  | unlock =>
    cases hn
    exact .transportUnlock
  | finish =>
    cases hn
    exact .transportFinish

/-- The relation holds of every step. -/
lemma CallStep.of_next {m m' : Mem} {i : ℕ} {pc pc' : CallPc} {l : CallLabel}
    (hn : callNext m i pc l = some (m', pc')) : CallStep m i pc l m' pc' := by
  unfold callNext at hn
  split at hn
  case h_1 =>
    split at hn
    · next o ho =>
      cases hn
      obtain ⟨hfresh, rfl⟩ := Once.enter_runs ho
      exact .closeRuns hfresh
    · next ho =>
      cases hn
      exact .closeSkips (Once.enter_skips ho)
    · cases hn
  case h_4 => exact .of_transport hn
  all_goals (try split at hn) <;> cases hn
  all_goals constructor <;> simp_all

end Closing

end KubeMQ
