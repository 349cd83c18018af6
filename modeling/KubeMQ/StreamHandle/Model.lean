import KubeMQ.Lts.Basic
import KubeMQ.Thread.Join
import KubeMQ.Types.Message
import KubeMQ.Types.Status

/-!
# Stream handles

`EventStreamHandle`, `EventStoreStreamHandle` and `QueueUpstreamHandle` (`client_events.cc`,
`client_events_store.cc`, `client_queues_stream.cc`, `internal/stream_handle_impl.h`,
`internal/queue_stream_impl.h`) run the same code over different messages: a reader thread that
delivers what the server sends, and calls of `Send`, `Close`, `Wait`, `IsDone`, `SetOnResult` and
`SetOnError` from other threads. A `HandleSpec` holds what differs between the three.

The threads share `Mem`. `readerNext` and `callNext` are one atomic step of the reader and of one
call: a lock acquisition or release, an access to `done` or to the once-flag, a `Read`, `Write`,
`WritesDone` or `Finish`, the start or the end of a user callback. The destructor is a `Close`
call that begins once every other call has returned, followed by the destruction of the members;
destroying a joinable `std::thread` calls `std::terminate`.
-/

namespace KubeMQ

/-- What distinguishes the three handles: `W` is written, `R` is read, `E` goes to `on_result`. -/
structure HandleSpec (W R E : Type) where
  name : String
  streamName : String
  channelOf : W → String
  /-- How a response becomes the argument of `on_result`; `EventStreamHandle` drops responses. -/
  toResult : Option (R → E)

namespace HandleSpec

/-- `EventStreamHandle`. -/
def eventStream : HandleSpec Proto.Event Proto.Result Empty where
  name := "EventStreamHandle"
  streamName := "event stream"
  channelOf := Proto.Event.channel
  toResult := none

/-- `EventStoreStreamHandle`. -/
def eventStoreStream : HandleSpec Proto.Event Proto.Result EventStoreResult where
  name := "EventStoreStreamHandle"
  streamName := "event store stream"
  channelOf := Proto.Event.channel
  toResult := some storeResult

/-- `QueueUpstreamHandle`. -/
def queueUpstream :
    HandleSpec Proto.QueuesUpstreamRequest Proto.QueuesUpstreamResponse QueueUpstreamResult where
  name := "QueueUpstreamHandle"
  streamName := "upstream stream"
  channelOf := fun _ => ""
  toResult := some queueUpstreamResponseFromProto

variable {W R E : Type} (κ : HandleSpec W R E)

/-- The status of a `Send` that finds the stream done. -/
def closedError (w : W) : Status :=
  ⟨.kFatal, κ.streamName ++ " is closed", κ.name ++ "::Send", κ.channelOf w, ""⟩

/-- The status of a `Send` whose `Write` fails. -/
def writeError (w : W) : Status :=
  ⟨.kTransient, "failed to write to " ++ κ.streamName, κ.name ++ "::Send", κ.channelOf w, ""⟩

/-- The status reported for a throwing `on_result`. -/
def onResultThrew (x : Exn) : Status := callbackThrew (κ.name ++ "::OnResult") x

/-- The status reported when the stream finished with an error. -/
def finishError (st : GrpcStatus) : Status := fromGrpcStatus st (κ.name ++ "::Finish") "" ""

end HandleSpec

namespace StreamHandle

variable {W R E : Type}

/-- Who holds `callback_mu`. -/
inductive Owner where
  | reader
  | call (i : ℕ)
  deriving DecidableEq

/-- What happened on the stream and which callbacks ran, in order. Callbacks are numbered. -/
inductive Obs (W R E : Type) where
  | write (call : ℕ) (w : W) (ok : Bool)
  | writesDone (call : ℕ)
  | response (r : R)
  | finish (st : GrpcStatus)
  | onResult (cb : ℕ) (e : E)
  | onError (cb : ℕ) (st : Status)

/-- The members of `Impl` that the threads share, and the history. -/
structure Mem (W R E : Type) where
  done : Bool
  writeMu : Option ℕ
  callbackMu : Option Owner
  onResult : Option ℕ
  onError : Option ℕ
  joiner : Joiner
  log : List (Obs W R E)

/-- Where the reader thread stands. -/
inductive ReaderPc (E : Type) where
  | read
  | lockResult (e : E)
  | callResult (e : E)
  | inResult
  | callReport (x : Exn)
  | inReport
  | unlockResult
  | storeDone
  | finish
  | lockError (st : GrpcStatus)
  | callError (st : GrpcStatus)
  | inError
  | unlockError
  | exited

/-- What the environment decides about a step of the reader thread. -/
inductive ReaderLabel (R : Type) where
  | tau
  | result (r : R)
  | eos
  | finish (st : GrpcStatus)
  | callback (threw : Option Exn)

/-- Which callback a call replaces. -/
inductive Slot where
  | onResult | onError
  deriving DecidableEq

/-- Where a call stands; the last five constructors are returned calls. -/
inductive CallPc (W : Type) where
  | sendLock (w : W)
  | sendCheck (w : W)
  | sendWrite (w : W)
  | sendUnlock (st : Status)
  | closeLock
  | closeExchange
  | closeEarly
  | closeWritesDone
  | closeUnlock
  | closeJoin (p : JoinPc)
  | waitJoin (p : JoinPc)
  | isDone
  | setLock (slot : Slot) (cb : Option ℕ)
  | setStore (slot : Slot) (cb : Option ℕ)
  | setUnlock
  | sent (st : Status)
  | closed
  | waited
  | wasDone (b : Bool)
  | set

/-- What the environment decides about a step of a call. -/
inductive CallLabel where
  | tau
  | wrote (ok : Bool)
  deriving DecidableEq

/-- The public methods. -/
inductive Op (W : Type) where
  | send (w : W)
  | close
  | wait
  | isDone
  | set (slot : Slot) (cb : Option ℕ)

/-- Where a call begins. -/
def Op.start : Op W → CallPc W
  | .send w => .sendLock w
  | .close => .closeLock
  | .wait => .waitJoin .enter
  | .isDone => .isDone
  | .set slot cb => .setLock slot cb

def CallPc.returned : CallPc W → Bool
  | .sent _ => true
  | .closed => true
  | .waited => true
  | .wasDone _ => true
  | .set => true
  | _ => false

def ReaderPc.isExited : ReaderPc E → Bool
  | .exited => true
  | _ => false

def Mem.observe (m : Mem W R E) (o : Obs W R E) : Mem W R E :=
  { m with log := m.log ++ [o] }

/-- One step of the reader thread (`StartReader`). -/
def readerNext (κ : HandleSpec W R E) (m : Mem W R E) :
    ReaderPc E → ReaderLabel R → Option (Mem W R E × ReaderPc E)
  -- while (stream && stream->Read(&response))
  | .read, .result r =>
    match κ.toResult with
    | none => some (m.observe (.response r), .read)
    | some f => some (m.observe (.response r), .lockResult (f r))
  | .read, .eos => some (m, .storeDone)
  | .lockResult e, .tau =>
    if m.callbackMu.isNone then some ({ m with callbackMu := some .reader }, .callResult e)
    else none
  -- if (on_result) SafeInvoke(on_result, on_error)
  | .callResult e, .tau =>
    match m.onResult with
    | none => some (m, .unlockResult)
    | some cb => some (m.observe (.onResult cb e), .inResult)
  | .inResult, .callback none => some (m, .unlockResult)
  | .inResult, .callback (some x) => some (m, .callReport x)
  | .callReport x, .tau =>
    match m.onError with
    | none => some (m, .unlockResult)
    | some cb => some (m.observe (.onError cb (κ.onResultThrew x)), .inReport)
  | .inReport, .callback _ => some (m, .unlockResult)
  | .unlockResult, .tau => some ({ m with callbackMu := none }, .read)
  | .storeDone, .tau => some ({ m with done := true }, .finish)
  | .finish, .finish st =>
    some (m.observe (.finish st), if st.ok then .exited else .lockError st)
  | .lockError st, .tau =>
    if m.callbackMu.isNone then some ({ m with callbackMu := some .reader }, .callError st)
    else none
  | .callError st, .tau =>
    match m.onError with
    | none => some (m, .unlockError)
    | some cb => some (m.observe (.onError cb (κ.finishError st)), .inError)
  | .inError, .callback _ => some (m, .unlockError)
  | .unlockError, .tau => some ({ m with callbackMu := none }, .exited)
  | _, _ => none

/-- One step of call `i`; `exited` tells whether the reader thread has exited. -/
def callNext (κ : HandleSpec W R E) (exited : Bool) (m : Mem W R E) (i : ℕ) :
    CallPc W → CallLabel → Option (Mem W R E × CallPc W)
  | .sendLock w, .tau =>
    if m.writeMu.isNone then some ({ m with writeMu := some i }, .sendCheck w) else none
  | .sendCheck w, .tau =>
    some (m, if m.done then .sendUnlock (κ.closedError w) else .sendWrite w)
  | .sendWrite w, .wrote ok =>
    some (m.observe (.write i w ok), .sendUnlock (if ok then .okStatus else κ.writeError w))
  | .sendUnlock st, .tau => some ({ m with writeMu := none }, .sent st)
  | .closeLock, .tau =>
    if m.writeMu.isNone then some ({ m with writeMu := some i }, .closeExchange) else none
  -- if (done.exchange(true)) return;
  | .closeExchange, .tau =>
    if m.done then some (m, .closeEarly) else some ({ m with done := true }, .closeWritesDone)
  | .closeEarly, .tau => some ({ m with writeMu := none }, .closed)
  | .closeWritesDone, .tau => some (m.observe (.writesDone i), .closeUnlock)
  | .closeUnlock, .tau => some ({ m with writeMu := none }, .closeJoin .enter)
  | .closeJoin p, .tau =>
    (m.joiner.next exited p).map fun r =>
      ({ m with joiner := r.1 }, if r.2 = .returned then .closed else .closeJoin r.2)
  | .waitJoin p, .tau =>
    (m.joiner.next exited p).map fun r =>
      ({ m with joiner := r.1 }, if r.2 = .returned then .waited else .waitJoin r.2)
  | .isDone, .tau => some (m, .wasDone m.done)
  | .setLock slot cb, .tau =>
    if m.callbackMu.isNone then some ({ m with callbackMu := some (.call i) }, .setStore slot cb)
    else none
  | .setStore .onResult cb, .tau => some ({ m with onResult := cb }, .setUnlock)
  | .setStore .onError cb, .tau => some ({ m with onError := cb }, .setUnlock)
  | .setUnlock, .tau => some ({ m with callbackMu := none }, .set)
  | _, _ => none

/-- A handle with its reader thread, the calls made on it so far, and its destruction. -/
structure Handle (W R E : Type) where
  mem : Mem W R E
  reader : ReaderPc E
  calls : List (CallPc W)
  /-- The destructor's `Close` call. -/
  dtor : Option ℕ
  destroyed : Bool
  terminated : Bool

/-- One action of the system. -/
inductive Action (W R : Type) where
  | begin (op : Op W)
  | call (i : ℕ) (l : CallLabel)
  | reader (l : ReaderLabel R)
  | destroy
  | free

/-- One step of a handle that has not been terminated. -/
def liveNext (κ : HandleSpec W R E) (s : Handle W R E) : Action W R → Option (Handle W R E)
  | .begin op =>
    if s.dtor.isNone then some { s with calls := s.calls ++ [op.start] } else none
  | .call i l =>
    s.calls[i]?.bind fun pc =>
      (callNext κ s.reader.isExited s.mem i pc l).map fun r =>
        { s with mem := r.1, calls := s.calls.set i r.2 }
  | .reader l =>
    (readerNext κ s.mem s.reader l).map fun r => { s with mem := r.1, reader := r.2 }
  | .destroy =>
    -- the owner destroys a handle that nobody else is using
    if s.dtor.isNone && s.calls.all CallPc.returned then
      some { s with calls := s.calls ++ [.closeLock], dtor := some s.calls.length }
    else none
  | .free =>
    s.dtor.bind fun i => s.calls[i]?.bind fun pc =>
      match pc with
      | .closed =>
        if s.destroyed then none
        else some { s with destroyed := true, terminated := s.mem.joiner.joinable }
      | _ => none

/-- One step of the system; after `std::terminate` there is none. -/
def next (κ : HandleSpec W R E) (s : Handle W R E) (a : Action W R) : Option (Handle W R E) :=
  if s.terminated then none else liveNext κ s a

/-- A handle as `Client` hands it out: the callbacks are installed and the reader has started. -/
def start (onResult onError : Option ℕ) : Handle W R E where
  mem := ⟨false, none, none, onResult, onError, .start, []⟩
  reader := .read
  calls := []
  dtor := none
  destroyed := false
  terminated := false

/-- The system of one handle. -/
def sys (κ : HandleSpec W R E) : Lts.Sys (Handle W R E) (Action W R) where
  init := fun s => ∃ onResult onError, s = start onResult onError
  next := next κ

end StreamHandle

end KubeMQ
