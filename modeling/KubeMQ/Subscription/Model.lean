import KubeMQ.Lts.Basic
import KubeMQ.Thread.Join
import KubeMQ.Types.Message
import KubeMQ.Types.Status
import Mathlib.Logic.Function.Basic

/-!
# Subscriptions

The reader threads of `SubscribeToEvents`, `SubscribeToEventsStore`, `SubscribeToCommands` and
`SubscribeToQueries` (`client_events.cc`, `client_events_store.cc`, `client_commands.cc`,
`client_queries.cc`) run the same code over different messages; a `SubKind` holds what differs.
`readerNext` is one atomic step of that thread: an access to `done` or to the stored context, a
`Read`, a `Finish`, the start or the end of a callback, a sleep, and the two ways in which the
transport can refuse to open a stream. `callNext` is one atomic step of a call of `Cancel`,
`Wait`, `IsDone` or of the destructor (`internal/subscription_impl.h`).

A `ClientContext` is identified by a number, and so is the stream opened with it. After
`TryCancel` on its context a stream delivers finitely many messages more; how many is decided by
the environment. Delays are in milliseconds.
-/

namespace KubeMQ

/-- What distinguishes the four subscriptions: `P` is read, `R` goes to the callback. -/
structure SubKind (P R : Type) where
  accepts : P → Bool
  convert : P → R
  callbackOp : String
  subscribeOp : String
  endedPrefix : String

namespace SubKind

/-- `SubscribeToEvents`. -/
def events : SubKind Proto.EventReceive EventReceive where
  accepts := fun _ => true
  convert := receiveEvent
  callbackOp := "SubscribeToEvents::OnEvent"
  subscribeOp := "SubscribeToEvents"
  endedPrefix := "event subscription stream ended: "

/-- `SubscribeToEventsStore`. -/
def eventsStore : SubKind Proto.EventReceive EventStoreReceive where
  accepts := fun _ => true
  convert := receiveEventStore
  callbackOp := "SubscribeToEventsStore::OnEvent"
  subscribeOp := "SubscribeToEventsStore"
  endedPrefix := "events store subscription stream ended: "

/-- `SubscribeToCommands` skips requests that are not commands. -/
def commands : SubKind Proto.Request CommandReceive where
  accepts := fun p => p.requestTypeData == .Command
  convert := receiveCommand
  callbackOp := "SubscribeToCommands::OnCommand"
  subscribeOp := "SubscribeToCommands"
  endedPrefix := "commands subscription stream ended: "

/-- `SubscribeToQueries` skips requests that are not queries. -/
def queries : SubKind Proto.Request QueryReceive where
  accepts := fun p => p.requestTypeData == .Query
  convert := receiveQuery
  callbackOp := "SubscribeToQueries::OnQuery"
  subscribeOp := "SubscribeToQueries"
  endedPrefix := "queries subscription stream ended: "

variable {P R : Type} (κ : SubKind P R)

/-- The status handed to `on_error` for a callback that threw. -/
def threwError (x : Exn) : Status := callbackThrew κ.callbackOp x

/-- The terminal error of the reader thread. -/
def endedError (last : GrpcStatus) : Status :=
  ⟨.kTransient, κ.endedPrefix ++ last.message, κ.subscribeOp, "", ""⟩

end SubKind

namespace Subscription

variable {P R : Type}

/-- Which callbacks the subscriber has set. -/
structure Handlers where
  onEvent : Bool
  onError : Bool

/-- What the reader thread did, in order. Callbacks are recorded when they are called. -/
inductive Obs (P R : Type) where
  | opened (n : ℕ) (done : Bool)
  | reading (n : ℕ)
  | read (n : ℕ) (p : P)
  | ended (n : ℕ) (st : GrpcStatus)
  | onEvent (r : R)
  | threw (x : Exn)
  | onError (st : Status)
  | attempt (n : ℕ) (delay : ℕ)
  | refused (n : ℕ)

/-- The members of `Impl` that the threads share, the contexts, and the history. -/
structure Mem (P R : Type) where
  done : Bool
  /-- The stored context. -/
  ctx : ℕ
  /-- How many contexts have been created. -/
  created : ℕ
  /-- For a cancelled context, how many messages its stream still delivers. -/
  cancelled : ℕ → Option ℕ
  joiner : Joiner
  log : List (Obs P R)

/-- Where the reader thread stands. -/
inductive ReaderPc (R : Type) where
  | outer
  | read
  | dispatch (r : R)
  | inCallback
  | report (x : Exn)
  | inReport
  | finish
  | postFinish
  | backoffLoop (backoff : ℕ)
  | sleep (backoff : ℕ)
  | recheck (backoff : ℕ)
  | gate (backoff n : ℕ)
  | stub (backoff n : ℕ)
  | storeCtx (n : ℕ)
  | exitCheck
  | exitStore
  | exitReport
  | inExitReport
  | exited

/-- The reader thread: its control state and its local `reader` and `last_status`. -/
structure Reader (R : Type) where
  pc : ReaderPc R
  stream : ℕ
  lastStatus : GrpcStatus

/-- What the environment decides about a step of the reader thread. -/
inductive ReaderLabel (P : Type) where
  | tau
  | msg (p : P)
  | eos
  | finish (st : GrpcStatus)
  | callback (threw : Option Exn)
  | slept
  /-- `CheckClosed` and `ApplyAuth` of the transport let the call pass. -/
  | gate (passed : Bool)
  /-- The stub returns a stream. -/
  | stub (opened : Bool)

def Mem.observe (m : Mem P R) (o : Obs P R) : Mem P R :=
  { m with log := m.log ++ [o] }

def Reader.goto (r : Reader R) (pc : ReaderPc R) : Reader R := { r with pc := pc }

/-- The delays of the inner loop, `backoff` and `max_backoff`. -/
def initialBackoff : ℕ := 1000

def maxBackoff : ℕ := 30000

def nextBackoff (backoff : ℕ) : ℕ := min (backoff * 2) maxBackoff

/-- A message taken from stream `n`; after `TryCancel` only as many as the context still allows. -/
def Mem.take (m : Mem P R) (n : ℕ) (p : P) : Option (Mem P R) :=
  match m.cancelled n with
  | none => some (m.observe (.read n p))
  | some 0 => none
  | some (k + 1) =>
    some ({ m with cancelled := Function.update m.cancelled n (some k) }.observe (.read n p))

/-- One step of the reader thread. -/
def readerNext (κ : SubKind P R) (h : Handlers) (m : Mem P R) (r : Reader R) :
    ReaderLabel P → Option (Mem P R × Reader R) := fun l =>
  match r.pc, l with
  -- while (!done)
  | .outer, .tau =>
    if m.done then some (m, r.goto .exitCheck)
    else some (m.observe (.reading r.stream), r.goto .read)
  -- while (reader->Read(&proto))
  | .read, .msg p =>
    (m.take r.stream p).map fun m' =>
      (m', r.goto (if κ.accepts p then .dispatch (κ.convert p) else .read))
  | .read, .eos => some (m, r.goto .finish)
  -- SafeInvoke([&]() { if (on_event) on_event(event); }, on_error, …)
  | .dispatch e, .tau =>
    if h.onEvent then some (m.observe (.onEvent e), r.goto .inCallback)
    else some (m, r.goto .read)
  | .inCallback, .callback none => some (m, r.goto .read)
  | .inCallback, .callback (some x) => some (m.observe (.threw x), r.goto (.report x))
  | .report x, .tau =>
    if h.onError then some (m.observe (.onError (κ.threwError x)), r.goto .inReport)
    else some (m, r.goto .read)
  | .inReport, .callback _ => some (m, r.goto .read)
  | .finish, .finish st =>
    some (m.observe (.ended r.stream st), { r with pc := .postFinish, lastStatus := st })
  | .postFinish, .tau =>
    some (m, r.goto (if m.done then .exitCheck else .backoffLoop initialBackoff))
  -- while (!done), then if (!reconnected) break;
  | .backoffLoop b, .tau => some (m, r.goto (if m.done then .exitCheck else .sleep b))
  | .sleep b, .slept => some (m, r.goto (.recheck b))
  | .recheck b, .tau =>
    if m.done then some (m, r.goto .exitCheck)
    else
      some ({ m with created := m.created + 1 }.observe (.attempt m.created b),
        r.goto (.gate b m.created))
  | .gate b n, .gate true => some (m, r.goto (.stub b n))
  | .gate b n, .gate false =>
    some (m.observe (.refused n), r.goto (.backoffLoop (nextBackoff b)))
  | .stub _ n, .stub true => some (m.observe (.opened n m.done), r.goto (.storeCtx n))
  | .stub b n, .stub false =>
    some (m.observe (.refused n), r.goto (.backoffLoop (nextBackoff b)))
  | .storeCtx n, .tau => some ({ m with ctx := n }, { r with pc := .outer, stream := n })
  -- if (!done) { done = true; SafeInvoke(on_error …) }
  | .exitCheck, .tau => some (m, r.goto (if m.done then .exited else .exitStore))
  | .exitStore, .tau => some ({ m with done := true }, r.goto .exitReport)
  | .exitReport, .tau =>
    if h.onError then
      some (m.observe (.onError (κ.endedError r.lastStatus)), r.goto .inExitReport)
    else some (m, r.goto .exited)
  | .inExitReport, .callback _ => some (m, r.goto .exited)
  | _, _ => none

/-- Where a call stands. A call that cancels carries the context it read, once it has; `join`
is `JoinReader`, called by `Wait` and, after `Cancel`, by the destructor. -/
inductive CallPc where
  | cancelStore (thenJoin : Bool)
  | cancelRead (thenJoin : Bool)
  | cancelTry (thenJoin : Bool) (ctx : ℕ)
  | join (cancelled : Option ℕ) (p : JoinPc)
  | isDone
  | cancelled (ctx : ℕ)
  | joined (cancelled : Option ℕ)
  | wasDone (b : Bool)

/-- What the environment decides about a step of a call: after `TryCancel` on a context that was
not cancelled before, its stream delivers at most `budget` messages more. -/
inductive CallLabel where
  | tau
  | tryCancel (budget : ℕ)

inductive Op where
  | cancel | wait | isDone | destroy
  deriving DecidableEq

def Op.start : Op → CallPc
  | .cancel => .cancelStore false
  | .wait => .join none .enter
  | .isDone => .isDone
  | .destroy => .cancelStore true

/-- `TryCancel`; a context stays cancelled. -/
def Mem.tryCancel (m : Mem P R) (c budget : ℕ) : Mem P R :=
  if (m.cancelled c).isNone then
    { m with cancelled := Function.update m.cancelled c (some budget) }
  else m

def ReaderPc.isExited : ReaderPc R → Bool
  | .exited => true
  | _ => false

/-- One step of a call; `exited` tells whether the reader thread has exited. -/
def callNext (exited : Bool) (m : Mem P R) : CallPc → CallLabel → Option (Mem P R × CallPc)
  | .cancelStore j, .tau => some ({ m with done := true }, .cancelRead j)
  | .cancelRead j, .tau => some (m, .cancelTry j m.ctx)
  | .cancelTry j c, .tryCancel budget =>
    some (m.tryCancel c budget, if j then .join (some c) .enter else .cancelled c)
  | .join c p, .tau =>
    (m.joiner.next exited p).map fun r =>
      ({ m with joiner := r.1 }, if r.2 = .returned then .joined c else .join c r.2)
  | .isDone, .tau => some (m, .wasDone m.done)
  | _, _ => none

/-- A subscription: its reader thread and the calls made on it so far. -/
structure Sub (P R : Type) where
  mem : Mem P R
  reader : Reader R
  calls : List CallPc

inductive Action (P : Type) where
  | begin (op : Op)
  | call (i : ℕ) (l : CallLabel)
  | reader (l : ReaderLabel P)

/-- One step of the system. -/
def next (κ : SubKind P R) (h : Handlers) (s : Sub P R) : Action P → Option (Sub P R)
  | .begin op => some { s with calls := s.calls ++ [op.start] }
  | .call i l => s.calls[i]?.bind fun pc => (callNext s.reader.pc.isExited s.mem pc l).map fun r =>
      { s with mem := r.1, calls := s.calls.set i r.2 }
  | .reader l => (readerNext κ h s.mem s.reader l).map fun r =>
      { s with mem := r.1, reader := r.2 }

/-- A subscription as `Client` hands it out: the first stream, with context 0, has been opened. -/
def start : Sub P R where
  mem := ⟨false, 0, 1, fun _ => none, .start, [.opened 0 false]⟩
  reader := ⟨.outer, 0, ⟨.OK, ""⟩⟩
  calls := []

/-- The system of one subscription. -/
def sys (κ : SubKind P R) (h : Handlers) : Lts.Sys (Sub P R) (Action P) where
  init := fun s => s = start
  next := next κ h

end Subscription

end KubeMQ
