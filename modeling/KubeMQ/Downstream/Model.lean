import KubeMQ.Lts.Basic
import KubeMQ.Lts.Lock
import KubeMQ.Types.Queue
import Mathlib.Algebra.Group.Nat.Defs

/-!
# The queue downstream receiver

`QueueDownstreamReceiver` with the `PollResponse` and `QueueDownstreamMessage` objects it hands out
(`client_queues_stream.cc`, `internal/queue_stream_impl.h`), on one bidirectional stream to a
server. `Poll`, the settlements and `Close` may be called from any number of threads; `callNext`
is one atomic step of one call. The receiver stays alive, so that `stream.lock()` finds the stream.

The server answers each `Get` and each settlement that reaches it with one response whose
`RefRequestId` is the request's `RequestID`, in any order. It sees nothing after `WritesDone`, and
the stream may break at any time; what was sent before can still be read.
-/

namespace KubeMQ

structure PollRequest where
  channel : String := ""
  maxItems : Int := 1
  waitTimeoutSeconds : Int := 5
  autoAck : Bool := false
  deriving DecidableEq

structure QueueDownstreamMessage where
  message : QueueMessage
  transactionId : String
  sequence : Nat
  autoAck : Bool
  deriving DecidableEq

structure PollResponse where
  transactionId : String
  messages : List QueueDownstreamMessage
  isError : Bool
  error : String
  autoAck : Bool
  transactionComplete : Bool
  deriving DecidableEq

namespace Downstream

open Proto (QueuesDownstreamRequest QueuesDownstreamResponse)

/-- What to do with a message or with a batch. -/
inductive Settlement where
  | ack
  | nack
  | reQueue (channel : String)
  deriving DecidableEq

/-- The request type and the channel that `Ack`, `Nack` and `ReQueue` pass to `SendSettle`. -/
def Settlement.range : Settlement → Proto.QueuesDownstreamRequestType × String
  | .ack => (.AckRange, "")
  | .nack => (.NAckRange, "")
  | .reQueue channel => (.ReQueueRange, channel)

/-- The request type and the channel that `AckAll`, `NackAll` and `ReQueueAll` pass on. -/
def Settlement.all : Settlement → Proto.QueuesDownstreamRequestType × String
  | .ack => (.AckAll, "")
  | .nack => (.NAckAll, "")
  | .reQueue channel => (.ReQueueAll, channel)

/-- Whether the empty-channel check of `ReQueue` and `ReQueueAll` rejects the call. -/
def Settlement.rejected : Settlement → Bool
  | .reQueue channel => channel.isEmpty
  | _ => false

/-- How a settlement goes on once everything but the stream has been looked at. -/
inductive Prepared where
  | returns (s : Status)
  | writes (op : String) (req : QueuesDownstreamRequest)

def settleRequest (uuid transactionId : String)
    (t : Proto.QueuesDownstreamRequestType × String) (range : List Int) :
    QueuesDownstreamRequest where
  requestID := uuid
  clientID := ""
  requestTypeData := t.1
  channel := ""
  maxItems := 0
  waitTimeout := 0
  autoAck := false
  reQueueChannel := t.2
  sequenceRange := range
  refTransactionId := transactionId

/-- `Ack`, `Nack` and `ReQueue` with `SendSettle`, up to the lock on `stream_mu`. -/
def prepareSettle (alive : Bool) (uuid : String) (m : QueueDownstreamMessage) (a : Settlement) :
    Prepared :=
  if a.rejected then
    .returns ⟨.kValidation, "requeue channel is required", "QueueDownstreamMessage::ReQueue",
      "", ""⟩
  else if m.autoAck then
    .returns ⟨.kValidation, "cannot settle: poll used AutoAck", "QueueDownstreamMessage::Settle",
      "", ""⟩
  else if !alive then
    .returns ⟨.kFatal, "receiver has been destroyed; settlement no longer possible",
      "QueueDownstreamMessage::Settle", "", ""⟩
  else if m.transactionId.isEmpty then
    .returns ⟨.kValidation, "message has no transaction ID", "QueueDownstreamMessage::Settle",
      "", ""⟩
  else
    -- static_cast<int64_t>(sequence)
    .writes "QueueDownstreamMessage::Settle"
      (settleRequest uuid m.transactionId a.range [Int.bmod m.sequence (2 ^ 64)])

/-- `AckAll`, `NackAll` and `ReQueueAll` with `SendSettleAll`, up to the lock on `stream_mu`. -/
def prepareSettleAll (alive : Bool) (uuid : String) (p : PollResponse) (a : Settlement) :
    Prepared :=
  if a.rejected then
    .returns ⟨.kValidation, "requeue channel is required", "PollResponse::ReQueueAll", "", ""⟩
  else if p.autoAck then
    .returns ⟨.kValidation, "cannot settle: poll used AutoAck", "PollResponse::Settle", "", ""⟩
  else if !alive then
    .returns ⟨.kFatal, "receiver has been destroyed; settlement no longer possible",
      "PollResponse::Settle", "", ""⟩
  else if p.transactionId.isEmpty then
    .returns ⟨.kValidation, "no transaction ID", "PollResponse::Settle", "", ""⟩
  else if p.messages.isEmpty then .returns .okStatus
  else .writes "PollResponse::Settle" (settleRequest uuid p.transactionId a.all [])

def settleWriteError (op : String) : Status :=
  ⟨.kTransient, "failed to write settlement to downstream stream", op, "", ""⟩

/-- The `Get` request of `Poll`. -/
def getRequest (uuid clientId : String) (r : PollRequest) : QueuesDownstreamRequest where
  requestID := uuid
  clientID := clientId
  requestTypeData := .Get
  channel := r.channel
  maxItems := r.maxItems
  waitTimeout := r.waitTimeoutSeconds
  autoAck := r.autoAck
  reQueueChannel := ""
  sequenceRange := []
  refTransactionId := ""

def pollError (code : ErrorCode) (message channel : String) : Status :=
  ⟨code, message, "QueueDownstreamReceiver::Poll", channel, ""⟩

/-- The k-th message of a poll response. -/
def downstreamMessage (uuid : String) (r : PollRequest) (resp : QueuesDownstreamResponse)
    (p : Proto.QueueMessage) : QueueDownstreamMessage where
  message := queueMessageFromProto uuid p
  transactionId := resp.transactionId
  sequence := (p.attributes.map Proto.QueueMessageAttributes.sequence).getD 0
  autoAck := r.autoAck

def pollResponse (uuid : ℕ → String) (r : PollRequest) (resp : QueuesDownstreamResponse) :
    PollResponse where
  transactionId := resp.transactionId
  messages := resp.messages.mapIdx fun k p => downstreamMessage (uuid k) r resp p
  isError := resp.isError
  error := resp.error
  autoAck := r.autoAck
  transactionComplete := resp.transactionComplete

/-- What `Poll` returns for the response it has read. -/
def pollResult (uuid : ℕ → String) (r : PollRequest) (resp : QueuesDownstreamResponse) :
    StatusOr PollResponse :=
  if resp.isError then .error (pollError .kFatal resp.error r.channel)
  else .value (pollResponse uuid r resp)

def closeRequest (uuid : String) : QueuesDownstreamRequest where
  requestID := uuid
  clientID := ""
  requestTypeData := .CloseByClient
  channel := ""
  maxItems := 0
  waitTimeout := 0
  autoAck := false
  reQueueChannel := ""
  sequenceRange := []
  refTransactionId := ""

/-- Where a call stands; `polled`, `settled` and `closed` are returned calls. -/
inductive CallPc where
  | pollCheck (r : PollRequest)
  | pollLock (r : PollRequest) (req : QueuesDownstreamRequest)
  | pollWrite (r : PollRequest) (req : QueuesDownstreamRequest)
  | pollRead (r : PollRequest) (req : QueuesDownstreamRequest)
  | pollFailed (s : Status)
  | pollGot (r : PollRequest) (resp : QueuesDownstreamResponse)
  | polled (v : StatusOr PollResponse)
  | settleStart (m : QueueDownstreamMessage) (a : Settlement)
  | settleAllStart (p : PollResponse) (a : Settlement)
  | settleLock (op : String) (req : QueuesDownstreamRequest)
  | settleWrite (op : String) (req : QueuesDownstreamRequest)
  | settleUnlock (s : Status)
  | settled (s : Status)
  | closeExchange
  | closeLock (req : QueuesDownstreamRequest)
  | closeWrite (req : QueuesDownstreamRequest)
  | closeWritesDone
  | closeUnlock
  | closed

/-- What the environment decides about a step of a call. -/
inductive CallLabel where
  | tau
  | wrote (ok : Bool)
  | readFail
  deriving DecidableEq

/-- A request that reached the server, with the call that wrote it. -/
structure Pending where
  call : ℕ
  request : QueuesDownstreamRequest

/-- A response on its way to the client, with the request it answers. -/
structure Answer where
  call : ℕ
  request : QueuesDownstreamRequest
  response : QueuesDownstreamResponse

/-- What happened on the stream, in order. -/
inductive Obs where
  | write (call : ℕ) (req : QueuesDownstreamRequest) (ok : Bool)
  | read (call : ℕ) (a : Answer)
  | writesDone (call : ℕ)

/-- The members of the receiver that the calls share, the stream, and its history. -/
structure Mem where
  closed : Bool
  streamMu : Option ℕ
  halfClosed : Bool
  broken : Bool
  pending : List Pending
  incoming : List Answer
  /-- How many UUIDs have been generated. -/
  uuids : ℕ
  log : List Obs

/-- The client id and the sequence of generated UUIDs. -/
structure Env where
  clientId : String
  uuid : ℕ → String

def Mem.observe (m : Mem) (o : Obs) : Mem :=
  { m with log := m.log ++ [o] }

/-- A `Write` of call `i`. A request that the server answers joins the pending ones. -/
def Mem.write (m : Mem) (i : ℕ) (req : QueuesDownstreamRequest) (ok answered : Bool) : Mem :=
  let reached := ok && answered && !m.halfClosed && !m.broken
  { m with
    pending := if reached then m.pending ++ [⟨i, req⟩] else m.pending
    log := m.log ++ [.write i req ok] }

/-- One step of call `i`. -/
def callNext (ε : Env) (m : Mem) (i : ℕ) : CallPc → CallLabel → Option (Mem × CallPc)
  | .pollCheck r, .tau =>
    if m.closed then
      some (m, .polled (.error (pollError .kFatal "downstream receiver is closed" "")))
    else
      let s := validateChannel r.channel "QueueDownstreamReceiver::Poll"
      if !s.ok then some (m, .polled (.error s))
      else some ({ m with uuids := m.uuids + 1 },
        .pollLock r (getRequest (ε.uuid m.uuids) ε.clientId r))
  | .pollLock r req, .tau =>
    if m.streamMu.isNone then some ({ m with streamMu := some i }, .pollWrite r req) else none
  | .pollWrite r req, .wrote ok =>
    some (m.write i req ok true, if ok then .pollRead r req else
      .pollFailed (pollError .kTransient "failed to write poll request to downstream stream"
        r.channel))
  | .pollRead r _, .tau =>
    match m.incoming with
    | [] => none
    | a :: rest => some ({ m with incoming := rest }.observe (.read i a), .pollGot r a.response)
  | .pollRead r _, .readFail =>
    -- Read fails once the stream is broken and everything that was sent has been read
    if m.broken && m.incoming.isEmpty then
      some (m, .pollFailed (pollError .kTransient
        "failed to read poll response from downstream stream" r.channel))
    else none
  | .pollFailed s, .tau => some ({ m with streamMu := none }, .polled (.error s))
  | .pollGot r resp, .tau =>
    some ({ m with streamMu := none, uuids := m.uuids + resp.messages.length },
      .polled (pollResult (fun k => ε.uuid (m.uuids + k)) r resp))
  | .settleStart q a, .tau =>
    match prepareSettle true (ε.uuid m.uuids) q a with
    | .returns s => some (m, .settled s)
    | .writes op req => some ({ m with uuids := m.uuids + 1 }, .settleLock op req)
  | .settleAllStart p a, .tau =>
    match prepareSettleAll true (ε.uuid m.uuids) p a with
    | .returns s => some (m, .settled s)
    | .writes op req => some ({ m with uuids := m.uuids + 1 }, .settleLock op req)
  | .settleLock op req, .tau =>
    if m.streamMu.isNone then some ({ m with streamMu := some i }, .settleWrite op req) else none
  | .settleWrite op req, .wrote ok =>
    some (m.write i req ok true, .settleUnlock (if ok then .okStatus else settleWriteError op))
  | .settleUnlock s, .tau => some ({ m with streamMu := none }, .settled s)
  -- if (closed.exchange(true)) return;
  | .closeExchange, .tau =>
    if m.closed then some (m, .closed)
    else some ({ m with closed := true, uuids := m.uuids + 1 },
      .closeLock (closeRequest (ε.uuid m.uuids)))
  | .closeLock req, .tau =>
    if m.streamMu.isNone then some ({ m with streamMu := some i }, .closeWrite req) else none
  | .closeWrite req, .wrote ok => some (m.write i req ok false, .closeWritesDone)
  | .closeWritesDone, .tau =>
    some ({ m with halfClosed := true }.observe (.writesDone i), .closeUnlock)
  | .closeUnlock, .tau => some ({ m with streamMu := none }, .closed)
  | _, _ => none

/-- A call, and whether some `Close` had already returned when it began. -/
structure Call where
  late : Bool
  pc : CallPc

structure Receiver where
  mem : Mem
  calls : List Call

/-- The public methods; `settle j k` is a call on message `k` of the response of poll `j`. -/
inductive Op where
  | poll (r : PollRequest)
  | settle (j k : ℕ) (a : Settlement)
  | settleAll (j : ℕ) (a : Settlement)
  | close

inductive Action where
  | begin (op : Op)
  | call (i : ℕ) (l : CallLabel)
  /-- The server answers the k-th request that waits for an answer. -/
  | answer (k : ℕ) (resp : QueuesDownstreamResponse)
  | breakStream

/-- The response of poll `j`, when that call has returned OK. -/
def Receiver.response (s : Receiver) (j : ℕ) : Option PollResponse :=
  match s.calls[j]? with
  | some ⟨_, .polled (.value p)⟩ => some p
  | _ => none

/-- Where an operation begins; settlements need the poll response they act on. -/
def Receiver.startPc (s : Receiver) : Op → Option CallPc
  | .poll r => some (.pollCheck r)
  | .settle j k a => (s.response j).bind fun p => p.messages[k]?.map fun q => .settleStart q a
  | .settleAll j a => (s.response j).map fun p => .settleAllStart p a
  | .close => some .closeExchange

def CallPc.isClosed : CallPc → Bool
  | .closed => true
  | _ => false

/-- One step of the system. -/
def next (ε : Env) (s : Receiver) : Action → Option Receiver
  | .begin op => (s.startPc op).map fun pc =>
      { s with calls := s.calls ++ [⟨s.calls.any fun c => c.pc.isClosed, pc⟩] }
  | .call i l => s.calls[i]?.bind fun c => (callNext ε s.mem i c.pc l).map fun r =>
      ⟨r.1, s.calls.set i { c with pc := r.2 }⟩
  | .answer k resp => s.mem.pending[k]?.bind fun q =>
      if resp.refRequestId = q.request.requestID then
        some { s with mem := { s.mem with
          pending := s.mem.pending.eraseIdx k
          incoming := s.mem.incoming ++ [⟨q.call, q.request, resp⟩] } }
      else none
  | .breakStream => some { s with mem := { s.mem with broken := true, pending := [] } }

def start : Receiver where
  mem := ⟨false, none, false, false, [], [], 0, []⟩
  calls := []

/-- The system of one receiver and its server. -/
def sys (ε : Env) : Lts.Sys Receiver Action where
  init := fun s => s = start
  next := next ε

/-- UUIDs for concrete runs. -/
def unaryUuids : Env where
  clientId := "client"
  uuid := fun n => String.ofList (List.replicate (n + 1) 'u')

def sampleResponse (ref transaction : String) (ty : Proto.QueuesDownstreamRequestType)
    (messages : List Proto.QueueMessage) : QueuesDownstreamResponse where
  transactionId := transaction
  refRequestId := ref
  requestTypeData := ty
  messages := messages
  isError := false
  error := ""
  transactionComplete := false

def sampleMessage : Proto.QueueMessage where
  messageID := "m"
  clientID := "producer"
  channel := "orders"
  metadata := ""
  body := [1]
  tags := ∅
  attributes := some ⟨0, 7, "", 1, false, "", 0, 0⟩
  policy := none

/-- Call 0 polls one message. -/
def pollOne : List Action :=
  [.begin (.poll { channel := "orders" }), .call 0 .tau, .call 0 .tau, .call 0 (.wrote true),
    .answer 0 (sampleResponse "u" "tx" .Get [sampleMessage]), .call 0 .tau, .call 0 .tau]

end Downstream

end KubeMQ
