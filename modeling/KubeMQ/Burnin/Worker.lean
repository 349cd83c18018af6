import KubeMQ.Downstream.Inversion
import KubeMQ.StreamHandle.Inversion
import KubeMQ.Transport.Converter
import Mathlib.Algebra.GroupWithZero.Nat

/-!
# The queue stream worker of the burn-in

`QueueStreamWorker` of `burnin/worker/queue_stream.cc`: the threads of `ProducerLoop` and
`ConsumerLoop`, the reader thread of the upstream handle, `Stop`, and the detached thread to which
`Stop` hands the handle. The handle and the receiver are those of `StreamHandle` and `Downstream`: a
call on one of them is a sequence of steps of their `callNext`, made by a thread that waits for its
return.

The other steps are accesses to `running_` and to the members, and a `Create`, an opening of a stream
and a `Close` of a client are one step each. The counters of one result or of one response are added
in one step. The lambdas only add to counters, so they do not throw. The members are taken as atomic.
-/

namespace KubeMQ.Burnin.QueueStream

open StreamHandle (readerNext)

abbrev UpMem :=
  StreamHandle.Mem Proto.QueuesUpstreamRequest Proto.QueuesUpstreamResponse QueueUpstreamResult

abbrev UpCall := StreamHandle.CallPc Proto.QueuesUpstreamRequest

abbrev UpReader := StreamHandle.ReaderPc QueueUpstreamResult

abbrev UpLabel := StreamHandle.ReaderLabel Proto.QueuesUpstreamResponse

/-- What a worker is constructed with, and the UUIDs that are generated. -/
structure Config where
  clientIdPrefix : String
  channel : String
  pollMaxMessages : Int := 10
  pollWaitTimeoutSeconds : Int := 5
  autoAck : Bool := false
  uuid : ℕ → String

/-- The counters of `PatternMetrics` that the worker adds to. -/
structure PatternMetrics where
  sent : ℕ := 0
  received : ℕ := 0
  errors : ℕ := 0
  bytesSent : ℕ := 0
  bytesReceived : ℕ := 0
  deriving DecidableEq

namespace PatternMetrics

def error (x : PatternMetrics) : PatternMetrics := { x with errors := x.errors + 1 }

def bytes (n : ℕ) (x : PatternMetrics) : PatternMetrics := { x with bytesSent := x.bytesSent + n }

/-- What the consumer adds for a response. -/
def poll (p : PollResponse) (x : PatternMetrics) : PatternMetrics :=
  { x with
    received := x.received + p.messages.length
    bytesReceived := x.bytesReceived + (p.messages.map fun q => q.message.body.length).sum }

/-- The lambda of `SetOnResult`. -/
def onResult (result : QueueUpstreamResult) (x : PatternMetrics) : PatternMetrics :=
  if !result.isError then
    result.results.foldl
      (fun x r => if !r.isError then { x with sent := x.sent + 1 } else x.error) x
  else x.error

end PatternMetrics

/-- A running lambda: that of `SetOnResult` or that of `SetOnError`. -/
inductive Lambda where
  | onResult (result : QueueUpstreamResult)
  | onError

def Lambda.run : Lambda → PatternMetrics → PatternMetrics
  | .onResult result => .onResult result
  | .onError => .error

/-- A step of the reader with which a lambda begins. -/
def Lambda.begun : UpReader → UpReader → Option Lambda
  | .callResult result, .inResult => some (.onResult result)
  | .callReport _, .inReport => some .onError
  | .callError _, .inError => some .onError
  | _, _ => none

/-- What happened, in order: the call of a lambda, and a return of `Stop` with the counters at it. -/
inductive Event where
  | called (lambda : Lambda)
  | stopReturned (metrics : PatternMetrics)

/-- Where the producer stands; `seq` counts its messages. -/
inductive ProducerPc where
  | unstarted
  | connect
  | connectFailed
  | assignClient
  | openStream
  | openFailed
  | assign
  | setResult (pc : UpCall)
  | setError (pc : UpCall)
  | test (seq : ℕ)
  | build (seq : ℕ)
  | send (seq : ℕ) (pc : UpCall)
  | sendFailed (seq : ℕ)
  | countError (seq : ℕ)
  | pause (seq : ℕ)
  | exited

/-- Where the consumer stands. -/
inductive ConsumerPc where
  | unstarted
  | connect
  | connectFailed
  | assignClient
  | openStream
  | openFailed
  | assign
  | test
  | poll (pc : Downstream.CallPc)
  | count (p : PollResponse)
  | ack (pc : Downstream.CallPc)
  | ackFailed
  | pollFailed
  | countError
  | exited

/-- Where `Stop` stands; it begins with the store to `running_`. -/
inductive StopPc where
  | idle
  | testReceiver
  | closeReceiver (pc : Downstream.CallPc)
  | joinProducer
  | joinConsumer
  | release
  | closeProducer
  | resetReceiver
  | destroyReceiver (pc : Downstream.CallPc)
  | closeConsumer

/-- Where the detached thread stands. -/
inductive CleanerPc where
  | unstarted
  | delete (pc : UpCall)
  | free
  | closeClient
  | exited

/-- The upstream handle. -/
structure Upstream where
  mem : UpMem
  reader : UpReader

def Upstream.start : Upstream where
  mem := ⟨false, none, none, none, none, .start, []⟩
  reader := .read

/-- The members of the worker, the objects they point to, and the history. An object may exist before
the member points to it, and after. -/
structure Mem where
  running : Bool
  producerThread : Bool
  consumerThread : Bool
  producerClient : Bool
  consumerClient : Bool
  upstreamSet : Bool
  upstream : Option Upstream
  receiverSet : Bool
  receiver : Option Downstream.Mem
  cleaner : CleanerPc
  lambda : Option Lambda
  metrics : PatternMetrics
  crashed : Bool
  log : List Event

/-- A change of the counters. -/
def Mem.count (m : Mem) (f : PatternMetrics → PatternMetrics) : Mem :=
  { m with metrics := f m.metrics }

/-- What the environment decides about a step. -/
inductive Label where
  | tau
  | done (ok : Bool)
  | upstream (l : StreamHandle.CallLabel)
  | downstream (l : Downstream.CallLabel)

/-- A step of a call that thread `i` makes on the upstream handle. -/
def Mem.upstreamNext (m : Mem) (i : ℕ) (pc : UpCall) (l : StreamHandle.CallLabel) :
    Option (Mem × UpCall) :=
  m.upstream.bind fun u =>
    (StreamHandle.callNext .queueUpstream u.reader.isExited u.mem i pc l).map fun r =>
      ({ m with upstream := some { u with mem := r.1 } }, r.2)

def Config.env (c : Config) : Downstream.Env where
  clientId := c.clientIdPrefix ++ "-qstream-consumer"
  uuid := c.uuid

/-- A step of a call that thread `i` makes on the receiver. -/
def Mem.receiverNext (c : Config) (m : Mem) (i : ℕ) (pc : Downstream.CallPc)
    (l : Downstream.CallLabel) : Option (Mem × Downstream.CallPc) :=
  m.receiver.bind fun d =>
    (Downstream.callNext c.env d i pc l).map fun r => ({ m with receiver := some r.1 }, r.2)

/-- The text of the `seq`-th message. -/
def bodyText (seq : ℕ) : List UInt8 := ("queue_stream-" ++ toString seq).toUTF8.data.toList

/-- The request of the `seq`-th `Send`. -/
def Config.request (c : Config) (seq : ℕ) (msg : QueueMessage) : Proto.QueuesUpstreamRequest :=
  queueUpstreamRequestToProto ("burnin-" ++ toString seq) [msg]
    (c.clientIdPrefix ++ "-qstream-producer")

/-- One step of `ProducerLoop`. -/
def producerNext (c : Config) (m : Mem) : ProducerPc → Label → Option (Mem × ProducerPc)
  | .connect, .done ok => some (m, if ok then .assignClient else .connectFailed)
  | .connectFailed, .tau => some (m.count .error, .exited)
  | .assignClient, .tau => some ({ m with producerClient := true }, .openStream)
  -- QueueUpstream starts the reader of the handle that it returns
  | .openStream, .done ok =>
    if ok then some ({ m with upstream := some Upstream.start }, .assign) else some (m, .openFailed)
  | .openFailed, .tau => some (m.count .error, .exited)
  | .assign, .tau =>
    some ({ m with upstreamSet := true }, .setResult (.setLock .onResult (some 0)))
  | .setResult pc, .upstream l =>
    (m.upstreamNext 0 pc l).map fun r =>
      (r.1, if r.2.returned then .setError (.setLock .onError (some 1)) else .setResult r.2)
  | .setError pc, .upstream l =>
    (m.upstreamNext 0 pc l).map fun r => (r.1, if r.2.returned then .test 0 else .setError r.2)
  | .test seq, .tau => some (m, if m.running then .build (seq + 1) else .exited)
  | .build seq, .tau =>
    match QueueMessageBuilder.build (c.uuid seq) { channel := c.channel, body := bodyText seq } with
    | .value msg =>
      some (m.count (.bytes (bodyText seq).length), .send seq (.sendLock (c.request seq msg)))
    | .error _ => some (m, .pause seq)
  | .send seq pc, .upstream l =>
    (m.upstreamNext 0 pc l).map fun r =>
      (r.1,
        match r.2 with
        | .sent st => if st.ok then .pause seq else .sendFailed seq
        | pc' => .send seq pc')
  | .sendFailed seq, .tau => some (m, if m.running then .countError seq else .pause seq)
  | .countError seq, .tau => some (m.count .error, .pause seq)
  | .pause seq, .tau => some (m, .test seq)
  | _, _ => none

def Config.pollRequest (c : Config) : PollRequest where
  channel := c.channel
  maxItems := c.pollMaxMessages
  waitTimeoutSeconds := min c.pollWaitTimeoutSeconds 2
  autoAck := c.autoAck

/-- One step of `ConsumerLoop`. -/
def consumerNext (c : Config) (m : Mem) : ConsumerPc → Label → Option (Mem × ConsumerPc)
  | .connect, .done ok => some (m, if ok then .assignClient else .connectFailed)
  | .connectFailed, .tau => some (m.count .error, .exited)
  | .assignClient, .tau => some ({ m with consumerClient := true }, .openStream)
  | .openStream, .done ok =>
    if ok then some ({ m with receiver := some Downstream.start.mem }, .assign)
    else some (m, .openFailed)
  | .openFailed, .tau => some (m.count .error, .exited)
  | .assign, .tau => some ({ m with receiverSet := true }, .test)
  | .test, .tau => some (m, if m.running then .poll (.pollCheck c.pollRequest) else .exited)
  | .poll pc, .downstream l =>
    (m.receiverNext c 0 pc l).map fun r =>
      (r.1,
        match r.2 with
        | .polled (.value p) => if p.isError then .test else .count p
        | .polled (.error _) => .pollFailed
        | pc' => .poll pc')
  | .count p, .tau =>
    some (m.count (.poll p),
      if !c.autoAck && !p.messages.isEmpty then .ack (.settleAllStart p .ack) else .test)
  | .ack pc, .downstream l =>
    (m.receiverNext c 0 pc l).map fun r =>
      (r.1,
        match r.2 with
        | .settled st => if st.ok then .test else .ackFailed
        | pc' => .ack pc')
  | .ackFailed, .tau => some (m.count .error, .test)
  | .pollFailed, .tau => some (m, if m.running then .countError else .test)
  | .countError, .tau => some (m.count .error, .test)
  | _, _ => none

/-- The thread does not run. -/
def ProducerPc.finished : ProducerPc → Bool
  | .unstarted => true
  | .exited => true
  | _ => false

def ConsumerPc.finished : ConsumerPc → Bool
  | .unstarted => true
  | .exited => true
  | _ => false

/-- One step of `Stop`; the flags tell whether the threads have finished. -/
def stopNext (c : Config) (producerFinished consumerFinished : Bool) (m : Mem) :
    StopPc → Label → Option (Mem × StopPc)
  | .testReceiver, .tau =>
    some (m, if m.receiverSet then .closeReceiver .closeExchange else .joinProducer)
  | .closeReceiver pc, .downstream l =>
    (m.receiverNext c 1 pc l).map fun r =>
      (r.1, if r.2.isClosed then .joinProducer else .closeReceiver r.2)
  | .joinProducer, .tau =>
    if m.producerThread && !producerFinished then none
    else some ({ m with producerThread := false }, .joinConsumer)
  | .joinConsumer, .tau =>
    if m.consumerThread && !consumerFinished then none
    else some ({ m with consumerThread := false }, .release)
  -- the detached thread owns the handle and the client
  | .release, .tau =>
    if m.upstreamSet then
      some ({ m with upstreamSet := false, producerClient := false, cleaner := .delete .closeLock },
        .resetReceiver)
    else some (m, .closeProducer)
  | .closeProducer, .tau => some ({ m with producerClient := false }, .resetReceiver)
  | .resetReceiver, .tau =>
    if m.receiverSet then some ({ m with receiverSet := false }, .destroyReceiver .closeExchange)
    else some (m, .closeConsumer)
  | .destroyReceiver pc, .downstream l =>
    (m.receiverNext c 1 pc l).map fun r =>
      if r.2.isClosed then ({ r.1 with receiver := none }, .closeConsumer)
      else (r.1, .destroyReceiver r.2)
  | .closeConsumer, .tau =>
    some ({ m with consumerClient := false, log := m.log ++ [.stopReturned m.metrics] }, .idle)
  | _, _ => none

/-- One step of the detached thread. -/
def cleanerNext (m : Mem) : CleanerPc → Label → Option Mem
  | .delete pc, .upstream l =>
    (m.upstreamNext 1 pc l).map fun r =>
      { r.1 with cleaner := if r.2.returned then .free else .delete r.2 }
  | .free, .tau =>
    m.upstream.map fun u =>
      { m with upstream := none, crashed := u.mem.joiner.joinable, cleaner := .closeClient }
  | .closeClient, .tau => some { m with cleaner := .exited }
  | _, _ => none

/-- The lambda begins, or returns and has added to the counters. -/
def Mem.deliver (m : Mem) (begun : Option Lambda) (l : UpLabel) : Mem :=
  match begun, l, m.lambda with
  | some f, _, _ => { m with lambda := some f, log := m.log ++ [.called f] }
  | none, .callback _, some f => { m with lambda := none }.count f.run
  | none, _, _ => m

/-- One step of the reader thread of the upstream handle. -/
def Mem.readerNext (m : Mem) (l : UpLabel) : Option Mem :=
  m.upstream.bind fun u =>
    (StreamHandle.readerNext .queueUpstream u.mem u.reader l).map fun r =>
      { m with upstream := some ⟨r.1, r.2⟩ }.deliver (Lambda.begun u.reader r.2) l

structure Worker where
  mem : Mem
  producer : ProducerPc
  consumer : ConsumerPc
  stop : StopPc

/-- One action of the system. -/
inductive Action where
  | beginStop
  | stop (l : Label)
  | producer (l : Label)
  | consumer (l : Label)
  | cleaner (l : Label)
  | reader (l : UpLabel)
  /-- The server answers the k-th request on the downstream stream. -/
  | answer (k : ℕ) (resp : Proto.QueuesDownstreamResponse)
  | breakStream

/-- A step of the server of the downstream stream. -/
def Mem.serverNext (c : Config) (m : Mem) (a : Downstream.Action) : Option Mem :=
  m.receiver.bind fun d =>
    (Downstream.next c.env ⟨d, []⟩ a).map fun r => { m with receiver := some r.mem }

/-- One step of a worker whose process has not been terminated. -/
def liveNext (c : Config) (s : Worker) : Action → Option Worker
  | .beginStop =>
    match s.stop with
    | .idle => some { s with mem := { s.mem with running := false }, stop := .testReceiver }
    | _ => none
  | .stop l =>
    (stopNext c s.producer.finished s.consumer.finished s.mem s.stop l).map fun r =>
      { s with mem := r.1, stop := r.2 }
  | .producer l =>
    (producerNext c s.mem s.producer l).map fun r => { s with mem := r.1, producer := r.2 }
  | .consumer l =>
    (consumerNext c s.mem s.consumer l).map fun r => { s with mem := r.1, consumer := r.2 }
  | .cleaner l => (cleanerNext s.mem s.mem.cleaner l).map fun m => { s with mem := m }
  | .reader l =>
    match l with
    | .callback (some _) => none
    | l => (s.mem.readerNext l).map fun m => { s with mem := m }
  | .answer k resp => (s.mem.serverNext c (.answer k resp)).map fun m => { s with mem := m }
  | .breakStream => (s.mem.serverNext c .breakStream).map fun m => { s with mem := m }

def next (c : Config) (s : Worker) (a : Action) : Option Worker :=
  if s.mem.crashed then none else liveNext c s a

/-- A worker as it is constructed. -/
def construct : Worker where
  mem := ⟨false, false, false, false, false, false, none, false, none, .unstarted, none, {}, false, []⟩
  producer := .unstarted
  consumer := .unstarted
  stop := .idle

/-- `Start`. -/
def start : Worker where
  mem := { construct.mem with running := true, producerThread := true, consumerThread := true }
  producer := .connect
  consumer := .connect
  stop := .idle

/-- The system of one worker: it is stopped, and stopped again by its destructor, whether it was
started or not. -/
def sys (c : Config) : Lts.Sys Worker Action where
  init s := s = construct ∨ s = start
  next := next c

end KubeMQ.Burnin.QueueStream
