import KubeMQ.Burnin.CreateWorkers
import KubeMQ.Burnin.Metrics
import KubeMQ.Client.Unary
import KubeMQ.Types.Message
import KubeMQ.Types.Outgoing

/-!
# The workers with a sending and a receiving thread

`EventsWorker`, `EventsStoreWorker`, `QueueSimpleWorker`, `CommandsWorker` and `QueriesWorker` of
`burnin/worker`. They differ in what their threads call and count (`WorkerKind`): the producer or
sender makes one call after another, and the consumer or responder either holds a subscription, whose
reader thread runs the lambdas, or polls. The threads are that of the owner (`Start`, `Stop` and the
destructor's `Stop`), the producer, the consumer and the reader of the subscription.

A call of a client is one step, and so are an access to `running_` and a `fetch_add`. The reader may
run a lambda as often as it likes until it has exited, which the destructor of the subscription waits
for; what it really delivers is the matter of `Subscription`. `counters` is what this worker has added
to the metrics of its pattern. The pauses of the producer and the texts on `std::cerr` are left out.
-/

namespace KubeMQ.Burnin

/-- What is added to counters, one `fetch_add` after the other. -/
abbrev Adds := List (Counter × ℕ)

/-- What is added to one counter. -/
def Adds.to (adds : Adds) (c : Counter) : ℕ := (adds.map fun a => if a.1 = c then a.2 else 0).sum

namespace PairWorker

/-- What a lambda does with a message: it counts, or it sends a reply with the consumer's client. -/
inductive Lambda where
  | count (adds : Adds)
  | reply

/-- How a consumer gets its messages. -/
inductive Consumer (M : Type) where
  | subscription (lambda : M → Lambda)
  | polling (count : M → Adds)

/-- What distinguishes the workers: the thread that `Start` starts first, the body of the `seq`-th
message, when an answer is a success, what a success and a failure count, and the consumer. -/
structure WorkerKind (O M : Type) where
  pattern : Pattern
  consumerFirst : Bool
  body : ℕ → String
  succeeded : O → Bool
  credit : O → ℕ → Adds
  debit : O → Adds
  consumer : Consumer M

/-- What a message counts, besides the bytes of its body. -/
def received (body : Body) : Adds := [(.received, 1), (.bytesReceived, body.length)]

def events : WorkerKind Status EventReceive where
  pattern := .events
  consumerFirst := true
  body seq := "events-" ++ toString seq
  succeeded := Status.ok
  credit _ n := [(.sent, 1), (.bytesSent, n)]
  debit _ := [(.errors, 1)]
  consumer := .subscription fun event => .count (received event.body)

def eventsStore : WorkerKind (StatusOr EventStoreResult) EventStoreReceive where
  pattern := .eventsStore
  consumerFirst := true
  body seq := "events_store-" ++ toString seq
  succeeded
    | .value result => result.sent
    | .error _ => false
  credit _ n := [(.sent, 1), (.bytesSent, n)]
  debit _ := [(.errors, 1)]
  consumer := .subscription fun event => .count (received event.body)

def queueSimple :
    WorkerKind (StatusOr QueueSendResult) (StatusOr ReceiveQueueMessagesResponse) where
  pattern := .queueSimple
  consumerFirst := false
  body seq := "queue_simple-" ++ toString seq
  succeeded
    | .value result => !result.isError
    | .error _ => false
  credit _ n := [(.sent, 1), (.bytesSent, n)]
  debit _ := [(.errors, 1)]
  consumer := .polling fun
    | .value resp =>
      if !resp.isError then
        -- the count is converted to `uint64_t`
        (.received, (resp.messagesReceived % 2 ^ 64).toNat) ::
          resp.messages.map fun msg => (.bytesReceived, msg.body.length)
      else []
    | .error _ => [(.errors, 1)]

/-- What a failed request counts. -/
def rpcDebit (s : Status) : Adds :=
  [(.errors, 1), (if s.code = .kTimeout then .rpcTimeout else .rpcError, 1)]

def commands (clientIdPrefix : String) :
    WorkerKind (StatusOr CommandResponse) CommandReceive where
  pattern := .commands
  consumerFirst := true
  body seq := "command-" ++ toString seq
  succeeded := StatusOr.ok
  credit
    | .value resp, n =>
      [(.sent, 1), (.bytesSent, n), (.rpcSuccess, 1)] ++
        if resp.executed then [(.received, 1)] else []
    | .error _, _ => []
  debit
    | .value _ => []
    | .error s => rpcDebit s
  consumer := .subscription fun cmd =>
    match CommandReplyBuilder.build
      { requestId := cmd.id
        responseTo := cmd.responseTo
        clientId := clientIdPrefix ++ "-cmd-responder" } with
    | .value _ => .reply
    | .error _ => .count []

def queries (clientIdPrefix : String) : WorkerKind (StatusOr QueryResponse) QueryReceive where
  pattern := .queries
  consumerFirst := true
  body seq := "query-" ++ toString seq
  succeeded := StatusOr.ok
  credit
    | .value resp, n =>
      [(.sent, 1), (.bytesSent, n), (.rpcSuccess, 1)] ++
        if resp.executed then received resp.body else []
    | .error _, _ => []
  debit
    | .value _ => []
    | .error s => rpcDebit s
  consumer := .subscription fun query =>
    match QueryReplyBuilder.build
      { requestId := query.id
        responseTo := query.responseTo
        clientId := clientIdPrefix ++ "-qry-responder"
        body := "response-to-".toUTF8.data.toList ++ query.body } with
    | .value _ => .reply
    | .error _ => .count []

/-- The two clients of a worker. -/
inductive Side where
  | producer | consumer
  deriving DecidableEq

/-- What happened, in order: a call on a client, with whether the worker has the client; the answers,
failures and messages that count; and a return of `Stop` with the counters at it. -/
inductive Event (O M : Type) where
  | used (side : Side) (live : Bool)
  | answered (seq : ℕ) (o : O)
  | failed (o : O)
  | delivered (m : M)
  | errored
  | stopReturned (counters : Counters)

/-- Where the producer stands. -/
inductive ProducerPc (O : Type) where
  | unstarted
  | connect
  | connectFailed
  | assignClient
  | test (seq : ℕ)
  | send (seq : ℕ)
  | failed (seq : ℕ) (o : O)
  | adding (seq : ℕ) (todo : Adds)
  | exited

/-- Where the consumer stands; `join` is the destructor of the subscription. -/
inductive ConsumerPc where
  | unstarted
  | connect
  | connectFailed
  | assignClient
  | subscribe
  | subscribeFailed
  | test
  | sleep
  | receive
  | adding (todo : Adds)
  | cancel
  | join
  | exited

/-- Where the reader thread of the subscription stands. -/
inductive ReaderPc where
  | absent
  | idle
  | adding (todo : Adds)
  | replying
  | exited

/-- Where `Start` or `Stop` stands. -/
inductive OwnerPc where
  | fresh
  | starting
  | idle
  | joinProducer
  | joinConsumer
  | closeProducer
  | closeConsumer

structure Mem (O M : Type) where
  running : Bool
  producerThread : Bool
  consumerThread : Bool
  producerClient : Bool
  consumerClient : Bool
  counters : Counters
  log : List (Event O M)

variable {O M : Type}

def Mem.observe (m : Mem O M) (ev : Event O M) : Mem O M := { m with log := m.log ++ [ev] }

/-- One `fetch_add`. -/
def Mem.add (m : Mem O M) (a : Counter × ℕ) : Mem O M :=
  { m with counters := Function.update m.counters a.1 (m.counters a.1 + a.2) }

/-- An error that a thread counts. -/
def Mem.error (m : Mem O M) : Mem O M := (m.add (.errors, 1)).observe .errored

/-- What the environment decides about a step. -/
inductive Label (O M : Type) where
  | tau
  | done (ok : Bool)
  | answer (o : O)
  | message (m : M)
  | exit

/-- One step of the producer. -/
def producerNext (κ : WorkerKind O M) (m : Mem O M) :
    ProducerPc O → Label O M → Option (Mem O M × ProducerPc O)
  | .connect, .done ok => some (m, if ok then .assignClient else .connectFailed)
  | .connectFailed, .tau => some (m.error, .exited)
  | .assignClient, .tau => some ({ m with producerClient := true }, .test 0)
  | .test seq, .tau => some (m, if m.running then .send (seq + 1) else .exited)
  | .send seq, .answer o =>
    some ((m.observe (.used .producer m.producerClient)).observe (.answered seq o),
      if κ.succeeded o then .adding seq (κ.credit o (κ.body seq).utf8ByteSize) else .failed seq o)
  | .failed seq o, .tau =>
    if m.running then some (m.observe (.failed o), .adding seq (κ.debit o)) else some (m, .test seq)
  | .adding seq (a :: todo), .tau => some (m.add a, .adding seq todo)
  | .adding seq [], .tau => some (m, .test seq)
  | _, _ => none

/-- The consumer's thread has finished, or was never started. -/
def ConsumerPc.finished : ConsumerPc → Bool
  | .unstarted => true
  | .exited => true
  | _ => false

def ProducerPc.finished : ProducerPc O → Bool
  | .unstarted => true
  | .exited => true
  | _ => false

/-- The reader thread exists and has not exited. -/
def ReaderPc.alive : ReaderPc → Bool
  | .absent => false
  | .exited => false
  | _ => true

/-- One step of the consumer, which starts the reader. -/
def consumerNext (κ : WorkerKind O M) (m : Mem O M) (reader : ReaderPc) :
    ConsumerPc → Label O M → Option (Mem O M × ReaderPc × ConsumerPc)
  | .connect, .done ok => some (m, reader, if ok then .assignClient else .connectFailed)
  | .connectFailed, .tau => some (m.error, reader, .exited)
  | .assignClient, .tau =>
    some ({ m with consumerClient := true }, reader,
      match κ.consumer with
      | .subscription _ => .subscribe
      | .polling _ => .test)
  | .subscribe, .done ok =>
    some (m.observe (.used .consumer m.consumerClient),
      if ok then .idle else reader, if ok then .test else .subscribeFailed)
  | .subscribeFailed, .tau => some (m.error, reader, .exited)
  | .test, .tau =>
    some (m, reader,
      match κ.consumer with
      | .subscription _ => if m.running then .sleep else .cancel
      | .polling _ => if m.running then .receive else .exited)
  | .sleep, .tau => some (m, reader, .test)
  | .receive, .message x =>
    match κ.consumer with
    | .subscription _ => none
    | .polling count =>
      some ((m.observe (.used .consumer m.consumerClient)).observe (.delivered x), reader,
        .adding (count x))
  | .adding (a :: todo), .tau => some (m.add a, reader, .adding todo)
  | .adding [], .tau => some (m, reader, .test)
  | .cancel, .tau => some (m, reader, .join)
  | .join, .tau => if reader.alive then none else some (m, reader, .exited)
  | _, _ => none

/-- One step of the reader: it runs a lambda, or exits. -/
def readerNext (κ : WorkerKind O M) (m : Mem O M) : ReaderPc → Label O M → Option (Mem O M × ReaderPc)
  | .idle, .message x =>
    match κ.consumer with
    | .polling _ => none
    | .subscription lambda =>
      some (m.observe (.delivered x),
        match lambda x with
        | .count adds => .adding adds
        | .reply => .replying)
  -- the lambda of `on_error`
  | .idle, .tau => some (m.observe .errored, .adding [(.errors, 1)])
  | .idle, .exit => some (m, .exited)
  | .adding (a :: todo), .tau => some (m.add a, .adding todo)
  | .adding [], .tau => some (m, .idle)
  | .replying, .done ok =>
    let m := m.observe (.used .consumer m.consumerClient)
    if ok then some (m, .idle) else some (m.observe .errored, .adding [(.errors, 1)])
  | _, _ => none

structure Worker (O M : Type) where
  mem : Mem O M
  owner : OwnerPc
  producer : ProducerPc O
  consumer : ConsumerPc
  reader : ReaderPc

def startProducer (s : Worker O M) (owner : OwnerPc) : Worker O M :=
  { s with mem := { s.mem with producerThread := true }, producer := .connect, owner := owner }

def startConsumer (s : Worker O M) (owner : OwnerPc) : Worker O M :=
  { s with mem := { s.mem with consumerThread := true }, consumer := .connect, owner := owner }

/-- One step of `Start` or `Stop`; a client that is there is closed and reset. -/
def ownerNext (κ : WorkerKind O M) (s : Worker O M) : OwnerPc → Option (Worker O M)
  | .starting => some (if κ.consumerFirst then startProducer s .idle else startConsumer s .idle)
  | .joinProducer =>
    if s.mem.producerThread && !s.producer.finished then none
    else some { s with mem := { s.mem with producerThread := false }, owner := .joinConsumer }
  | .joinConsumer =>
    if s.mem.consumerThread && !s.consumer.finished then none
    else some { s with mem := { s.mem with consumerThread := false }, owner := .closeProducer }
  | .closeProducer => some { s with mem := { s.mem with producerClient := false }, owner := .closeConsumer }
  | .closeConsumer =>
    some { s with
      mem := { s.mem with consumerClient := false }.observe (.stopReturned s.mem.counters)
      owner := .idle }
  | _ => none

/-- One action of the system. -/
inductive Action (O M : Type) where
  | beginStart
  | beginStop
  | owner
  | producer (l : Label O M)
  | consumer (l : Label O M)
  | reader (l : Label O M)

def next (κ : WorkerKind O M) (s : Worker O M) : Action O M → Option (Worker O M)
  -- the engine starts a worker once
  | .beginStart =>
    match s.owner with
    | .fresh =>
      let s := { s with mem := { s.mem with running := true } }
      some (if κ.consumerFirst then startConsumer s .starting else startProducer s .starting)
    | _ => none
  | .beginStop =>
    match s.owner with
    | .fresh => some { s with mem := { s.mem with running := false }, owner := .joinProducer }
    | .idle => some { s with mem := { s.mem with running := false }, owner := .joinProducer }
    | _ => none
  | .owner => ownerNext κ s s.owner
  | .producer l =>
    (producerNext κ s.mem s.producer l).map fun r => { s with mem := r.1, producer := r.2 }
  | .consumer l =>
    (consumerNext κ s.mem s.reader s.consumer l).map fun r =>
      { s with mem := r.1, reader := r.2.1, consumer := r.2.2 }
  | .reader l => (readerNext κ s.mem s.reader l).map fun r => { s with mem := r.1, reader := r.2 }

/-- A worker as it is constructed. -/
def construct : Worker O M where
  mem := ⟨false, false, false, false, false, fun _ => 0, []⟩
  owner := .fresh
  producer := .unstarted
  consumer := .unstarted
  reader := .absent

def sys (κ : WorkerKind O M) : Lts.Sys (Worker O M) (Action O M) := ⟨(· = construct), next κ⟩

end PairWorker

end KubeMQ.Burnin
