import KubeMQ.Burnin.Config
import KubeMQ.Text.Digits
import KubeMQ.Text.Strings
import KubeMQ.Types.Validation

/-!
# The workers of a burn-in run

`Engine::CreateWorkers` and the run ids of `StartRun` and `GenerateRunId`. There is a worker for each
channel of each pattern that is enabled and has one of the six names; `create_workers` says which
these are, that no two of them share a channel, within a run or across runs with different ids, and
when the client accepts their channels.
-/

namespace KubeMQ.Burnin

/-- The patterns that have a worker. -/
inductive Pattern where
  | events | eventsStore | queueSimple | queueStream | commands | queries
  deriving DecidableEq

def Pattern.name : Pattern → String
  | .events => "events"
  | .eventsStore => "events_store"
  | .queueSimple => "queue_simple"
  | .queueStream => "queue_stream"
  | .commands => "commands"
  | .queries => "queries"

/-- The comparisons of `CreateWorkers`, one after the other. -/
def Pattern.ofName (name : String) : Option Pattern :=
  if name = "events" then some .events
  else if name = "events_store" then some .eventsStore
  else if name = "queue_simple" then some .queueSimple
  else if name = "queue_stream" then some .queueStream
  else if name = "commands" then some .commands
  else if name = "queries" then some .queries
  else none

/-- What a worker is constructed with. Its metrics are those of `GetPattern(pattern.name)`. -/
structure WorkerSpec where
  pattern : Pattern
  brokerAddress : String
  clientIdPrefix : String
  channel : String
  rate : Int32
  queue : Option QueueConfig
  deriving DecidableEq

/-- `kChannelPrefix`. -/
def channelPrefix : String := "burnin.cpp."

def channelOf (runId name : String) (ch : ℕ) : String :=
  channelPrefix ++ runId ++ "." ++ name ++ "." ++ toString ch

/-- `GenerateRunId` with the number that is drawn: `"%08x"`. -/
def generateRunId (draw : UInt32) : String := String.ofList (Digits.padded 16 8 draw.toNat)

/-- The run id of `StartRun`. -/
def runIdOf (c : Config) (draw : UInt32) : String :=
  if c.runId = "" then generateRunId draw else c.runId

/-- The worker of channel `ch`; only those of the queues are given the queue settings. -/
def workerOf (brokerAddress runId : String) (c : Config) (pc : PatternConfig) (ch : ℕ) (p : Pattern) :
    WorkerSpec where
  pattern := p
  brokerAddress := brokerAddress
  clientIdPrefix := c.clientIdPrefix
  channel := channelOf runId p.name ch
  rate := pc.rate
  queue :=
    match p with
    | .queueSimple => some c.queue
    | .queueStream => some c.queue
    | _ => none

/-- The engine's own `broker_address_` goes to the workers, not that of the configuration. -/
def createWorkers (brokerAddress runId : String) (c : Config) : List WorkerSpec :=
  c.patterns.toList.flatMap fun (name, pc) =>
    if !pc.enabled then []
    else
      (List.range pc.channels.toInt.toNat).filterMap fun ch =>
        (Pattern.ofName name).map (workerOf brokerAddress runId c pc ch)

/-- The characters that a client refuses in a channel that it sends to. -/
def refused (c : Char) : Bool := isAsciiSpace c || c == '*' || c == '>'

end KubeMQ.Burnin
