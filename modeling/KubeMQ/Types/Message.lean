import KubeMQ.Types.Proto

/-!
# Messages handed to callbacks

The structs that the reader threads build from wire messages and pass to user callbacks, with
the conversions as the reader threads write them (`client_events.cc`, `client_events_store.cc`,
`client_commands.cc`, `client_queries.cc`, `stream_handle_impl.h`) and the two converters of
`converter.cc` that `queue_stream_impl.h` calls. Durations are counted in milliseconds.
-/

namespace KubeMQ

structure EventReceive where
  id : String
  channel : String
  metadata : String
  body : Body
  timestamp : Int
  sequence : Nat
  tags : Tags
  deriving DecidableEq

structure EventStoreReceive where
  id : String
  sequence : Nat
  timestamp : Int
  channel : String
  metadata : String
  body : Body
  tags : Tags
  deriving DecidableEq

structure CommandReceive where
  id : String
  clientId : String
  channel : String
  metadata : String
  body : Body
  responseTo : String
  timeout : Int
  tags : Tags
  deriving DecidableEq

structure QueryReceive where
  id : String
  channel : String
  clientId : String
  metadata : String
  body : Body
  responseTo : String
  timeout : Int
  cacheKey : String
  cacheTtl : Int
  tags : Tags
  deriving DecidableEq

structure CommandResponse where
  commandId : String
  responseClientId : String
  replyChannel : String
  executed : Bool
  executedAt : Int
  error : String
  tags : Tags
  deriving DecidableEq

structure QueryResponse where
  queryId : String
  replyChannel : String
  executed : Bool
  executedAt : Int
  metadata : String
  responseClientId : String
  body : Body
  cacheHit : Bool
  error : String
  tags : Tags
  deriving DecidableEq

structure EventStoreResult where
  id : String
  sent : Bool
  error : String
  deriving DecidableEq

structure QueueSendResult where
  messageId : String
  sentAt : Int
  expirationAt : Int
  delayedTo : Int
  isError : Bool
  error : String
  deriving DecidableEq

structure QueueUpstreamResult where
  refRequestId : String
  results : List QueueSendResult
  isError : Bool
  error : String
  deriving DecidableEq

/-- `std::chrono::seconds(n)` as a count of milliseconds. -/
def seconds (n : Int) : Int := 1000 * n

def receiveEvent (p : Proto.EventReceive) : EventReceive where
  id := p.eventID
  channel := p.channel
  metadata := p.metadata
  body := p.body
  timestamp := p.timestamp
  sequence := p.sequence
  tags := p.tags.copy

def receiveEventStore (p : Proto.EventReceive) : EventStoreReceive where
  id := p.eventID
  sequence := p.sequence
  timestamp := p.timestamp
  channel := p.channel
  metadata := p.metadata
  body := p.body
  tags := p.tags.copy

def receiveCommand (p : Proto.Request) : CommandReceive where
  id := p.requestID
  clientId := p.clientID
  channel := p.channel
  metadata := p.metadata
  body := p.body
  responseTo := p.replyChannel
  timeout := seconds p.timeout
  tags := p.tags.copy

def receiveQuery (p : Proto.Request) : QueryReceive where
  id := p.requestID
  channel := p.channel
  clientId := p.clientID
  metadata := p.metadata
  body := p.body
  responseTo := p.replyChannel
  timeout := seconds p.timeout
  cacheKey := p.cacheKey
  cacheTtl := seconds p.cacheTTL
  tags := p.tags.copy

def storeResult (p : Proto.Result) : EventStoreResult where
  id := p.eventID
  sent := p.sent
  error := p.error

def queueSendResultFromProto (p : Proto.SendQueueMessageResult) : QueueSendResult where
  messageId := p.messageID
  sentAt := p.sentAt
  expirationAt := p.expirationAt
  delayedTo := p.delayedTo
  isError := p.isError
  error := p.error

/-- `QueueUpstreamResponseFromProto`, as the `QueueUpstreamResult` of the reader thread. -/
def queueUpstreamResponseFromProto (p : Proto.QueuesUpstreamResponse) : QueueUpstreamResult where
  refRequestId := p.refRequestID
  results := p.results.map queueSendResultFromProto
  isError := p.isError
  error := p.error

end KubeMQ
