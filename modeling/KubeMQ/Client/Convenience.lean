import KubeMQ.Client.Deadlines
import KubeMQ.Downstream.Poll
import KubeMQ.EventsStore.Broker

/-!
# Convenience methods, subscriptions and polls of the client

The methods that build a message from plain arguments (`PublishEvent`, `PublishEventStore`,
`SendCommandSimple`, `SendQuerySimple`, `SendQueueMessageSimple`), the four `SubscribeTo…` methods
up to the start of the reader thread, and `PollQueue`.
-/

namespace KubeMQ

/-- What a new `Subscription` keeps for its reader thread. -/
structure NewSubscription where
  id : String
  subscribeProto : Proto.Subscribe
  deriving DecidableEq

namespace Client

section Messages

variable (c : Config)

/-- The course of the methods that build their message: what the builder refuses is not sent. -/
def buildAndSend {M A : Type} (message : StatusOr M) (reject : Status → A)
    (send : M → World → A × World) : World → A × World :=
  unary message reject send fun _ => id

def publishEvent (channel : String) (body : Body) (metadata : String) (tags : Tags) :
    World → Status × World :=
  buildAndSend (EventBuilder.build c.uuid
    { channel := channel, body := body, metadata := metadata, tags := tags }) id (sendEvent c)

def publishEventStore (channel : String) (body : Body) (metadata : String) (tags : Tags) :
    World → StatusOr EventStoreResult × World :=
  buildAndSend (EventStoreBuilder.build c.uuid
    { channel := channel, body := body, metadata := metadata, tags := tags }) .error
    (sendEventStore c)

def sendCommandSimple (channel : String) (body : Body) (timeout : Int) :
    World → StatusOr CommandResponse × World :=
  buildAndSend (CommandBuilder.build c.uuid
    { channel := channel, body := body, timeout := timeout }) .error (sendCommand c)

def sendQuerySimple (channel : String) (body : Body) (timeout : Int) :
    World → StatusOr QueryResponse × World :=
  buildAndSend (QueryBuilder.build c.uuid
    { channel := channel, body := body, timeout := timeout }) .error (sendQuery c)

def sendQueueMessageSimple (channel : String) (body : Body) (expirationSeconds delaySeconds : Int) :
    World → StatusOr QueueSendResult × World :=
  buildAndSend (QueueMessageBuilder.build c.uuid
    { channel := channel
      body := body
      policy :=
        { expirationSeconds := if expirationSeconds > 0 then expirationSeconds else 0
          delaySeconds := if delaySeconds > 0 then delaySeconds else 0 } }) .error
    (sendQueueMessage c)

end Messages

section Subscriptions

variable (stub : Stub) (opts : ClientOptions) (uuid : String)

/-- The course of the four methods; `request` makes the `Subscribe` for the resolved channel, and
`connect` is the operation of the transport. -/
def subscribe (operation : String) (request : String → Proto.Subscribe)
    (connect : Proto.Subscribe → ClientContext → Session → StatusOr Unit × Session)
    (channel : String) (s : Session) : StatusOr NewSubscription × Session :=
  let effectiveChannel := firstNonEmpty channel opts.defaultChannel
  match checked [checkClosed s.world.closed, validateChannel effectiveChannel operation]
      (request effectiveChannel) with
  | .error e => (.error e, s)
  | .value sub =>
    match connect sub .fresh s with
    | (.error e, s') => (.error e, s')
    | (.value _, s') => (.value ⟨uuid, sub⟩, s')

/-- The request of a subscription without a start option. -/
def plainRequest (type : Proto.SubscribeType) (group channel : String) : Proto.Subscribe where
  subscribeTypeData := type
  clientID := opts.clientId
  channel := channel
  group := group
  eventsStoreTypeData := .EventsStoreTypeUndefined
  eventsStoreTypeValue := 0

def subscribeToEvents (channel group : String) : Session → StatusOr NewSubscription × Session :=
  subscribe opts uuid "SubscribeToEvents" (plainRequest opts .Events group)
    (GrpcTransport.subscribeToEvents stub opts) channel

def subscribeToEventsStore (channel group : String) (startOption : SubscriptionOption) :
    Session → StatusOr NewSubscription × Session :=
  subscribe opts uuid "SubscribeToEventsStore"
    (fun channel => EventsStore.subscribeRequest opts.clientId channel group startOption)
    (GrpcTransport.subscribeToEvents stub opts) channel

def subscribeToCommands (channel group : String) : Session → StatusOr NewSubscription × Session :=
  subscribe opts uuid "SubscribeToCommands" (plainRequest opts .Commands group)
    (GrpcTransport.subscribeToRequests stub opts) channel

def subscribeToQueries (channel group : String) : Session → StatusOr NewSubscription × Session :=
  subscribe opts uuid "SubscribeToQueries" (plainRequest opts .Queries group)
    (GrpcTransport.subscribeToRequests stub opts) channel

end Subscriptions

section Polls

variable (stub : Stub) (opts : ClientOptions)

def newQueueDownstreamReceiver (s : Session) : StatusOr Unit × Session :=
  let status := checkClosed s.world.closed
  if !status.ok then (.error status, s) else GrpcTransport.openQueueDownstream stub opts s

/-- `PollQueue`, with what it writes to the stream. A receiver whose poll fails is destroyed, and
that closes it; otherwise the response keeps it. -/
def pollQueue (uuid closeUuid : String) (uuids : ℕ → String) (stream : Downstream.PollStream)
    (request : PollRequest) (s : Session) :
    (StatusOr PollResponse × List Proto.QueuesDownstreamRequest) × Session :=
  match newQueueDownstreamReceiver stub opts s with
  | (.error e, s') => ((.error e, []), s')
  | (.value _, s') =>
    match Downstream.poll uuid opts.clientId uuids false stream request with
    | (.error e, writes) => ((.error e, writes ++ [Downstream.closeRequest closeUuid]), s')
    | (.value response, writes) => ((.value response, writes), s')

end Polls

end Client

end KubeMQ
