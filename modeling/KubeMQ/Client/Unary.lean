import KubeMQ.Transport.Converter
import KubeMQ.Transport.Unary

/-!
# Unary operations of the client

`Ping` (`client.cc`), `SendEvent` (`client_events.cc`), `SendEventStore`
(`client_events_store.cc`), `SendCommand` and `SendCommandResponse` (`client_commands.cc`),
`SendQuery` and `SendQueryResponse` (`client_queries.cc`), `SendQueueMessage`, `SendQueueMessages`
and `ReceiveQueueMessages` (`client_queues.cc`). Each checks its arguments and converts them
(`…Request`), makes one call of the transport, and converts the answer (`…Response`). The messages
are those that the builders make; `uuid` is what `GenerateUUID` returns. Durations are in
milliseconds.
-/

namespace KubeMQ

structure ReceiveQueueMessagesRequest where
  requestId : String := ""
  clientId : String := ""
  channel : String := ""
  maxNumberOfMessages : Int := 1
  waitTimeSeconds : Int := 5
  isPeek : Bool := false

structure ReceiveQueueMessagesResponse where
  requestId : String
  messages : List QueueMessage
  messagesReceived : Int
  messagesExpired : Int
  isPeek : Bool
  isError : Bool
  error : String

/-- `kDefaultRPCTimeout`. -/
def kDefaultRPCTimeout : Int := seconds 10

namespace Client

/-- The checks of an operation in turn; the first that fails is returned. -/
def checked {A : Type} : List Status → A → StatusOr A
  | [], a => .value a
  | s :: ss, a => if !s.ok then .error s else checked ss a

section Requests

variable (opts : ClientOptions) (uuid : String) (closed : Bool)

def pingRequest : StatusOr Unit := checked [checkClosed closed] ()

def eventRequest (event : Event) : StatusOr Proto.Event :=
  let channel := firstNonEmpty event.channel opts.defaultChannel
  checked [checkClosed closed,
      validateChannelNoWildcard channel "SendEvent",
      validateBody event.body event.metadata "SendEvent"]
    { eventID := firstNonEmpty event.id uuid
      clientID := firstNonEmpty event.clientId opts.clientId
      channel := channel
      metadata := event.metadata
      body := event.body
      store := false
      tags := event.tags.copy }

def eventStoreRequest (event : EventStore) : StatusOr Proto.Event :=
  let channel := firstNonEmpty event.channel opts.defaultChannel
  checked [checkClosed closed,
      validateChannelNoWildcard channel "SendEventStore",
      validateBody event.body event.metadata "SendEventStore"]
    { eventID := firstNonEmpty event.id uuid
      clientID := firstNonEmpty event.clientId opts.clientId
      channel := channel
      metadata := event.metadata
      body := event.body
      store := true
      tags := event.tags.copy }

def commandRequest (command : Command) : StatusOr Proto.Request :=
  let channel := firstNonEmpty command.channel opts.defaultChannel
  let timeout := if command.timeout ≤ 0 then kDefaultRPCTimeout else command.timeout
  checked [checkClosed closed,
      validateChannelNoWildcard channel "SendCommand",
      validateTimeout timeout "SendCommand",
      validateBody command.body command.metadata "SendCommand"]
    { requestID := firstNonEmpty command.id uuid
      requestTypeData := .Command
      clientID := firstNonEmpty command.clientId opts.clientId
      channel := channel
      metadata := command.metadata
      body := command.body
      replyChannel := ""
      timeout := int32 timeout
      cacheKey := ""
      cacheTTL := 0
      tags := command.tags.copy }

def commandReplyRequest (reply : CommandReply) : StatusOr Proto.Response :=
  checked [checkClosed closed]
    { clientID := firstNonEmpty reply.clientId opts.clientId
      requestID := reply.requestId
      replyChannel := reply.responseTo
      metadata := reply.metadata
      body := reply.body
      cacheHit := false
      timestamp := reply.executedAt
      executed := reply.executed
      error := reply.error
      tags := reply.tags.copy }

def queryRequest (query : Query) : StatusOr Proto.Request :=
  let channel := firstNonEmpty query.channel opts.defaultChannel
  let timeout := if query.timeout ≤ 0 then kDefaultRPCTimeout else query.timeout
  let cacheTtl :=
    if query.cacheTtl ≤ 0 ∧ opts.defaultCacheTtl > 0 then opts.defaultCacheTtl else query.cacheTtl
  checked [checkClosed closed,
      validateChannelNoWildcard channel "SendQuery",
      validateTimeout timeout "SendQuery",
      validateBody query.body query.metadata "SendQuery"]
    { requestID := firstNonEmpty query.id uuid
      requestTypeData := .Query
      clientID := firstNonEmpty query.clientId opts.clientId
      channel := channel
      metadata := query.metadata
      body := query.body
      replyChannel := ""
      timeout := int32 timeout
      cacheKey := query.cacheKey
      -- in seconds
      cacheTTL := if cacheTtl > 0 then int32 (cacheTtl.tdiv 1000) else 0
      tags := query.tags.copy }

def queryReplyRequest (reply : QueryReply) : StatusOr Proto.Response :=
  checked [checkClosed closed]
    { clientID := firstNonEmpty reply.clientId opts.clientId
      requestID := reply.requestId
      replyChannel := reply.responseTo
      metadata := reply.metadata
      body := reply.body
      cacheHit := reply.cacheHit
      timestamp := reply.executedAt
      executed := reply.executed
      error := reply.error
      tags := reply.tags.copy }

def queueMessageRequest (message : QueueMessage) : StatusOr Proto.QueueMessage :=
  let channel := firstNonEmpty message.channel opts.defaultChannel
  checked [checkClosed closed,
      validateChannelNoWildcard channel "SendQueueMessage",
      validateBody message.body message.metadata "SendQueueMessage"]
    { queueMessageToProto message opts.clientId with channel := channel }

/-- The loop of `SendQueueMessages` over its messages. -/
def batchMessages : List QueueMessage → StatusOr (List Proto.QueueMessage)
  | [] => .value []
  | msg :: msgs =>
    let channel := firstNonEmpty msg.channel opts.defaultChannel
    let s := validateChannelNoWildcard channel "SendQueueMessages"
    if !s.ok then .error s
    else
      let s := validateBody msg.body msg.metadata "SendQueueMessages"
      if !s.ok then .error s
      else
        match batchMessages msgs with
        | .error s => .error s
        | .value ps => .value ({ queueMessageToProto msg opts.clientId with channel := channel } :: ps)

def queueMessagesRequest (messages : List QueueMessage) :
    StatusOr Proto.QueueMessagesBatchRequest :=
  let s := checkClosed closed
  if !s.ok then .error s
  else if messages.isEmpty then
    .error ⟨.kValidation, "messages list is empty", "SendQueueMessages", "", ""⟩
  else
    match batchMessages opts messages with
    | .error s => .error s
    | .value ps => .value ⟨uuid, ps⟩

def receiveQueueMessagesRequest (request : ReceiveQueueMessagesRequest) :
    StatusOr Proto.ReceiveQueueMessagesRequest :=
  let channel := firstNonEmpty request.channel opts.defaultChannel
  checked [checkClosed closed, validateChannel channel "ReceiveQueueMessages"]
    { requestID := firstNonEmpty request.requestId uuid
      clientID := firstNonEmpty request.clientId opts.clientId
      channel := channel
      maxNumberOfMessages := request.maxNumberOfMessages
      waitTimeSeconds := request.waitTimeSeconds
      isPeak := request.isPeek }

end Requests

def commandResponse (request : Proto.Request) :
    StatusOr Proto.Response → StatusOr CommandResponse
  | .error s => .error s
  | .value r =>
    if !r.error.isEmpty then
      .error ⟨.kFatal, r.error, "SendCommand", request.channel, request.requestID⟩
    else
      .value
        { commandId := r.requestID
          responseClientId := r.clientID
          replyChannel := r.replyChannel
          executed := r.executed
          executedAt := r.timestamp
          error := r.error
          tags := r.tags.copy }

def queryResponse (request : Proto.Request) : StatusOr Proto.Response → StatusOr QueryResponse
  | .error s => .error s
  | .value r =>
    if !r.error.isEmpty then
      .error ⟨.kFatal, r.error, "SendQuery", request.channel, request.requestID⟩
    else
      .value
        { queryId := r.requestID
          replyChannel := r.replyChannel
          executed := r.executed
          executedAt := r.timestamp
          metadata := r.metadata
          responseClientId := r.clientID
          body := r.body
          cacheHit := r.cacheHit
          error := r.error
          tags := r.tags.copy }

def queueMessageResponse (message : Proto.QueueMessage) :
    StatusOr Proto.SendQueueMessageResult → StatusOr QueueSendResult
  | .error s => .error s
  | .value r =>
    let result := queueSendResultFromProto r
    if result.isError then
      .error ⟨.kFatal, result.error, "SendQueueMessage", message.channel, result.messageId⟩
    else .value result

def queueMessagesResponse :
    StatusOr Proto.QueueMessagesBatchResponse → StatusOr (List QueueSendResult)
  | .error s => .error s
  | .value r => .value (r.results.map queueSendResultFromProto)

/-- `uuids` are the ids generated for messages that have none. -/
def receiveQueueMessagesResponse (uuids : ℕ → String)
    (request : Proto.ReceiveQueueMessagesRequest) :
    StatusOr Proto.ReceiveQueueMessagesResponse → StatusOr ReceiveQueueMessagesResponse
  | .error s => .error s
  | .value r =>
    if r.isError then
      .error ⟨.kFatal, r.error, "ReceiveQueueMessages", request.channel, request.requestID⟩
    else
      .value
        { requestId := r.requestID
          messages := r.messages.mapIdx fun k p => queueMessageFromProto (uuids k) p
          messagesReceived := r.messagesReceived
          messagesExpired := r.messagesExpired
          isPeek := r.isPeak
          isError := r.isError
          error := r.error }

/-- What an operation depends on besides its argument and the `World`: the options, the answers
of the network, the generated id and the draws of the jitter. -/
structure Config where
  opts : ClientOptions
  net : Net
  uuid : String
  draw : ℕ → Int → Int → Int

/-- Nothing has been called yet. -/
def freshWorld : World := ⟨false, false, 0, 0, [], []⟩

/-- A server that answers everything with OK, and requests with `p`. -/
def answering (p : Proto.Response) : Net where
  getToken := none
  ping := fun _ => (⟨.OK, ""⟩, ⟨"host", "1", 0, 0⟩)
  sendEvent := fun _ => (⟨.OK, ""⟩, ⟨"1", true, ""⟩)
  sendRequest := fun _ => (⟨.OK, ""⟩, p)
  sendResponse := fun _ => ⟨.OK, ""⟩
  sendQueueMessage := fun _ => (⟨.OK, ""⟩, ⟨"1", 0, 0, 0, false, ""⟩)
  sendQueueMessagesBatch := fun _ => (⟨.OK, ""⟩, ⟨"1", [], false⟩)
  receiveQueueMessages := fun _ => (⟨.OK, ""⟩, ⟨"1", [], 0, 0, false, false, ""⟩)

/-- A client of that server, with the default options but for its id. -/
def sampleClient (clientId : String) (p : Proto.Response) : Config :=
  ⟨{ clientId := clientId }, answering p, "u", fun _ lo _ => lo⟩

/-- The course of a unary operation: a rejected request goes nowhere. -/
def unary {Q R A : Type} (request : StatusOr Q) (reject : Status → A) (send : Q → World → R × World)
    (answer : Q → R → A) (w : World) : A × World :=
  match request with
  | .error s => (reject s, w)
  | .value q =>
    let r := send q w
    (answer q r.1, r.2)

/-- When the stub was called, the request had passed the checks and the transport made the call. -/
lemma unary_made {Q R A : Type} {request : StatusOr Q} {reject : Status → A}
    {send : Q → World → R × World} {answer : Q → R → A} {w : World} {rpc : Rpc}
    {authorization : Option String} {deadline : Int}
    (h : (unary request reject send answer w).2.calls =
      w.calls ++ [⟨rpc, authorization, deadline⟩]) :
    ∃ q, request = .value q ∧ (send q w).2.calls = w.calls ++ [⟨rpc, authorization, deadline⟩] := by
  cases request with
  | error s => exact absurd ⟨authorization, deadline, h⟩ w.not_called
  | value q => exact ⟨q, rfl, h⟩

/-- A call of the stub was made for a request that passed the checks. -/
lemma unary_called {Q R A : Type} {request : StatusOr Q} {reject : Status → A}
    {send : Q → World → R × World} {answer : Q → R → A} {w : World} {rpc : Rpc}
    (h : w.Called (unary request reject send answer w).2 rpc) :
    ∃ q, request = .value q ∧ w.Called (send q w).2 rpc ∧
      (unary request reject send answer w).1 = answer q (send q w).1 := by
  cases request with
  | error s => exact absurd h w.not_called
  | value q => exact ⟨q, rfl, h, rfl⟩

/-- A request that is made has passed the checks. -/
lemma checked_value {A : Type} {ss : List Status} {a x : A} (h : checked ss a = .value x) :
    x = a ∧ ∀ s ∈ ss, s.ok = true := by
  induction ss with
  | nil =>
    cases h
    exact ⟨rfl, nofun⟩
  | cons s ss ih =>
    simp only [checked] at h
    split at h
    · cases h
    · next hs =>
      obtain ⟨e, rest⟩ := ih h
      refine ⟨e, ?_⟩
      intro t ht
      rcases List.mem_cons.mp ht with rfl | ht
      · simpa using hs
      · exact rest t ht

section Operations

variable (c : Config)

def ping (w : World) : StatusOr ServerInfo × World :=
  unary (pingRequest w.closed) .error (fun _ => GrpcTransport.ping c.net c.opts) (fun _ => id) w

def sendEvent (event : Event) (w : World) : Status × World :=
  unary (eventRequest c.opts c.uuid w.closed event) id (GrpcTransport.sendEvent c.net c.opts)
    (fun _ => id) w

def sendEventStore (event : EventStore) (w : World) : StatusOr EventStoreResult × World :=
  unary (eventStoreRequest c.opts c.uuid w.closed event) .error
    (GrpcTransport.sendEventStore c.net c.opts) (fun _ => id) w

def sendCommand (command : Command) (w : World) : StatusOr CommandResponse × World :=
  unary (commandRequest c.opts c.uuid w.closed command) .error
    (GrpcTransport.sendRequest c.net c.opts) commandResponse w

def sendCommandResponse (reply : CommandReply) (w : World) : Status × World :=
  unary (commandReplyRequest c.opts w.closed reply) id (GrpcTransport.sendResponse c.net c.opts)
    (fun _ => id) w

def sendQuery (query : Query) (w : World) : StatusOr QueryResponse × World :=
  unary (queryRequest c.opts c.uuid w.closed query) .error
    (GrpcTransport.sendRequest c.net c.opts) queryResponse w

def sendQueryResponse (reply : QueryReply) (w : World) : Status × World :=
  unary (queryReplyRequest c.opts w.closed reply) id (GrpcTransport.sendResponse c.net c.opts)
    (fun _ => id) w

def sendQueueMessage (message : QueueMessage) (w : World) : StatusOr QueueSendResult × World :=
  unary (queueMessageRequest c.opts w.closed message) .error
    (GrpcTransport.sendQueueMessage c.net c.opts) queueMessageResponse w

def sendQueueMessages (messages : List QueueMessage) (w : World) :
    StatusOr (List QueueSendResult) × World :=
  unary (queueMessagesRequest c.opts c.uuid w.closed messages) .error
    (GrpcTransport.sendQueueMessagesBatch c.net c.opts) (fun _ => queueMessagesResponse) w

def receiveQueueMessages (uuids : ℕ → String) (request : ReceiveQueueMessagesRequest)
    (w : World) : StatusOr ReceiveQueueMessagesResponse × World :=
  unary (receiveQueueMessagesRequest c.opts c.uuid w.closed request) .error
    (GrpcTransport.receiveQueueMessages c.net c.opts) (receiveQueueMessagesResponse uuids) w

end Operations

end Client

end KubeMQ
