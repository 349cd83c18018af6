import KubeMQ.Types.Message
import KubeMQ.Types.Outgoing
import KubeMQ.Types.Queue
import Mathlib.Algebra.Group.Int.Defs
import Mathlib.Algebra.Group.Nat.Defs

/-!
# Converters

`internal/transport/converter.cc`: the conversions of events, requests, replies and queue messages.
The operations of the client write most of these conversions out again. Durations are in
milliseconds.
-/

namespace KubeMQ

/-- `FirstNonEmpty`, which the operations also write out. -/
def firstNonEmpty (a b : String) : String := if a.isEmpty then b else a

/-- `static_cast<int32_t>`. -/
def int32 (n : Int) : Int := Int.bmod n (2 ^ 32)

/-- `duration_cast<std::chrono::seconds>`, which truncates. -/
def toSeconds (ms : Int) : Int := ms.tdiv 1000

def eventToProto (event : Event) (clientId : String) : Proto.Event where
  eventID := event.id
  clientID := firstNonEmpty event.clientId clientId
  channel := event.channel
  metadata := event.metadata
  body := event.body
  store := false
  tags := event.tags.copy

def eventStoreToProto (event : EventStore) (clientId : String) : Proto.Event where
  eventID := event.id
  clientID := firstNonEmpty event.clientId clientId
  channel := event.channel
  metadata := event.metadata
  body := event.body
  store := true
  tags := event.tags.copy

def eventReceiveFromProto (p : Proto.EventReceive) : EventReceive where
  id := p.eventID
  channel := p.channel
  metadata := p.metadata
  body := p.body
  timestamp := p.timestamp
  sequence := p.sequence
  tags := p.tags.copy

def eventStoreReceiveFromProto (p : Proto.EventReceive) : EventStoreReceive where
  id := p.eventID
  sequence := p.sequence
  timestamp := p.timestamp
  channel := p.channel
  metadata := p.metadata
  body := p.body
  tags := p.tags.copy

def commandToProto (command : Command) (clientId : String) : Proto.Request where
  requestID := command.id
  requestTypeData := .Command
  clientID := firstNonEmpty command.clientId clientId
  channel := command.channel
  metadata := command.metadata
  body := command.body
  replyChannel := ""
  timeout := int32 command.timeout
  cacheKey := ""
  cacheTTL := 0
  tags := command.tags.copy

def commandReceiveFromProto (p : Proto.Request) : CommandReceive where
  id := p.requestID
  clientId := p.clientID
  channel := p.channel
  metadata := p.metadata
  body := p.body
  responseTo := p.replyChannel
  timeout := seconds p.timeout
  tags := p.tags.copy

def commandReplyToProto (reply : CommandReply) : Proto.Response where
  clientID := reply.clientId
  requestID := reply.requestId
  replyChannel := reply.responseTo
  metadata := reply.metadata
  body := reply.body
  cacheHit := false
  timestamp := reply.executedAt
  executed := reply.executed
  error := reply.error
  tags := reply.tags.copy

def commandResponseFromProto (p : Proto.Response) : CommandResponse where
  commandId := p.requestID
  responseClientId := p.clientID
  replyChannel := p.replyChannel
  executed := p.executed
  executedAt := p.timestamp
  error := p.error
  tags := p.tags.copy

def queryToProto (query : Query) (clientId : String) : Proto.Request where
  requestID := query.id
  requestTypeData := .Query
  clientID := firstNonEmpty query.clientId clientId
  channel := query.channel
  metadata := query.metadata
  body := query.body
  replyChannel := ""
  timeout := int32 query.timeout
  cacheKey := query.cacheKey
  cacheTTL := int32 (toSeconds query.cacheTtl)
  tags := query.tags.copy

def queryReceiveFromProto (p : Proto.Request) : QueryReceive where
  id := p.requestID
  channel := p.channel
  clientId := p.clientID
  metadata := p.metadata
  body := p.body
  responseTo := p.replyChannel
  timeout := seconds p.timeout
  cacheKey := p.cacheKey
  cacheTtl := seconds p.cacheTTL
  tags := p.tags.copy

def queryReplyToProto (reply : QueryReply) : Proto.Response where
  clientID := reply.clientId
  requestID := reply.requestId
  replyChannel := reply.responseTo
  metadata := reply.metadata
  body := reply.body
  cacheHit := reply.cacheHit
  timestamp := reply.executedAt
  executed := reply.executed
  error := reply.error
  tags := reply.tags.copy

def queryResponseFromProto (p : Proto.Response) : QueryResponse where
  queryId := p.requestID
  replyChannel := p.replyChannel
  executed := p.executed
  executedAt := p.timestamp
  metadata := p.metadata
  responseClientId := p.clientID
  body := p.body
  cacheHit := p.cacheHit
  error := p.error
  tags := p.tags.copy

def queuePolicyToProto (p : QueuePolicy) : Proto.QueueMessagePolicy where
  expirationSeconds := p.expirationSeconds
  delaySeconds := p.delaySeconds
  maxReceiveCount := p.maxReceiveCount
  maxReceiveQueue := p.maxReceiveQueue

/-- `QueueMessageToProto`; a message always has a policy. -/
def queueMessageToProto (msg : QueueMessage) (clientId : String) : Proto.QueueMessage where
  messageID := msg.id
  clientID := firstNonEmpty msg.clientId clientId
  channel := msg.channel
  metadata := msg.metadata
  body := msg.body
  tags := msg.tags.copy
  attributes := none
  policy := some (queuePolicyToProto msg.policy)

def queueUpstreamRequestToProto (requestId : String) (messages : List QueueMessage)
    (clientId : String) : Proto.QueuesUpstreamRequest where
  requestID := requestId
  messages := messages.map fun msg => queueMessageToProto msg clientId

lemma firstNonEmpty_of_ne {a : String} (h : a ≠ "") (b : String) : firstNonEmpty a b = a := by
  simp [firstNonEmpty, String.isEmpty_iff, h]

/-- An id that is generated when it is missing is never empty. -/
lemma firstNonEmpty_ne {b : String} (a : String) (h : b ≠ "") : firstNonEmpty a b ≠ "" := by
  unfold firstNonEmpty
  split
  · exact h
  · next ha => simpa [String.isEmpty_iff] using ha

lemma int32_of_lt {n : Int} (h₀ : 0 ≤ n) (h : n < 2 ^ 31) : int32 n = n := by
  unfold int32
  rw [Int.bmod_eq_of_le] <;> omega

lemma toSeconds_seconds (n : Int) : toSeconds (seconds n) = n := by
  unfold toSeconds seconds
  exact Int.mul_tdiv_cancel_left n (by decide)

end KubeMQ
