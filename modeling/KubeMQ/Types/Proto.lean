import Mathlib.Data.List.AList

/-!
# Wire messages

The messages of `src/proto/kubemq.proto` with the fields that the modelled code reads or writes.
Integer fields are integers; the narrowing casts of the code are written where it makes them.
A `map<string,string>` is an association list with distinct keys, in the order in which an
iteration would visit it.
-/

namespace KubeMQ

/-- `map<string,string>` and `std::unordered_map<std::string, std::string>`. -/
abbrev Tags := AList fun _ : String => String

/-- Bytes of a message body. -/
abbrev Body := List UInt8

namespace Tags

/-- Equality of maps as equality of their entries, in a form that evaluates. -/
instance : DecidableEq Tags := fun a b =>
  decidable_of_iff (a.entries = b.entries) AList.ext_iff.symm

/-- The loop `for (const auto& [k, v] : tags) out[k] = v`, started from an empty map. The
iteration order of either map is unspecified; the loop is taken from the last entry. -/
def copy (tags : Tags) : Tags :=
  tags.entries.foldr (fun e out => out.insert e.1 e.2) ∅

/-- The copy loop loses and changes nothing. -/
@[simp]
lemma copy_eq (tags : Tags) : tags.copy = tags := by
  obtain ⟨entries, nd⟩ := tags
  induction entries with
  | nil => rfl
  | cons e es ih =>
    obtain ⟨fresh, nd'⟩ := List.nodupKeys_cons.mp nd
    have ih' := ih nd'
    simp only [copy, List.foldr_cons] at ih' ⊢
    rw [ih']
    apply AList.ext
    rw [AList.entries_insert, List.kerase_of_notMem_keys fresh]

end Tags

namespace Proto

structure PingResult where
  host : String
  version : String
  serverStartTime : Int
  serverUpTimeSeconds : Int
  deriving DecidableEq

structure Result where
  eventID : String
  sent : Bool
  error : String
  deriving DecidableEq

structure Event where
  eventID : String
  clientID : String
  channel : String
  metadata : String
  body : Body
  store : Bool
  tags : Tags
  deriving DecidableEq

structure EventReceive where
  eventID : String
  channel : String
  metadata : String
  body : Body
  timestamp : Int
  sequence : Nat
  tags : Tags
  deriving DecidableEq

/-- `Subscribe.SubscribeType`. -/
inductive SubscribeType where
  | SubscribeTypeUndefined | Events | EventsStore | Commands | Queries
  deriving DecidableEq

/-- `Subscribe.EventsStoreType`. -/
inductive EventsStoreType where
  | EventsStoreTypeUndefined | StartNewOnly | StartFromFirst | StartFromLast | StartAtSequence
  | StartAtTime | StartAtTimeDelta
  deriving DecidableEq

structure Subscribe where
  subscribeTypeData : SubscribeType
  clientID : String
  channel : String
  group : String
  eventsStoreTypeData : EventsStoreType
  eventsStoreTypeValue : Int
  deriving DecidableEq

/-- `Request.RequestType`. -/
inductive RequestType where
  | RequestTypeUnknown | Command | Query
  deriving DecidableEq

structure Request where
  requestID : String
  requestTypeData : RequestType
  clientID : String
  channel : String
  metadata : String
  body : Body
  replyChannel : String
  timeout : Int
  cacheKey : String
  cacheTTL : Int
  tags : Tags
  deriving DecidableEq

structure Response where
  clientID : String
  requestID : String
  replyChannel : String
  metadata : String
  body : Body
  cacheHit : Bool
  timestamp : Int
  executed : Bool
  error : String
  tags : Tags
  deriving DecidableEq

structure QueueMessageAttributes where
  timestamp : Int
  sequence : Nat
  md5OfBody : String
  receiveCount : Int
  reRouted : Bool
  reRoutedFromQueue : String
  expirationAt : Int
  delayedTo : Int
  deriving DecidableEq

structure QueueMessagePolicy where
  expirationSeconds : Int
  delaySeconds : Int
  maxReceiveCount : Int
  maxReceiveQueue : String
  deriving DecidableEq

/-- `QueueMessage`; an absent submessage is `none`. -/
structure QueueMessage where
  messageID : String
  clientID : String
  channel : String
  metadata : String
  body : Body
  tags : Tags
  attributes : Option QueueMessageAttributes
  policy : Option QueueMessagePolicy
  deriving DecidableEq

structure SendQueueMessageResult where
  messageID : String
  sentAt : Int
  expirationAt : Int
  delayedTo : Int
  isError : Bool
  error : String
  deriving DecidableEq

structure QueueMessagesBatchRequest where
  batchID : String
  messages : List QueueMessage
  deriving DecidableEq

structure QueueMessagesBatchResponse where
  batchID : String
  results : List SendQueueMessageResult
  haveErrors : Bool
  deriving DecidableEq

structure ReceiveQueueMessagesRequest where
  requestID : String
  clientID : String
  channel : String
  maxNumberOfMessages : Int
  waitTimeSeconds : Int
  isPeak : Bool
  deriving DecidableEq

structure ReceiveQueueMessagesResponse where
  requestID : String
  messages : List QueueMessage
  messagesReceived : Int
  messagesExpired : Int
  isPeak : Bool
  isError : Bool
  error : String
  deriving DecidableEq

structure AckAllQueueMessagesRequest where
  requestID : String
  clientID : String
  channel : String
  waitTimeSeconds : Int
  deriving DecidableEq

structure AckAllQueueMessagesResponse where
  requestID : String
  affectedMessages : Nat
  isError : Bool
  error : String
  deriving DecidableEq

structure QueuesUpstreamRequest where
  requestID : String
  messages : List QueueMessage
  deriving DecidableEq

structure QueuesUpstreamResponse where
  refRequestID : String
  results : List SendQueueMessageResult
  isError : Bool
  error : String
  deriving DecidableEq

/-- `QueuesDownstreamRequestType`. -/
inductive QueuesDownstreamRequestType where
  | PollRequestTypeUnknown | Get | AckAll | AckRange | NAckAll | NAckRange | ReQueueAll
  | ReQueueRange | ActiveOffsets | TransactionStatus | CloseByClient | CloseByServer
  deriving DecidableEq

structure QueuesDownstreamRequest where
  requestID : String
  clientID : String
  requestTypeData : QueuesDownstreamRequestType
  channel : String
  maxItems : Int
  waitTimeout : Int
  autoAck : Bool
  reQueueChannel : String
  sequenceRange : List Int
  refTransactionId : String
  deriving DecidableEq

structure QueuesDownstreamResponse where
  transactionId : String
  refRequestId : String
  requestTypeData : QueuesDownstreamRequestType
  messages : List QueueMessage
  isError : Bool
  error : String
  transactionComplete : Bool
  deriving DecidableEq

end Proto

end KubeMQ
