import KubeMQ.Client.Rpc
import KubeMQ.Client.Sending

/-!
# The two conversion layers

The operations of the client, the stream handles and the reader threads write out conversions that
`converter.cc` has as functions of their own. For messages that come from a builder the two differ
in the client id of a reply that has none, and in the time to live of a query that is negative.
-/

namespace KubeMQ.Client

open StreamHandle

section Built

variable {draw : UInt64 × UInt64}

lemma event_built {b : EventBuilder} {event : Event}
    (h : b.build (generateUUID draw) = .value event) : event.id ≠ "" ∧ event.channel ≠ "" := by
  obtain ⟨hok, rfl⟩ := built_value h
  exact message_built draw hok

lemma eventStore_built {b : EventStoreBuilder} {event : EventStore}
    (h : b.build (generateUUID draw) = .value event) : event.id ≠ "" ∧ event.channel ≠ "" := by
  obtain ⟨hok, rfl⟩ := built_value h
  exact message_built draw hok

end Built

section Encoders

variable {opts : ClientOptions} {uuid : String} {closed : Bool}

lemma eventRequest_eq {event : Event} {p : Proto.Event} (hid : event.id ≠ "")
    (hch : event.channel ≠ "") (h : eventRequest opts uuid closed event = .value p) :
    p = eventToProto event opts.clientId := by
  obtain ⟨rfl, -⟩ := checked_value h
  simp only [eventToProto, firstNonEmpty_of_ne hid, firstNonEmpty_of_ne hch]

lemma eventStoreRequest_eq {event : EventStore} {p : Proto.Event} (hid : event.id ≠ "")
    (hch : event.channel ≠ "") (h : eventStoreRequest opts uuid closed event = .value p) :
    p = eventStoreToProto event opts.clientId := by
  obtain ⟨rfl, -⟩ := checked_value h
  simp only [eventStoreToProto, firstNonEmpty_of_ne hid, firstNonEmpty_of_ne hch]

lemma encodeEvent_eq {event : Event} (hid : event.id ≠ "") (draw : UInt64 × UInt64) :
    encodeEvent opts (draw, event) = eventToProto event opts.clientId := by
  simp only [encodeEvent, eventToProto, firstNonEmpty_of_ne hid]

lemma encodeEventStore_eq {event : EventStore} (hid : event.id ≠ "") (draw : UInt64 × UInt64) :
    encodeEventStore opts (draw, event) = eventStoreToProto event opts.clientId := by
  simp only [encodeEventStore, eventStoreToProto, firstNonEmpty_of_ne hid]

/-- Only the converter passes on a time to live that is not positive. -/
lemma queryRequest_eq_iff {query : Query} {p : Proto.Request} (hid : query.id ≠ "")
    (hch : query.channel ≠ "") (htimeout : 0 < query.timeout) (hdefault : opts.defaultCacheTtl = 0)
    (h : queryRequest opts uuid closed query = .value p) :
    p = queryToProto query opts.clientId ↔
      0 < query.cacheTtl ∨ int32 (toSeconds query.cacheTtl) = 0 := by
  obtain ⟨rfl, -⟩ := checked_value h
  have hnone : ¬(query.cacheTtl ≤ 0 ∧ (0 : Int) > 0) := by omega
  simp only [queryToProto, firstNonEmpty_of_ne hid, firstNonEmpty_of_ne hch,
    if_neg (Int.not_le.mpr htimeout), hdefault, if_neg hnone, toSeconds]
  by_cases hpos : 0 < query.cacheTtl
  · simp [hpos]
  · simp [hpos, eq_comm]

lemma firstNonEmpty_eq_left {a b : String} : firstNonEmpty a b = a ↔ a ≠ "" ∨ b = "" := by
  unfold firstNonEmpty
  by_cases ha : a = ""
  · simp [ha]
  · simp [ha]

/-- Only the operations fill in the client id of a reply. -/
lemma commandReplyRequest_eq_iff {reply : CommandReply} {p : Proto.Response}
    (h : commandReplyRequest opts closed reply = .value p) :
    p = commandReplyToProto reply ↔ reply.clientId ≠ "" ∨ opts.clientId = "" := by
  obtain ⟨rfl, -⟩ := checked_value h
  rw [← firstNonEmpty_eq_left]
  simp [commandReplyToProto]

lemma queryReplyRequest_eq_iff {reply : QueryReply} {p : Proto.Response}
    (h : queryReplyRequest opts closed reply = .value p) :
    p = queryReplyToProto reply ↔ reply.clientId ≠ "" ∨ opts.clientId = "" := by
  obtain ⟨rfl, -⟩ := checked_value h
  rw [← firstNonEmpty_eq_left]
  simp [queryReplyToProto]

end Encoders

/-- A response without an error text is converted as `converter.cc` converts it. -/
lemma commandResponse_eq {q : Proto.Request} {r : Proto.Response} (h : r.error = "") :
    commandResponse q (.value r) = .value (commandResponseFromProto r) := by
  simp [commandResponse, commandResponseFromProto, h]

lemma queryResponse_eq {q : Proto.Request} {r : Proto.Response} (h : r.error = "") :
    queryResponse q (.value r) = .value (queryResponseFromProto r) := by
  simp [queryResponse, queryResponseFromProto, h]

/-- The messages that the operations and the handles make of what the builders return are those of
the converters, but for the queries and replies named; what is received is converted alike. -/
theorem conversion_layers_agree_iff (opts : ClientOptions) (hdefault : opts.defaultCacheTtl = 0)
    (draw : UInt64 × UInt64) (uuid : String) (closed : Bool) :
    (∀ b event, EventBuilder.build (generateUUID draw) b = .value event →
      (∀ p, eventRequest opts uuid closed event = .value p →
        p = eventToProto event opts.clientId) ∧
      ∀ d, encodeEvent opts (d, event) = eventToProto event opts.clientId) ∧
    (∀ b event, EventStoreBuilder.build (generateUUID draw) b = .value event →
      (∀ p, eventStoreRequest opts uuid closed event = .value p →
        p = eventStoreToProto event opts.clientId) ∧
      ∀ d, encodeEventStore opts (d, event) = eventStoreToProto event opts.clientId) ∧
    (∀ b command, CommandBuilder.build (generateUUID draw) b = .value command →
      ∀ p, commandRequest opts uuid closed command = .value p →
        p = commandToProto command opts.clientId) ∧
    (∀ b query, QueryBuilder.build (generateUUID draw) b = .value query →
      ∀ p, queryRequest opts uuid closed query = .value p →
        (p = queryToProto query opts.clientId ↔
          0 < query.cacheTtl ∨ int32 (toSeconds query.cacheTtl) = 0)) ∧
    (∀ b reply, CommandReplyBuilder.build b = .value reply →
      ∀ p, commandReplyRequest opts closed reply = .value p →
        (p = commandReplyToProto reply ↔ reply.clientId ≠ "" ∨ opts.clientId = "")) ∧
    (∀ b reply, QueryReplyBuilder.build b = .value reply →
      ∀ p, queryReplyRequest opts closed reply = .value p →
        (p = queryReplyToProto reply ↔ reply.clientId ≠ "" ∨ opts.clientId = "")) ∧
    (∀ p, receiveEvent p = eventReceiveFromProto p ∧
      receiveEventStore p = eventStoreReceiveFromProto p) ∧
    (∀ p, receiveCommand p = commandReceiveFromProto p ∧
      receiveQuery p = queryReceiveFromProto p) ∧
    ∀ q r, r.error = "" →
      commandResponse q (.value r) = .value (commandResponseFromProto r) ∧
        queryResponse q (.value r) = .value (queryResponseFromProto r) := by
  refine ⟨?_, ?_, ?_, ?_, ?_, ?_, fun p => ⟨rfl, rfl⟩, fun p => ⟨rfl, rfl⟩, ?_⟩
  · intro b event hb
    obtain ⟨hid, hch⟩ := event_built hb
    exact ⟨fun p => eventRequest_eq hid hch, encodeEvent_eq hid⟩
  · intro b event hb
    obtain ⟨hid, hch⟩ := eventStore_built hb
    exact ⟨fun p => eventStoreRequest_eq hid hch, encodeEventStore_eq hid⟩
  · intro b command hb p
    obtain ⟨hid, hch, htimeout⟩ := command_built hb
    exact commandRequest_eq hid hch htimeout
  · intro b query hb p
    obtain ⟨hid, hch, htimeout⟩ := query_built hb
    exact queryRequest_eq_iff hid hch htimeout hdefault
  · exact fun b reply _ p => commandReplyRequest_eq_iff
  · exact fun b reply _ p => queryReplyRequest_eq_iff
  · exact fun q r h => ⟨commandResponse_eq h, queryResponse_eq h⟩

/-- A client whose options hold an id. -/
def namedOptions : ClientOptions := { clientId := "a" }

/-- A reply without a client id, and a query whose time to live is minus one second. -/
theorem conversion_layers_differ :
    (¬∀ opts b reply, CommandReplyBuilder.build b = .value reply →
      ∀ p, commandReplyRequest opts false reply = .value p → p = commandReplyToProto reply) ∧
    ¬∀ opts : ClientOptions, opts.defaultCacheTtl = 0 →
      ∀ b query, QueryBuilder.build (generateUUID (0, 0)) b = .value query →
        ∀ p, queryRequest opts "u" false query = .value p →
          p = queryToProto query opts.clientId := by
  constructor
  · intro hall
    have heq := hall namedOptions { requestId := "r1", responseTo := "replies" } _ rfl _ rfl
    have hclient : "a" = "" := congrArg Proto.Response.clientID heq
    revert hclient
    decide
  · intro hall
    have heq := hall namedOptions rfl
      { id := "q1", channel := "stock", body := [1], timeout := 5000, cacheTtl := -1000 } _ rfl _ rfl
    have httl : (0 : Int) = int32 (toSeconds (-1000)) := congrArg Proto.Request.cacheTTL heq
    revert httl
    decide

theorem conversion_layers_agree_iff_sample :
    (∀ b event, EventBuilder.build (generateUUID (0, 0)) b = .value event →
      ∀ p, eventRequest namedOptions "u" false event = .value p →
        p = eventToProto event "a") ∧
    ∀ p, commandReplyRequest namedOptions false { requestId := "r1", responseTo := "replies" } =
        .value p →
      p ≠ commandReplyToProto { requestId := "r1", responseTo := "replies" } := by
  have h := conversion_layers_agree_iff namedOptions rfl (0, 0) "u" false
  refine ⟨fun b event hb => (h.1 b event hb).1, fun p hp heq => ?_⟩
  have hiff := h.2.2.2.2.1 { requestId := "r1", responseTo := "replies" } _ rfl p hp
  rcases hiff.mp heq with hne | hempty
  · exact hne rfl
  · revert hempty
    decide

end KubeMQ.Client
