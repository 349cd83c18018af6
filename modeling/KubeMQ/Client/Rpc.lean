import KubeMQ.Client.Unary
import KubeMQ.Types.Uuid

/-!
# Commands and queries from client to client

A request that `SendCommand` or `SendQuery` sends is forwarded by the broker to a subscriber, whose
reader thread hands it to the user; the response that `SendCommandResponse` or `SendQueryResponse`
sends is forwarded to the waiting caller. `CommandAgrees`, `QueryAgrees`, `CommandReplyAgrees` and
`QueryReplyAgrees` say what should have arrived.
-/

namespace KubeMQ

/-- What a command and the `CommandReceive` made of it have in common, but for the timeout. -/
structure CommandShared (sender : String) (command : Command) (r : CommandReceive) : Prop where
  id : r.id = command.id
  channel : r.channel = command.channel
  clientId : r.clientId = firstNonEmpty command.clientId sender
  metadata : r.metadata = command.metadata
  body : r.body = command.body
  tags : r.tags = command.tags

/-- The subscriber sees the command as it was sent. -/
structure CommandAgrees (sender : String) (command : Command) (r : CommandReceive) : Prop
    extends CommandShared sender command r where
  timeout : r.timeout = command.timeout

/-- What a query and the `QueryReceive` made of it have in common, but for the timeout. -/
structure QueryShared (sender : String) (query : Query) (r : QueryReceive) : Prop where
  id : r.id = query.id
  channel : r.channel = query.channel
  clientId : r.clientId = firstNonEmpty query.clientId sender
  metadata : r.metadata = query.metadata
  body : r.body = query.body
  tags : r.tags = query.tags
  cacheKey : r.cacheKey = query.cacheKey
  cacheTtl : r.cacheTtl = query.cacheTtl

/-- The subscriber sees the query as it was sent. -/
structure QueryAgrees (sender : String) (query : Query) (r : QueryReceive) : Prop
    extends QueryShared sender query r where
  timeout : r.timeout = query.timeout

/-- The caller sees the reply as it was built. -/
structure CommandReplyAgrees (responder : String) (reply : CommandReply) (r : CommandResponse) :
    Prop where
  commandId : r.commandId = reply.requestId
  responseClientId : r.responseClientId = firstNonEmpty reply.clientId responder
  replyChannel : r.replyChannel = reply.responseTo
  executed : r.executed = reply.executed
  executedAt : r.executedAt = reply.executedAt
  error : r.error = reply.error
  tags : r.tags = reply.tags

/-- The caller sees the reply as it was built. -/
structure QueryReplyAgrees (responder : String) (reply : QueryReply) (r : QueryResponse) :
    Prop where
  queryId : r.queryId = reply.requestId
  responseClientId : r.responseClientId = firstNonEmpty reply.clientId responder
  replyChannel : r.replyChannel = reply.responseTo
  executed : r.executed = reply.executed
  executedAt : r.executedAt = reply.executedAt
  error : r.error = reply.error
  tags : r.tags = reply.tags
  metadata : r.metadata = reply.metadata
  body : r.body = reply.body
  cacheHit : r.cacheHit = reply.cacheHit

/-- The responder calls the stub with `p`, the caller calls the stub with a request, and the
broker answers that call with `p`. -/
structure Exchange {A : Type} (p : Proto.Response) (w₁ w₂ : World) (net : Net)
    (caller : A × World) (responder : Status × World) : Prop where
  responded : w₂.Called responder.2 (.sendResponse p)
  asked : ∃ q, w₁.Called caller.2 (.sendRequest q)
  forwarded : ∃ message, net.sendRequest w₁.calls.length = (⟨.OK, message⟩, p)

namespace Client

section Requests

variable {c : Config} {w : World} {p : Proto.Request}

/-- The request that `SendCommand` sends. -/
lemma sendCommand_called {command : Command}
    (h : w.Called (sendCommand c command w).2 (.sendRequest p)) :
    commandRequest c.opts c.uuid w.closed command = .value p := by
  obtain ⟨q, hq, hsent, -⟩ := unary_called h
  obtain ⟨hrpc, -⟩ := GrpcTransport.attempt_called hsent
  cases hrpc
  exact hq

/-- The request that `SendQuery` sends. -/
lemma sendQuery_called {query : Query}
    (h : w.Called (sendQuery c query w).2 (.sendRequest p)) :
    queryRequest c.opts c.uuid w.closed query = .value p := by
  obtain ⟨q, hq, hsent, -⟩ := unary_called h
  obtain ⟨hrpc, -⟩ := GrpcTransport.attempt_called hsent
  cases hrpc
  exact hq

end Requests

/-- What the builders of events promise: an id and a channel. -/
lemma message_built {channel metadata id : String} {body : Body} (draw : UInt64 × UInt64)
    (h : (builderCheck channel body metadata).ok = true) :
    firstNonEmpty id (generateUUID draw) ≠ "" ∧ channel ≠ "" := by
  obtain ⟨hchannel, -⟩ := builderCheck_ok.mp h
  have hid := firstNonEmpty_ne id (generateUUID_ne_empty draw)
  exact ⟨hid, by simpa [String.isEmpty_iff] using hchannel⟩

/-- What the builders of `Command` and `Query` promise: a timeout as well. -/
lemma rpc_built {channel metadata id : String} {body : Body} {timeout : Int}
    (draw : UInt64 × UInt64)
    (h : (rpcBuilderCheck channel body metadata timeout).ok = true) :
    firstNonEmpty id (generateUUID draw) ≠ "" ∧ channel ≠ "" ∧ 0 < timeout := by
  obtain ⟨hcheck, htimeout⟩ := rpcBuilderCheck_ok.mp h
  obtain ⟨hid, hchannel⟩ := message_built draw hcheck
  exact ⟨hid, hchannel, htimeout⟩

lemma command_built {draw : UInt64 × UInt64} {b : CommandBuilder} {command : Command}
    (h : b.build (generateUUID draw) = .value command) :
    command.id ≠ "" ∧ command.channel ≠ "" ∧ 0 < command.timeout := by
  obtain ⟨hok, rfl⟩ := built_value h
  exact rpc_built draw hok

lemma query_built {draw : UInt64 × UInt64} {b : QueryBuilder} {query : Query}
    (h : b.build (generateUUID draw) = .value query) :
    query.id ≠ "" ∧ query.channel ≠ "" ∧ 0 < query.timeout := by
  obtain ⟨hok, rfl⟩ := built_value h
  exact rpc_built draw hok

/-- The converter and `SendCommand` build the same request for a built command. -/
lemma commandRequest_eq {opts : ClientOptions} {uuid : String} {closed : Bool}
    {command : Command} {p : Proto.Request} (hid : command.id ≠ "") (hch : command.channel ≠ "")
    (htimeout : 0 < command.timeout)
    (h : commandRequest opts uuid closed command = .value p) :
    p = commandToProto command opts.clientId := by
  obtain ⟨rfl, -⟩ := checked_value h
  simp only [commandToProto, firstNonEmpty_of_ne hid, firstNonEmpty_of_ne hch,
    if_neg (Int.not_le.mpr htimeout)]

/-- The converter and `SendQuery` build the same request for a built query. -/
lemma queryRequest_eq {opts : ClientOptions} {uuid : String} {closed : Bool}
    {query : Query} {p : Proto.Request} (hid : query.id ≠ "") (hch : query.channel ≠ "")
    (htimeout : 0 < query.timeout) (httl : 0 ≤ query.cacheTtl) (hdefault : opts.defaultCacheTtl = 0)
    (h : queryRequest opts uuid closed query = .value p) :
    p = queryToProto query opts.clientId := by
  obtain ⟨rfl, -⟩ := checked_value h
  have hnone : ¬(query.cacheTtl ≤ 0 ∧ (0 : Int) > 0) := by omega
  simp only [queryToProto, firstNonEmpty_of_ne hid, firstNonEmpty_of_ne hch,
    if_neg (Int.not_le.mpr htimeout), hdefault, if_neg hnone, toSeconds]
  by_cases hpos : query.cacheTtl > 0
  · rw [if_pos hpos]
  · have hzero : query.cacheTtl = 0 := by omega
    rw [if_neg hpos, hzero]
    rfl

/-- Everything but the timeout of a command arrives as it was sent. -/
lemma command_shared (command : Command) (sender : String) :
    CommandShared sender command (commandReceiveFromProto (commandToProto command sender)) where
  id := rfl
  channel := rfl
  clientId := rfl
  metadata := rfl
  body := rfl
  tags := by simp only [commandReceiveFromProto, commandToProto, Tags.copy_eq]

/-- So does everything but the timeout of a query, when its time to live is in whole seconds. -/
lemma query_shared {query : Query} {m : Int} (sender : String) (hm : query.cacheTtl = seconds m)
    (h₀ : 0 ≤ m) (hlt : m < 2 ^ 31) :
    QueryShared sender query (queryReceiveFromProto (queryToProto query sender)) where
  id := rfl
  channel := rfl
  clientId := rfl
  metadata := rfl
  body := rfl
  tags := by simp only [queryReceiveFromProto, queryToProto, Tags.copy_eq]
  cacheKey := rfl
  cacheTtl := by
    simp only [queryReceiveFromProto, queryToProto, hm, toSeconds_seconds, int32_of_lt h₀ hlt]

/-- Milliseconds that are read as seconds are never the same duration, whatever the narrowing
cast does to them. -/
lemma scaled_timeout_ne {n : Int} (h₀ : 0 < seconds n) (h : n < 2 ^ 31) :
    seconds (int32 (seconds n)) ≠ seconds n := by
  unfold seconds int32 at *
  rw [Int.bmod_def]
  omega

/-- The timeout of a built command or query of whole seconds never arrives as it was sent. -/
theorem requests_never_keep_their_timeout (c : Config) (w : World) (draw : UInt64 × UInt64) :
    (∀ (b : CommandBuilder) (command : Command) (n : Int),
      b.build (generateUUID draw) = .value command → command.timeout = seconds n → n < 2 ^ 31 →
      ¬CommandAgrees c.opts.clientId command
          (commandReceiveFromProto (commandToProto command c.opts.clientId)) ∧
        ∀ p, w.Called (sendCommand c command w).2 (.sendRequest p) →
          ¬CommandAgrees c.opts.clientId command (receiveCommand p)) ∧
    (∀ (b : QueryBuilder) (query : Query) (n m : Int),
      b.build (generateUUID draw) = .value query → query.timeout = seconds n → n < 2 ^ 31 →
      query.cacheTtl = seconds m → 0 ≤ m → c.opts.defaultCacheTtl = 0 →
      ¬QueryAgrees c.opts.clientId query
          (queryReceiveFromProto (queryToProto query c.opts.clientId)) ∧
        ∀ p, w.Called (sendQuery c query w).2 (.sendRequest p) →
          ¬QueryAgrees c.opts.clientId query (receiveQuery p)) := by
  refine ⟨?_, ?_⟩
  · intro b command n hb hn hlt
    obtain ⟨hid, hch, htimeout⟩ := command_built hb
    have hscaled : seconds (int32 command.timeout) ≠ command.timeout := by
      rw [hn] at htimeout ⊢
      exact scaled_timeout_ne htimeout hlt
    refine ⟨fun h => hscaled h.timeout, ?_⟩
    intro p hp h
    have hreq := commandRequest_eq hid hch htimeout (sendCommand_called hp)
    rw [hreq] at h
    exact hscaled h.timeout
  · intro b query n m hb hn hlt hm h₀ hdefault
    obtain ⟨hid, hch, htimeout⟩ := query_built hb
    have hscaled : seconds (int32 query.timeout) ≠ query.timeout := by
      rw [hn] at htimeout ⊢
      exact scaled_timeout_ne htimeout hlt
    refine ⟨fun h => hscaled h.timeout, ?_⟩
    intro p hp h
    have httl : 0 ≤ query.cacheTtl := by
      rw [hm]
      unfold seconds
      omega
    have hreq := queryRequest_eq hid hch htimeout httl hdefault (sendQuery_called hp)
    rw [hreq] at h
    exact hscaled h.timeout

def sampleCommand : Command where
  id := "c1"
  channel := "orders"
  body := [1]
  timeout := 5000

def sampleQuery : Query where
  id := "q1"
  channel := "stock"
  body := [1]
  timeout := 5000
  cacheKey := "k"
  cacheTtl := 60000

/-- Five seconds arrive as five thousand. -/
theorem command_timeout_is_scaled :
    CommandBuilder.build (generateUUID (0, 0))
        { id := "c1", channel := "orders", body := [1], timeout := 5000 } = .value sampleCommand ∧
      sampleCommand.timeout = seconds 5 ∧
      ∃ p, freshWorld.Called
          (sendCommand (sampleClient "a" ⟨"", "", "", "", [], false, 0, true, "", ∅⟩) sampleCommand
            freshWorld).2 (.sendRequest p) ∧
        (receiveCommand p).timeout = seconds 5000 ∧ ¬CommandAgrees "a" sampleCommand (receiveCommand p) := by
  refine ⟨rfl, rfl, _, ⟨none, 5000, rfl⟩, rfl, ?_⟩
  intro h
  have htimeout : (5000000 : Int) = 5000 := h.timeout
  omega

theorem requests_never_keep_their_timeout_sample :
    let c := sampleClient "a" ⟨"", "", "", "", [], false, 0, true, "", ∅⟩
    (¬CommandAgrees "a" sampleCommand
        (commandReceiveFromProto (commandToProto sampleCommand "a")) ∧
      ∀ p, freshWorld.Called (sendCommand c sampleCommand freshWorld).2 (.sendRequest p) →
        ¬CommandAgrees "a" sampleCommand (receiveCommand p)) ∧
    (¬QueryAgrees "a" sampleQuery (queryReceiveFromProto (queryToProto sampleQuery "a")) ∧
      ∀ p, freshWorld.Called (sendQuery c sampleQuery freshWorld).2 (.sendRequest p) →
        ¬QueryAgrees "a" sampleQuery (receiveQuery p)) := by
  intro c
  obtain ⟨commands, queries⟩ := requests_never_keep_their_timeout c freshWorld (0, 0)
  refine ⟨?_, ?_⟩
  · exact commands { id := "c1", channel := "orders", body := [1], timeout := 5000 } sampleCommand 5
      rfl rfl (by decide)
  · exact queries
      { id := "q1", channel := "stock", body := [1], timeout := 5000, cacheKey := "k",
        cacheTtl := 60000 } sampleQuery 5 60 rfl rfl (by decide) rfl (by decide) rfl

/-- Everything but the timeout arrives; a timeout that fits arrives a thousand times as long. -/
theorem requests_keep_the_rest (c : Config) (w : World) (draw : UInt64 × UInt64) :
    (∀ (b : CommandBuilder) (command : Command) (p : Proto.Request),
      b.build (generateUUID draw) = .value command → command.timeout < 2 ^ 31 →
      w.Called (sendCommand c command w).2 (.sendRequest p) →
      CommandShared c.opts.clientId command (receiveCommand p) ∧
        (receiveCommand p).timeout = seconds command.timeout) ∧
    (∀ (b : QueryBuilder) (query : Query) (m : Int) (p : Proto.Request),
      b.build (generateUUID draw) = .value query → query.timeout < 2 ^ 31 →
      query.cacheTtl = seconds m → 0 ≤ m → m < 2 ^ 31 → c.opts.defaultCacheTtl = 0 →
      w.Called (sendQuery c query w).2 (.sendRequest p) →
      QueryShared c.opts.clientId query (receiveQuery p) ∧
        (receiveQuery p).timeout = seconds query.timeout) := by
  refine ⟨?_, ?_⟩
  · intro b command p hb hlt hp
    obtain ⟨hid, hch, htimeout⟩ := command_built hb
    rw [commandRequest_eq hid hch htimeout (sendCommand_called hp)]
    refine ⟨command_shared command c.opts.clientId, ?_⟩
    exact congrArg seconds (int32_of_lt htimeout.le hlt)
  · intro b query m p hb hlt hm h₀ hm' hdefault hp
    obtain ⟨hid, hch, htimeout⟩ := query_built hb
    have httl : 0 ≤ query.cacheTtl := by
      rw [hm]
      unfold seconds
      omega
    rw [queryRequest_eq hid hch htimeout httl hdefault (sendQuery_called hp)]
    refine ⟨query_shared c.opts.clientId hm h₀ hm', ?_⟩
    exact congrArg seconds (int32_of_lt htimeout.le hlt)

section Replies

variable {caller responder : Config} {w₁ w₂ : World} {p : Proto.Response}

/-- What `SendCommand` makes of the response that the broker forwards. -/
lemma exchange_command {command : Command} {reply : CommandReply}
    (h : Exchange p w₁ w₂ caller.net (sendCommand caller command w₁)
      (sendCommandResponse responder reply w₂)) :
    ∃ q, (sendCommand caller command w₁).1 = commandResponse q (.value p) ∧
      p = { commandReplyToProto reply with
        clientID := firstNonEmpty reply.clientId responder.opts.clientId } := by
  obtain ⟨_, hasked⟩ := h.asked
  obtain ⟨message, hforwarded⟩ := h.forwarded
  obtain ⟨q, -, hsent, hresult⟩ := unary_called hasked
  obtain ⟨-, hanswer⟩ := GrpcTransport.attempt_called hsent
  rw [hforwarded] at hanswer
  obtain ⟨r, hr, hcalled, -⟩ := unary_called h.responded
  obtain ⟨hrpc, -⟩ := GrpcTransport.attempt_called hcalled
  cases hrpc
  exact ⟨q, hresult.trans (congrArg (commandResponse q) hanswer), (checked_value hr).1⟩

/-- What `SendQuery` makes of the response that the broker forwards. -/
lemma exchange_query {query : Query} {reply : QueryReply}
    (h : Exchange p w₁ w₂ caller.net (sendQuery caller query w₁)
      (sendQueryResponse responder reply w₂)) :
    ∃ q, (sendQuery caller query w₁).1 = queryResponse q (.value p) ∧
      p = { queryReplyToProto reply with
        clientID := firstNonEmpty reply.clientId responder.opts.clientId } := by
  obtain ⟨_, hasked⟩ := h.asked
  obtain ⟨message, hforwarded⟩ := h.forwarded
  obtain ⟨q, -, hsent, hresult⟩ := unary_called hasked
  obtain ⟨-, hanswer⟩ := GrpcTransport.attempt_called hsent
  rw [hforwarded] at hanswer
  obtain ⟨r, hr, hcalled, -⟩ := unary_called h.responded
  obtain ⟨hrpc, -⟩ := GrpcTransport.attempt_called hcalled
  cases hrpc
  exact ⟨q, hresult.trans (congrArg (queryResponse q) hanswer), (checked_value hr).1⟩

end Replies

/-- A built reply comes back to the caller whole, exactly when it carries no error text. -/
theorem replies_come_back_iff (caller responder : Config) (w₁ w₂ : World) (p : Proto.Response) :
    (∀ (command : Command) (b : CommandReplyBuilder) (reply : CommandReply),
      b.build = .value reply →
      Exchange p w₁ w₂ caller.net (sendCommand caller command w₁)
        (sendCommandResponse responder reply w₂) →
      ((∃ r, (sendCommand caller command w₁).1 = .value r ∧
        CommandReplyAgrees responder.opts.clientId reply r) ↔ reply.error = "")) ∧
    (∀ (query : Query) (b : QueryReplyBuilder) (reply : QueryReply),
      b.build = .value reply →
      Exchange p w₁ w₂ caller.net (sendQuery caller query w₁)
        (sendQueryResponse responder reply w₂) →
      ((∃ r, (sendQuery caller query w₁).1 = .value r ∧
        QueryReplyAgrees responder.opts.clientId reply r) ↔ reply.error = "")) := by
  refine ⟨?_, ?_⟩
  · intro command b reply _ h
    obtain ⟨q, hresult, rfl⟩ := exchange_command h
    rw [hresult]
    constructor
    · rintro ⟨r, hr, -⟩
      by_contra hne
      rw [commandResponse, if_pos (by simpa [commandReplyToProto, String.isEmpty_iff] using hne)] at hr
      cases hr
    · intro he
      rw [commandResponse, if_neg (by simp [commandReplyToProto, he])]
      refine ⟨_, rfl, rfl, rfl, rfl, rfl, rfl, rfl, ?_⟩
      simp only [commandReplyToProto, Tags.copy_eq]
  · intro query b reply _ h
    obtain ⟨q, hresult, rfl⟩ := exchange_query h
    rw [hresult]
    constructor
    · rintro ⟨r, hr, -⟩
      by_contra hne
      rw [queryResponse, if_pos (by simpa [queryReplyToProto, String.isEmpty_iff] using hne)] at hr
      cases hr
    · intro he
      rw [queryResponse, if_neg (by simp [queryReplyToProto, he])]
      refine ⟨_, rfl, rfl, rfl, rfl, rfl, rfl, rfl, ?_, rfl, rfl, rfl⟩
      simp only [queryReplyToProto, Tags.copy_eq]

/-- The response that the client `b` sends for a reply with the given error text. -/
def sampleResponse (error : String) : Proto.Response :=
  ⟨"b", "c1", "reply", "", [], false, 7, true, error, ∅⟩

def sampleReply (error : String) : CommandReply where
  requestId := "c1"
  responseTo := "reply"
  executedAt := 7
  error := error

def sampleQueryReply (error : String) : QueryReply where
  requestId := "c1"
  responseTo := "reply"
  executedAt := 7
  error := error

/-- The client `a` asks, the client `b` replies. -/
lemma sample_exchange (error : String) :
    Exchange (sampleResponse error) freshWorld freshWorld (answering (sampleResponse error))
      (sendCommand (sampleClient "a" (sampleResponse error)) sampleCommand freshWorld)
      (sendCommandResponse (sampleClient "b" (sampleResponse error)) (sampleReply error)
        freshWorld) := by
  have hreq : commandRequest { clientId := "a" } "u" false sampleCommand
      = .value (commandToProto sampleCommand "a") := by decide +kernel
  refine ⟨⟨none, 5000, rfl⟩, ⟨commandToProto sampleCommand "a", none, 5000, ?_⟩, "", rfl⟩
  have hask : sendCommand (sampleClient "a" (sampleResponse error)) sampleCommand freshWorld
      = unary (commandRequest { clientId := "a" } "u" false sampleCommand) .error
        (GrpcTransport.sendRequest (answering (sampleResponse error)) { clientId := "a" })
        commandResponse freshWorld := rfl
  rw [hask, hreq]
  rfl

/-- An error reply does not come back as a response. -/
theorem error_reply_becomes_status :
    CommandReplyBuilder.build
        { requestId := "c1", responseTo := "reply", executedAt := 7, error := "out of stock" }
        = .value (sampleReply "out of stock") ∧
      Exchange (sampleResponse "out of stock") freshWorld freshWorld
        (answering (sampleResponse "out of stock"))
        (sendCommand (sampleClient "a" (sampleResponse "out of stock")) sampleCommand freshWorld)
        (sendCommandResponse (sampleClient "b" (sampleResponse "out of stock"))
          (sampleReply "out of stock") freshWorld) ∧
      (sendCommand (sampleClient "a" (sampleResponse "out of stock")) sampleCommand freshWorld).1 =
        .error ⟨.kFatal, "out of stock", "SendCommand", "orders", "c1"⟩ := by
  refine ⟨rfl, sample_exchange "out of stock", ?_⟩
  decide +kernel

theorem replies_come_back_iff_sample :
    (∃ r, (sendCommand (sampleClient "a" (sampleResponse "")) sampleCommand freshWorld).1
        = .value r ∧ CommandReplyAgrees "b" (sampleReply "") r) ∧
      ∃ r, (sendQuery (sampleClient "a" (sampleResponse "")) sampleQuery freshWorld).1
        = .value r ∧ QueryReplyAgrees "b" (sampleQueryReply "") r := by
  obtain ⟨commands, queries⟩ := replies_come_back_iff (sampleClient "a" (sampleResponse ""))
    (sampleClient "b" (sampleResponse "")) freshWorld freshWorld (sampleResponse "")
  refine ⟨?_, ?_⟩
  · exact (commands sampleCommand
      { requestId := "c1", responseTo := "reply", executedAt := 7 } (sampleReply "") rfl
      (sample_exchange "")).mpr rfl
  · exact (queries sampleQuery
      { requestId := "c1", responseTo := "reply", executedAt := 7 } (sampleQueryReply "") rfl
      ⟨⟨none, 5000, rfl⟩, ⟨_, none, 5000, rfl⟩, "", rfl⟩).mpr rfl

end Client

end KubeMQ
