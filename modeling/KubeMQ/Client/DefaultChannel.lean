import KubeMQ.Client.Convenience

/-!
# The default channel

`set_default_channel` is for the operations that omit the channel. `ChannelOperation` is a call of
one of them with the channel left out; `run` supplies it. Most operations resolve an empty channel
before they look at it. The five methods that build a message hand it to a builder, which refuses
it, and `Poll` sends on what it is given.
-/

namespace KubeMQ.Client

/-- What the operations depend on: the configuration of the client and what the rest of the stub
answers; `uuids` are the ids generated for received messages, `closeUuid` that of a
`CloseByClient`. -/
structure Setting where
  config : Config
  ackAllQueueMessages : ℕ → GrpcStatus × Proto.AckAllQueueMessagesResponse
  opens : ℕ → Bool
  uuids : ℕ → String
  closeUuid : String

namespace Setting

def stub (e : Setting) : Stub := ⟨e.config.net, e.ackAllQueueMessages, e.opens⟩

def opts (e : Setting) : ClientOptions := e.config.opts

end Setting

/-- The operations that take a channel or a message; the channel of a message is ignored, that of
the messages of a batch is not. -/
inductive ChannelOperation where
  | sendEvent (event : Event)
  | sendEventStore (event : EventStore)
  | sendCommand (command : Command)
  | sendQuery (query : Query)
  | sendQueueMessage (message : QueueMessage)
  | sendQueueMessages (messages : List QueueMessage)
  | subscribeToEvents (group : String)
  | subscribeToEventsStore (group : String) (startOption : SubscriptionOption)
  | subscribeToCommands (group : String)
  | subscribeToQueries (group : String)
  | receiveQueueMessages (request : ReceiveQueueMessagesRequest)
  | ackAllQueueMessages (request : AckAllQueueMessagesRequest)
  | poll (request : PollRequest) (closed : Bool) (stream : Downstream.PollStream)
  | pollQueue (request : PollRequest) (stream : Downstream.PollStream)
  | publishEvent (body : Body) (metadata : String) (tags : Tags)
  | publishEventStore (body : Body) (metadata : String) (tags : Tags)
  | sendCommandSimple (body : Body) (timeout : Int)
  | sendQuerySimple (body : Body) (timeout : Int)
  | sendQueueMessageSimple (body : Body) (expirationSeconds delaySeconds : Int)

namespace ChannelOperation

/-- What a caller gets; of a poll, with what is written to its stream. -/
def Result : ChannelOperation → Type
  | sendEvent _ => Status
  | sendEventStore _ => StatusOr EventStoreResult
  | sendCommand _ => StatusOr CommandResponse
  | sendQuery _ => StatusOr QueryResponse
  | sendQueueMessage _ => StatusOr QueueSendResult
  | sendQueueMessages _ => StatusOr (List QueueSendResult)
  | subscribeToEvents _ => StatusOr NewSubscription
  | subscribeToEventsStore _ _ => StatusOr NewSubscription
  | subscribeToCommands _ => StatusOr NewSubscription
  | subscribeToQueries _ => StatusOr NewSubscription
  | receiveQueueMessages _ => StatusOr ReceiveQueueMessagesResponse
  | ackAllQueueMessages _ => StatusOr AckAllQueueMessagesResponse
  | poll _ _ _ => StatusOr PollResponse × List Proto.QueuesDownstreamRequest
  | pollQueue _ _ => StatusOr PollResponse × List Proto.QueuesDownstreamRequest
  | publishEvent _ _ _ => Status
  | publishEventStore _ _ _ => StatusOr EventStoreResult
  | sendCommandSimple _ _ => StatusOr CommandResponse
  | sendQuerySimple _ _ => StatusOr QueryResponse
  | sendQueueMessageSimple _ _ _ => StatusOr QueueSendResult

/-- A batch with a channel for the messages that have none. -/
def fillIn (channel : String) (messages : List QueueMessage) : List QueueMessage :=
  messages.map fun m => { m with channel := firstNonEmpty m.channel channel }

/-- The operation called with a channel. -/
def run (e : Setting) (channel : String) : (op : ChannelOperation) → Session → op.Result × Session
  | sendEvent event =>
    GrpcTransport.inSession (Client.sendEvent e.config { event with channel := channel })
  | sendEventStore event =>
    GrpcTransport.inSession (Client.sendEventStore e.config { event with channel := channel })
  | sendCommand command =>
    GrpcTransport.inSession (Client.sendCommand e.config { command with channel := channel })
  | sendQuery query =>
    GrpcTransport.inSession (Client.sendQuery e.config { query with channel := channel })
  | sendQueueMessage message =>
    GrpcTransport.inSession (Client.sendQueueMessage e.config { message with channel := channel })
  | sendQueueMessages messages =>
    GrpcTransport.inSession (Client.sendQueueMessages e.config (fillIn channel messages))
  | subscribeToEvents group =>
    Client.subscribeToEvents e.stub e.opts e.config.uuid channel group
  | subscribeToEventsStore group startOption =>
    Client.subscribeToEventsStore e.stub e.opts e.config.uuid channel group startOption
  | subscribeToCommands group =>
    Client.subscribeToCommands e.stub e.opts e.config.uuid channel group
  | subscribeToQueries group =>
    Client.subscribeToQueries e.stub e.opts e.config.uuid channel group
  | receiveQueueMessages request =>
    GrpcTransport.inSession
      (Client.receiveQueueMessages e.config e.uuids { request with channel := channel })
  | ackAllQueueMessages request =>
    Client.ackAllQueueMessages e.stub e.opts e.config.uuid { request with channel := channel }
  | poll request closed stream => fun s =>
    (Downstream.poll e.config.uuid e.opts.clientId e.uuids closed stream
      { request with channel := channel }, s)
  | pollQueue request stream =>
    Client.pollQueue e.stub e.opts e.config.uuid e.closeUuid e.uuids stream
      { request with channel := channel }
  | publishEvent body metadata tags =>
    GrpcTransport.inSession (Client.publishEvent e.config channel body metadata tags)
  | publishEventStore body metadata tags =>
    GrpcTransport.inSession (Client.publishEventStore e.config channel body metadata tags)
  | sendCommandSimple body timeout =>
    GrpcTransport.inSession (Client.sendCommandSimple e.config channel body timeout)
  | sendQuerySimple body timeout =>
    GrpcTransport.inSession (Client.sendQuerySimple e.config channel body timeout)
  | sendQueueMessageSimple body expirationSeconds delaySeconds =>
    GrpcTransport.inSession
      (Client.sendQueueMessageSimple e.config channel body expirationSeconds delaySeconds)

/-- The check that the operation makes of its channel. -/
def check (channel : String) : ChannelOperation → Status
  | sendEvent _ => validateChannelNoWildcard channel "SendEvent"
  | sendEventStore _ => validateChannelNoWildcard channel "SendEventStore"
  | sendCommand _ => validateChannelNoWildcard channel "SendCommand"
  | sendQuery _ => validateChannelNoWildcard channel "SendQuery"
  | sendQueueMessage _ => validateChannelNoWildcard channel "SendQueueMessage"
  | sendQueueMessages _ => validateChannelNoWildcard channel "SendQueueMessages"
  | subscribeToEvents _ => validateChannel channel "SubscribeToEvents"
  | subscribeToEventsStore _ _ => validateChannel channel "SubscribeToEventsStore"
  | subscribeToCommands _ => validateChannel channel "SubscribeToCommands"
  | subscribeToQueries _ => validateChannel channel "SubscribeToQueries"
  | receiveQueueMessages _ => validateChannel channel "ReceiveQueueMessages"
  | ackAllQueueMessages _ => validateChannel channel "AckAllQueueMessages"
  | poll _ _ _ => validateChannel channel "QueueDownstreamReceiver::Poll"
  | pollQueue _ _ => validateChannel channel "QueueDownstreamReceiver::Poll"
  | publishEvent _ _ _ => validateChannelNoWildcard channel "SendEvent"
  | publishEventStore _ _ _ => validateChannelNoWildcard channel "SendEventStore"
  | sendCommandSimple _ _ => validateChannelNoWildcard channel "SendCommand"
  | sendQuerySimple _ _ => validateChannelNoWildcard channel "SendQuery"
  | sendQueueMessageSimple _ _ _ => validateChannelNoWildcard channel "SendQueueMessage"

end ChannelOperation

/-- Two calls use the stub in the same way and return the same. -/
structure Same {R : Type} (a b : R × Session) : Prop where
  result : a.1 = b.1
  uses : a.2.uses = b.2.uses

/-- The status of a builder that is given no channel. -/
def missingChannel : Status := ⟨.kValidation, "channel is required", "", "", ""⟩

/-- The credential provider refuses the call of an open client with just that status. -/
structure Echoes (e : Setting) (s : Session) : Prop where
  clientOpen : s.world.closed = false
  transportOpen : s.world.transportClosed = false
  refusal : GrpcTransport.refusal e.opts.authToken (s.token e.stub) = some missingChannel

/-- A downstream receiver can be opened. -/
structure CanOpen (e : Setting) (s : Session) : Prop where
  clientOpen : s.world.closed = false
  transportOpen : s.world.transportClosed = false
  admitted : ∀ r, GrpcTransport.refusal e.opts.authToken (s.token e.stub) = some r → r.ok = true
  opens : e.opens s.uses.length = true

/-- When leaving the channel out is the same as naming the default channel. -/
def ChannelOperation.Defaults (e : Setting) (s : Session) : ChannelOperation → Prop
  | .poll _ closed _ => closed = true
  | .pollQueue _ _ => ¬CanOpen e s
  | .publishEvent body metadata _ => (body ≠ [] ∨ metadata ≠ "") ∧ Echoes e s
  | .publishEventStore body metadata _ => (body ≠ [] ∨ metadata ≠ "") ∧ Echoes e s
  | .sendCommandSimple body timeout => (body ≠ [] ∧ 0 < timeout) ∧ Echoes e s
  | .sendQuerySimple body timeout => (body ≠ [] ∧ 0 < timeout) ∧ Echoes e s
  | .sendQueueMessageSimple body _ _ => body ≠ [] ∧ Echoes e s
  | _ => True

section Resolved

variable {opts : ClientOptions} {uuid : String} {closed : Bool}

/-- The default channel is resolved to itself. -/
lemma firstNonEmpty_self (a : String) : firstNonEmpty a a = a := ite_self a

lemma firstNonEmpty_twice (a b : String) :
    firstNonEmpty (firstNonEmpty a b) b = firstNonEmpty a b := by
  unfold firstNonEmpty
  cases h : a.isEmpty with
  | true => exact ite_self b
  | false => simp [h]

lemma firstNonEmpty_empty (a : String) : firstNonEmpty "" a = a := rfl

/-- The loop of `SendQueueMessages` resolves the channels one by one. -/
lemma batchMessages_fillIn (messages : List QueueMessage) :
    batchMessages opts (ChannelOperation.fillIn opts.defaultChannel messages) =
      batchMessages opts messages := by
  induction messages with
  | nil => rfl
  | cons m ms ih =>
    show batchMessages opts ({ m with channel := firstNonEmpty m.channel opts.defaultChannel } ::
      ChannelOperation.fillIn opts.defaultChannel ms) = _
    simp only [batchMessages, firstNonEmpty_twice, ih]
    rfl

lemma fillIn_nothing (messages : List QueueMessage) :
    ChannelOperation.fillIn "" messages = messages := by
  have hm : ∀ m : QueueMessage, { m with channel := firstNonEmpty m.channel "" } = m := by
    intro m
    have hch : firstNonEmpty m.channel "" = m.channel := by
      unfold firstNonEmpty
      split
      · next h => exact (String.isEmpty_iff.mp h).symm
      · rfl
    rw [hch]
  exact (List.map_congr_left fun m _ => hm m).trans (List.map_id' messages)

lemma queueMessagesRequest_fillIn (messages : List QueueMessage) :
    queueMessagesRequest opts uuid closed (ChannelOperation.fillIn opts.defaultChannel messages) =
      queueMessagesRequest opts uuid closed messages := by
  have hempty : (ChannelOperation.fillIn opts.defaultChannel messages).isEmpty = messages.isEmpty :=
    List.isEmpty_map
  simp only [queueMessagesRequest, batchMessages_fillIn, hempty]

/-- The operations that resolve an empty channel make nothing of it. -/
lemma subscribe_default {operation : String} {request : String → Proto.Subscribe}
    {connect : Proto.Subscribe → ClientContext → Session → StatusOr Unit × Session} :
    subscribe opts uuid operation request connect "" =
      subscribe opts uuid operation request connect opts.defaultChannel := by
  funext s
  simp only [subscribe, firstNonEmpty_empty, firstNonEmpty_self]

lemma sendQueueMessages_default (c : Config) (messages : List QueueMessage) :
    sendQueueMessages c (ChannelOperation.fillIn "" messages) =
      sendQueueMessages c (ChannelOperation.fillIn c.opts.defaultChannel messages) := by
  funext w
  simp only [sendQueueMessages, fillIn_nothing, queueMessagesRequest_fillIn]

end Resolved

section Built

variable {e : Setting} {s : Session}

lemma missingChannel_ne_closed : kErrClientClosed ≠ missingChannel := by decide

lemma checked_open {A : Type} {ss : List Status} {closed : Bool} {a : A}
    (h : ∀ x ∈ ss, x.ok = true) :
    checked (checkClosed closed :: ss) a =
      if closed then .error kErrClientClosed else .value a := by
  have hall : checked ss a = .value a := by
    induction ss with
    | nil => rfl
    | cons x ss ih =>
      obtain ⟨hx, hss⟩ := List.forall_mem_cons.mp h
      simp only [checked, hx, Bool.not_true, Bool.false_eq_true, if_false, ih hss]
  cases closed with
  | true => rfl
  | false => exact hall

/-- The transport ends with the status of a builder, and without a call, only when the credential
provider says so. -/
lemma attempt_missing_iff {R T A : Type} {reject : Status → A} (hinj : Function.Injective reject)
    {answer : R → A} {rpc : Rpc} {deadline : Int} {answers : ℕ → GrpcStatus × T} {fail : Status → R}
    {finish : GrpcStatus → T → R} (hfail : ∀ r, answer (fail r) = reject r)
    (hopen : s.world.closed = false) :
    let r := GrpcTransport.attempt e.config.net e.opts rpc deadline answers fail finish s.world
    answer r.1 = reject missingChannel ∧ r.2.calls.drop s.world.calls.length = [] ↔ Echoes e s := by
  intro r
  have hspec := (GrpcTransport.injectAuthToken_spec e.opts.authToken (s.token e.stub)).1
  cases ht : s.world.transportClosed with
  | true =>
    have hr : r = _ := GrpcTransport.attempt_of_closed ht
    refine iff_of_false ?_ fun h => by simp [h.transportOpen] at ht
    rintro ⟨hres, -⟩
    rw [hr] at hres
    exact missingChannel_ne_closed (hinj ((hfail _).symm.trans hres))
  | false =>
    cases hauth : (injectAuthToken e.opts.authToken (s.token e.stub)).1.ok with
    | false =>
      have hr : r.1 = _ ∧ r.2.calls = _ := GrpcTransport.attempt_of_refused ht hauth
      constructor
      · rintro ⟨hres, -⟩
        rw [hr.1, hfail] at hres
        have hstatus : (injectAuthToken e.opts.authToken (s.token e.stub)).1 = missingChannel :=
          hinj hres
        refine ⟨hopen, ht, ?_⟩
        -- a provider that is not asked does not fail
        cases href : GrpcTransport.refusal e.opts.authToken (s.token e.stub) with
        | none =>
          rw [hspec, href] at hauth
          cases hauth
        | some x =>
          rw [hspec, href] at hstatus
          exact congrArg some hstatus
      · intro h
        rw [hr.1, hr.2, hfail, List.drop_length]
        exact ⟨congrArg reject (GrpcTransport.auth_of_refused h.refusal), rfl⟩
    | true =>
      have hr : r.1 = _ ∧ r.2.calls = _ := GrpcTransport.attempt_of_admitted ht hauth
      refine iff_of_false ?_ fun h => ?_
      · rintro ⟨-, hcalls⟩
        rw [hr.2, List.drop_left] at hcalls
        cases hcalls
      · rw [GrpcTransport.auth_of_refused h.refusal] at hauth
        cases hauth

/-- So does an operation whose checks pass. -/
lemma unary_missing_iff {Q R A : Type} {reject : Status → A} (hinj : Function.Injective reject)
    {request : StatusOr Q} {send : Q → World → R × World} {answer : Q → R → A} {q : Q}
    (hrequest : request = if s.world.closed then .error kErrClientClosed else .value q)
    (hsend : s.world.closed = false →
      (answer q (send q s.world).1 = reject missingChannel ∧
        (send q s.world).2.calls.drop s.world.calls.length = [] ↔ Echoes e s)) :
    let r := unary request reject send answer s.world
    r.1 = reject missingChannel ∧ r.2.calls.drop s.world.calls.length = [] ↔ Echoes e s := by
  intro r
  cases hc : s.world.closed with
  | true =>
    have hr : r = (reject kErrClientClosed, s.world) := by
      simp only [r, hrequest, hc, if_true, unary]
    refine iff_of_false ?_ fun h => by simp [h.clientOpen] at hc
    rintro ⟨hres, -⟩
    rw [hr] at hres
    exact missingChannel_ne_closed (hinj hres)
  | false =>
    have hr : r = (answer q (send q s.world).1, (send q s.world).2) := by
      simp only [r, hrequest, hc, Bool.false_eq_true, if_false, unary]
    rw [hr]
    exact hsend hc

/-- A method that builds its message: without a channel the builder refuses, with one its check `x`
passes or fails for another reason. -/
lemma built_same_iff {M A : Type} {reject : Status → A} (hinj : Function.Injective reject)
    {x : Status} {m : M} {send : M → World → A × World} {accepted : Prop}
    (hbad : ¬accepted → x.ok = false ∧ x ≠ missingChannel) (hgood : accepted → x.ok = true)
    (hsend : accepted → ((send m s.world).1 = reject missingChannel ∧
      (send m s.world).2.calls.drop s.world.calls.length = [] ↔ Echoes e s)) :
    Same (GrpcTransport.inSession (buildAndSend (.error missingChannel) reject send) s)
        (GrpcTransport.inSession (buildAndSend (built x m) reject send) s) ↔
      accepted ∧ Echoes e s := by
  have hnone : (GrpcTransport.inSession (buildAndSend (.error missingChannel) reject send) s).2.uses =
      s.uses := by
    show s.uses ++ List.map StubCall.use (s.world.calls.drop s.world.calls.length) = s.uses
    rw [List.drop_length, List.map_nil, List.append_nil]
  by_cases ha : accepted
  · have hbuilt : built x m = .value m := by
      rw [built, hgood ha]
      rfl
    rw [hbuilt, and_iff_right ha, ← hsend ha]
    constructor
    · intro h
      refine ⟨h.result.symm, ?_⟩
      have huses := hnone.symm.trans h.uses
      exact List.map_eq_nil_iff.mp (List.self_eq_append_right.mp huses)
    · rintro ⟨hres, hcalls⟩
      refine ⟨hres.symm, ?_⟩
      rw [hnone]
      show s.uses = s.uses ++ List.map StubCall.use ((send m s.world).2.calls.drop _)
      rw [hcalls, List.map_nil, List.append_nil]
  · obtain ⟨hx, hne⟩ := hbad ha
    have hbuilt : built x m = .error x := by
      rw [built, hx]
      rfl
    rw [hbuilt]
    refine iff_of_false ?_ fun h => ha h.1
    intro h
    exact hne (hinj h.result).symm

end Built

section Checks

variable {channel metadata operation : String} {body : Body} {timeout : Int}

lemma content_iff :
    (body.isEmpty && metadata.isEmpty) = false ↔ body ≠ [] ∨ metadata ≠ "" := by
  rw [Bool.and_eq_false_iff, List.isEmpty_eq_false_iff]
  simp

lemma isEmpty_of_check (h : (validateChannelNoWildcard channel operation).ok = true) :
    channel.isEmpty = false := by
  simpa [String.isEmpty_iff] using
    (validateChannel_ok_iff.mp (validateChannel_of_noWildcard h)).1

/-- A builder that has a channel refuses for want of content. -/
lemma builderCheck_refused (hch : channel.isEmpty = false) (h : ¬(body ≠ [] ∨ metadata ≠ "")) :
    (builderCheck channel body metadata).ok = false ∧
      builderCheck channel body metadata ≠ missingChannel := by
  have hempty : (body.isEmpty && metadata.isEmpty) = true := by
    by_contra hne
    exact h (content_iff.mp (by simpa using hne))
  rw [builderCheck, hch, hempty]
  exact ⟨rfl, by decide⟩

lemma builderCheck_accepted (hch : channel.isEmpty = false) (h : body ≠ [] ∨ metadata ≠ "") :
    (builderCheck channel body metadata).ok = true :=
  builderCheck_ok.mpr ⟨hch, content_iff.mpr h⟩

/-- Or for want of a timeout. -/
lemma rpcBuilderCheck_refused (hch : channel.isEmpty = false) (h : ¬(body ≠ [] ∧ 0 < timeout)) :
    (rpcBuilderCheck channel body "" timeout).ok = false ∧
      rpcBuilderCheck channel body "" timeout ≠ missingChannel := by
  cases hb : (builderCheck channel body "").ok with
  | false =>
    have hcontent : ¬(body ≠ [] ∨ "" ≠ "") := by
      intro hc
      rw [builderCheck_accepted hch hc] at hb
      cases hb
    have hcheck : rpcBuilderCheck channel body "" timeout = builderCheck channel body "" := by
      rw [rpcBuilderCheck, hb]
      rfl
    rw [hcheck]
    exact builderCheck_refused hch hcontent
  | true =>
    have hbody : body ≠ [] := by
      rcases content_iff.mp (builderCheck_ok.mp hb).2 with hbody | hmeta
      · exact hbody
      · exact absurd rfl hmeta
    have ht : timeout ≤ 0 := by
      by_contra ht
      exact h ⟨hbody, by omega⟩
    have hcheck : rpcBuilderCheck channel body "" timeout =
        ⟨.kValidation, "timeout must be > 0", "", "", ""⟩ := by
      rw [rpcBuilderCheck, hb, if_pos ht]
      rfl
    rw [hcheck]
    exact ⟨rfl, by decide⟩

lemma rpcBuilderCheck_accepted (hch : channel.isEmpty = false) (h : body ≠ [] ∧ 0 < timeout) :
    (rpcBuilderCheck channel body "" timeout).ok = true :=
  rpcBuilderCheck_ok.mpr ⟨builderCheck_accepted hch (.inl h.1), h.2⟩

lemma validateBody_of_content (h : body ≠ [] ∨ metadata ≠ "") :
    (validateBody body metadata operation).ok = true := by
  rw [validateBody, content_iff.mpr h]
  rfl

/-- The checks of the default channel and of some content pass. -/
lemma sendChecks_ok (hd : (validateChannelNoWildcard channel operation).ok = true)
    (h : body ≠ [] ∨ metadata ≠ "") :
    ∀ x ∈ [validateChannelNoWildcard (firstNonEmpty channel channel) operation,
      validateBody body metadata operation], x.ok = true := by
  rw [firstNonEmpty_self]
  intro x hx
  rcases List.mem_cons.mp hx with rfl | hx
  · exact hd
  · rw [List.mem_singleton.mp hx]
    exact validateBody_of_content h

lemma rpcChecks_ok (hd : (validateChannelNoWildcard channel operation).ok = true)
    (h : body ≠ [] ∨ metadata ≠ "") :
    ∀ x ∈ [validateChannelNoWildcard (firstNonEmpty channel channel) operation,
      validateTimeout (if timeout ≤ 0 then kDefaultRPCTimeout else timeout) operation,
      validateBody body metadata operation], x.ok = true := by
  have htimeout : (validateTimeout (if timeout ≤ 0 then kDefaultRPCTimeout else timeout)
      operation).ok = true := by
    by_cases ht : timeout ≤ 0
    · rw [if_pos ht]
      rfl
    · rw [if_neg ht, validateTimeout, if_neg ht]
      rfl
  intro x hx
  rcases List.mem_cons.mp hx with rfl | hx
  · exact sendChecks_ok hd h _ List.mem_cons_self
  · rcases List.mem_cons.mp hx with rfl | hx
    · exact htimeout
    · exact sendChecks_ok hd h _ (List.mem_cons_of_mem _ hx)

end Checks

section Wrappers

variable {e : Setting} {s : Session}

lemma error_injective {A : Type} : Function.Injective fun x : Status => (.error x : StatusOr A) := by
  intro x y h
  exact StatusOr.error.inj h

/-- The five methods that build a message: an omitted channel is as good as the default channel only
when the credential provider fails with the status of the builder. -/
lemma publishEvent_same_iff {body : Body} {metadata : String} {tags : Tags}
    (hd : (validateChannelNoWildcard e.opts.defaultChannel "SendEvent").ok = true) :
    Same (GrpcTransport.inSession (publishEvent e.config "" body metadata tags) s)
        (GrpcTransport.inSession (publishEvent e.config e.opts.defaultChannel body metadata tags) s) ↔
      (body ≠ [] ∨ metadata ≠ "") ∧ Echoes e s := by
  have hch := isEmpty_of_check hd
  apply built_same_iff Function.injective_id (builderCheck_refused hch) (builderCheck_accepted hch)
  intro hgood
  apply unary_missing_iff Function.injective_id (checked_open (sendChecks_ok hd hgood))
  exact attempt_missing_iff Function.injective_id (fun _ => rfl)

lemma publishEventStore_same_iff {body : Body} {metadata : String} {tags : Tags}
    (hd : (validateChannelNoWildcard e.opts.defaultChannel "SendEventStore").ok = true) :
    Same (GrpcTransport.inSession (publishEventStore e.config "" body metadata tags) s)
        (GrpcTransport.inSession
          (publishEventStore e.config e.opts.defaultChannel body metadata tags) s) ↔
      (body ≠ [] ∨ metadata ≠ "") ∧ Echoes e s := by
  have hch := isEmpty_of_check hd
  apply built_same_iff error_injective (builderCheck_refused hch) (builderCheck_accepted hch)
  intro hgood
  apply unary_missing_iff error_injective (checked_open (sendChecks_ok hd hgood))
  exact attempt_missing_iff error_injective (fun _ => rfl)

lemma sendCommandSimple_same_iff {body : Body} {timeout : Int}
    (hd : (validateChannelNoWildcard e.opts.defaultChannel "SendCommand").ok = true) :
    Same (GrpcTransport.inSession (sendCommandSimple e.config "" body timeout) s)
        (GrpcTransport.inSession (sendCommandSimple e.config e.opts.defaultChannel body timeout) s) ↔
      (body ≠ [] ∧ 0 < timeout) ∧ Echoes e s := by
  have hch := isEmpty_of_check hd
  apply built_same_iff error_injective (rpcBuilderCheck_refused hch) (rpcBuilderCheck_accepted hch)
  intro hgood
  apply unary_missing_iff error_injective (checked_open (rpcChecks_ok hd (.inl hgood.1)))
  exact attempt_missing_iff error_injective (fun _ => rfl)

lemma sendQuerySimple_same_iff {body : Body} {timeout : Int}
    (hd : (validateChannelNoWildcard e.opts.defaultChannel "SendQuery").ok = true) :
    Same (GrpcTransport.inSession (sendQuerySimple e.config "" body timeout) s)
        (GrpcTransport.inSession (sendQuerySimple e.config e.opts.defaultChannel body timeout) s) ↔
      (body ≠ [] ∧ 0 < timeout) ∧ Echoes e s := by
  have hch := isEmpty_of_check hd
  apply built_same_iff error_injective (rpcBuilderCheck_refused hch) (rpcBuilderCheck_accepted hch)
  intro hgood
  apply unary_missing_iff error_injective (checked_open (rpcChecks_ok hd (.inl hgood.1)))
  exact attempt_missing_iff error_injective (fun _ => rfl)

/-- The builder of queue messages makes the check of the other builders. -/
lemma queueBuilder_eq (uuid : String) (b : QueueMessageBuilder) :
    b.build uuid = built (builderCheck b.channel b.body b.metadata)
      { id := if b.id.isEmpty then uuid else b.id
        channel := b.channel
        metadata := b.metadata
        body := b.body
        clientId := b.clientId
        tags := b.tags
        policy := b.policy } := by
  unfold QueueMessageBuilder.build builderCheck
  cases b.channel.isEmpty with
  | true => rfl
  | false =>
    cases b.body.isEmpty && b.metadata.isEmpty with
    | true => rfl
    | false => rfl

lemma sendQueueMessageSimple_same_iff {body : Body} {expirationSeconds delaySeconds : Int}
    (hd : (validateChannelNoWildcard e.opts.defaultChannel "SendQueueMessage").ok = true) :
    Same (GrpcTransport.inSession
          (sendQueueMessageSimple e.config "" body expirationSeconds delaySeconds) s)
        (GrpcTransport.inSession (sendQueueMessageSimple e.config e.opts.defaultChannel body
          expirationSeconds delaySeconds) s) ↔
      body ≠ [] ∧ Echoes e s := by
  have hch := isEmpty_of_check hd
  have hcontent : body ≠ [] ↔ body ≠ [] ∨ "" ≠ "" := by simp
  unfold sendQueueMessageSimple
  rw [queueBuilder_eq, queueBuilder_eq, hcontent]
  apply built_same_iff error_injective (builderCheck_refused hch) (builderCheck_accepted hch)
  intro hgood
  apply unary_missing_iff error_injective (checked_open (sendChecks_ok hd hgood))
  exact attempt_missing_iff error_injective (fun _ => rfl)

end Wrappers

section Polls

variable {e : Setting} {s : Session} {request : PollRequest} {stream : Downstream.PollStream}
  {uuid clientId : String} {uuids : ℕ → String}

/-- An open receiver writes a request with a valid channel, whatever comes of it. -/
lemma poll_writes (hv : (validateChannel request.channel "QueueDownstreamReceiver::Poll").ok = true) :
    (Downstream.poll uuid clientId uuids false stream request).2 =
      [Downstream.getRequest uuid clientId request] := by
  unfold Downstream.poll
  simp only [Bool.false_eq_true, if_false, hv, Bool.not_true]
  cases stream.writes with
  | false => rfl
  | true => cases stream.reads <;> rfl

/-- A receiver does not resolve the channel. -/
lemma poll_empty : (Downstream.poll uuid clientId uuids false stream { request with channel := "" }) =
    (.error (validateChannel "" "QueueDownstreamReceiver::Poll"), []) := rfl

lemma poll_same_iff {d : String} {closed : Bool}
    (hd : (validateChannel d "QueueDownstreamReceiver::Poll").ok = true) :
    Same (Downstream.poll uuid clientId uuids closed stream { request with channel := "" }, s)
        (Downstream.poll uuid clientId uuids closed stream { request with channel := d }, s) ↔
      closed = true := by
  cases closed with
  | true => exact iff_of_true ⟨rfl, rfl⟩ rfl
  | false =>
    refine iff_of_false ?_ Bool.false_ne_true
    intro h
    have hwrites := (congrArg Prod.snd h.result).trans (poll_writes hd)
    cases hwrites

lemma auth_ok_iff {authToken : String} {token : Option (StatusOr String)} :
    (injectAuthToken authToken token).1.ok = true ↔
      ∀ r, GrpcTransport.refusal authToken token = some r → r.ok = true := by
  rw [(GrpcTransport.injectAuthToken_spec authToken token).1]
  cases GrpcTransport.refusal authToken token with
  | none => exact iff_of_true rfl nofun
  | some x => simp

/-- The three reasons for which `NewQueueDownstreamReceiver` fails, in their order. -/
lemma newReceiver_result :
    (newQueueDownstreamReceiver e.stub e.opts s).1 =
      if s.world.closed || s.world.transportClosed then .error kErrClientClosed
      else if (injectAuthToken e.opts.authToken (s.token e.stub)).1.ok then
        GrpcTransport.opened "failed to open queue downstream stream"
          "GrpcTransport::OpenQueueDownstream" "" (e.opens s.uses.length)
      else .error (injectAuthToken e.opts.authToken (s.token e.stub)).1 := by
  have hinject := ClientContext.fresh.injectAuthToken_eq e.opts.authToken (s.token e.stub)
  have hfail : kErrClientClosed.ok = false := rfl
  unfold newQueueDownstreamReceiver GrpcTransport.openQueueDownstream GrpcTransport.use
  cases s.world.closed with
  | true => simp [checkClosed, hfail]
  | false =>
    cases s.world.transportClosed with
    | true => simp [checkClosed, hfail]
    | false =>
      have hopens : e.stub.opens = e.opens := rfl
      rw [hinject, hopens]
      cases hauth : (injectAuthToken e.opts.authToken (s.token e.stub)).1.ok with
      | true => simp [checkClosed, hauth]
      | false => simp [checkClosed, hauth]

/-- When it succeeds. -/
lemma newReceiver_value_iff :
    (newQueueDownstreamReceiver e.stub e.opts s).1 = .value () ↔ CanOpen e s := by
  rw [newReceiver_result]
  constructor
  · intro h
    split at h
    · cases h
    · next hopen =>
      rw [Bool.or_eq_true, not_or, Bool.not_eq_true, Bool.not_eq_true] at hopen
      split at h
      · next hauth =>
        refine ⟨hopen.1, hopen.2, auth_ok_iff.mp hauth, ?_⟩
        cases ho : e.opens s.uses.length with
        | true => rfl
        | false =>
          rw [ho] at h
          cases h
      · cases h
  · intro h
    rw [h.clientOpen, h.transportOpen, auth_ok_iff.mpr h.admitted, h.opens]
    rfl

lemma pollQueue_same_iff {d closeUuid : String}
    (hd : (validateChannel d "QueueDownstreamReceiver::Poll").ok = true) :
    Same (pollQueue e.stub e.opts uuid closeUuid uuids stream { request with channel := "" } s)
        (pollQueue e.stub e.opts uuid closeUuid uuids stream { request with channel := d } s) ↔
      ¬CanOpen e s := by
  rw [← newReceiver_value_iff]
  unfold pollQueue
  rcases newQueueDownstreamReceiver e.stub e.opts s with ⟨⟨⟨⟩⟩ | x, s'⟩
  · refine iff_of_false ?_ fun h => h rfl
    intro h
    -- with an omitted channel the stream is closed, with a channel a `Get` comes first
    have htypes := congrArg (fun r => r.2.map Proto.QueuesDownstreamRequest.requestTypeData) h.result
    have hget : (Downstream.poll uuid e.opts.clientId uuids false stream
        { request with channel := d }).2 = [_] := poll_writes hd
    simp only [poll_empty] at htypes
    rcases hp : Downstream.poll uuid e.opts.clientId uuids false stream
      { request with channel := d } with ⟨response | x, writes⟩
    · rw [hp] at htypes hget
      obtain rfl : writes = _ := hget
      cases htypes
    · rw [hp] at htypes hget
      obtain rfl : writes = _ := hget
      cases htypes
  · exact iff_of_true ⟨rfl, rfl⟩ nofun

end Polls

/-- Leaving the channel out is the same as naming the default channel in every operation that
resolves it; in a poll only when there is no receiver to poll, and in a method that builds its
message only when the credential provider happens to fail with the status of the builder. -/
theorem default_channel_kept_iff (e : Setting) (s : Session) (op : ChannelOperation)
    (hd : (op.check e.opts.defaultChannel).ok = true) :
    Same (op.run e "" s) (op.run e e.opts.defaultChannel s) ↔ op.Defaults e s := by
  have resolved : ∀ {R : Type} {f g : Session → R × Session}, f = g → (Same (f s) (g s) ↔ True) := by
    intro R f g h
    subst h
    exact iff_of_true ⟨rfl, rfl⟩ trivial
  cases op with
  | sendEvent event =>
    apply resolved
    apply congrArg GrpcTransport.inSession
    funext w
    simp only [Client.sendEvent, eventRequest, Setting.opts, firstNonEmpty_empty, firstNonEmpty_self]
  | sendEventStore event =>
    apply resolved
    apply congrArg GrpcTransport.inSession
    funext w
    simp only [Client.sendEventStore, eventStoreRequest, Setting.opts, firstNonEmpty_empty,
      firstNonEmpty_self]
  | sendCommand command =>
    apply resolved
    apply congrArg GrpcTransport.inSession
    funext w
    simp only [Client.sendCommand, commandRequest, Setting.opts, firstNonEmpty_empty,
      firstNonEmpty_self]
  | sendQuery query =>
    apply resolved
    apply congrArg GrpcTransport.inSession
    funext w
    simp only [Client.sendQuery, queryRequest, Setting.opts, firstNonEmpty_empty, firstNonEmpty_self]
  | sendQueueMessage message =>
    apply resolved
    apply congrArg GrpcTransport.inSession
    funext w
    simp only [Client.sendQueueMessage, queueMessageRequest, Setting.opts, firstNonEmpty_empty,
      firstNonEmpty_self]
    rfl
  | sendQueueMessages messages =>
    apply resolved
    apply congrArg GrpcTransport.inSession
    exact sendQueueMessages_default e.config messages
  | subscribeToEvents group => exact resolved subscribe_default
  | subscribeToEventsStore group startOption =>
    apply resolved
    show Client.subscribeToEventsStore e.stub e.opts e.config.uuid "" group startOption =
      Client.subscribeToEventsStore e.stub e.opts e.config.uuid e.opts.defaultChannel group
        startOption
    unfold Client.subscribeToEventsStore
    exact subscribe_default
  | subscribeToCommands group => exact resolved subscribe_default
  | subscribeToQueries group => exact resolved subscribe_default
  | receiveQueueMessages request =>
    apply resolved
    apply congrArg GrpcTransport.inSession
    funext w
    simp only [Client.receiveQueueMessages, receiveQueueMessagesRequest, Setting.opts,
      firstNonEmpty_empty, firstNonEmpty_self]
  | ackAllQueueMessages request =>
    apply resolved
    funext w
    show Client.ackAllQueueMessages e.stub e.opts _ { request with channel := "" } w =
      Client.ackAllQueueMessages e.stub e.opts _ { request with channel := _ } w
    simp only [Client.ackAllQueueMessages, ackAllQueueMessagesRequest, firstNonEmpty_empty,
      firstNonEmpty_self]
  | poll request closed stream => exact poll_same_iff hd
  | pollQueue request stream => exact pollQueue_same_iff hd
  | publishEvent body metadata tags => exact publishEvent_same_iff hd
  | publishEventStore body metadata tags => exact publishEventStore_same_iff hd
  | sendCommandSimple body timeout => exact sendCommandSimple_same_iff hd
  | sendQuerySimple body timeout => exact sendQuerySimple_same_iff hd
  | sendQueueMessageSimple body expirationSeconds delaySeconds =>
    exact sendQueueMessageSimple_same_iff hd

/-- A client with a default channel, a server that answers with OK and opens every stream. -/
def newsClient : Setting where
  config := ⟨{ clientId := "a", defaultChannel := "news" },
    answering ⟨"", "", "", "", [], false, 0, true, "", ∅⟩, "u", fun _ lo _ => lo⟩
  ackAllQueueMessages := fun _ => (⟨.OK, ""⟩, ⟨"1", 0, false, ""⟩)
  opens := fun _ => true
  uuids := fun _ => "v"
  closeUuid := "w"

def newSession : Session := ⟨freshWorld, []⟩

/-- `PublishEvent` without a channel fails and sends nothing, although the client has a default
channel, on which it would be sent; so does a poll. -/
theorem default_channel_ignored :
    let publish : ChannelOperation := .publishEvent [1] "" ∅
    let poll : ChannelOperation := .pollQueue {} ⟨true, none⟩
    (publish.run newsClient "" newSession).1 = missingChannel ∧
      (publish.run newsClient "" newSession).2.uses = [] ∧
      (publish.run newsClient "news" newSession).1 = .okStatus ∧
      (publish.run newsClient "news" newSession).2.uses.length = 1 ∧
      (poll.run newsClient "" newSession).1.2.map Proto.QueuesDownstreamRequest.requestTypeData =
        [.CloseByClient] ∧
      (poll.run newsClient "news" newSession).1.2.map
        Proto.QueuesDownstreamRequest.requestTypeData = [.Get, .CloseByClient] := by
  refine ⟨rfl, rfl, rfl, rfl, rfl, rfl⟩

theorem default_channel_kept_iff_sample :
    let send : ChannelOperation := .sendEvent { body := [1] }
    let publish : ChannelOperation := .publishEvent [1] "" ∅
    Same (send.run newsClient "" newSession) (send.run newsClient "news" newSession) ∧
      ¬Same (publish.run newsClient "" newSession) (publish.run newsClient "news" newSession) := by
  intro send publish
  refine ⟨?_, ?_⟩
  · exact (default_channel_kept_iff newsClient newSession send (by decide)).mpr trivial
  · intro h
    have hecho := (default_channel_kept_iff newsClient newSession publish (by decide)).mp h
    cases hecho.2.refusal

end KubeMQ.Client
