import KubeMQ.Transport.Unary

/-!
# The operations of the transport

The fourteen operations of `grpc_transport.cc` on one record of the stub (`Session.uses`): the
eight of `Transport/Unary.lean`, `AckAllQueueMessages`, and the five that open a stream. A context
is its metadata and its deadline. `Gate` is what every operation owes its caller before and after
the stub is called.
-/

namespace KubeMQ

/-- `grpc::ClientContext`; the deadline is an offset in milliseconds. -/
structure ClientContext where
  metadata : List (String × String)
  deadline : Option Int
  deriving DecidableEq

namespace ClientContext

/-- A new context. -/
def fresh : ClientContext := ⟨[], none⟩

def addMetadata (ctx : ClientContext) (key value : String) : ClientContext :=
  { ctx with metadata := ctx.metadata ++ [(key, value)] }

/-- `InjectAuthToken`; `token` is the answer of the credential provider, when there is one. -/
def injectAuthToken (ctx : ClientContext) (authToken : String) (token : Option (StatusOr String)) :
    Status × ClientContext :=
  if !authToken.isEmpty then (.okStatus, ctx.addMetadata "authorization" authToken)
  else
    match token with
    | some (.error s) => (s, ctx)
    | some (.value t) => (.okStatus, if t.isEmpty then ctx else ctx.addMetadata "authorization" t)
    | none => (.okStatus, ctx)

end ClientContext

/-- The metadata that an authorization stands for. -/
def authMetadata (authorization : Option String) : List (String × String) :=
  authorization.toList.map ("authorization", ·)

/-- On a context the token is one more entry. -/
lemma ClientContext.injectAuthToken_eq (ctx : ClientContext) (authToken : String)
    (token : Option (StatusOr String)) :
    ctx.injectAuthToken authToken token =
      ((KubeMQ.injectAuthToken authToken token).1,
        { ctx with metadata := ctx.metadata ++
            authMetadata (KubeMQ.injectAuthToken authToken token).2 }) := by
  unfold ClientContext.injectAuthToken KubeMQ.injectAuthToken authMetadata addMetadata
  cases authToken.isEmpty with
  | false => rfl
  | true =>
    cases token with
    | none => simp
    | some t =>
      cases t with
      | error s => simp
      | value t => by_cases ht : t = "" <;> simp [ht]

/-- The remote procedures. -/
inductive StubRpc where
  | unary (rpc : Rpc)
  | ackAllQueueMessages (request : Proto.AckAllQueueMessagesRequest)
  | sendEventsStream
  | subscribeToEvents (sub : Proto.Subscribe)
  | subscribeToRequests (sub : Proto.Subscribe)
  | queuesUpstream
  | queuesDownstream
  deriving DecidableEq

/-- A call of the stub, with its context. -/
structure StubUse where
  rpc : StubRpc
  context : ClientContext
  deriving DecidableEq

/-- A unary call as a use of the stub. -/
def StubCall.use (c : StubCall) : StubUse :=
  ⟨.unary c.rpc, ⟨authMetadata c.authorization, some c.deadline⟩⟩

/-- What the stub answers; `opens n` tells whether use `n` returns a stream. -/
structure Stub where
  net : Net
  ackAllQueueMessages : ℕ → GrpcStatus × Proto.AckAllQueueMessagesResponse
  opens : ℕ → Bool

/-- The flags and counters of the transport, and all uses of its stub. -/
structure Session where
  world : World
  uses : List StubUse

/-- What the credential provider answers next, when there is one. -/
def Session.token (stub : Stub) (s : Session) : Option (StatusOr String) :=
  stub.net.getToken.map (· s.world.tokens)

namespace GrpcTransport

/-- A unary operation in a session. -/
def inSession {R : Type} (op : World → R × World) (s : Session) : R × Session :=
  let r := op s.world
  (r.1, ⟨r.2, s.uses ++ (r.2.calls.drop s.world.calls.length).map StubCall.use⟩)

section

variable (stub : Stub) (opts : ClientOptions)

/-- The course of the other operations: `CheckClosed`, `ApplyAuth` on a context, one use of the
stub. -/
def use {Q A : Type} (rpc : StubRpc) (ctx : ClientContext) (answers : ℕ → Q) (fail : Status → A)
    (finish : Q → A) (s : Session) : A × Session :=
  let status := checkClosed s.world.transportClosed
  if !status.ok then (fail status, s)
  else
    let auth := ctx.injectAuthToken opts.authToken (s.token stub)
    let w := (applyAuth stub.net opts s.world).2
    if !auth.1.ok then (fail auth.1, { s with world := w })
    else (finish (answers s.uses.length), ⟨w, s.uses ++ [⟨rpc, auth.2⟩]⟩)

/-- A stream, or the status that says it was not opened. -/
def opened (message operation channel : String) : Bool → StatusOr Unit
  | true => .value ()
  | false => .error (makeError .kTransient message operation channel "")

def openEventStream : Session → StatusOr Unit × Session :=
  use stub opts .sendEventsStream .fresh stub.opens .error
    (opened "failed to open event stream" "GrpcTransport::OpenEventStream" "")

/-- The context is the caller's. -/
def subscribeToEvents (sub : Proto.Subscribe) (ctx : ClientContext) :
    Session → StatusOr Unit × Session :=
  use stub opts (.subscribeToEvents sub) ctx stub.opens .error
    (opened "failed to open event subscription stream" "GrpcTransport::SubscribeToEvents"
      sub.channel)

/-- The context is the caller's. -/
def subscribeToRequests (sub : Proto.Subscribe) (ctx : ClientContext) :
    Session → StatusOr Unit × Session :=
  use stub opts (.subscribeToRequests sub) ctx stub.opens .error
    (opened "failed to open request subscription stream" "GrpcTransport::SubscribeToRequests"
      sub.channel)

def ackAllQueueMessages (req : Proto.AckAllQueueMessagesRequest) :
    Session → StatusOr Proto.AckAllQueueMessagesResponse × Session :=
  use stub opts (.ackAllQueueMessages req)
    { ClientContext.fresh with
      deadline := some (seconds
        (if req.waitTimeSeconds > 0 then req.waitTimeSeconds + 5 else 30)) }
    stub.ackAllQueueMessages .error fun answer =>
      if !answer.1.ok then
        .error (fromGrpcStatus answer.1 "GrpcTransport::AckAllQueueMessages" req.channel "")
      else .value answer.2

def openQueueUpstream : Session → StatusOr Unit × Session :=
  use stub opts .queuesUpstream .fresh stub.opens .error
    (opened "failed to open queue upstream stream" "GrpcTransport::OpenQueueUpstream" "")

def openQueueDownstream : Session → StatusOr Unit × Session :=
  use stub opts .queuesDownstream .fresh stub.opens .error
    (opened "failed to open queue downstream stream" "GrpcTransport::OpenQueueDownstream" "")

end

/-- A call of an operation of the transport. The two subscriptions are called with a new context. -/
inductive Operation where
  | ping
  | sendEvent (event : Proto.Event)
  | sendEventStore (event : Proto.Event)
  | openEventStream
  | subscribeToEvents (sub : Proto.Subscribe)
  | sendRequest (request : Proto.Request)
  | sendResponse (response : Proto.Response)
  | subscribeToRequests (sub : Proto.Subscribe)
  | sendQueueMessage (msg : Proto.QueueMessage)
  | sendQueueMessagesBatch (req : Proto.QueueMessagesBatchRequest)
  | receiveQueueMessages (req : Proto.ReceiveQueueMessagesRequest)
  | ackAllQueueMessages (req : Proto.AckAllQueueMessagesRequest)
  | openQueueUpstream
  | openQueueDownstream

namespace Operation

/-- The status of a result. -/
def statusOf {A : Type} (r : StatusOr A × Session) : Status × Session := (r.1.status, r.2)

/-- The status that the operation returns, or that of the value that it returns. -/
def run (stub : Stub) (opts : ClientOptions) : Operation → Session → Status × Session
  | .ping, s => statusOf (inSession (GrpcTransport.ping stub.net opts) s)
  | .sendEvent event, s => inSession (GrpcTransport.sendEvent stub.net opts event) s
  | .sendEventStore event, s =>
    statusOf (inSession (GrpcTransport.sendEventStore stub.net opts event) s)
  | .openEventStream, s => statusOf (GrpcTransport.openEventStream stub opts s)
  | .subscribeToEvents sub, s => statusOf (GrpcTransport.subscribeToEvents stub opts sub .fresh s)
  | .sendRequest request, s =>
    statusOf (inSession (GrpcTransport.sendRequest stub.net opts request) s)
  | .sendResponse response, s => inSession (GrpcTransport.sendResponse stub.net opts response) s
  | .subscribeToRequests sub, s =>
    statusOf (GrpcTransport.subscribeToRequests stub opts sub .fresh s)
  | .sendQueueMessage msg, s =>
    statusOf (inSession (GrpcTransport.sendQueueMessage stub.net opts msg) s)
  | .sendQueueMessagesBatch req, s =>
    statusOf (inSession (GrpcTransport.sendQueueMessagesBatch stub.net opts req) s)
  | .receiveQueueMessages req, s =>
    statusOf (inSession (GrpcTransport.receiveQueueMessages stub.net opts req) s)
  | .ackAllQueueMessages req, s => statusOf (GrpcTransport.ackAllQueueMessages stub opts req s)
  | .openQueueUpstream, s => statusOf (GrpcTransport.openQueueUpstream stub opts s)
  | .openQueueDownstream, s => statusOf (GrpcTransport.openQueueDownstream stub opts s)

/-- The remote procedure of an operation. -/
def rpc : Operation → StubRpc
  | .ping => .unary .ping
  | .sendEvent event => .unary (.sendEvent event)
  | .sendEventStore event => .unary (.sendEvent event)
  | .openEventStream => .sendEventsStream
  | .subscribeToEvents sub => .subscribeToEvents sub
  | .sendRequest request => .unary (.sendRequest request)
  | .sendResponse response => .unary (.sendResponse response)
  | .subscribeToRequests sub => .subscribeToRequests sub
  | .sendQueueMessage msg => .unary (.sendQueueMessage msg)
  | .sendQueueMessagesBatch req => .unary (.sendQueueMessagesBatch req)
  | .receiveQueueMessages req => .unary (.receiveQueueMessages req)
  | .ackAllQueueMessages req => .ackAllQueueMessages req
  | .openQueueUpstream => .queuesUpstream
  | .openQueueDownstream => .queuesDownstream

/-- The name and the channel in the errors of an operation. -/
def context : Operation → String × String
  | .ping => ("GrpcTransport::Ping", "")
  | .sendEvent event => ("GrpcTransport::SendEvent", event.channel)
  | .sendEventStore event => ("GrpcTransport::SendEventStore", event.channel)
  | .openEventStream => ("GrpcTransport::OpenEventStream", "")
  | .subscribeToEvents sub => ("GrpcTransport::SubscribeToEvents", sub.channel)
  | .sendRequest request => ("GrpcTransport::SendRequest", request.channel)
  | .sendResponse response => ("GrpcTransport::SendResponse", response.replyChannel)
  | .subscribeToRequests sub => ("GrpcTransport::SubscribeToRequests", sub.channel)
  | .sendQueueMessage msg => ("GrpcTransport::SendQueueMessage", msg.channel)
  | .sendQueueMessagesBatch _ => ("GrpcTransport::SendQueueMessagesBatch", "")
  | .receiveQueueMessages req => ("GrpcTransport::ReceiveQueueMessages", req.channel)
  | .ackAllQueueMessages req => ("GrpcTransport::AckAllQueueMessages", req.channel)
  | .openQueueUpstream => ("GrpcTransport::OpenQueueUpstream", "")
  | .openQueueDownstream => ("GrpcTransport::OpenQueueDownstream", "")

/-- The grpc status that the next use of the stub by an operation ends with; a stream that is
opened has none yet. -/
def outcome (stub : Stub) (s : Session) : Operation → Option GrpcStatus
  | .ping => some (stub.net.ping s.world.calls.length).1
  | .sendEvent _ => some (stub.net.sendEvent s.world.calls.length).1
  | .sendEventStore _ => some (stub.net.sendEvent s.world.calls.length).1
  | .openEventStream => none
  | .subscribeToEvents _ => none
  | .sendRequest _ => some (stub.net.sendRequest s.world.calls.length).1
  | .sendResponse _ => some (stub.net.sendResponse s.world.calls.length)
  | .subscribeToRequests _ => none
  | .sendQueueMessage _ => some (stub.net.sendQueueMessage s.world.calls.length).1
  | .sendQueueMessagesBatch _ => some (stub.net.sendQueueMessagesBatch s.world.calls.length).1
  | .receiveQueueMessages _ => some (stub.net.receiveQueueMessages s.world.calls.length).1
  | .ackAllQueueMessages _ => some (stub.ackAllQueueMessages s.uses.length).1
  | .openQueueUpstream => none
  | .openQueueDownstream => none

end Operation

/-- The status of the credential provider, when it decides and fails. -/
def refusal (authToken : String) : Option (StatusOr String) → Option Status
  | some (.error e) => if authToken.isEmpty then some e else none
  | _ => none

/-- The entry of the static token, which is preferred, or else of the provider's token, when it is
not empty. -/
def authorization (authToken : String) : Option (StatusOr String) → List (String × String)
  | some (.value t) =>
    if authToken.isEmpty then if t.isEmpty then [] else [("authorization", t)]
    else [("authorization", authToken)]
  | _ => if authToken.isEmpty then [] else [("authorization", authToken)]

/-- `InjectAuthToken` in these terms. -/
lemma injectAuthToken_spec (authToken : String) (token : Option (StatusOr String)) :
    (injectAuthToken authToken token).1 = (refusal authToken token).getD .okStatus ∧
      (refusal authToken token = none →
        authMetadata (injectAuthToken authToken token).2 = authorization authToken token) := by
  unfold injectAuthToken
  rcases token with _ | ⟨t | e⟩ <;> cases hs : authToken.isEmpty
  case some.value.true =>
    refine ⟨rfl, fun _ => ?_⟩
    simp only [authorization, hs, if_true]
    cases t.isEmpty <;> rfl
  case some.error.true =>
    simp [refusal, hs]
  all_goals
    simp [refusal, authorization, authMetadata, hs]

/-- What an operation owes its caller: `out` is its status and the session after it, `outcome` the
grpc status that the stub would answer, `ctx` the name and the channel in its errors. -/
structure Gate (stub : Stub) (opts : ClientOptions) (s : Session) (out : Status × Session)
    (rpc : StubRpc) (outcome : Option GrpcStatus) (ctx : String × String) : Prop where
  closed : s.world.transportClosed = true →
    out.1 = kErrClientClosed ∧ out.2.uses = s.uses ∧ out.2.world.tokens = s.world.tokens
  refused : s.world.transportClosed = false →
    ∀ e, refusal opts.authToken (s.token stub) = some e → e.ok = false →
      out.1 = e ∧ out.2.uses = s.uses
  called : s.world.transportClosed = false → refusal opts.authToken (s.token stub) = none →
    ∃ context, out.2.uses = s.uses ++ [⟨rpc, context⟩] ∧
      context.metadata = authorization opts.authToken (s.token stub)
  mapped : s.world.transportClosed = false → refusal opts.authToken (s.token stub) = none →
    ∀ g, outcome = some g → g.ok = false →
      out.1 = fromGrpcStatus g ctx.1 ctx.2 "" ∧ out.1.ok = false

section

variable {net : Net} {opts : ClientOptions} {w : World} {Q A : Type} {rpc : Rpc} {deadline : Int}
  {answers : ℕ → GrpcStatus × Q} {fail : Status → A} {finish : GrpcStatus → Q → A}

lemma attempt_of_closed (h : w.transportClosed = true) :
    attempt net opts rpc deadline answers fail finish w =
      (fail kErrClientClosed, { w with attempts := w.attempts + 1 }) := by
  simp only [attempt, h]
  rfl

lemma attempt_of_refused (h : w.transportClosed = false)
    (hauth : (injectAuthToken opts.authToken (net.getToken.map (· w.tokens))).1.ok = false) :
    (attempt net opts rpc deadline answers fail finish w).1 =
        fail (injectAuthToken opts.authToken (net.getToken.map (· w.tokens))).1 ∧
      (attempt net opts rpc deadline answers fail finish w).2.calls = w.calls := by
  have hcalls : (applyAuth net opts { w with attempts := w.attempts + 1 }).2.calls = w.calls :=
    applyAuth_calls _
  have hopen : (checkClosed w.transportClosed).ok = true := by
    rw [h]
    rfl
  have hstatus : (applyAuth net opts { w with attempts := w.attempts + 1 }).1.1.ok = false := hauth
  simp only [attempt, hopen, hstatus, Bool.not_true, Bool.not_false, Bool.false_eq_true, if_false,
    if_true]
  exact ⟨rfl, hcalls⟩

lemma attempt_of_admitted (h : w.transportClosed = false)
    (hauth : (injectAuthToken opts.authToken (net.getToken.map (· w.tokens))).1.ok = true) :
    (attempt net opts rpc deadline answers fail finish w).1 =
        finish (answers w.calls.length).1 (answers w.calls.length).2 ∧
      (attempt net opts rpc deadline answers fail finish w).2.calls = w.calls ++
        [⟨rpc, (injectAuthToken opts.authToken (net.getToken.map (· w.tokens))).2, deadline⟩] := by
  have hopen : (checkClosed w.transportClosed).ok = true := by
    rw [h]
    rfl
  have hstatus : (applyAuth net opts { w with attempts := w.attempts + 1 }).1.1.ok = true := hauth
  simp only [attempt, hopen, hstatus, Bool.not_true, Bool.false_eq_true, if_false]
  exact ⟨trivial, rfl⟩

/-- A call that an attempt made has its remote procedure and its deadline. -/
lemma attempt_made {rpc' : Rpc} {authorization : Option String} {deadline' : Int}
    (h : (attempt net opts rpc deadline answers fail finish w).2.calls =
      w.calls ++ [⟨rpc', authorization, deadline'⟩]) : rpc' = rpc ∧ deadline' = deadline := by
  have hmade : ¬w.calls = w.calls ++ [⟨rpc', authorization, deadline'⟩] := by
    intro heq
    cases List.self_eq_append_right.mp heq
  cases hc : w.transportClosed with
  | true =>
    rw [attempt_of_closed hc] at h
    exact absurd h hmade
  | false =>
    cases hauth : (injectAuthToken opts.authToken (net.getToken.map (· w.tokens))).1.ok with
    | false =>
      rw [(attempt_of_refused hc hauth).2] at h
      exact absurd h hmade
    | true =>
      rw [(attempt_of_admitted hc hauth).2] at h
      cases List.append_cancel_left h
      exact ⟨rfl, rfl⟩

end

section

variable {stub : Stub} {opts : ClientOptions} {s : Session} {Q A : Type} {outcome : Option GrpcStatus} {ctx : String × String}
  {fail : Status → A}

/-- Without a refusal `InjectAuthToken` succeeds. -/
lemma auth_of_admitted {authToken : String} {token : Option (StatusOr String)}
    (h : refusal authToken token = none) : (injectAuthToken authToken token).1.ok = true := by
  rw [(injectAuthToken_spec authToken token).1, h]
  rfl

lemma auth_of_refused {authToken : String} {token : Option (StatusOr String)} {e : Status}
    (h : refusal authToken token = some e) : (injectAuthToken authToken token).1 = e := by
  rw [(injectAuthToken_spec authToken token).1, h]
  rfl

/-- An error of the stub is not OK. -/
lemma mapped_not_ok {g : GrpcStatus} (hg : g.ok = false) :
    (fromGrpcStatus g ctx.1 ctx.2 "").ok = false := by
  rw [fromGrpcStatus_ok]
  exact hg

/-- What a unary operation adds to the uses of the stub. -/
lemma inSession_uses {R : Type} {op : World → R × World} {calls : List StubCall}
    (h : (op s.world).2.calls = s.world.calls ++ calls) :
    (inSession op s).2.uses = s.uses ++ calls.map StubCall.use := by
  show s.uses ++ List.map _ (List.drop _ (op s.world).2.calls) = _
  rw [h, List.drop_left]

/-- The unary operations. -/
lemma gate_attempt (status : A → Status) {rpc : Rpc} {deadline : Int} {answers : ℕ → GrpcStatus × Q}
    {finish : GrpcStatus → Q → A} (hfail : ∀ e, status (fail e) = e)
    (hfinish : ∀ g q, g.ok = false → status (finish g q) = fromGrpcStatus g ctx.1 ctx.2 "") :
    let r := inSession (attempt stub.net opts rpc deadline answers fail finish) s
    Gate stub opts s (status r.1, r.2) (.unary rpc) (some (answers s.world.calls.length).1) ctx := by
  intro r
  constructor
  case closed =>
    intro hc
    have ha : attempt stub.net opts rpc deadline answers fail finish s.world =
        (fail kErrClientClosed, { s.world with attempts := s.world.attempts + 1 }) :=
      attempt_of_closed hc
    have huses : r.2.uses = s.uses ++ List.map StubCall.use [] := by
      apply inSession_uses
      rw [ha, List.append_nil]
    refine ⟨?_, ?_, ?_⟩
    · show status (attempt stub.net opts rpc deadline answers fail finish s.world).1 = _
      rw [ha, hfail]
    · rw [huses, List.map_nil, List.append_nil]
    · show (attempt stub.net opts rpc deadline answers fail finish s.world).2.tokens = _
      rw [ha]
  case refused =>
    intro hc e he hok
    have hauth := auth_of_refused he
    have hrefused : (injectAuthToken opts.authToken (s.token stub)).1.ok = false := by
      rw [hauth]
      exact hok
    obtain ⟨hres, hcalls⟩ := attempt_of_refused hc hrefused
    have huses : r.2.uses = s.uses ++ List.map StubCall.use [] := by
      apply inSession_uses
      rw [List.append_nil]
      exact hcalls
    constructor
    · show status (attempt stub.net opts rpc deadline answers fail finish s.world).1 = _
      rw [hres, hfail]
      exact hauth
    · rw [huses, List.map_nil, List.append_nil]
  case called =>
    intro hc hnone
    have huses : r.2.uses = s.uses ++ List.map StubCall.use [⟨rpc, _, deadline⟩] :=
      inSession_uses (attempt_of_admitted hc (auth_of_admitted hnone)).2
    exact ⟨_, huses, (injectAuthToken_spec _ _).2 hnone⟩
  case mapped =>
    intro hc hnone g hg hok
    cases hg
    have hres : r.1 = finish (answers s.world.calls.length).1 (answers s.world.calls.length).2 :=
      (attempt_of_admitted hc (auth_of_admitted hnone)).1
    have hstatus : status r.1 = fromGrpcStatus (answers s.world.calls.length).1 ctx.1 ctx.2 "" := by
      rw [hres]
      exact hfinish _ _ hok
    refine ⟨hstatus, ?_⟩
    rw [hstatus]
    exact mapped_not_ok hok

/-- The other operations, on a new context. -/
lemma gate_use (status : A → Status) {rpc : StubRpc} {context : ClientContext} {answers : ℕ → Q}
    {finish : Q → A}
    (hfresh : context.metadata = []) (hfail : ∀ e, status (fail e) = e)
    (hfinish : ∀ g, outcome = some g → g.ok = false →
      status (finish (answers s.uses.length)) = fromGrpcStatus g ctx.1 ctx.2 "") :
    let r := use stub opts rpc context answers fail finish s
    Gate stub opts s (status r.1, r.2) rpc outcome ctx := by
  intro r
  have hinject := context.injectAuthToken_eq opts.authToken (s.token stub)
  have admitted : s.world.transportClosed = false →
      refusal opts.authToken (s.token stub) = none →
      r = (finish (answers s.uses.length), ⟨(applyAuth stub.net opts s.world).2,
        s.uses ++ [⟨rpc, (context.injectAuthToken opts.authToken (s.token stub)).2⟩]⟩) := by
    intro hc hnone
    have hok : (context.injectAuthToken opts.authToken (s.token stub)).1.ok = true := by
      rw [hinject]
      exact auth_of_admitted hnone
    simp only [r, use, hc, checkClosed, hok, Bool.false_eq_true, if_false, Status.ok_okStatus,
      Bool.not_true]
  constructor
  case closed =>
    intro hc
    have hr : r = (fail kErrClientClosed, s) := by
      simp only [r, use, hc]
      rfl
    rw [hr]
    exact ⟨hfail _, rfl, rfl⟩
  case refused =>
    intro hc e he hok
    have hstatus : (context.injectAuthToken opts.authToken (s.token stub)).1 = e := by
      rw [hinject]
      exact auth_of_refused he
    have hr : r = (fail e, { s with world := (applyAuth stub.net opts s.world).2 }) := by
      simp only [r, use, hc, checkClosed, hstatus, hok, Bool.false_eq_true, if_false,
        Status.ok_okStatus, Bool.not_true, Bool.not_false, if_true]
    rw [hr]
    exact ⟨hfail e, rfl⟩
  case called =>
    intro hc hnone
    rw [admitted hc hnone]
    refine ⟨_, rfl, ?_⟩
    rw [hinject]
    show context.metadata ++ _ = _
    rw [hfresh, List.nil_append]
    exact (injectAuthToken_spec _ _).2 hnone
  case mapped =>
    intro hc hnone g hg hok
    have hstatus : status r.1 = fromGrpcStatus g ctx.1 ctx.2 "" := by
      rw [admitted hc hnone]
      exact hfinish g hg hok
    refine ⟨hstatus, ?_⟩
    rw [hstatus]
    exact mapped_not_ok hok

/-- A use that an operation made has its remote procedure and its deadline. -/
lemma use_made {rpc rpc' : StubRpc} {context context' : ClientContext} {answers : ℕ → Q}
    {finish : Q → A}
    (h : (use stub opts rpc context answers fail finish s).2.uses = s.uses ++ [⟨rpc', context'⟩]) :
    rpc' = rpc ∧ context'.deadline = context.deadline := by
  have hmade : ¬s.uses = s.uses ++ [⟨rpc', context'⟩] := by
    intro heq
    cases List.self_eq_append_right.mp heq
  simp only [use] at h
  split at h
  · exact absurd h hmade
  · split at h
    · exact absurd h hmade
    · cases List.append_cancel_left h
      rw [ClientContext.injectAuthToken_eq]
      exact ⟨rfl, rfl⟩

/-- A stream that is opened has no grpc status. -/
lemma gate_open {rpc : StubRpc} {message operation channel : String} :
    let r := use stub opts rpc .fresh stub.opens StatusOr.error (opened message operation channel) s
    Gate stub opts s (r.1.status, r.2) rpc none ctx :=
  gate_use StatusOr.status rfl (fun _ => rfl) nofun

/-- Every operation of the transport keeps the gate. -/
theorem transport_gate (stub : Stub) (opts : ClientOptions) (op : Operation) (s : Session) :
    Gate stub opts s (op.run stub opts s) op.rpc (op.outcome stub s) op.context := by
  cases op with
  | ping =>
    exact gate_attempt StatusOr.status (fun _ => rfl) fun g q hg => by simp [hg, Operation.context]
  | sendEvent event =>
    exact gate_attempt id (fun _ => rfl) fun g q hg => by simp [hg, Operation.context]
  | sendEventStore event =>
    exact gate_attempt StatusOr.status (fun _ => rfl) fun g q hg => by simp [hg, Operation.context]
  | openEventStream => exact gate_open
  | subscribeToEvents sub => exact gate_open
  | sendRequest request =>
    exact gate_attempt StatusOr.status (fun _ => rfl) fun g q hg => by simp [hg, Operation.context]
  | sendResponse response =>
    exact gate_attempt id (fun _ => rfl) fun g q hg => by simp [hg, Operation.context]
  | subscribeToRequests sub => exact gate_open
  | sendQueueMessage msg =>
    exact gate_attempt StatusOr.status (fun _ => rfl) fun g q hg => by simp [hg, Operation.context]
  | sendQueueMessagesBatch req =>
    exact gate_attempt StatusOr.status (fun _ => rfl) fun g q hg => by simp [hg, Operation.context]
  | receiveQueueMessages req =>
    exact gate_attempt StatusOr.status (fun _ => rfl) fun g q hg => by simp [hg, Operation.context]
  | ackAllQueueMessages req =>
    refine gate_use StatusOr.status rfl (fun _ => rfl) fun g hg hok => ?_
    cases hg
    simp [hok, Operation.context]
  | openQueueUpstream => exact gate_open
  | openQueueDownstream => exact gate_open

end

end GrpcTransport

end KubeMQ
