import KubeMQ.Client.Options
import KubeMQ.Middleware.Retry
import KubeMQ.Types.Message

/-!
# Unary calls of the transport

`Ping`, `SendEvent`, `SendEventStore`, `SendRequest`, `SendResponse`, `SendQueueMessage`,
`SendQueueMessagesBatch` and `ReceiveQueueMessages` of `grpc_transport.cc`, and `InjectAuthToken`
of `middleware/auth.cc`. A `Net` holds what the credential provider and the server
answer: to the `n`-th `GetToken` and to the `n`-th call of the stub. The transport keeps no other
record of its calls than the `World` does; deadlines are offsets in milliseconds.
-/

namespace KubeMQ

/-- What `Ping` returns. -/
structure ServerInfo where
  host : String
  version : String
  serverStartTime : Int
  serverUpTimeSeconds : Int
  deriving DecidableEq

/-- A call of the stub, by its request. -/
inductive Rpc where
  | ping
  | sendEvent (event : Proto.Event)
  | sendRequest (request : Proto.Request)
  | sendResponse (response : Proto.Response)
  | sendQueueMessage (message : Proto.QueueMessage)
  | sendQueueMessagesBatch (request : Proto.QueueMessagesBatchRequest)
  | receiveQueueMessages (request : Proto.ReceiveQueueMessagesRequest)
  deriving DecidableEq

/-- A call of the stub, with the metadata and the deadline of its context. -/
structure StubCall where
  rpc : Rpc
  authorization : Option String
  deadline : Int
  deriving DecidableEq

/-- The answers of the credential provider, when there is one, and of the server. -/
structure Net where
  getToken : Option (ℕ → StatusOr String)
  ping : ℕ → GrpcStatus × Proto.PingResult
  sendEvent : ℕ → GrpcStatus × Proto.Result
  sendRequest : ℕ → GrpcStatus × Proto.Response
  sendResponse : ℕ → GrpcStatus
  sendQueueMessage : ℕ → GrpcStatus × Proto.SendQueueMessageResult
  sendQueueMessagesBatch : ℕ → GrpcStatus × Proto.QueueMessagesBatchResponse
  receiveQueueMessages : ℕ → GrpcStatus × Proto.ReceiveQueueMessagesResponse

/-- The flags of the client and of its transport, and what has been done so far. -/
structure World where
  closed : Bool
  transportClosed : Bool
  /-- How often an operation of the transport has been called. -/
  attempts : ℕ
  /-- How often `GetToken` has been called. -/
  tokens : ℕ
  calls : List StubCall
  sleeps : List Int
  deriving DecidableEq

def World.sleep (d : Int) (w : World) : World := { w with sleeps := w.sleeps ++ [d] }

/-- Between the two worlds the stub was called once, with `rpc`. -/
def World.Called (w w' : World) (rpc : Rpc) : Prop :=
  ∃ authorization deadline, w'.calls = w.calls ++ [⟨rpc, authorization, deadline⟩]

lemma World.not_called (w : World) {rpc : Rpc} : ¬w.Called w rpc := by
  rintro ⟨authorization, deadline, h⟩
  cases List.self_eq_append_right.mp h

/-- `CheckClosed`, of the client and of the transport. -/
def checkClosed (closed : Bool) : Status := if closed then kErrClientClosed else .okStatus

/-- `InjectAuthToken`: its status, and the metadata `authorization`; `token` is the answer of the
provider, when there is one. -/
def injectAuthToken (authToken : String) (token : Option (StatusOr String)) :
    Status × Option String :=
  if !authToken.isEmpty then (.okStatus, some authToken)
  else
    match token with
    | some (.error s) => (s, none)
    | some (.value t) => (.okStatus, if t.isEmpty then none else some t)
    | none => (.okStatus, none)

namespace GrpcTransport

/-- `kDefaultSendTimeout`. -/
def kDefaultSendTimeout : Int := seconds 5

/-- `kDefaultRPCTimeout.count()`, which counts seconds. -/
def kDefaultRPCTimeoutCount : Int := 10

section

variable (net : Net) (opts : ClientOptions)

/-- `ApplyAuth`. -/
def applyAuth (w : World) : (Status × Option String) × World :=
  (injectAuthToken opts.authToken (net.getToken.map (· w.tokens)),
    if opts.authToken.isEmpty && net.getToken.isSome then { w with tokens := w.tokens + 1 } else w)

/-- The course of every unary operation: `CheckClosed`, `ApplyAuth`, one call of the stub. -/
def attempt {Q A : Type} (rpc : Rpc) (deadline : Int) (answers : ℕ → GrpcStatus × Q)
    (fail : Status → A) (finish : GrpcStatus → Q → A) (w : World) : A × World :=
  let w₁ := { w with attempts := w.attempts + 1 }
  let s := checkClosed w.transportClosed
  if !s.ok then (fail s, w₁)
  else
    let r := applyAuth net opts w₁
    if !r.1.1.ok then (fail r.1.1, r.2)
    else
      let a := answers w.calls.length
      (finish a.1 a.2, { r.2 with calls := w.calls ++ [⟨rpc, r.1.2, deadline⟩] })

def ping : World → StatusOr ServerInfo × World :=
  attempt net opts .ping opts.connectionTimeout net.ping .error fun status response =>
    if !status.ok then .error (fromGrpcStatus status "GrpcTransport::Ping" "" "")
    else
      .value ⟨response.host, response.version, response.serverStartTime,
        response.serverUpTimeSeconds⟩

def sendEvent (event : Proto.Event) : World → Status × World :=
  attempt net opts (.sendEvent event) kDefaultSendTimeout net.sendEvent id fun status result =>
    if !status.ok then fromGrpcStatus status "GrpcTransport::SendEvent" event.channel ""
    else if !result.error.isEmpty then
      fromServerError result.error "GrpcTransport::SendEvent" event.channel
    else .okStatus

def sendEventStore (event : Proto.Event) : World → StatusOr EventStoreResult × World :=
  attempt net opts (.sendEvent event) kDefaultSendTimeout net.sendEvent .error
    fun status result =>
      if !status.ok then
        .error (fromGrpcStatus status "GrpcTransport::SendEventStore" event.channel "")
      else if !result.error.isEmpty then
        .error (makeError .kFatal result.error "GrpcTransport::SendEventStore" event.channel "")
      else .value ⟨result.eventID, result.sent, result.error⟩

def sendRequest (request : Proto.Request) : World → StatusOr Proto.Response × World :=
  attempt net opts (.sendRequest request)
    (if request.timeout > 0 then request.timeout else kDefaultRPCTimeoutCount)
    net.sendRequest .error fun status response =>
      if !status.ok then
        .error (fromGrpcStatus status "GrpcTransport::SendRequest" request.channel "")
      else .value response

def sendResponse (response : Proto.Response) : World → Status × World :=
  attempt net opts (.sendResponse response) kDefaultSendTimeout
    (fun n => (net.sendResponse n, ())) id fun status _ =>
      if !status.ok then
        fromGrpcStatus status "GrpcTransport::SendResponse" response.replyChannel ""
      else .okStatus

def sendQueueMessage (msg : Proto.QueueMessage) :
    World → StatusOr Proto.SendQueueMessageResult × World :=
  attempt net opts (.sendQueueMessage msg) kDefaultSendTimeout net.sendQueueMessage .error
    fun status result =>
      if !status.ok then
        .error (fromGrpcStatus status "GrpcTransport::SendQueueMessage" msg.channel "")
      else .value result

def sendQueueMessagesBatch (req : Proto.QueueMessagesBatchRequest) :
    World → StatusOr Proto.QueueMessagesBatchResponse × World :=
  attempt net opts (.sendQueueMessagesBatch req) kDefaultSendTimeout net.sendQueueMessagesBatch
    .error fun status response =>
      if !status.ok then
        .error (fromGrpcStatus status "GrpcTransport::SendQueueMessagesBatch" "" "")
      else .value response

def receiveQueueMessages (req : Proto.ReceiveQueueMessagesRequest) :
    World → StatusOr Proto.ReceiveQueueMessagesResponse × World :=
  attempt net opts (.receiveQueueMessages req)
    (seconds (if req.waitTimeSeconds > 0 then req.waitTimeSeconds + 5 else 30))
    net.receiveQueueMessages .error fun status response =>
      if !status.ok then
        .error (fromGrpcStatus status "GrpcTransport::ReceiveQueueMessages" req.channel "")
      else .value response

end

variable {net : Net} {opts : ClientOptions} {Q A : Type} {rpc : Rpc} {deadline : Int}
  {answers : ℕ → GrpcStatus × Q} {fail : Status → A} {finish : GrpcStatus → Q → A}

lemma applyAuth_attempts (w : World) : (applyAuth net opts w).2.attempts = w.attempts := by
  unfold applyAuth
  dsimp only
  split <;> rfl

/-- An attempt is counted, however it ends. -/
lemma attempt_attempts (w : World) :
    (attempt net opts rpc deadline answers fail finish w).2.attempts = w.attempts + 1 := by
  simp only [attempt]
  split
  · rfl
  · split <;> exact applyAuth_attempts _

lemma applyAuth_calls (w : World) : (applyAuth net opts w).2.calls = w.calls := by
  unfold applyAuth
  dsimp only
  split <;> rfl

/-- An attempt that called the stub returns what it makes of the answer. -/
lemma attempt_called {w : World} {rpc' : Rpc}
    (h : w.Called (attempt net opts rpc deadline answers fail finish w).2 rpc') :
    rpc' = rpc ∧ (attempt net opts rpc deadline answers fail finish w).1 =
      finish (answers w.calls.length).1 (answers w.calls.length).2 := by
  obtain ⟨authorization, deadline', h⟩ := h
  have short : ∀ l : List StubCall, l = w.calls → ¬l = w.calls ++ [⟨rpc', authorization, deadline'⟩] := by
    intro l hl e
    cases List.self_eq_append_right.mp (hl.symm.trans e)
  simp only [attempt] at h ⊢
  split at h
  · exact absurd h (short _ rfl)
  · next hclosed =>
    split at h
    · exact absurd h (short _ (applyAuth_calls _))
    · next hauth =>
      rw [if_neg hclosed, if_neg hauth]
      have hcall := List.append_cancel_left h
      cases hcall
      exact ⟨rfl, rfl⟩

/-- An attempt fails with a status of its own, or returns what it makes of the answer. -/
lemma attempt_result (w : World) :
    (∃ s, (attempt net opts rpc deadline answers fail finish w).1 = fail s) ∨
      (attempt net opts rpc deadline answers fail finish w).1 =
        finish (answers w.calls.length).1 (answers w.calls.length).2 := by
  simp only [attempt]
  split
  · exact .inl ⟨_, rfl⟩
  · split
    · exact .inl ⟨_, rfl⟩
    · exact .inr rfl

/-- Whether the attempt that begins now ends with a status on which it is retried; `status` is
the answer of the stub. -/
def wantsRetry (net : Net) (opts : ClientOptions) (w : World) (status : GrpcStatus)
    (isIdempotent : Bool) : Bool :=
  let auth := (injectAuthToken opts.authToken (net.getToken.map (· w.tokens))).1
  !w.transportClosed &&
    if auth.ok then shouldRetry (mapGrpcCode status.code) isIdempotent
    else shouldRetry auth.code isIdempotent

/-- The status of an attempt asks for another when `wantsRetry` says so; `status` is the accessor
of the result's status. -/
lemma attempt_wantsRetry (status : A → Status) {isIdempotent : Bool}
    (hfail : ∀ s, status (fail s) = s)
    (hfinish : ∀ g q, shouldRetry (status (finish g q)).code isIdempotent =
      shouldRetry (mapGrpcCode g.code) isIdempotent) (w : World) :
    (status (attempt net opts rpc deadline answers fail finish w).1).wantsRetry isIdempotent =
      wantsRetry net opts w (answers w.calls.length).1 isIdempotent := by
  rw [Status.wantsRetry_eq]
  unfold attempt wantsRetry
  cases hc : w.transportClosed with
  | true => simp [checkClosed, Status.ok, kErrClientClosed, hfail, shouldRetry, isRetryable]
  | false =>
    simp only [checkClosed, Bool.false_eq_true, if_false, Status.ok_okStatus, Bool.not_true,
      Bool.not_false, Bool.true_and, applyAuth]
    cases ha : (injectAuthToken opts.authToken (net.getToken.map (· w.tokens))).1.ok with
    | true => simp [hfinish]
    | false => simp [hfail]

lemma mapGrpcCode_of_ok {g : GrpcStatus} (h : g.ok = true) : mapGrpcCode g.code = .kOk :=
  mapGrpcCode_eq_kOk.mpr (by simpa [GrpcStatus.ok] using h)

/-- A failed answer of the stub keeps its code; a good one is not retried. -/
lemma retried_iff_statusOr {g : GrpcStatus} {op ch : String} {a : A} (isIdempotent : Bool) :
    shouldRetry (StatusOr.status
        (if !g.ok then StatusOr.error (fromGrpcStatus g op ch "") else .value a)).code isIdempotent =
      shouldRetry (mapGrpcCode g.code) isIdempotent := by
  cases hg : g.ok with
  | true => simp [mapGrpcCode_of_ok hg, Status.okStatus]
  | false => simp [fromGrpcStatus_code]

lemma ping_wantsRetry (w : World) (isIdempotent : Bool) :
    (ping net opts w).1.status.wantsRetry isIdempotent =
      wantsRetry net opts w (net.ping w.calls.length).1 isIdempotent :=
  attempt_wantsRetry StatusOr.status (fun _ => rfl) (fun _ _ => retried_iff_statusOr isIdempotent) w

lemma sendEvent_wantsRetry (event : Proto.Event) (w : World) (isIdempotent : Bool) :
    (sendEvent net opts event w).1.wantsRetry isIdempotent =
      wantsRetry net opts w (net.sendEvent w.calls.length).1 isIdempotent := by
  refine attempt_wantsRetry id (fun _ => rfl) (fun g r => ?_) w
  cases hg : g.ok with
  | true =>
    -- an error text in the reply is fatal
    cases hr : r.error.isEmpty <;>
      simp [mapGrpcCode_of_ok hg, fromServerError, hr, Status.okStatus]
  | false => simp [fromGrpcStatus_code]

lemma sendRequest_wantsRetry (request : Proto.Request) (w : World) (isIdempotent : Bool) :
    (sendRequest net opts request w).1.status.wantsRetry isIdempotent =
      wantsRetry net opts w (net.sendRequest w.calls.length).1 isIdempotent :=
  attempt_wantsRetry StatusOr.status (fun _ => rfl) (fun _ _ => retried_iff_statusOr isIdempotent) w

lemma sendQueueMessage_wantsRetry (msg : Proto.QueueMessage) (w : World) (isIdempotent : Bool) :
    (sendQueueMessage net opts msg w).1.status.wantsRetry isIdempotent =
      wantsRetry net opts w (net.sendQueueMessage w.calls.length).1 isIdempotent :=
  attempt_wantsRetry StatusOr.status (fun _ => rfl) (fun _ _ => retried_iff_statusOr isIdempotent) w

end GrpcTransport

end KubeMQ
