import KubeMQ.Client.Unary
import KubeMQ.StreamHandle.Send
import KubeMQ.Types.Uuid

/-!
# Which messages leave the client

The sending operations of the client check the resolved channel and the content of a message
before the transport sees it; `Gated` is what follows. `Send` of a stream handle converts its
argument and writes it: `sends_valid_iff` says that a handle keeps the same discipline exactly when
its users do.
-/

namespace KubeMQ

/-- The messages of a call of the stub may be sent. -/
def Rpc.Sendable : Rpc → Prop
  | .sendEvent event => KubeMQ.Sendable event.channel event.body event.metadata
  | .sendRequest request => KubeMQ.Sendable request.channel request.body request.metadata
  | .sendQueueMessage m => KubeMQ.Sendable m.channel m.body m.metadata
  | .sendQueueMessagesBatch request =>
    ∀ m ∈ request.messages, KubeMQ.Sendable m.channel m.body m.metadata
  | .ping => True
  | .sendResponse _ => True
  | .receiveQueueMessages _ => True

/-- An operation lets nothing through to the transport that may not be sent. `request` is what it
passes on, `valid` says that its argument may be sent. -/
structure Gated {Q A : Type} (request : StatusOr Q) (rpc : Q → Rpc) (valid : Prop)
    (status : A → Status) (out : A × World) (w : World) : Prop where
  passed : ∀ q, request = .value q → (rpc q).Sendable
  called : ∀ r, w.Called out.2 r → r.Sendable
  refused : ¬valid → out.2 = w ∧ (w.closed = false → (status out.1).code = .kValidation)
  closed : w.closed = true → out.2 = w ∧ status out.1 = kErrClientClosed

namespace Client

section

variable {Q R A : Type} {request : StatusOr Q} {reject : Status → A}
  {send : Q → World → R × World} {answer : Q → R → A} {rpc : Q → Rpc} {status : A → Status}
  {valid : Prop} {w : World}

lemma unary_gated (passed : ∀ q, request = .value q → (rpc q).Sendable)
    (sends : ∀ q r, w.Called (send q w).2 r → r = rpc q)
    (refused : ¬valid → ∃ s, request = .error s ∧ (w.closed = false → s.code = .kValidation))
    (closes : w.closed = true → request = .error kErrClientClosed)
    (rejects : ∀ s, status (reject s) = s) :
    Gated request rpc valid status (unary request reject send answer w) w := by
  refine ⟨passed, ?_, ?_, ?_⟩
  · intro r hr
    obtain ⟨q, hq, hsent, -⟩ := unary_called hr
    rw [sends q r hsent]
    exact passed q hq
  · intro hv
    obtain ⟨s, hs, hcode⟩ := refused hv
    subst hs
    refine ⟨rfl, ?_⟩
    intro hopen
    simp only [unary, rejects]
    exact hcode hopen
  · intro hclosed
    rw [closes hclosed]
    exact ⟨rfl, rejects kErrClientClosed⟩

/-- An operation whose checks let exactly the request `a` of a valid message through. -/
lemma checked_gated {a : Q}
    (gate : (∀ q, request = .value q → q = a ∧ valid) ∧
      (¬valid → ∃ s, request = .error s ∧ (w.closed = false → s.code = .kValidation)))
    (sendable : valid → (rpc a).Sendable)
    (sends : ∀ q r, w.Called (send q w).2 r → r = rpc q)
    (closes : w.closed = true → request = .error kErrClientClosed)
    (rejects : ∀ s, status (reject s) = s) :
    Gated request rpc valid status (unary request reject send answer w) w := by
  refine unary_gated ?_ sends gate.2 closes rejects
  intro q hq
  obtain ⟨rfl, hv⟩ := gate.1 q hq
  exact sendable hv

lemma checked_closed {ss : List Status} {closed : Bool} {a : Q} (h : closed = true) :
    checked (checkClosed closed :: ss) a = .error kErrClientClosed := by
  rw [h]
  rfl

/-- A failed check is returned, the one for a closed client before any other. -/
lemma checked_refused {ss : List Status} {closed : Bool} {a : Q}
    (fails : ∃ s ∈ ss, s.ok = false) (codes : ∀ s ∈ ss, s.ok = false → s.code = .kValidation) :
    ∃ s, checked (checkClosed closed :: ss) a = .error s ∧
      (closed = false → s.code = .kValidation) := by
  cases closed with
  | true => exact ⟨kErrClientClosed, rfl, nofun⟩
  | false =>
    have hfirst : ∃ s, checked ss a = .error s ∧ s.code = .kValidation := by
      induction ss with
      | nil =>
        obtain ⟨s, hs, -⟩ := fails
        cases hs
      | cons s ss ih =>
        simp only [checked]
        cases hs : s.ok with
        | false => exact ⟨s, rfl, codes s List.mem_cons_self hs⟩
        | true =>
          refine ih ?_ (fun t ht => codes t (List.mem_cons_of_mem s ht))
          obtain ⟨t, ht, hfail⟩ := fails
          rcases List.mem_cons.mp ht with rfl | ht
          · simp [hs] at hfail
          · exact ⟨t, ht, hfail⟩
    obtain ⟨s, hs, hcode⟩ := hfirst
    exact ⟨s, hs, fun _ => hcode⟩

/-- The checks of the operations that send one message. -/
lemma checked_gate {ss : List Status} {closed : Bool} {a : Q} {channel metadata operation : String}
    {body : Body} (hch : validateChannelNoWildcard channel operation ∈ ss)
    (hbody : validateBody body metadata operation ∈ ss)
    (codes : ∀ s ∈ ss, s.ok = false → s.code = .kValidation) :
    (∀ q, checked (checkClosed closed :: ss) a = .value q →
      q = a ∧ Sendable channel body metadata) ∧
    (¬Sendable channel body metadata → ∃ s, checked (checkClosed closed :: ss) a = .error s ∧
      (closed = false → s.code = .kValidation)) := by
  refine ⟨?_, ?_⟩
  · intro q hq
    obtain ⟨hqa, hall⟩ := checked_value hq
    have hok₁ := hall _ (List.mem_cons_of_mem _ hch)
    have hok₂ := hall _ (List.mem_cons_of_mem _ hbody)
    exact ⟨hqa, sendable_iff.mp ⟨hok₁, hok₂⟩⟩
  · intro hv
    refine checked_refused ?_ codes
    by_contra hnone
    have hok : ∀ s ∈ ss, s.ok = true := by
      intro s hs
      by_contra hfail
      exact hnone ⟨s, hs, by simpa using hfail⟩
    exact hv (sendable_iff.mp ⟨hok _ hch, hok _ hbody⟩)

end

section

variable {Q : Type} {q a : Q} {closed : Bool} {channel metadata operation : String} {body : Body}
  {timeout : Int}

/-- The checks of `SendEvent`, `SendEventStore` and `SendQueueMessage`. -/
lemma send_gate :
    (∀ q, checked [checkClosed closed, validateChannelNoWildcard channel operation,
        validateBody body metadata operation] a = .value q →
      q = a ∧ Sendable channel body metadata) ∧
    (¬Sendable channel body metadata → ∃ s, checked [checkClosed closed,
        validateChannelNoWildcard channel operation, validateBody body metadata operation] a
        = .error s ∧ (closed = false → s.code = .kValidation)) := by
  apply checked_gate List.mem_cons_self (List.mem_cons_of_mem _ List.mem_cons_self)
  intro s hs hfail
  simp only [List.mem_cons, List.not_mem_nil, or_false] at hs
  rcases hs with rfl | rfl
  · exact validateChannelNoWildcard_error hfail
  · exact validateBody_error hfail

/-- The checks of `SendCommand` and `SendQuery`. -/
lemma rpc_gate :
    (∀ q, checked [checkClosed closed, validateChannelNoWildcard channel operation,
        validateTimeout timeout operation, validateBody body metadata operation] a = .value q →
      q = a ∧ Sendable channel body metadata) ∧
    (¬Sendable channel body metadata → ∃ s, checked [checkClosed closed,
        validateChannelNoWildcard channel operation, validateTimeout timeout operation,
        validateBody body metadata operation] a
        = .error s ∧ (closed = false → s.code = .kValidation)) := by
  apply checked_gate List.mem_cons_self
    (List.mem_cons_of_mem _ (List.mem_cons_of_mem _ List.mem_cons_self))
  intro s hs hfail
  simp only [List.mem_cons, List.not_mem_nil, or_false] at hs
  rcases hs with rfl | rfl | rfl
  · exact validateChannelNoWildcard_error hfail
  · exact validateTimeout_error hfail
  · exact validateBody_error hfail

end

section Operations

variable (c : Config) (w : World)

/-- A message may be sent once its channel has been resolved. -/
def Resolves (channel : String) (body : Body) (metadata : String) : Prop :=
  Sendable (firstNonEmpty channel c.opts.defaultChannel) body metadata

lemma sendEvent_gated (event : Event) :
    Gated (eventRequest c.opts c.uuid w.closed event) Rpc.sendEvent
      (Resolves c event.channel event.body event.metadata) id (sendEvent c event w) w := by
  apply checked_gated send_gate id _ checked_closed (fun _ => rfl)
  intro q r hr
  exact (GrpcTransport.attempt_called hr).1

lemma sendEventStore_gated (event : EventStore) :
    Gated (eventStoreRequest c.opts c.uuid w.closed event) Rpc.sendEvent
      (Resolves c event.channel event.body event.metadata) StatusOr.status
      (sendEventStore c event w) w := by
  apply checked_gated send_gate id _ checked_closed (fun _ => rfl)
  intro q r hr
  exact (GrpcTransport.attempt_called hr).1

lemma sendCommand_gated (command : Command) :
    Gated (commandRequest c.opts c.uuid w.closed command) Rpc.sendRequest
      (Resolves c command.channel command.body command.metadata) StatusOr.status
      (sendCommand c command w) w := by
  apply checked_gated rpc_gate id _ checked_closed (fun _ => rfl)
  intro q r hr
  exact (GrpcTransport.attempt_called hr).1

lemma sendQuery_gated (query : Query) :
    Gated (queryRequest c.opts c.uuid w.closed query) Rpc.sendRequest
      (Resolves c query.channel query.body query.metadata) StatusOr.status
      (sendQuery c query w) w := by
  apply checked_gated rpc_gate id _ checked_closed (fun _ => rfl)
  intro q r hr
  exact (GrpcTransport.attempt_called hr).1

lemma sendQueueMessage_gated (message : QueueMessage) :
    Gated (queueMessageRequest c.opts w.closed message) Rpc.sendQueueMessage
      (Resolves c message.channel message.body message.metadata) StatusOr.status
      (sendQueueMessage c message w) w := by
  apply checked_gated send_gate id _ checked_closed (fun _ => rfl)
  intro q r hr
  exact (GrpcTransport.attempt_called hr).1

/-- The loop of `SendQueueMessages` stops at the first message that may not be sent. -/
lemma batchMessages_gate (messages : List QueueMessage) :
    (∀ ps, batchMessages c.opts messages = .value ps →
      ∀ p ∈ ps, Sendable p.channel p.body p.metadata) ∧
    ((¬∀ m ∈ messages, Resolves c m.channel m.body m.metadata) →
      ∃ s, batchMessages c.opts messages = .error s ∧ s.code = .kValidation) := by
  induction messages with
  | nil =>
    refine ⟨?_, fun h => absurd (List.forall_mem_nil _) h⟩
    intro ps h
    cases h
    exact List.forall_mem_nil _
  | cons m ms ih =>
    obtain ⟨ihpass, ihrefuse⟩ := ih
    simp only [batchMessages]
    cases hch : (validateChannelNoWildcard (firstNonEmpty m.channel c.opts.defaultChannel)
        "SendQueueMessages").ok with
    | false => exact ⟨nofun, fun _ => ⟨_, rfl, validateChannelNoWildcard_error hch⟩⟩
    | true =>
      cases hbody : (validateBody m.body m.metadata "SendQueueMessages").ok with
      | false => exact ⟨nofun, fun _ => ⟨_, rfl, validateBody_error hbody⟩⟩
      | true =>
        have hm : Resolves c m.channel m.body m.metadata := sendable_iff.mp ⟨hch, hbody⟩
        simp only [Bool.not_true, Bool.false_eq_true, if_false]
        refine ⟨?_, ?_⟩
        · intro ps h
          split at h
          · cases h
          · next qs hqs =>
            cases h
            intro p hp
            rcases List.mem_cons.mp hp with rfl | hp
            · exact hm
            · exact ihpass qs hqs p hp
        · intro h
          have hrest : ¬∀ x ∈ ms, Resolves c x.channel x.body x.metadata := by
            intro hall
            exact h (List.forall_mem_cons.mpr ⟨hm, hall⟩)
          obtain ⟨s, hs, hcode⟩ := ihrefuse hrest
          exact ⟨s, by rw [hs], hcode⟩

lemma sendQueueMessages_gated (messages : List QueueMessage) :
    Gated (queueMessagesRequest c.opts c.uuid w.closed messages) Rpc.sendQueueMessagesBatch
      (∀ m ∈ messages, Resolves c m.channel m.body m.metadata) StatusOr.status
      (sendQueueMessages c messages w) w := by
  obtain ⟨hpass, hrefuse⟩ := batchMessages_gate c messages
  refine unary_gated ?_ ?_ ?_ ?_ (fun _ => rfl)
  · intro q hq
    unfold queueMessagesRequest at hq
    dsimp only at hq
    split at hq
    · cases hq
    · split at hq
      · cases hq
      · split at hq
        · cases hq
        · next ps hps =>
          cases hq
          exact hpass ps hps
  · intro q r hr
    exact (GrpcTransport.attempt_called hr).1
  · intro hv
    unfold queueMessagesRequest
    cases hclosed : w.closed with
    | true => exact ⟨kErrClientClosed, rfl, nofun⟩
    | false =>
      obtain ⟨s, hs, hcode⟩ := hrefuse hv
      simp only [checkClosed, Bool.false_eq_true, if_false, Status.ok_okStatus, Bool.not_true, hs]
      split
      · exact ⟨_, rfl, fun _ => rfl⟩
      · exact ⟨s, rfl, fun _ => hcode⟩
  · intro hclosed
    unfold queueMessagesRequest
    rw [hclosed]
    rfl

end Operations

end Client

namespace StreamHandle

section

variable {W R E M : Type} {κ : HandleSpec W R E} {encode : M → W} {valid : M → Prop}
  {ok : W → Prop} {users : M → Prop}

/-- A handle lets nothing through to the stream that may not be sent. -/
structure SendsValid (valid : M → Prop) (ok : W → Prop) (s : Traced W R E M) : Prop where
  written : ∀ i w b, Obs.write i w b ∈ s.handle.mem.log → ok w
  refused : ∀ i issue m st, s.issued[i]? = some issue → issue.op = .send m →
    s.handle.calls[i]? = some (.sent st) → ¬valid m →
    st.code = .kValidation ∧ writesBy i s.handle.mem.log = []

/-- The users pass only messages of a given kind to `Send`. -/
def SendOnly (users : M → Prop) (_ : Traced W R E M) (a : UserAction M R) : Prop :=
  ∀ m, a = .begin (.send m) → users m

lemma mem_writesBy {log : List (Obs W R E)} {i : ℕ} {w : W} {b : Bool}
    (h : Obs.write i w b ∈ log) : (w, b) ∈ writesBy i log :=
  List.mem_filterMap.mpr ⟨_, h, if_pos rfl⟩

/-- What a call has written is the conversion of its own argument. -/
lemma Progress.written_by {issue : Issue M} {pc : CallPc W} {ws : List (W × Bool)} {w : W} {b : Bool}
    (h : Progress κ encode issue pc ws) (hw : (w, b) ∈ ws) :
    ∃ m, issue.op = .send m ∧ w = encode m := by
  cases h with
  | @written m _ _ hop _ _ =>
    have he := List.mem_singleton.mp hw
    exact ⟨m, hop, congrArg Prod.fst he⟩
  | _ => cases hw

/-- The arguments of `Send` on record are those that the users passed. -/
lemma issued_users {s : Traced W R E M} (h : (traced κ encode).Reach (SendOnly users) s) :
    ∀ issue ∈ s.issued, ∀ m, issue.op = .send m → users m := by
  induction h with
  | init hi =>
    obtain ⟨onResult, onError, rfl⟩ := hi
    exact nofun
  | @step s a t _ hg hn ih =>
    obtain ⟨h', -, rfl⟩ := Option.map_eq_some_iff.mp hn
    cases a with
    | begin op =>
      intro issue hi m hm
      rcases List.mem_append.mp hi with hi | hi
      · exact ih issue hi m hm
      · rw [List.mem_singleton.mp hi] at hm
        exact hg m (congrArg UserAction.begin hm)
    | destroy =>
      intro issue hi m hm
      rcases List.mem_append.mp hi with hi | hi
      · exact ih issue hi m hm
      · rw [List.mem_singleton.mp hi] at hm
        cases hm
    | _ => exact ih

/-- Users that send valid messages only keep the discipline for the handle. -/
lemma sendsValid_of_users (hok : ∀ m, valid m → ok (encode m)) (hvalid : ∀ m, users m → valid m)
    {s : Traced W R E M} (h : (traced κ encode).Reach (SendOnly users) s) :
    SendsValid valid ok s := by
  have inv := tracedInv_reachable h.reachable
  refine ⟨?_, ?_⟩
  · intro i w b hw
    have hmem := mem_writesBy hw
    have hlt : i < s.handle.calls.length := by
      by_contra hge
      rw [inv.fresh i (Nat.not_lt.mp hge)] at hmem
      cases hmem
    have hissued : i < s.issued.length := inv.length ▸ hlt
    have hissue := List.getElem?_eq_getElem hissued
    have progress := inv.progress i _ _ hissue (List.getElem?_eq_getElem hlt)
    obtain ⟨m, hop, rfl⟩ := progress.written_by hmem
    exact hok m (hvalid m (issued_users h _ (List.mem_of_getElem? hissue) m hop))
  · intro i issue m st hissue hop _ hv
    exact absurd (hvalid m (issued_users h issue (List.mem_of_getElem? hissue) m hop)) hv

/-- One `Send` that the stream takes. -/
def sendOne (m : M) : List (UserAction M R) :=
  [.begin (.send m), .call 0 .tau, .call 0 .tau, .call 0 (.wrote true)]

/-- Whatever a user passes to `Send` can be written. -/
lemma send_writes (κ : HandleSpec W R E) (encode : M → W) {m : M} (hm : users m) :
    ∃ s, (traced κ encode).Reach (SendOnly users) s ∧
      Obs.write 0 (encode m) true ∈ s.handle.mem.log := by
  have hinit : (traced κ encode).Reach (SendOnly users) ⟨start none none, []⟩ :=
    .init ⟨none, none, rfl⟩
  refine ⟨_, hinit.exec (sendOne m) ?_ rfl, List.mem_singleton.mpr rfl⟩
  intro a ha s m' hm'
  rw [hm'] at ha
  simp only [sendOne, List.mem_cons, UserAction.begin.injEq, UserOp.send.injEq, reduceCtorEq,
    List.not_mem_nil, or_false] at ha
  rw [ha]
  exact hm

/-- A handle lets only valid messages through exactly when its users send no others. -/
theorem sends_valid_iff (κ : HandleSpec W R E) (hok : ∀ m, ok (encode m) ↔ valid m) :
    (∀ s, (traced κ encode).Reach (SendOnly users) s → SendsValid valid ok s) ↔
      ∀ m, users m → valid m := by
  constructor
  · intro h m hm
    obtain ⟨s, hs, hw⟩ := send_writes κ encode hm
    exact (hok m).mp ((h s hs).written _ _ _ hw)
  · intro hvalid s hs
    exact sendsValid_of_users (fun m => (hok m).mpr) hvalid hs

end

/-- The conversion of `EventStreamHandle::Send`; the draw is for a missing id. -/
def encodeEvent (opts : ClientOptions) (m : (UInt64 × UInt64) × Event) : Proto.Event where
  eventID := firstNonEmpty m.2.id (generateUUID m.1)
  clientID := firstNonEmpty m.2.clientId opts.clientId
  channel := m.2.channel
  metadata := m.2.metadata
  body := m.2.body
  store := false
  tags := m.2.tags.copy

/-- The conversion of `EventStoreStreamHandle::Send`. -/
def encodeEventStore (opts : ClientOptions) (m : (UInt64 × UInt64) × EventStore) :
    Proto.Event where
  eventID := firstNonEmpty m.2.id (generateUUID m.1)
  clientID := firstNonEmpty m.2.clientId opts.clientId
  channel := m.2.channel
  metadata := m.2.metadata
  body := m.2.body
  store := true
  tags := m.2.tags.copy

/-- The conversion of `QueueUpstreamHandle::Send`, of a request id and a list of messages. -/
def encodeUpstream (opts : ClientOptions) (m : (UInt64 × UInt64) × String × List QueueMessage) :
    Proto.QueuesUpstreamRequest :=
  queueUpstreamRequestToProto (firstNonEmpty m.2.1 (generateUUID m.1)) m.2.2 opts.clientId

/-- The write discipline of every handle and every conversion, and so of the three handles: what an OK
`Send` has written is its argument as the handle converts it. -/
theorem write_discipline :
    (∀ {W R E M : Type} (κ : HandleSpec W R E) (encode : M → W) (s : Traced W R E M),
      (traced κ encode).Reachable s → WriteDiscipline κ encode s) ∧
    ∀ opts : ClientOptions,
      (∀ s, (traced HandleSpec.eventStream (encodeEvent opts)).Reachable s →
        WriteDiscipline HandleSpec.eventStream (encodeEvent opts) s) ∧
      (∀ s, (traced HandleSpec.eventStoreStream (encodeEventStore opts)).Reachable s →
        WriteDiscipline HandleSpec.eventStoreStream (encodeEventStore opts) s) ∧
      ∀ s, (traced HandleSpec.queueUpstream (encodeUpstream opts)).Reachable s →
        WriteDiscipline HandleSpec.queueUpstream (encodeUpstream opts) s :=
  ⟨fun _ _ _ h => writeDiscipline_reachable h, fun _ => ⟨fun _ h => writeDiscipline_reachable h,
    fun _ h => writeDiscipline_reachable h, fun _ h => writeDiscipline_reachable h⟩⟩

/-- A message is sent, the client closes, and a second `Send` begins after that. -/
def sendCloseSend {M : Type} (m : M) : List (UserAction M Proto.Result) :=
  [.begin (.send m), .call 0 .tau, .begin .close, .call 0 .tau, .call 0 (.wrote true),
    .call 0 .tau] ++ List.replicate 4 (.call 1 .tau) ++
  [.reader .eos, .reader .tau, .reader (.finish ⟨.OK, ""⟩)] ++
  List.replicate 2 (.call 1 .tau) ++ [.begin (.send m)] ++ List.replicate 3 (.call 2 .tau)

theorem write_discipline_send_close_send :
    let event : Event := { id := "e1", channel := "orders", body := [1] }
    ∃ s, (traced HandleSpec.eventStream (encodeEvent {})).exec ⟨start none none, []⟩
        (sendCloseSend ((0, 0), event)) = some s ∧
      WriteDiscipline HandleSpec.eventStream (encodeEvent {}) s := by
  intro event
  have hinit : (traced HandleSpec.eventStream (encodeEvent {})).Reachable
      ⟨start none none, []⟩ := .init ⟨none, none, rfl⟩
  have hsome : ((traced HandleSpec.eventStream (encodeEvent {})).exec ⟨start none none, []⟩
      (sendCloseSend ((0, 0), event))).isSome = true := by decide +kernel
  obtain ⟨s, hs⟩ := Option.isSome_iff_exists.mp hsome
  have hreach := hinit.exec (sendCloseSend ((0, 0), event)) hs
  exact ⟨s, hs, (write_discipline.2 {}).1 s hreach⟩

end StreamHandle

open StreamHandle in
/-- The operations of the client let only valid messages through; a stream handle does so exactly
when its users send no others. -/
theorem only_valid_messages_leave_iff (c : Client.Config) :
    (∀ w : World,
      (∀ event, Gated (Client.eventRequest c.opts c.uuid w.closed event) Rpc.sendEvent
        (Client.Resolves c event.channel event.body event.metadata) id
        (Client.sendEvent c event w) w) ∧
      (∀ event, Gated (Client.eventStoreRequest c.opts c.uuid w.closed event) Rpc.sendEvent
        (Client.Resolves c event.channel event.body event.metadata) StatusOr.status
        (Client.sendEventStore c event w) w) ∧
      (∀ command, Gated (Client.commandRequest c.opts c.uuid w.closed command) Rpc.sendRequest
        (Client.Resolves c command.channel command.body command.metadata) StatusOr.status
        (Client.sendCommand c command w) w) ∧
      (∀ query, Gated (Client.queryRequest c.opts c.uuid w.closed query) Rpc.sendRequest
        (Client.Resolves c query.channel query.body query.metadata) StatusOr.status
        (Client.sendQuery c query w) w) ∧
      (∀ message, Gated (Client.queueMessageRequest c.opts w.closed message) Rpc.sendQueueMessage
        (Client.Resolves c message.channel message.body message.metadata) StatusOr.status
        (Client.sendQueueMessage c message w) w) ∧
      ∀ messages, Gated (Client.queueMessagesRequest c.opts c.uuid w.closed messages)
        Rpc.sendQueueMessagesBatch
        (∀ m ∈ messages, Client.Resolves c m.channel m.body m.metadata) StatusOr.status
        (Client.sendQueueMessages c messages w) w) ∧
    (∀ users : (UInt64 × UInt64) × Event → Prop,
      (∀ s, (traced HandleSpec.eventStream (encodeEvent c.opts)).Reach (SendOnly users) s →
        SendsValid (fun m => Sendable m.2.channel m.2.body m.2.metadata)
          (fun e => Sendable e.channel e.body e.metadata) s) ↔
      ∀ m, users m → Sendable m.2.channel m.2.body m.2.metadata) ∧
    (∀ users : (UInt64 × UInt64) × EventStore → Prop,
      (∀ s, (traced HandleSpec.eventStoreStream (encodeEventStore c.opts)).Reach (SendOnly users) s →
        SendsValid (fun m => Sendable m.2.channel m.2.body m.2.metadata)
          (fun e => Sendable e.channel e.body e.metadata) s) ↔
      ∀ m, users m → Sendable m.2.channel m.2.body m.2.metadata) ∧
    ∀ users : (UInt64 × UInt64) × String × List QueueMessage → Prop,
      (∀ s, (traced HandleSpec.queueUpstream (encodeUpstream c.opts)).Reach (SendOnly users) s →
        SendsValid (fun m => ∀ q ∈ m.2.2, Sendable q.channel q.body q.metadata)
          (fun r => ∀ p ∈ r.messages, Sendable p.channel p.body p.metadata) s) ↔
      ∀ m, users m → ∀ q ∈ m.2.2, Sendable q.channel q.body q.metadata := by
  refine ⟨?_, ?_, ?_, ?_⟩
  · intro w
    exact ⟨Client.sendEvent_gated c w, Client.sendEventStore_gated c w, Client.sendCommand_gated c w,
      Client.sendQuery_gated c w, Client.sendQueueMessage_gated c w,
      Client.sendQueueMessages_gated c w⟩
  · intro users
    exact sends_valid_iff HandleSpec.eventStream (fun _ => Iff.rfl)
  · intro users
    exact sends_valid_iff HandleSpec.eventStoreStream (fun _ => Iff.rfl)
  · intro users
    apply sends_valid_iff HandleSpec.queueUpstream
    intro m
    exact List.forall_mem_map

namespace StreamHandle

/-- An event that the builder accepts and `SendEvent` does not. -/
def wildcardEvent : Event where
  id := "e1"
  channel := "orders.*"
  body := [1]

/-- Its `Send` on a stream handle returns OK, and it is written. -/
theorem wildcard_event_is_written :
    EventBuilder.build (generateUUID (0, 0)) { id := "e1", channel := "orders.*", body := [1] }
        = .value wildcardEvent ∧
      ¬Sendable wildcardEvent.channel wildcardEvent.body wildcardEvent.metadata ∧
      ∃ s, (traced HandleSpec.eventStream (encodeEvent {})).exec ⟨start none none, []⟩
          [.begin (.send ((0, 0), wildcardEvent)), .call 0 .tau, .call 0 .tau,
            .call 0 (.wrote true), .call 0 .tau] = some s ∧
        s.handle.mem.log = [.write 0 ⟨"e1", "", "orders.*", "", [1], false, ∅⟩ true] ∧
        s.handle.calls = [.sent .okStatus] := by
  refine ⟨rfl, ?_, _, rfl, rfl, rfl⟩
  intro h
  exact absurd h.noStar (by decide)

lemma sample_sendable : Sendable "orders" [1] "" :=
  (@sendable_iff "orders" "" "" [1]).mp ⟨by decide +kernel, by decide +kernel⟩

theorem only_valid_messages_leave_iff_sample :
    let event : Event := { id := "e1", channel := "orders", body := [1] }
    let c := Client.sampleClient "" ⟨"", "1", "", "", [], false, 0, true, "", ∅⟩
    (Client.sendEvent c wildcardEvent Client.freshWorld).1.code = .kValidation ∧
      ∀ s, (traced HandleSpec.eventStream (encodeEvent {})).Reach
          (SendOnly fun m => m = ((0, 0), event)) s →
        SendsValid (fun m => Sendable m.2.channel m.2.body m.2.metadata)
          (fun e => Sendable e.channel e.body e.metadata) s := by
  intro event c
  obtain ⟨operations, events, -, -⟩ := only_valid_messages_leave_iff c
  refine ⟨?_, ?_⟩
  · refine (((operations Client.freshWorld).1 wildcardEvent).refused ?_).2 rfl
    intro h
    exact absurd h.noStar (by decide)
  · apply (events fun m => m = ((0, 0), event)).mpr
    rintro m rfl
    exact sample_sendable

end StreamHandle

end KubeMQ
