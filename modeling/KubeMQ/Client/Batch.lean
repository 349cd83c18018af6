import KubeMQ.Client.Unary
import Mathlib.Data.List.Forall2

/-!
# Batches of queue messages

`SendQueueMessages` against `SendQueueMessage`: a batch is refused as a whole for its first
offending message, or sent in one call as the messages would be sent one by one.
-/

namespace KubeMQ

namespace Client

section
variable (opts : ClientOptions)

/-- The check that a message of a batch fails: the one of its channel, then the one of its content. -/
def offence (message : QueueMessage) : Option Status :=
  let channel := validateChannelNoWildcard (firstNonEmpty message.channel opts.defaultChannel)
    "SendQueueMessages"
  let body := validateBody message.body message.metadata "SendQueueMessages"
  if !channel.ok then some channel else if !body.ok then some body else none

/-- The first message of the batch that fails a check fails it with `s`. -/
def FirstOffence (messages : List QueueMessage) (s : Status) : Prop :=
  ∃ before message after, messages = before ++ message :: after ∧
    (∀ m ∈ before, offence opts m = none) ∧ offence opts message = some s

/-- The message as it is sent. -/
def queueMessageProto (message : QueueMessage) : Proto.QueueMessage :=
  { queueMessageToProto message opts.clientId with
    channel := firstNonEmpty message.channel opts.defaultChannel }

end

/-- The batch must not be sent. -/
def BatchInvalid (opts : ClientOptions) (messages : List QueueMessage) : Prop :=
  messages = [] ∨ ∃ m ∈ messages, offence opts m ≠ none

/-- A result as the client returns it. -/
structure SameResult (p : Proto.SendQueueMessageResult) (r : QueueSendResult) : Prop where
  messageId : r.messageId = p.messageID
  sentAt : r.sentAt = p.sentAt
  expirationAt : r.expirationAt = p.expirationAt
  delayedTo : r.delayedTo = p.delayedTo
  isError : r.isError = p.isError
  error : r.error = p.error

/-- Nothing is called, and the error is the one of the first offending message. -/
def BatchRefused (c : Config) (messages : List QueueMessage) (w : World) : Prop :=
  ∃ s, sendQueueMessages c messages w = (.error s, w) ∧ s.code = .kValidation ∧
    (messages ≠ [] → FirstOffence c.opts messages s)

/-- The transport is called once, with the message that `SendQueueMessage` would send for each
message of the batch, and the results are returned in their order. -/
def BatchSent (c : Config) (messages : List QueueMessage) (w : World) : Prop :=
  ∃ protos, List.Forall₂ (fun m p => queueMessageRequest c.opts w.closed m = .value p)
      messages protos ∧
    (sendQueueMessages c messages w).2 =
      (GrpcTransport.sendQueueMessagesBatch c.net c.opts ⟨c.uuid, protos⟩ w).2 ∧
    (sendQueueMessages c messages w).2.attempts = w.attempts + 1 ∧
    (∀ rpc, w.Called (sendQueueMessages c messages w).2 rpc →
      rpc = .sendQueueMessagesBatch ⟨c.uuid, protos⟩) ∧
    (∀ s, (GrpcTransport.sendQueueMessagesBatch c.net c.opts ⟨c.uuid, protos⟩ w).1 = .error s →
      (sendQueueMessages c messages w).1 = .error s) ∧
    ∀ response,
      (GrpcTransport.sendQueueMessagesBatch c.net c.opts ⟨c.uuid, protos⟩ w).1 = .value response →
      ∃ results, (sendQueueMessages c messages w).1 = .value results ∧
        List.Forall₂ SameResult response.results results

/-- A batch is refused exactly when it is not to be sent. -/
def AllOrNothing (c : Config) (messages : List QueueMessage) (w : World) : Prop :=
  (BatchInvalid c.opts messages ∧ BatchRefused c messages w) ∨
    (¬BatchInvalid c.opts messages ∧ BatchSent c messages w)

section
variable {opts : ClientOptions}

/-- A message offends exactly when it may not be sent. -/
lemma offence_eq_none {m : QueueMessage} :
    offence opts m = none ↔
      Sendable (firstNonEmpty m.channel opts.defaultChannel) m.body m.metadata := by
  rw [← @sendable_iff _ _ "SendQueueMessages" _]
  unfold offence
  dsimp only
  split
  next hch => simp_all
  next hch =>
    split
    next hbody => simp_all
    next hbody => simp_all

lemma offence_code {m : QueueMessage} {s : Status} (h : offence opts m = some s) :
    s.code = .kValidation := by
  unfold offence at h
  dsimp only at h
  split at h
  next hch =>
    obtain rfl := Option.some.inj h
    exact validateChannelNoWildcard_error (by simpa using hch)
  next hch =>
    split at h
    next hbody =>
      obtain rfl := Option.some.inj h
      exact validateBody_error (by simpa using hbody)
    next hbody => cases h

/-- A message that does not offend is one that `SendQueueMessage` sends, unchanged. -/
lemma queueMessageRequest_of_sendable {m : QueueMessage} (h : offence opts m = none) :
    queueMessageRequest opts false m = .value (queueMessageProto opts m) := by
  obtain ⟨hch, hbody⟩ := (@sendable_iff _ _ "SendQueueMessage" _).mpr (offence_eq_none.mp h)
  simp [queueMessageRequest, checked, checkClosed, hch, hbody, queueMessageProto]

/-- What the loop does with one message. -/
lemma batchMessages_cons (m : QueueMessage) (ms : List QueueMessage) :
    batchMessages opts (m :: ms) =
      match offence opts m with
      | some s => .error s
      | none =>
        match batchMessages opts ms with
        | .error s => .error s
        | .value ps => .value (queueMessageProto opts m :: ps) := by
  simp only [batchMessages, offence]
  split
  · rfl
  · split
    · rfl
    · rfl

lemma FirstOffence.cons {m : QueueMessage} {ms : List QueueMessage} {s : Status}
    (hm : offence opts m = none) (h : FirstOffence opts ms s) : FirstOffence opts (m :: ms) s := by
  obtain ⟨before, message, after, rfl, hbefore, hmessage⟩ := h
  refine ⟨m :: before, message, after, rfl, ?_, hmessage⟩
  intro x hx
  obtain rfl | hx := List.mem_cons.mp hx
  · exact hm
  · exact hbefore x hx

/-- The loop stops at the first offending message. -/
lemma batchMessages_error {ms : List QueueMessage} (h : ∃ m ∈ ms, offence opts m ≠ none) :
    ∃ s, batchMessages opts ms = .error s ∧ FirstOffence opts ms s := by
  induction ms with
  | nil => simp at h
  | cons m ms ih =>
    rw [batchMessages_cons]
    cases hm : offence opts m with
    | some s => exact ⟨s, rfl, [], m, ms, rfl, List.forall_mem_nil _, hm⟩
    | none =>
      have hrest : ∃ x ∈ ms, offence opts x ≠ none := by
        obtain ⟨x, hx, hoffends⟩ := h
        obtain rfl | hx := List.mem_cons.mp hx
        · exact absurd hm hoffends
        · exact ⟨x, hx, hoffends⟩
      obtain ⟨s, hs, hfirst⟩ := ih hrest
      refine ⟨s, ?_, hfirst.cons hm⟩
      rw [hs]

/-- Without an offending message the loop converts them all. -/
lemma batchMessages_value {ms : List QueueMessage} (h : ∀ m ∈ ms, offence opts m = none) :
    batchMessages opts ms = .value (ms.map (queueMessageProto opts)) := by
  induction ms with
  | nil => rfl
  | cons m ms ih =>
    obtain ⟨hm, hms⟩ := List.forall_mem_cons.mp h
    rw [batchMessages_cons, hm, ih hms]
    rfl

end

lemma sameResult_queueSendResultFromProto (p : Proto.SendQueueMessageResult) :
    SameResult p (queueSendResultFromProto p) :=
  ⟨rfl, rfl, rfl, rfl, rfl, rfl⟩

section
variable {c : Config} {messages : List QueueMessage} {w : World}

lemma batchRefused_of_invalid (hopen : w.closed = false) (h : BatchInvalid c.opts messages) :
    BatchRefused c messages w := by
  unfold BatchRefused sendQueueMessages queueMessagesRequest
  rw [hopen]
  obtain rfl | hoffends := h
  · exact ⟨_, rfl, rfl, fun hne => absurd rfl hne⟩
  · obtain ⟨s, hs, hfirst⟩ := batchMessages_error hoffends
    have hne : messages ≠ [] := by
      rintro rfl
      simp at hoffends
    refine ⟨s, ?_, ?_, fun _ => hfirst⟩
    · simp [checkClosed, hs, hne, unary]
    · obtain ⟨before, message, after, -, -, hmessage⟩ := hfirst
      exact offence_code hmessage

/-- What is passed to the transport for a batch that may be sent. -/
lemma queueMessagesRequest_valid (h : ¬BatchInvalid c.opts messages) :
    queueMessagesRequest c.opts c.uuid false messages =
      .value ⟨c.uuid, messages.map (queueMessageProto c.opts)⟩ := by
  obtain ⟨hne, hclean⟩ := not_or.mp h
  push Not at hclean
  unfold queueMessagesRequest
  rw [batchMessages_value hclean]
  simp [checkClosed, hne]

lemma batchSent_of_valid (hopen : w.closed = false) (h : ¬BatchInvalid c.opts messages) :
    BatchSent c messages w := by
  have hclean : ∀ m ∈ messages, offence c.opts m = none := by
    intro m hm
    by_contra hoffends
    exact h (.inr ⟨m, hm, hoffends⟩)
  have hsend : sendQueueMessages c messages w = unary (.value
      ⟨c.uuid, messages.map (queueMessageProto c.opts)⟩) .error
      (GrpcTransport.sendQueueMessagesBatch c.net c.opts) (fun _ => queueMessagesResponse) w := by
    unfold sendQueueMessages
    rw [hopen, queueMessagesRequest_valid h]
  refine ⟨messages.map (queueMessageProto c.opts), ?_, ?_⟩
  · rw [List.forall₂_map_right_iff, List.forall₂_same, hopen]
    exact fun m hm => queueMessageRequest_of_sendable (hclean m hm)
  · rw [hsend]
    refine ⟨rfl, GrpcTransport.attempt_attempts w, ?_, ?_, ?_⟩
    · intro rpc hrpc
      exact (GrpcTransport.attempt_called hrpc).1
    · intro s hs
      simp only [unary, hs, queueMessagesResponse]
    · intro response hresponse
      refine ⟨response.results.map queueSendResultFromProto, ?_, ?_⟩
      · simp only [unary, hresponse, queueMessagesResponse]
      · rw [List.forall₂_map_right_iff, List.forall₂_same]
        exact fun p _ => sameResult_queueSendResultFromProto p

end

/-- An open client treats a batch as a whole; a closed one does not look at it. -/
theorem sendQueueMessages_allOrNothing (c : Config) (messages : List QueueMessage) (w : World) :
    if w.closed then sendQueueMessages c messages w = (.error kErrClientClosed, w)
    else AllOrNothing c messages w := by
  split
  next hclosed =>
    unfold sendQueueMessages queueMessagesRequest
    rw [hclosed]
    rfl
  next hopen =>
    have hopen : w.closed = false := by simpa using hopen
    by_cases hinvalid : BatchInvalid c.opts messages
    · exact .inl ⟨hinvalid, batchRefused_of_invalid hopen hinvalid⟩
    · exact .inr ⟨hinvalid, batchSent_of_valid hopen hinvalid⟩

/-- A closed client makes no call for a batch that may be sent. -/
theorem sendQueueMessages_closed_refuses :
    ¬AllOrNothing (sampleClient "a" ⟨"", "", "", "", [], false, 0, true, "", ∅⟩)
      [{ channel := "orders", body := [1] }] { freshWorld with closed := true } := by
  rintro (⟨hnil | ⟨m, hm, hoffends⟩, -⟩ | ⟨-, protos, -, -, hattempts, -⟩)
  · cases hnil
  · obtain rfl := List.mem_singleton.mp hm
    exact hoffends (by decide)
  · exact absurd hattempts (by decide)

end Client
end KubeMQ
