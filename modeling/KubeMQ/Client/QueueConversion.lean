import KubeMQ.Client.Unary
import KubeMQ.Downstream.Model
import KubeMQ.Types.Uuid

/-!
# Received queue messages

`QueueMessageFromProto` goes through `QueueMessage::Builder`, which refuses a message without a
channel or without content and generates an id where there is none. `contents` is the message that
the fields of a wire message describe, and `Survives` tells which wire messages become theirs.
-/

namespace KubeMQ

namespace Proto.QueueMessage

/-- The message that the fields describe; an absent submessage reads as the default. -/
def contents (p : Proto.QueueMessage) : KubeMQ.QueueMessage where
  id := p.messageID
  channel := p.channel
  metadata := p.metadata
  body := p.body
  clientId := p.clientID
  tags := p.tags
  policy := (p.policy.map queuePolicyFromProto).getD {}
  attributes := (p.attributes.map queueAttributesFromProto).getD {}

/-- The builder accepts the message and has no id to generate. -/
structure Complete (p : Proto.QueueMessage) : Prop where
  id : p.messageID ≠ ""
  channel : p.channel ≠ ""
  content : p.body ≠ [] ∨ p.metadata ≠ ""

/-- Every field has its default value. -/
structure Blank (p : Proto.QueueMessage) : Prop where
  id : p.messageID = ""
  clientId : p.clientID = ""
  channel : p.channel = ""
  metadata : p.metadata = ""
  body : p.body = []
  tags : p.tags = ∅
  policy : p.policy = none ∨ p.policy = some ⟨0, 0, 0, ""⟩
  attributes : p.attributes = none ∨ p.attributes = some ⟨0, 0, "", 0, false, "", 0, 0⟩

def Survives (p : Proto.QueueMessage) : Prop := p.Complete ∨ p.Blank

end Proto.QueueMessage

open Proto.QueueMessage

lemma queuePolicyFromProto_default {p : Proto.QueueMessagePolicy}
    (h : queuePolicyFromProto p = {}) : p = ⟨0, 0, 0, ""⟩ := by
  obtain ⟨expiration, delay, count, queue⟩ := p
  simpa [queuePolicyFromProto] using h

lemma queueAttributesFromProto_default {p : Proto.QueueMessageAttributes}
    (h : queueAttributesFromProto p = {}) : p = ⟨0, 0, "", 0, false, "", 0, 0⟩ := by
  obtain ⟨timestamp, sequence, md5, count, rerouted, queue, expiration, delayed⟩ := p
  simpa [queueAttributesFromProto] using h

/-- The contents are the default message exactly for a blank wire message. -/
lemma contents_eq_default {p : Proto.QueueMessage} : p.contents = {} ↔ p.Blank := by
  constructor
  · intro h
    obtain ⟨id, clientId, channel, metadata, body, tags, attributes, policy⟩ := p
    simp only [contents, KubeMQ.QueueMessage.mk.injEq] at h
    obtain ⟨hid, hch, hmeta, hbody, hclient, htags, hpolicy, hattributes⟩ := h
    refine ⟨hid, hclient, hch, hmeta, hbody, htags, ?_, ?_⟩
    · cases policy with
      | none => exact .inl rfl
      | some q => exact .inr (congrArg some (queuePolicyFromProto_default hpolicy))
    · cases attributes with
      | none => exact .inl rfl
      | some a => exact .inr (congrArg some (queueAttributesFromProto_default hattributes))
  · intro h
    obtain ⟨id, clientId, channel, metadata, body, tags, attributes, policy⟩ := p
    obtain ⟨rfl, rfl, rfl, rfl, rfl, rfl, hpolicy, hattributes⟩ := h
    simp only at hpolicy hattributes
    rcases hpolicy with rfl | rfl <;> rcases hattributes with rfl | rfl <;> rfl

/-- A message that the builder refuses becomes the default message. -/
lemma queueMessageFromProto_refused {uuid : String} {p : Proto.QueueMessage}
    (h : p.channel = "" ∨ (p.body = [] ∧ p.metadata = "")) : queueMessageFromProto uuid p = {} := by
  rcases h with hch | ⟨hbody, hmeta⟩
  · simp [queueMessageFromProto, QueueMessageBuilder.build, hch]
  · cases hch : p.channel.isEmpty <;>
      simp [queueMessageFromProto, QueueMessageBuilder.build, hch, hbody, hmeta]

/-- A complete message is kept, whatever id might have been generated. -/
lemma queueMessageFromProto_complete (uuid : String) {p : Proto.QueueMessage} (h : p.Complete) :
    queueMessageFromProto uuid p = p.contents := by
  have hid : p.messageID.isEmpty = false := by simpa [String.isEmpty_iff] using h.id
  have haccepted := queueMessageFromProto_accepted uuid p
    (by simpa [String.isEmpty_iff] using h.channel)
    (by simpa [String.isEmpty_iff, List.isEmpty_eq_false_iff] using h.content)
  rw [haccepted]
  simp only [hid, Bool.false_eq_true, if_false, contents]

/-- The conversion keeps a wire message exactly when it is complete or blank. -/
lemma queueMessageFromProto_eq_iff (draw : UInt64 × UInt64) (p : Proto.QueueMessage) :
    queueMessageFromProto (generateUUID draw) p = p.contents ↔ p.Survives := by
  by_cases hrefused : p.channel = "" ∨ (p.body = [] ∧ p.metadata = "")
  · rw [queueMessageFromProto_refused hrefused, eq_comm, contents_eq_default]
    refine ⟨.inr, ?_⟩
    rintro (complete | blank)
    · rcases hrefused with hch | ⟨hbody, hmeta⟩
      · exact absurd hch complete.channel
      · rcases complete.content with hne | hne
        · exact absurd hbody hne
        · exact absurd hmeta hne
    · exact blank
  · have hch : p.channel ≠ "" := fun h => hrefused (.inl h)
    have hcontent : p.body ≠ [] ∨ p.metadata ≠ "" := by
      by_contra h
      simp only [not_or, ne_eq, not_not] at h
      exact hrefused (.inr h)
    constructor
    · intro h
      refine .inl ⟨?_, hch, hcontent⟩
      intro hid
      -- the id that comes out is the generated one
      have haccepted := queueMessageFromProto_accepted (generateUUID draw) p
        (by simpa [String.isEmpty_iff] using hch)
        (by simpa [String.isEmpty_iff, List.isEmpty_eq_false_iff] using hcontent)
      have hcontents := congrArg KubeMQ.QueueMessage.id (haccepted.symm.trans h)
      simp only [contents, hid, String.isEmpty_iff, if_true] at hcontents
      exact generateUUID_ne_empty draw hcontents
    · rintro (complete | blank)
      · exact queueMessageFromProto_complete _ complete
      · exact absurd blank.channel hch

/-- What `QueueMessage::Builder` promises. -/
lemma queueMessage_built {draw : UInt64 × UInt64} {b : QueueMessageBuilder} {m : QueueMessage}
    (h : b.build (generateUUID draw) = .value m) :
    m.id ≠ "" ∧ m.channel ≠ "" ∧ (m.body ≠ [] ∨ m.metadata ≠ "") ∧ m.attributes = {} := by
  unfold QueueMessageBuilder.build at h
  split at h
  · cases h
  · next hch =>
    split at h
    · cases h
    · next hcontent =>
      cases h
      refine ⟨firstNonEmpty_ne b.id (generateUUID_ne_empty draw), ?_, ?_, rfl⟩
      · simpa [String.isEmpty_iff] using hch
      · rw [Bool.and_eq_true, not_and_or] at hcontent
        simpa [String.isEmpty_iff, List.isEmpty_iff] using hcontent

lemma contents_toProto {m : QueueMessage} (sender : String) (hclient : m.clientId ≠ "") :
    (queueMessageToProto m sender).contents = { m with attributes := {} } := by
  simp only [contents, queueMessageToProto, firstNonEmpty_of_ne hclient, Tags.copy_eq,
    Option.map_some, Option.getD_some, queuePolicyFromProto, queuePolicyToProto, Option.map_none,
    Option.getD_none]

/-- A built message with a client id survives being sent and received. -/
lemma queueMessageFromProto_toProto {draw : UInt64 × UInt64} {b : QueueMessageBuilder}
    {m : QueueMessage} (uuid sender : String) (h : b.build (generateUUID draw) = .value m)
    (hclient : m.clientId ≠ "") :
    queueMessageFromProto uuid (queueMessageToProto m sender) = m := by
  obtain ⟨hid, hch, hcontent, hattributes⟩ := queueMessage_built h
  have complete : (queueMessageToProto m sender).Complete := ⟨hid, hch, hcontent⟩
  rw [queueMessageFromProto_complete uuid complete, contents_toProto sender hclient, ← hattributes]

/-- Two ways to go through a list agree when they agree on every entry. -/
lemma mapIdx_eq_map_iff {A B : Type} {f : ℕ → A → B} {g : A → B} {P : A → Prop}
    (h : ∀ k a, f k a = g a ↔ P a) (as : List A) : as.mapIdx f = as.map g ↔ ∀ a ∈ as, P a := by
  induction as generalizing f with
  | nil => simp
  | cons a as ih =>
    rw [List.mapIdx_cons, List.map_cons, List.cons.injEq, h 0 a,
      ih fun k b => h (k + 1) b, List.forall_mem_cons]

/-- A receive that returns a value has converted the answer of the stub. -/
lemma Client.receiveQueueMessages_value {c : Config} {w : World} {uuids : ℕ → String}
    {request : ReceiveQueueMessagesRequest} {r : ReceiveQueueMessagesResponse}
    (h : (receiveQueueMessages c uuids request w).1 = .value r) :
    r.messages = (c.net.receiveQueueMessages w.calls.length).2.messages.mapIdx
      fun k p => queueMessageFromProto (uuids k) p := by
  unfold receiveQueueMessages unary at h
  split at h
  · cases h
  · next q _ =>
    simp only [GrpcTransport.receiveQueueMessages] at h
    rcases GrpcTransport.attempt_result w with ⟨s, hs⟩ | hs
    · rw [hs] at h
      cases h
    · rw [hs] at h
      split at h
      · cases h
      · unfold receiveQueueMessagesResponse at h
        split at h
        · cases h
        · next hq =>
          cases hq
          split at h
          · cases h
          · cases h
            rfl

/-- Received queue messages are handed over unchanged exactly when all of them are complete or
blank; a built message with a client id survives the trip. -/
theorem queue_messages_survive_iff (draw : UInt64 × UInt64) (draws : ℕ → UInt64 × UInt64) :
    (∀ p : Proto.QueueMessage,
      queueMessageFromProto (generateUUID draw) p = p.contents ↔ p.Survives) ∧
    (∀ (b : QueueMessageBuilder) (m : QueueMessage) (uuid sender : String),
      b.build (generateUUID draw) = .value m → m.clientId ≠ "" →
      queueMessageFromProto uuid (queueMessageToProto m sender) = m) ∧
    (∀ (request : PollRequest) (resp : Proto.QueuesDownstreamResponse) (r : PollResponse),
      Downstream.pollResult (fun k => generateUUID (draws k)) request resp = .value r →
      (r.messages.map QueueDownstreamMessage.message = resp.messages.map contents ↔
        ∀ p ∈ resp.messages, p.Survives)) ∧
    ∀ (c : Client.Config) (w : World) (request : ReceiveQueueMessagesRequest)
      (r : ReceiveQueueMessagesResponse),
      (Client.receiveQueueMessages c (fun k => generateUUID (draws k)) request w).1 = .value r →
      (r.messages = (c.net.receiveQueueMessages w.calls.length).2.messages.map contents ↔
        ∀ p ∈ (c.net.receiveQueueMessages w.calls.length).2.messages, p.Survives) := by
  refine ⟨queueMessageFromProto_eq_iff draw, ?_, ?_, ?_⟩
  · intro b m uuid sender h hclient
    exact queueMessageFromProto_toProto uuid sender h hclient
  · intro request resp r h
    unfold Downstream.pollResult at h
    split at h
    · cases h
    · cases h
      have hmap : (resp.messages.mapIdx fun k p =>
          Downstream.downstreamMessage (generateUUID (draws k)) request resp p).map
            QueueDownstreamMessage.message
          = resp.messages.mapIdx fun k p => queueMessageFromProto (generateUUID (draws k)) p := by
        apply List.ext_getElem?
        intro k
        simp only [List.getElem?_map, List.getElem?_mapIdx, Option.map_map]
        rfl
      rw [Downstream.pollResponse, hmap]
      exact mapIdx_eq_map_iff (fun k p => queueMessageFromProto_eq_iff (draws k) p) _
  · intro c w request r h
    rw [Client.receiveQueueMessages_value h]
    exact mapIdx_eq_map_iff (fun k p => queueMessageFromProto_eq_iff (draws k) p) _

/-- A message without a channel, as a server may send it. -/
def unaddressed : Proto.QueueMessage where
  messageID := "m"
  clientID := "producer"
  channel := ""
  metadata := ""
  body := [1]
  tags := ∅
  attributes := some ⟨0, 7, "", 1, false, "", 0, 0⟩
  policy := none

/-- It is received as the default message, without its id, its body and its sequence. -/
theorem unaddressed_is_lost :
    queueMessageFromProto (generateUUID (0, 0)) unaddressed = {} ∧
      queueMessageFromProto (generateUUID (0, 0)) unaddressed ≠ unaddressed.contents := by
  refine ⟨rfl, ?_⟩
  decide

theorem queue_messages_survive_iff_sample :
    let resp := Downstream.sampleResponse "u" "tx" .Get [Downstream.sampleMessage]
    let message : QueueMessage := { id := "m", channel := "orders", body := [1], clientId := "a" }
    queueMessageFromProto "u" (queueMessageToProto message "b") = message ∧
      ∃ r, Downstream.pollResult (fun k => generateUUID (k.toUInt64, 0)) { channel := "orders" } resp
          = .value r ∧
        r.messages.map QueueDownstreamMessage.message = resp.messages.map contents := by
  intro resp message
  obtain ⟨-, trip, poll, -⟩ := queue_messages_survive_iff (0, 0) fun k => (k.toUInt64, 0)
  refine ⟨?_, _, rfl, ?_⟩
  · exact trip { id := "m", channel := "orders", body := [1], clientId := "a" } message "u" "b"
      rfl (by decide)
  · refine (poll { channel := "orders" } resp _ rfl).mpr ?_
    intro p hp
    rw [List.mem_singleton.mp hp]
    exact .inl ⟨by decide, by decide, .inl (by decide)⟩

end KubeMQ
