import KubeMQ.Types.Status
import KubeMQ.Types.Validation

/-!
# Queue messages

`include/kubemq/queue_message.h`, `src/queue_message.cc` and `QueueMessageFromProto` of
`converter.cc`. `GenerateUUID` is random; a function that calls it takes the generated string.
-/

namespace KubeMQ

structure QueuePolicy where
  expirationSeconds : Int := 0
  delaySeconds : Int := 0
  maxReceiveCount : Int := 0
  maxReceiveQueue : String := ""
  deriving DecidableEq

structure QueueMessageAttributes where
  timestamp : Int := 0
  sequence : Nat := 0
  md5OfBody : String := ""
  receiveCount : Int := 0
  reRouted : Bool := false
  reRoutedFromQueue : String := ""
  expirationAt : Int := 0
  delayedTo : Int := 0
  deriving DecidableEq

structure QueueMessage where
  id : String := ""
  channel : String := ""
  metadata : String := ""
  body : Body := []
  clientId : String := ""
  tags : Tags := ∅
  policy : QueuePolicy := {}
  attributes : QueueMessageAttributes := {}
  deriving DecidableEq

/-- `QueueMessage::Builder`. -/
structure QueueMessageBuilder where
  id : String := ""
  channel : String := ""
  metadata : String := ""
  body : Body := []
  clientId : String := ""
  tags : Tags := ∅
  policy : QueuePolicy := {}
  deriving DecidableEq

def QueueMessageBuilder.build (uuid : String) (b : QueueMessageBuilder) : StatusOr QueueMessage :=
  if b.channel.isEmpty then .error ⟨.kValidation, "channel is required", "", "", ""⟩
  else if b.body.isEmpty && b.metadata.isEmpty then
    .error ⟨.kValidation, "body or metadata is required", "", "", ""⟩
  else
    .value {
      id := if b.id.isEmpty then uuid else b.id
      channel := b.channel
      metadata := b.metadata
      body := b.body
      clientId := b.clientId
      tags := b.tags
      policy := b.policy }

def queuePolicyFromProto (p : Proto.QueueMessagePolicy) : QueuePolicy where
  expirationSeconds := p.expirationSeconds
  delaySeconds := p.delaySeconds
  maxReceiveCount := p.maxReceiveCount
  maxReceiveQueue := p.maxReceiveQueue

def queueAttributesFromProto (p : Proto.QueueMessageAttributes) : QueueMessageAttributes where
  timestamp := p.timestamp
  sequence := p.sequence
  md5OfBody := p.md5OfBody
  receiveCount := p.receiveCount
  reRouted := p.reRouted
  reRoutedFromQueue := p.reRoutedFromQueue
  expirationAt := p.expirationAt
  delayedTo := p.delayedTo

/-- A message that the builder rejects becomes the default message. -/
def queueMessageFromProto (uuid : String) (p : Proto.QueueMessage) : QueueMessage :=
  let builder : QueueMessageBuilder := {
    id := p.messageID
    channel := p.channel
    clientId := p.clientID
    metadata := p.metadata
    body := p.body
    tags := p.tags.copy
    policy := (p.policy.map queuePolicyFromProto).getD {} }
  match builder.build uuid with
  | .error _ => {}
  | .value msg => { msg with attributes := (p.attributes.map queueAttributesFromProto).getD {} }

/-- Of a message that the builder accepts, the conversion keeps every field. -/
lemma queueMessageFromProto_accepted (uuid : String) (p : Proto.QueueMessage)
    (hc : p.channel.isEmpty = false) (hb : p.body.isEmpty = false ∨ p.metadata.isEmpty = false) :
    queueMessageFromProto uuid p = {
      id := if p.messageID.isEmpty then uuid else p.messageID
      channel := p.channel
      metadata := p.metadata
      body := p.body
      clientId := p.clientID
      tags := p.tags
      policy := (p.policy.map queuePolicyFromProto).getD {}
      attributes := (p.attributes.map queueAttributesFromProto).getD {} } := by
  have hbm : (p.body.isEmpty && p.metadata.isEmpty) = false := by
    rcases hb with hb | hb <;> simp [hb]
  simp [queueMessageFromProto, QueueMessageBuilder.build, hc, hbm]

end KubeMQ
