import KubeMQ.Types.Status
import KubeMQ.Types.Validation

/-!
# Messages that are sent

`Event`, `EventStore`, `Command`, `CommandReply`, `Query` and `QueryReply` with their builders
(`event.cc`, `event_store.cc`, `command.cc`, `query.cc`). A builder is the record of what its
setters stored; `build` checks part of it and, for the messages that have an id, generates one when
it is empty: `uuid` is what `GenerateUUID` returns. Durations are in milliseconds.
-/

namespace KubeMQ

structure Event where
  id : String := ""
  channel : String := ""
  metadata : String := ""
  body : Body := []
  clientId : String := ""
  tags : Tags := ∅

structure EventStore where
  id : String := ""
  channel : String := ""
  metadata : String := ""
  body : Body := []
  clientId : String := ""
  tags : Tags := ∅

structure Command where
  id : String := ""
  channel : String := ""
  metadata : String := ""
  body : Body := []
  timeout : Int := 0
  clientId : String := ""
  tags : Tags := ∅

structure Query where
  id : String := ""
  channel : String := ""
  metadata : String := ""
  body : Body := []
  timeout : Int := 0
  clientId : String := ""
  cacheKey : String := ""
  cacheTtl : Int := 0
  tags : Tags := ∅

structure CommandReply where
  requestId : String := ""
  responseTo : String := ""
  metadata : String := ""
  body : Body := []
  clientId : String := ""
  tags : Tags := ∅
  error : String := ""
  executedAt : Int := 0
  executed : Bool := true

structure QueryReply where
  requestId : String := ""
  responseTo : String := ""
  metadata : String := ""
  body : Body := []
  clientId : String := ""
  tags : Tags := ∅
  error : String := ""
  executedAt : Int := 0
  cacheHit : Bool := false
  executed : Bool := true

/-- The check that the builders of `Event` and `EventStore` make. -/
def builderCheck (channel : String) (body : Body) (metadata : String) : Status :=
  if channel.isEmpty then ⟨.kValidation, "channel is required", "", "", ""⟩
  else if body.isEmpty && metadata.isEmpty then
    ⟨.kValidation, "body or metadata is required", "", "", ""⟩
  else .okStatus

/-- The builders of `Command` and `Query` also want a timeout. -/
def rpcBuilderCheck (channel : String) (body : Body) (metadata : String) (timeout : Int) :
    Status :=
  let s := builderCheck channel body metadata
  if !s.ok then s
  else if timeout ≤ 0 then ⟨.kValidation, "timeout must be > 0", "", "", ""⟩
  else .okStatus

/-- The builders of the replies want to know where the reply goes. -/
def replyBuilderCheck (requestId responseTo operation : String) : Status :=
  if requestId.isEmpty then ⟨.kValidation, "request_id is required", operation, "", ""⟩
  else if responseTo.isEmpty then ⟨.kValidation, "response_to is required", operation, "", ""⟩
  else .okStatus

/-- `Build` of the six builders: a failed check, or the message. -/
def built {A : Type} (s : Status) (a : A) : StatusOr A := if !s.ok then .error s else .value a

/-- `Event::Builder`. -/
structure EventBuilder where
  id : String := ""
  channel : String := ""
  metadata : String := ""
  body : Body := []
  clientId : String := ""
  tags : Tags := ∅

def EventBuilder.build (uuid : String) (b : EventBuilder) : StatusOr Event :=
  built (builderCheck b.channel b.body b.metadata)
    { id := if b.id.isEmpty then uuid else b.id
      channel := b.channel
      metadata := b.metadata
      body := b.body
      clientId := b.clientId
      tags := b.tags }

/-- `EventStore::Builder`. -/
structure EventStoreBuilder where
  id : String := ""
  channel : String := ""
  metadata : String := ""
  body : Body := []
  clientId : String := ""
  tags : Tags := ∅

def EventStoreBuilder.build (uuid : String) (b : EventStoreBuilder) : StatusOr EventStore :=
  built (builderCheck b.channel b.body b.metadata)
    { id := if b.id.isEmpty then uuid else b.id
      channel := b.channel
      metadata := b.metadata
      body := b.body
      clientId := b.clientId
      tags := b.tags }

/-- `Command::Builder`. -/
structure CommandBuilder where
  id : String := ""
  channel : String := ""
  metadata : String := ""
  body : Body := []
  timeout : Int := 0
  clientId : String := ""
  tags : Tags := ∅

def CommandBuilder.build (uuid : String) (b : CommandBuilder) : StatusOr Command :=
  built (rpcBuilderCheck b.channel b.body b.metadata b.timeout)
    { id := if b.id.isEmpty then uuid else b.id
      channel := b.channel
      metadata := b.metadata
      body := b.body
      timeout := b.timeout
      clientId := b.clientId
      tags := b.tags }

/-- `Query::Builder`. -/
structure QueryBuilder where
  id : String := ""
  channel : String := ""
  metadata : String := ""
  body : Body := []
  timeout : Int := 0
  clientId : String := ""
  cacheKey : String := ""
  cacheTtl : Int := 0
  tags : Tags := ∅

def QueryBuilder.build (uuid : String) (b : QueryBuilder) : StatusOr Query :=
  built (rpcBuilderCheck b.channel b.body b.metadata b.timeout)
    { id := if b.id.isEmpty then uuid else b.id
      channel := b.channel
      metadata := b.metadata
      body := b.body
      timeout := b.timeout
      clientId := b.clientId
      cacheKey := b.cacheKey
      cacheTtl := b.cacheTtl
      tags := b.tags }

/-- `CommandReply::Builder`. -/
structure CommandReplyBuilder where
  requestId : String := ""
  responseTo : String := ""
  metadata : String := ""
  body : Body := []
  clientId : String := ""
  tags : Tags := ∅
  error : String := ""
  executedAt : Int := 0
  executed : Bool := true

def CommandReplyBuilder.build (b : CommandReplyBuilder) : StatusOr CommandReply :=
  built (replyBuilderCheck b.requestId b.responseTo "CommandReply::Build")
    { requestId := b.requestId
      responseTo := b.responseTo
      metadata := b.metadata
      body := b.body
      clientId := b.clientId
      tags := b.tags
      error := b.error
      executedAt := b.executedAt
      executed := b.executed }

/-- `QueryReply::Builder`. -/
structure QueryReplyBuilder where
  requestId : String := ""
  responseTo : String := ""
  metadata : String := ""
  body : Body := []
  clientId : String := ""
  tags : Tags := ∅
  error : String := ""
  executedAt : Int := 0
  cacheHit : Bool := false
  executed : Bool := true

def QueryReplyBuilder.build (b : QueryReplyBuilder) : StatusOr QueryReply :=
  built (replyBuilderCheck b.requestId b.responseTo "QueryReply::Build")
    { requestId := b.requestId
      responseTo := b.responseTo
      metadata := b.metadata
      body := b.body
      clientId := b.clientId
      tags := b.tags
      error := b.error
      executedAt := b.executedAt
      cacheHit := b.cacheHit
      executed := b.executed }

lemma built_value {A : Type} {s : Status} {a x : A} (h : built s a = .value x) :
    s.ok = true ∧ x = a := by
  unfold built at h
  cases hs : s.ok with
  | true =>
    rw [hs] at h
    exact ⟨rfl, (StatusOr.value.inj h).symm⟩
  | false =>
    rw [hs] at h
    cases h

lemma builderCheck_ok {channel metadata : String} {body : Body} :
    (builderCheck channel body metadata).ok = true ↔
      channel.isEmpty = false ∧ (body.isEmpty && metadata.isEmpty) = false := by
  unfold builderCheck
  cases channel.isEmpty with
  | true => simp [Status.ok]
  | false =>
    cases body.isEmpty && metadata.isEmpty with
    | true => simp [Status.ok]
    | false => simp

lemma rpcBuilderCheck_ok {channel metadata : String} {body : Body} {timeout : Int} :
    (rpcBuilderCheck channel body metadata timeout).ok = true ↔
      (builderCheck channel body metadata).ok = true ∧ 0 < timeout := by
  unfold rpcBuilderCheck
  cases hs : (builderCheck channel body metadata).ok with
  | false => simp [hs]
  | true =>
    by_cases ht : timeout ≤ 0
    · have hrefused : (Status.mk .kValidation "timeout must be > 0" "" "" "").ok = false := rfl
      simp only [hs, Bool.not_true, Bool.false_eq_true, if_false, if_pos ht, hrefused, true_and,
        false_iff]
      omega
    · simp only [hs, Bool.not_true, Bool.false_eq_true, if_false, if_neg ht, Status.ok_okStatus,
        true_and, true_iff]
      omega

end KubeMQ
