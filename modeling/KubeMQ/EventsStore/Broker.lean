import KubeMQ.Subscription.History
import Mathlib.Algebra.Group.Nat.Defs

/-!
# An events store subscription and its broker

`SubscriptionOption` (`subscription_option.cc`) and the `Subscribe` request that
`SubscribeToEventsStore` builds once and sends again, unchanged, with every re-subscription
(`client_events_store.cc`). The broker is the documented one: it stores the events of the channel
with consecutive sequence numbers from 1 on and with the time of storage, and serves a `Subscribe`
from the position that its `EventsStoreType` and `EventsStoreTypeValue` name at the time the
request reaches it. Times are in nanoseconds, the time delta is in seconds.

The subscription's side of the system is the reader thread of `Subscription.readerNext`; nobody
cancels it.
-/

namespace KubeMQ

open Proto (EventsStoreType)

structure SubscriptionOption where
  type : EventsStoreType
  value : Int
  deriving DecidableEq

namespace SubscriptionOption

def startFromNewEvents : SubscriptionOption := ⟨.StartNewOnly, 0⟩

def startFromFirstEvent : SubscriptionOption := ⟨.StartFromFirst, 0⟩

def startFromLastEvent : SubscriptionOption := ⟨.StartFromLast, 0⟩

/-- `static_cast<int64_t>(sequence)`. -/
def startFromSequence (sequence : ℕ) : SubscriptionOption :=
  ⟨.StartAtSequence, Int.bmod sequence (2 ^ 64)⟩

def startFromTime (time : Int) : SubscriptionOption := ⟨.StartAtTime, time⟩

def startFromTimeDelta (delta : Int) : SubscriptionOption := ⟨.StartAtTimeDelta, delta⟩

end SubscriptionOption

namespace EventsStore

open Subscription (Sub Handlers ReaderLabel readerNext messages onEvents)

/-- The request of `SubscribeToEventsStore`. -/
def subscribeRequest (clientId channel group : String) (o : SubscriptionOption) :
    Proto.Subscribe where
  subscribeTypeData := .EventsStore
  clientID := clientId
  channel := channel
  group := group
  eventsStoreTypeData := o.type
  eventsStoreTypeValue := o.value

/-- Where the broker stands in serving a stream: the next sequence number, and the time before
which events are passed over. -/
structure Position where
  cursor : ℕ
  since : Option Int
  deriving DecidableEq

/-- The events that a position still serves. -/
def Position.admits (pos : Position) (e : Proto.EventReceive) : Bool :=
  decide (pos.cursor ≤ e.sequence) && pos.since.all fun t => decide (t ≤ e.timestamp)

structure Broker where
  stored : List Proto.EventReceive
  now : Int
  /-- The `Subscribe` of the stream opened last has not reached the broker yet. -/
  waiting : Bool
  serving : Option Position

/-- The position that a `Subscribe` names. -/
def Broker.position (b : Broker) (sub : Proto.Subscribe) : Option Position :=
  match sub.eventsStoreTypeData with
  | .EventsStoreTypeUndefined => none
  | .StartNewOnly => some ⟨b.stored.length + 1, none⟩
  | .StartFromFirst => some ⟨1, none⟩
  | .StartFromLast => some ⟨max b.stored.length 1, none⟩
  | .StartAtSequence => some ⟨sub.eventsStoreTypeValue.toNat, none⟩
  | .StartAtTime => some ⟨1, some sub.eventsStoreTypeValue⟩
  | .StartAtTimeDelta => some ⟨1, some (b.now - sub.eventsStoreTypeValue * 1000000000)⟩

/-- Store a published event. -/
def Broker.publish (b : Broker) (e : Proto.EventReceive) : Broker :=
  { b with stored := b.stored ++
      [{ e with sequence := b.stored.length + 1, timestamp := b.now }] }

def Broker.tick (b : Broker) (d : ℕ) : Broker := { b with now := b.now + d }

/-- The `Subscribe` of the stream opened last reaches the broker. -/
def Broker.accept (b : Broker) (sub : Proto.Subscribe) : Broker :=
  { b with waiting := false, serving := b.position sub }

/-- A stream has been opened in place of the one served before. -/
def Broker.reopen (b : Broker) : Broker := { b with waiting := true, serving := none }

/-- The event that the broker sends next on the stream it serves. -/
def Broker.next (b : Broker) : Option Proto.EventReceive :=
  b.serving.bind fun pos => b.stored.find? pos.admits

/-- The broker has sent `e`. -/
def Broker.sent (b : Broker) (e : Proto.EventReceive) : Broker :=
  { b with serving := b.serving.map fun pos => { pos with cursor := e.sequence + 1 } }

/-- The subscription and its broker. -/
structure World where
  sub : Sub Proto.EventReceive EventStoreReceive
  broker : Broker

inductive Action where
  | publish (e : Proto.EventReceive)
  | tick (d : ℕ)
  /-- The broker receives the `Subscribe` of the stream opened last. -/
  | accept
  | reader (l : ReaderLabel Proto.EventReceive)

/-- What a step of the reader means to the broker. -/
def Broker.react (b : Broker) : ReaderLabel Proto.EventReceive → Option Broker
  | .msg p => if b.next = some p then some (b.sent p) else none
  | .stub true => some b.reopen
  | _ => some b

def next (sub : Proto.Subscribe) (h : Handlers) (s : World) : Action → Option World
  | .publish e => some { s with broker := s.broker.publish e }
  | .tick d => some { s with broker := s.broker.tick d }
  | .accept =>
    if s.broker.waiting then some { s with broker := s.broker.accept sub } else none
  | .reader l =>
    (s.broker.react l).bind fun b =>
      (readerNext SubKind.eventsStore h s.sub.mem s.sub.reader l).map fun r =>
        ⟨{ s.sub with mem := r.1, reader := r.2 }, b⟩

/-- The first stream has been opened; the store and the time are arbitrary. -/
structure Initial (s : World) : Prop where
  sub : s.sub = Subscription.start
  waiting : s.broker.waiting = true
  serving : s.broker.serving = none
  sequences : ∀ (i : ℕ) (e : Proto.EventReceive), s.broker.stored[i]? = some e →
    e.sequence = i + 1
  times : s.broker.stored.Pairwise fun a b => a.timestamp ≤ b.timestamp
  past : ∀ e ∈ s.broker.stored, e.timestamp ≤ s.broker.now

def sys (sub : Proto.Subscribe) (h : Handlers) : Lts.Sys World Action where
  init := Initial
  next := next sub h

/-- If two events were passed to `on_event`, so was every stored event between them. -/
def NoGap (s : World) : Prop :=
  ∀ r₁ ∈ onEvents s.sub.mem.log, ∀ r₂ ∈ onEvents s.sub.mem.log, ∀ e ∈ s.broker.stored,
    r₁.sequence < e.sequence → e.sequence < r₂.sequence →
    receiveEventStore e ∈ onEvents s.sub.mem.log

/-- The start options that name the same events at every time. -/
def fixedStart (sub : Proto.Subscribe) : Bool :=
  match sub.eventsStoreTypeData with
  | .StartFromFirst => true
  | .StartAtSequence => true
  | .StartAtTime => true
  | _ => false

/-- When the event after sequence number `n` was stored, or the earliest time it will be. -/
def Broker.timeAfter (b : Broker) (n : ℕ) : Int :=
  match b.stored[n]? with
  | some e => e.timestamp
  | none => b.now

/-- From `pos` the broker does not skip the event after sequence number `n`, stored or to come. -/
def Broker.reaches (b : Broker) (pos : Position) (n : ℕ) : Bool :=
  decide (pos.cursor ≤ n + 1) && pos.since.all fun t => decide (t ≤ b.timeAfter n)

/-- A `Subscribe` that reaches the broker after a delivery has a fixed start, or names a position
that does not skip the event after one that was delivered. -/
def resumes (sub : Proto.Subscribe) (s : World) : Action → Bool
  | .accept =>
    fixedStart sub || (messages s.sub.mem.log).isEmpty ||
      match s.broker.position sub with
      | none => true
      | some pos => (messages s.sub.mem.log).any fun p => s.broker.reaches pos p.sequence
  | _ => true

end EventsStore

end KubeMQ
