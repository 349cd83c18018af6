import KubeMQ.Client.Sending
import KubeMQ.Subscription.History

/-!
# Event streams, a broker, and event subscriptions

Any number of `EventStreamHandle`s (`client_events.cc`, `stream_handle_impl.h`) and subscriptions of
`SubscribeToEvents` (`client_events.cc`, `subscription_impl.h`), each with all its threads, around one
broker. The handles are those of `StreamHandle.traced`, the subscriptions those of
`Subscription.next`; this module adds only what lies between them.

Of the broker no more is assumed than the two streams show. It takes the events of a handle in the
order in which they were written, passes each of them on to any subscriptions it likes with a
sequence number and a time of its own, and may lose at any time what a subscription has not read:
a subscription to another channel, a member of a group that was not chosen and a stream that broke
all look like this.
-/

namespace KubeMQ.Events

open StreamHandle (Traced UserAction traced tracedNext encodeEvent)
open Subscription (Sub Handlers)

/-- The argument of `Send`, with the draw for a missing id. -/
abbrev Draft := (UInt64 × UInt64) × Event

abbrev Sender := Traced Proto.Event Proto.Result Empty Draft

abbrev Subscriber := Sub Proto.EventReceive EventReceive

/-- An event as the broker passes it on. -/
def forwarded (e : Proto.Event) (sequence : ℕ) (timestamp : Int) : Proto.EventReceive where
  eventID := e.eventID
  channel := e.channel
  metadata := e.metadata
  body := e.body
  timestamp := timestamp
  sequence := sequence
  tags := e.tags

/-- An event that went out on the stream of a handle, and the call of `Send` that wrote it. -/
structure Sent where
  handle : ℕ
  call : ℕ
  event : Proto.Event

structure World where
  senders : ℕ → Sender
  subscribers : ℕ → Subscriber
  /-- Written by a handle, and not yet taken by the broker. -/
  inbox : ℕ → List Sent
  /-- Passed on to a subscription, and not yet read. -/
  outbox : ℕ → List (Sent × Proto.EventReceive)
  /-- Read by a subscription. -/
  read : ℕ → List Sent

inductive Action where
  | sender (h : ℕ) (a : UserAction Draft Proto.Result)
  /-- The broker takes the next event of handle `h` and passes it on to those subscriptions to which
  `dest` gives a sequence number and a time. -/
  | route (h : ℕ) (dest : ℕ → Option (ℕ × Int))
  | lose (k i : ℕ)
  | subscriber (k : ℕ) (a : Subscription.Action Proto.EventReceive)

/-- The event that leaves handle `h` with an action: that of a `Write` that succeeds. -/
def written (h : ℕ) (s : Sender) : UserAction Draft Proto.Result → List Sent
  | .call i (.wrote true) =>
    match s.handle.calls[i]? with
    | some (.sendWrite e) => [⟨h, i, e⟩]
    | _ => []
  | _ => []

/-- What an action of a subscription takes from its stream, and what it leaves. -/
def taken (out : List (Sent × Proto.EventReceive)) :
    Subscription.Action Proto.EventReceive → Option (List Sent × List (Sent × Proto.EventReceive))
  | .reader (.msg p) =>
    match out with
    | [] => none
    | (o, q) :: rest => if q = p then some ([o], rest) else none
  | _ => some ([], out)

/-- What the broker sends to subscription `k`. -/
def passedOn (o : Sent) (dest : ℕ → Option (ℕ × Int)) (k : ℕ) : List (Sent × Proto.EventReceive) :=
  match dest k with
  | none => []
  | some (sequence, timestamp) => [(o, forwarded o.event sequence timestamp)]

/-- Every subscription has its `on_event`; `onError k` tells whether it has an `on_error` too. -/
def handlers (onError : ℕ → Bool) (k : ℕ) : Handlers := ⟨true, onError k⟩

def next (opts : ℕ → ClientOptions) (onError : ℕ → Bool) (s : World) : Action → Option World
  | .sender h a =>
    (tracedNext HandleSpec.eventStream (encodeEvent (opts h)) (s.senders h) a).map fun t =>
      { s with
        senders := Function.update s.senders h t
        inbox := Function.update s.inbox h (s.inbox h ++ written h (s.senders h) a) }
  | .route h dest =>
    match s.inbox h with
    | [] => none
    | o :: rest =>
      some { s with
        inbox := Function.update s.inbox h rest
        outbox := fun k => s.outbox k ++ passedOn o dest k }
  | .lose k i =>
    some { s with outbox := Function.update s.outbox k ((s.outbox k).eraseIdx i) }
  | .subscriber k a =>
    (taken (s.outbox k) a).bind fun r =>
      (Subscription.next SubKind.events (handlers onError k) (s.subscribers k) a).map fun t =>
        { s with
          subscribers := Function.update s.subscribers k t
          outbox := Function.update s.outbox k r.2
          read := Function.update s.read k (s.read k ++ r.1) }

/-- Every handle and every subscription is as `Client` hands it out. -/
structure Initial (opts : ℕ → ClientOptions) (s : World) : Prop where
  senders : ∀ h, (traced HandleSpec.eventStream (encodeEvent (opts h))).init (s.senders h)
  subscribers : ∀ k, s.subscribers k = Subscription.start
  inbox : ∀ h, s.inbox h = []
  outbox : ∀ k, s.outbox k = []
  read : ∀ k, s.read k = []

def sys (opts : ℕ → ClientOptions) (onError : ℕ → Bool) : Lts.Sys World Action where
  init := Initial opts
  next := next opts onError

/-- The action loses nothing that is meant for subscription `k`, and passes everything on to it. -/
def Action.keeps (k : ℕ) : Action → Bool
  | .route _ dest => (dest k).isSome
  | .lose j _ => j != k
  | _ => true

/-- The steps of the system. -/
inductive Step (opts : ℕ → ClientOptions) (onError : ℕ → Bool) (s : World) :
    Action → World → Prop where
  | sender {h a t} :
    tracedNext HandleSpec.eventStream (encodeEvent (opts h)) (s.senders h) a = some t →
    Step opts onError s (.sender h a)
      { s with
        senders := Function.update s.senders h t
        inbox := Function.update s.inbox h (s.inbox h ++ written h (s.senders h) a) }
  | route {h dest o rest} :
    s.inbox h = o :: rest →
    Step opts onError s (.route h dest)
      { s with
        inbox := Function.update s.inbox h rest
        outbox := fun k => s.outbox k ++ passedOn o dest k }
  | lose {k i} :
    Step opts onError s (.lose k i)
      { s with outbox := Function.update s.outbox k ((s.outbox k).eraseIdx i) }
  | subscriber {k a os rest t} :
    taken (s.outbox k) a = some (os, rest) →
    Subscription.Step SubKind.events (handlers onError k) (s.subscribers k) a t →
    Step opts onError s (.subscriber k a)
      { s with
        subscribers := Function.update s.subscribers k t
        outbox := Function.update s.outbox k rest
        read := Function.update s.read k (s.read k ++ os) }

lemma Step.of_next {opts : ℕ → ClientOptions} {onError : ℕ → Bool} {s t : World} {a : Action}
    (hn : next opts onError s a = some t) : Step opts onError s a t := by
  cases a with
  | sender h a =>
    obtain ⟨s', hs, rfl⟩ := Option.map_eq_some_iff.mp hn
    exact .sender hs
  | route h dest =>
    simp only [next] at hn
    split at hn
    · cases hn
    · next o rest hin =>
      cases hn
      exact .route hin
  | lose k i =>
    cases hn
    exact .lose
  | subscriber k a =>
    obtain ⟨⟨os, rest⟩, htaken, hn⟩ := Option.bind_eq_some_iff.mp hn
    obtain ⟨s', hs, rfl⟩ := Option.map_eq_some_iff.mp hn
    exact .subscriber htaken (Subscription.Step.of_next hs)

end KubeMQ.Events
