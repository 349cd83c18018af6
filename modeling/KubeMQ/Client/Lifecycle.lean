import KubeMQ.Subscription.Model

/-!
# The client and its subscriptions

`Client::Close` (`client.cc`) and `DrainAll` (`internal/client_impl.h`), with the subscriptions that
the client has created (`SubscribeToEvents` and its three siblings). A subscription keeps a raw
pointer to the client's transport, which its reader thread follows with every re-subscription:
`GrpcTransport::SubscribeToEvents` checks whether the transport has been closed and then calls the
stub (`grpc_transport.cc`). The destructor of the client calls `Close` and then frees the transport.

`Client.next` interleaves any number of calls of `Close` (and at last the destructor) with the
threads of all the subscriptions. No subscribe operation runs together with a `Close`.
-/

namespace KubeMQ

/-- The four subscriptions. -/
inductive Kind where
  | events | eventsStore | commands | queries
  deriving DecidableEq

namespace Kind

/-- The messages that the reader thread reads. -/
def Msg : Kind → Type
  | events => Proto.EventReceive
  | eventsStore => Proto.EventReceive
  | commands => Proto.Request
  | queries => Proto.Request

/-- The arguments of the callback. -/
def Arg : Kind → Type
  | events => EventReceive
  | eventsStore => EventStoreReceive
  | commands => CommandReceive
  | queries => QueryReceive

def subKind : (k : Kind) → SubKind k.Msg k.Arg
  | events => SubKind.events
  | eventsStore => SubKind.eventsStore
  | commands => SubKind.commands
  | queries => SubKind.queries

def all : List Kind := [events, eventsStore, commands, queries]

lemma mem_all (k : Kind) : k ∈ all := by
  cases k <;> simp [all]

end Kind

namespace Client

open Subscription (Sub Handlers ReaderPc)

/-- A subscription that the client has created. -/
structure Subscriber (k : Kind) where
  handlers : Handlers
  sub : Sub k.Msg k.Arg

/-- Where a call of `Close` stands; `d` tells whether the destructor makes it. -/
inductive ClosePc where
  | enter (d : Bool)
  | store (d : Bool)
  | drain (d : Bool)
  | transport (d : Bool)
  | free
  | freed
  | returned
  deriving DecidableEq

/-- `Client::Impl`, its subscriptions, and the calls of `Close` so far. -/
structure State where
  closed : Bool
  /-- The once-flag `close_once`. -/
  onceRunning : Bool
  onceCompleted : Bool
  /-- `active_contexts`: the kind and the number of a subscription, and its context. -/
  activeContexts : List (Kind × ℕ × ℕ)
  /-- `closed_` of the transport. -/
  transportClosed : Bool
  /-- The transport has been freed. -/
  freed : Bool
  subs : (k : Kind) → List (Subscriber k)
  calls : List ClosePc
  /-- A reader thread has used the transport after it was freed. -/
  usedAfterFree : Bool

inductive Action where
  /-- A subscribe operation, and whether the transport opens a stream for it. -/
  | subscribe (k : Kind) (h : Handlers) (opened : Bool)
  /-- `Close` or the destructor is called. -/
  | begin (d : Bool)
  /-- `budget` is what a drained context's stream still delivers. -/
  | close (i : ℕ) (budget : ℕ)
  | sub (k : Kind) (i : ℕ) (a : Subscription.Action k.Msg)

/-- The contexts of a subscription that exist: the stored one, and the one of a re-subscription
under way. -/
def contexts {P R : Type} (t : Sub P R) : List ℕ :=
  t.mem.ctx ::
    match t.reader.pc with
    | .gate _ n => [n]
    | .stub _ n => [n]
    | .storeCtx n => [n]
    | _ => []

def State.setSub (s : State) (k : Kind) (i : ℕ) (p : Subscriber k) : State :=
  { s with subs := Function.update s.subs k ((s.subs k).set i p) }

/-- `TryCancel` on a tracked context, when it still exists. -/
def State.cancelTracked (s : State) (e : Kind × ℕ × ℕ) (budget : ℕ) : State :=
  match (s.subs e.1)[e.2.1]? with
  | some p =>
    if (contexts p.sub).contains e.2.2 then
      s.setSub e.1 e.2.1 { p with sub := { p.sub with mem := p.sub.mem.tryCancel e.2.2 budget } }
    else s
  | none => s

/-- One step of a call of `Close`. -/
def closeNext (s : State) (budget : ℕ) : ClosePc → Option (State × ClosePc)
  | .enter d =>
    if s.onceCompleted then some (s, if d then .free else .returned)
    else if s.onceRunning then none
    else some ({ s with onceRunning := true }, .store d)
  | .store d => some ({ s with closed := true }, .drain d)
  | .drain d =>
    match s.activeContexts with
    | e :: es => some (({ s with activeContexts := es }).cancelTracked e budget, .drain d)
    | [] => some (s, .transport d)
  | .transport d =>
    some ({ s with transportClosed := true, onceRunning := false, onceCompleted := true },
      if d then .free else .returned)
  | .free => some ({ s with freed := true }, .freed)
  | .freed => none
  | .returned => none

/-- The step of a reader thread inside the transport. -/
def usesTransport {P : Type} : Subscription.Action P → Bool
  | .reader (.gate _) => true
  | .reader (.stub _) => true
  | _ => false

/-- `CheckClosed` of the transport lets nobody pass once it is closed; what a freed transport does
is anybody's guess. -/
def permitted {P : Type} (s : State) : Subscription.Action P → Bool
  | .reader (.gate true) => !s.transportClosed || s.freed
  | _ => true

def ClosePc.destroys : ClosePc → Bool
  | .enter d => d
  | .store d => d
  | .drain d => d
  | .transport d => d
  | .free => true
  | .freed => true
  | .returned => false

/-- One step of the client, of a call or of a subscription. -/
def next (s : State) : Action → Option State
  | .subscribe k h opened =>
    -- no call of `Close` is under way
    if s.calls.all (· = .returned) then
      if !s.closed && opened then
        some { s with
          subs := Function.update s.subs k (s.subs k ++ [⟨h, Subscription.start⟩]) }
      else some s
    else none
  | .begin d =>
    -- the destructor comes last
    if s.calls.any ClosePc.destroys || (d && s.calls.any (· ≠ .returned)) then none
    else some { s with calls := s.calls ++ [.enter d] }
  | .close i budget => s.calls[i]?.bind fun pc =>
      (closeNext s budget pc).map fun r => { r.1 with calls := r.1.calls.set i r.2 }
  | .sub k i a => (s.subs k)[i]?.bind fun p =>
      if permitted s a then
        (Subscription.next k.subKind p.handlers p.sub a).map fun t =>
          { s.setSub k i { p with sub := t } with
            usedAfterFree := s.usedAfterFree || (s.freed && usesTransport a) }
      else none

/-- A client as `Create` returns it. -/
def start : State where
  closed := false
  onceRunning := false
  onceCompleted := false
  activeContexts := []
  transportClosed := false
  freed := false
  subs := fun _ => []
  calls := []
  usedAfterFree := false

def sys : Lts.Sys State Action where
  init := fun s => s = start
  next := next

/-- A call of `Close` has returned, to its caller or to the destructor. -/
def State.closeReturned (s : State) : Prop :=
  ∃ pc ∈ s.calls, pc = .returned ∨ pc = .free ∨ pc = .freed

/-- `Close` has cancelled every context, and no reader thread uses the transport of a client that
is gone. -/
structure Drained (s : State) : Prop where
  cancelled : s.closeReturned → ∀ k, ∀ p ∈ s.subs k, ∀ c ∈ contexts p.sub,
    (p.sub.mem.cancelled c).isSome = true
  noUse : s.usedAfterFree = false

/-- The subscription's own `Cancel` or destructor has called `TryCancel` on the stored context,
and no re-subscription is under way. -/
def settled {P R : Type} (t : Sub P R) : Bool :=
  t.mem.done && (t.mem.cancelled t.mem.ctx).isSome &&
    match t.reader.pc with
    | .gate _ _ => false
    | .stub _ _ => false
    | .storeCtx _ => false
    | _ => true

/-- `DrainAll` is only run when every subscription is settled. -/
def nothingToDrain (s : State) : Action → Bool
  | .close i _ =>
    match s.calls[i]? with
    | some (.drain _) => Kind.all.all fun k => (s.subs k).all fun p => settled p.sub
    | _ => true
  | _ => true

end Client

end KubeMQ
