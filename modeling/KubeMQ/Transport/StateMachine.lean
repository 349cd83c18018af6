import Mathlib.Data.List.Basic
import Mathlib.Logic.Function.Basic
import Mathlib.Tactic.Common

/-!
# The connection state machine

`StateMachine` of `internal/transport/state_machine.cc`. `transition` is one call of `Transition`
with the callbacks that it goes on to invoke. `image` says which callbacks a sequence of accepted
transitions stands for; `transitions_image` is the comparison of the two, for a machine whose
callbacks are all installed.
-/

namespace KubeMQ

inductive ConnectionState where
  | kIdle | kConnecting | kReady | kReconnecting | kClosed
  deriving DecidableEq

/-- The callbacks of a state machine. -/
inductive Callback where
  | onConnected | onDisconnected | onReconnecting | onReconnected | onClosed
  deriving DecidableEq

/-- The callbacks in the order in which `Create` installs them. -/
def Callback.all : List Callback :=
  [.onConnected, .onDisconnected, .onReconnecting, .onReconnected, .onClosed]

/-- A state machine; `installed` tells which of the five callbacks are set. -/
structure StateMachine where
  state : ConnectionState
  reconnecting : Bool
  installed : Callback → Bool

/-- An accepted transition, with the state before and after. -/
abbrev Accepted := ConnectionState × ConnectionState

def isValidTransition : ConnectionState → ConnectionState → Bool
  | .kIdle, target => target == .kConnecting || target == .kClosed
  | .kConnecting, target => target == .kReady || target == .kClosed
  | .kReady, target => target == .kReconnecting || target == .kClosed
  | .kReconnecting, target => target == .kConnecting || target == .kClosed
  | .kClosed, _ => false

namespace StateMachine

/-- A new machine has no callbacks. -/
def init (initial : ConnectionState) : StateMachine := ⟨initial, false, fun _ => false⟩

/-- `SetOnConnected` and its four siblings. -/
def setCallback (m : StateMachine) (c : Callback) : StateMachine :=
  { m with installed := Function.update m.installed c true }

/-- The callback, when it is set. -/
def captured (m : StateMachine) (c : Callback) : List Callback := if m.installed c then [c] else []

/-- `Transition`: whether it is accepted, and the callbacks to invoke in order. -/
def transition (m : StateMachine) (target : ConnectionState) : StateMachine × Bool × List Callback :=
  if !isValidTransition m.state target then (m, false, [])
  else
    -- a reconnection cycle begins
    let reconnecting := m.reconnecting || target == .kReconnecting
    let m' : StateMachine := { m with state := target, reconnecting := reconnecting }
    if target == .kReady && m.state == .kConnecting then
      if reconnecting then ({ m' with reconnecting := false }, true, m.captured .onReconnected)
      else (m', true, m.captured .onConnected)
    else if target == .kReconnecting then
      if m.installed .onDisconnected then
        (m', true, .onDisconnected :: m.captured .onReconnecting)
      else (m', true, m.captured .onReconnecting)
    else if target == .kClosed then (m', true, m.captured .onClosed)
    else (m', true, [])

end StateMachine

/-- What the users should see of accepted transitions; the flag tells whether a reconnection cycle
has begun. -/
def image : Bool → List Accepted → List Callback
  | _, [] => []
  | b, (.kConnecting, .kReady) :: ts =>
    (if b then .onReconnected else .onConnected) :: image false ts
  | _, (_, .kReconnecting) :: ts => .onDisconnected :: .onReconnecting :: image true ts
  | b, (_, .kClosed) :: ts => .onClosed :: image b ts
  | b, _ :: ts => image b ts

namespace StateMachine

/-- The transitions that are accepted out of a sequence of calls, and the callbacks invoked. -/
def transitions : StateMachine → List ConnectionState → StateMachine × List Accepted × List Callback
  | m, [] => (m, [], [])
  | m, target :: rest =>
    let r := m.transition target
    let t := r.1.transitions rest
    (t.1, if r.2.1 then (m.state, target) :: t.2.1 else t.2.1, r.2.2 ++ t.2.2)

lemma transition_installed (m : StateMachine) (target : ConnectionState) :
    (m.transition target).1.installed = m.installed := by
  unfold transition
  dsimp only
  repeat' split
  all_goals rfl

/-- A transition that is accepted fires what stands for it, when everything is installed. -/
lemma transition_image {m : StateMachine} (h : ∀ c, m.installed c = true) (target : ConnectionState)
    (ts : List Accepted) :
    image m.reconnecting (if (m.transition target).2.1 then (m.state, target) :: ts else ts) =
      (m.transition target).2.2 ++ image (m.transition target).1.reconnecting ts := by
  have hcap : ∀ c, m.captured c = [c] := fun c => if_pos (h c)
  obtain ⟨state, reconnecting, installed⟩ := m
  simp only at h
  unfold transition
  cases hv : isValidTransition state target with
  | false => rfl
  | true =>
    simp only [hcap, h, Bool.not_true, Bool.false_eq_true, if_false, if_true]
    cases state <;> cases target <;> first | (cases hv; done) | (cases reconnecting <;> rfl)

/-- A machine whose callbacks are all installed invokes the image of what it accepts. -/
theorem transitions_image {m : StateMachine} (h : ∀ c, m.installed c = true)
    (calls : List ConnectionState) :
    (m.transitions calls).2.2 = image m.reconnecting (m.transitions calls).2.1 := by
  induction calls generalizing m with
  | nil => rfl
  | cons target rest ih =>
    have h' : ∀ c, (m.transition target).1.installed c = true := by
      intro c
      rw [transition_installed]
      exact h c
    simp only [transitions]
    rw [transition_image h, ih h']

/-- Nothing leaves `kClosed`. -/
lemma transition_closed {m : StateMachine} (h : m.state = .kClosed) (target : ConnectionState) :
    m.transition target = (m, false, []) := by
  simp [transition, h, isValidTransition]

/-- However often it is asked to. -/
lemma transitions_closed {m : StateMachine} (h : m.state = .kClosed) (calls : List ConnectionState) :
    m.transitions calls = (m, [], []) := by
  induction calls with
  | nil => rfl
  | cons target rest ih =>
    simp only [transitions, transition_closed h, ih]
    rfl

/-- Every other state may be left for it. -/
lemma transition_to_closed {m : StateMachine} (h : m.state ≠ .kClosed) :
    m.transition .kClosed = ({ m with state := .kClosed }, true, m.captured .onClosed) := by
  obtain ⟨state, reconnecting, installed⟩ := m
  cases state <;> first | exact absurd rfl h | (cases reconnecting <;> rfl)

end StateMachine

end KubeMQ
