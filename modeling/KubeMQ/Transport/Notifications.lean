import KubeMQ.Lts.Basic
import KubeMQ.Lts.Lock
import KubeMQ.Transport.StateRuns

/-!
# Concurrent state transitions

Any number of threads in `StateMachine::Transition`. A call validates, changes the state and
captures its callbacks under the lock, which is one step (`request`); it invokes them afterwards,
outside the lock, one step each (`invoke`). The calls are numbered in the order in which they held
the lock, and the log tells for every invocation which call made it.
-/

namespace KubeMQ

/-- A call of `Transition` that has left the lock, with the callbacks that it still has to invoke. -/
structure TransitionCall where
  target : ConnectionState
  accepted : Bool
  captured : List Callback
  left : List Callback

/-- A state machine in use. -/
structure Notifier where
  machine : StateMachine
  calls : List TransitionCall
  log : List (ℕ × Callback)

namespace Notifier

open Lts

inductive Action where
  | request (target : ConnectionState)
  | invoke (i : ℕ)
  deriving DecidableEq

/-- The call that a request on the machine becomes. -/
def callOf (m : StateMachine) (target : ConnectionState) : TransitionCall :=
  let r := m.transition target
  ⟨target, r.2.1, r.2.2, r.2.2⟩

def next (s : Notifier) : Action → Option Notifier
  | .request target =>
    some { s with
      machine := (s.machine.transition target).1
      calls := s.calls ++ [callOf s.machine target] }
  | .invoke i =>
    match s.calls[i]? with
    | none => none
    | some c =>
      match c.left with
      | [] => none
      | cb :: rest =>
        some { s with calls := s.calls.set i { c with left := rest }, log := s.log ++ [(i, cb)] }

/-- A machine on which no call is made yet. -/
def start (m : StateMachine) : Notifier := ⟨m, [], []⟩

def sys (m : StateMachine) : Sys Notifier Action := ⟨(· = start m), next⟩

/-- The steps of the system. -/
inductive Step (s : Notifier) : Action → Notifier → Prop where
  | request {target} :
    Step s (.request target)
      { s with
        machine := (s.machine.transition target).1
        calls := s.calls ++ [callOf s.machine target] }
  | invoke {i c cb rest} :
    s.calls[i]? = some c →
    c.left = cb :: rest →
    Step s (.invoke i)
      { s with calls := s.calls.set i { c with left := rest }, log := s.log ++ [(i, cb)] }

lemma Step.of_next {s t : Notifier} {a : Action} (h : s.next a = some t) : Step s a t := by
  cases a with
  | request target =>
    cases h
    exact .request
  | invoke i =>
    simp only [next] at h
    split at h
    · cases h
    · next c hc =>
      split at h
      · cases h
      · next cb rest hl =>
        cases h
        exact .invoke hc hl

/-- The callbacks of the accepted transitions, in the order of the transitions. -/
def due (s : Notifier) : List Callback := s.calls.flatMap (·.captured)

/-- The callbacks invoked so far, in the order of their invocation. -/
def invoked (s : Notifier) : List Callback := s.log.map Prod.snd

/-- What call `i` has invoked. -/
def invokedBy (s : Notifier) (i : ℕ) : List Callback := (s.log.filter (·.1 == i)).map Prod.snd

/-- The invocations follow the order of the transitions. -/
def InOrder (s : Notifier) : Prop := s.invoked <+: s.due

/-- Every call invokes what it has captured, in that order, and the calls together are a run of
the state machine. -/
structure Delivers (m : StateMachine) (s : Notifier) : Prop where
  machine : (m.transitions (s.calls.map (·.target))).1 = s.machine
  due : (m.transitions (s.calls.map (·.target))).2.2 = s.due
  own : ∀ i c, s.calls[i]? = some c → s.invokedBy i ++ c.left = c.captured
  known : ∀ e ∈ s.log, e.1 < s.calls.length
  rejected : ∀ c ∈ s.calls, c.accepted = false → c.captured = []

@[simp]
lemma callOf_left (m : StateMachine) (target : ConnectionState) :
    (callOf m target).left = (callOf m target).captured := rfl

/-- The invocations of a call after one more invocation. -/
lemma invokedBy_concat (s : Notifier) (calls : List TransitionCall) (i j : ℕ) (cb : Callback) :
    invokedBy { s with calls := calls, log := s.log ++ [(i, cb)] } j =
      if i = j then s.invokedBy j ++ [cb] else s.invokedBy j := by
  unfold invokedBy
  by_cases h : i = j <;> simp [h]

/-- One step keeps the account of every call. -/
lemma Delivers.step {m : StateMachine} {s t : Notifier} {a : Action} (h : Delivers m s)
    (hstep : Step s a t) : Delivers m t := by
  cases hstep with
  | @request target =>
    have hrun := StateMachine.transitions_concat m (s.calls.map (·.target)) target
    simp only [h.machine] at hrun
    constructor
    case machine => simpa [callOf] using congrArg Prod.fst hrun
    case due =>
      have hlog := congrArg (fun r => r.2.2) hrun
      have hdue := h.due
      simp only [hdue] at hlog
      simpa [Notifier.due, callOf] using hlog
    case own =>
      intro i c hc
      rcases getElem?_concat_cases hc with hc | ⟨rfl, rfl⟩
      · exact h.own i c hc
      · have hnone : s.invokedBy s.calls.length = [] := by
          unfold invokedBy
          rw [List.filter_eq_nil_iff.mpr, List.map_nil]
          intro e he heq
          have := h.known e he
          have := beq_iff_eq.mp heq
          omega
        show s.invokedBy s.calls.length ++ _ = _
        rw [hnone, callOf_left, List.nil_append]
    case known =>
      intro e he
      rw [List.length_append]
      exact Nat.lt_add_right _ (h.known e he)
    case rejected =>
      intro c hc hr
      rcases List.mem_append.mp hc with hc | hc
      · exact h.rejected c hc hr
      · cases List.mem_singleton.mp hc
        exact congrArg (fun r => r.2.2) (StateMachine.transition_rejected hr)
  | @invoke i c cb rest hc hl =>
    have hi : i < s.calls.length := (List.getElem?_eq_some_iff.mp hc).1
    have htargets : (s.calls.set i { c with left := rest }).map (·.target) =
        s.calls.map (·.target) := map_set_of_eq hc rfl
    have hcaptured : (s.calls.set i { c with left := rest }).map (·.captured) =
        s.calls.map (·.captured) := map_set_of_eq hc rfl
    have hdue : (s.calls.set i { c with left := rest }).flatMap (·.captured) =
        s.calls.flatMap (·.captured) := by
      rw [List.flatMap_def, List.flatMap_def, hcaptured]
    constructor
    case machine =>
      show (m.transitions (List.map _ (s.calls.set i _))).1 = _
      rw [htargets]
      exact h.machine
    case due =>
      show (m.transitions (List.map _ (s.calls.set i _))).2.2 = List.flatMap _ (s.calls.set i _)
      rw [htargets, hdue]
      exact h.due
    case own =>
      intro j d hd
      rw [invokedBy_concat]
      rcases getElem?_set_cases hd with ⟨rfl, rfl⟩ | ⟨hne, hd⟩
      · have := h.own j c hc
        rw [hl] at this
        simpa using this
      · rw [if_neg (Ne.symm hne)]
        exact h.own j d hd
    case known =>
      intro e he
      rw [List.length_set]
      rcases List.mem_append.mp he with he | he
      · exact h.known e he
      · cases List.mem_singleton.mp he
        exact hi
    case rejected =>
      intro d hd hr
      rcases List.mem_or_eq_of_mem_set hd with hd | rfl
      · exact h.rejected d hd hr
      · exact h.rejected c (List.mem_of_getElem? hc) hr

/-- The account holds in every state. -/
lemma delivers {m : StateMachine} {s : Notifier} (h : (sys m).Reachable s) : Delivers m s := by
  refine h.invariant (fun s hs => ?_) fun s a t _ hi _ hn => hi.step (.of_next hn)
  cases hs
  constructor
  case own => exact fun i c hc => by cases hc
  all_goals first | rfl | exact List.forall_mem_nil _

/-- Later in the run, `log` has grown by invocations of calls that had something left. -/
structure Later (s u : Notifier) : Prop where
  grown : ∃ tail, u.log = s.log ++ tail ∧
    ∀ e ∈ tail, ∀ c : TransitionCall, s.calls[e.1]? = some c → c.left ≠ []
  finished : ∀ (i : ℕ) (c : TransitionCall), s.calls[i]? = some c → c.left = [] →
    u.calls[i]? = some c

lemma Later.refl (s : Notifier) : Later s s :=
  ⟨⟨[], (List.append_nil _).symm, List.forall_mem_nil _⟩, fun _ _ hc _ => hc⟩

/-- One more step. -/
lemma Later.step {s u v : Notifier} {a : Action} (h : Later s u) (hstep : Step u a v) :
    Later s v := by
  obtain ⟨⟨tail, hlog, htail⟩, hfin⟩ := h
  cases hstep with
  | request =>
    refine ⟨⟨tail, hlog, htail⟩, fun i c hc hl => ?_⟩
    have hu := hfin i c hc hl
    rw [List.getElem?_append_left (List.getElem?_eq_some_iff.mp hu).1]
    exact hu
  | @invoke i c cb rest hc hl =>
    have hopen : ∀ d, s.calls[i]? = some d → d.left ≠ [] := by
      intro d hd hnil
      have hu := hfin i d hd hnil
      rw [hc] at hu
      cases hu
      rw [hl] at hnil
      cases hnil
    refine ⟨⟨tail ++ [(i, cb)], ?_, ?_⟩, ?_⟩
    · show u.log ++ _ = _
      rw [hlog, List.append_assoc]
    · intro e he
      rcases List.mem_append.mp he with he | he
      · exact htail e he
      · cases List.mem_singleton.mp he
        exact hopen
    · intro j d hd hnil
      have hu := hfin j d hd hnil
      have hne : i ≠ j := by
        rintro rfl
        exact hopen d hd hnil
      show (u.calls.set i _)[j]? = _
      rw [List.getElem?_set_ne hne]
      exact hu

/-- A schedule leads to a later state. -/
lemma later {m : StateMachine} {s u : Notifier} {as : List Action}
    (h : (sys m).exec s as = some u) : Later s u := by
  have hgen : ∀ (as : List Action) (v : Notifier), Later s v → (sys m).exec v as = some u →
      Later s u := by
    intro as
    induction as with
    | nil =>
      intro v hv he
      cases he
      exact hv
    | cons a as ih =>
      intro v hv he
      obtain ⟨w, hw, hwu⟩ := Option.bind_eq_some_iff.mp he
      exact ih w (hv.step (.of_next hw)) hwu
  exact hgen as s (.refl s) h

/-- No call has a callback left to invoke. -/
def Quiet (s : Notifier) : Prop := ∀ c ∈ s.calls, c.left = []

instance (s : Notifier) : Decidable s.Quiet :=
  inferInstanceAs (Decidable (∀ c ∈ s.calls, c.left = []))

/-- A transition is requested only when no callback of an earlier one is left to be invoked. -/
def Serial (s : Notifier) (a : Action) : Prop := ∀ target, a = .request target → s.Quiet

/-- The last entry apart. -/
lemma split_last {α : Type} {l : List α} {i : ℕ} {x : α} (hx : l[i]? = some x)
    (hi : i + 1 = l.length) : ∃ pre, l = pre ++ [x] ∧ i = pre.length := by
  rcases l.eq_nil_or_concat with rfl | ⟨pre, y, rfl⟩
  · cases hx
  · rw [List.concat_eq_append] at hx hi ⊢
    have hpre : i = pre.length := by simpa using hi
    subst hpre
    have hy : y = x := by simpa using hx
    exact ⟨pre, by rw [hy], rfl⟩

/-- In a serial run only the last call has callbacks left. -/
structure SerialInv (s : Notifier) : Prop where
  last : ∀ (i : ℕ) (c : TransitionCall), s.calls[i]? = some c → c.left ≠ [] → i + 1 = s.calls.length
  order : s.invoked ++ s.calls.flatMap (·.left) = s.due

lemma SerialInv.step {s t : Notifier} {a : Action} (h : SerialInv s) (hg : Serial s a)
    (hstep : Step s a t) : SerialInv t := by
  cases hstep with
  | @request target =>
    have hq : s.Quiet := hg target rfl
    have hleft : s.calls.flatMap (·.left) = [] := List.flatMap_eq_nil_iff.mpr hq
    have horder := h.order
    rw [hleft, List.append_nil] at horder
    constructor
    case last =>
      intro i c hc hne
      rcases getElem?_concat_cases hc with hc | ⟨rfl, -⟩
      · exact absurd (hq c (List.mem_of_getElem? hc)) hne
      · rw [List.length_append]
        rfl
    case order =>
      show s.invoked ++ List.flatMap _ (s.calls ++ [_]) = List.flatMap _ (s.calls ++ [_])
      rw [List.flatMap_append, List.flatMap_append, hleft, horder]
      simp [due]
  | @invoke i c cb rest hc hl =>
    have hne : c.left ≠ [] := by
      rw [hl]
      exact List.cons_ne_nil _ _
    have hlen : i + 1 = s.calls.length := h.last i c hc hne
    constructor
    case last =>
      intro j d hd hdne
      rw [List.length_set]
      rcases getElem?_set_cases hd with ⟨rfl, -⟩ | ⟨-, hd⟩
      · exact hlen
      · exact h.last j d hd hdne
    case order =>
      obtain ⟨pre, hcalls, hpre⟩ := split_last hc hlen
      have hquiet : pre.flatMap (·.left) = [] := by
        apply List.flatMap_eq_nil_iff.mpr
        intro d hd
        obtain ⟨j, hj, rfl⟩ := List.getElem_of_mem hd
        by_contra hdne
        have hget : s.calls[j]? = some pre[j] := by
          rw [hcalls, List.getElem?_append_left hj, List.getElem?_eq_getElem hj]
        have := h.last j _ hget hdne
        omega
      have horder := h.order
      simp only [due, invoked, hcalls, List.flatMap_append, hquiet, hl, List.flatMap_cons,
        List.flatMap_nil, List.append_nil, List.nil_append] at horder ⊢
      subst hpre
      simp [hquiet, ← horder]

lemma serialInv {m : StateMachine} {s : Notifier} (h : (sys m).Reach Serial s) :
    SerialInv s := by
  refine h.invariant (fun s hs => ?_) fun s a t _ hi hg hn => hi.step hg (.of_next hn)
  cases hs
  exact ⟨fun i c hc _ => (by cases hc), rfl⟩

/-- What is invoked in a serial run. -/
structure Ordered (s : Notifier) : Prop where
  inOrder : s.InOrder
  complete : s.Quiet → s.invoked = s.due
  closedLast : ∀ before after, s.invoked = before ++ .onClosed :: after → after = []

/-- The order of the transitions is kept in a serial run. -/
lemma ordered_of_serial {m : StateMachine} {s : Notifier} (h : (sys m).Reach Serial s) :
    Ordered s := by
  have horder := (serialInv h).order
  constructor
  case inOrder => exact ⟨_, horder⟩
  case complete =>
    intro hq
    rw [List.flatMap_eq_nil_iff.mpr hq, List.append_nil] at horder
    exact horder
  case closedLast =>
    intro before after heq
    have hdue := (delivers h.reachable).due
    rw [← horder, heq, List.append_assoc, List.cons_append] at hdue
    exact (List.append_eq_nil_iff.mp (StateMachine.transitions_closed_last hdue)).1

/-- In every run each call invokes what it captured when its transition was made; a call that has
invoked everything comes before all that is invoked later; and a serial run keeps the order of the
transitions. -/
theorem invoked_in_transition_order (m : StateMachine) :
    (∀ s, (sys m).Reachable s → Delivers m s ∧
      ∀ as u, (sys m).exec s as = some u → Later s u) ∧
    ∀ s, (sys m).Reach Serial s → Ordered s := by
  refine ⟨fun s h => ⟨delivers h, fun as u he => later he⟩, fun s h => ?_⟩
  exact ordered_of_serial h

/-- A connection is made and closed again, one call after the other. -/
theorem invoked_in_transition_order_serial :
    ∃ s, (sys .withCallbacks).Reachable s ∧ s.invoked = [.onConnected, .onClosed] ∧
      Ordered s ∧ Delivers .withCallbacks s := by
  have h0 : (sys .withCallbacks).Reach Serial (start .withCallbacks) := .init rfl
  have h1 := h0.step (a := .request .kConnecting) (fun _ _ => List.forall_mem_nil _) rfl
  have h2 := h1.step (a := .request .kReady) (fun _ _ => by decide) rfl
  have h3 := h2.step (a := .invoke 1) nofun rfl
  have h4 := h3.step (a := .request .kClosed) (fun _ _ => by decide) rfl
  have h5 := h4.step (a := .invoke 2) nofun rfl
  have hmain := invoked_in_transition_order .withCallbacks
  exact ⟨_, h5.reachable, rfl, hmain.2 _ h5, (hmain.1 _ h5.reachable).1⟩

/-- One thread connects and another closes before the first has invoked its callback. -/
theorem on_connected_after_on_closed :
    ¬∀ s, (sys .withCallbacks).Reachable s → s.InOrder := by
  intro hall
  have hinit : (sys .withCallbacks).Reachable (start .withCallbacks) := .init rfl
  have hsome : ((sys .withCallbacks).exec (start .withCallbacks)
      [.request .kConnecting, .request .kReady, .request .kClosed, .invoke 2, .invoke 1]).map
        (fun s => (s.invoked, s.due)) =
      some ([.onClosed, .onConnected], [.onConnected, .onClosed]) := rfl
  obtain ⟨s, hs, heq⟩ := Option.map_eq_some_iff.mp hsome
  have horder := hall s (hinit.exec _ hs)
  unfold InOrder at horder
  obtain ⟨hinvoked, hdue⟩ := Prod.mk.inj heq
  rw [hinvoked, hdue] at horder
  revert horder
  decide

end Notifier

end KubeMQ
