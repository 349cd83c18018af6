import KubeMQ.Lts.History
import KubeMQ.Transport.StateMachine
import Mathlib.Data.List.Induction

/-!
# Runs of the connection state machine

The laws that the callbacks of a machine keep over any sequence of `Transition` requests
(`Obeys`), when all five are installed. A request is first inverted into one of six moves;
`Inv` ties the flag, the state and the callbacks fired so far, and is kept by each of them.
-/

namespace KubeMQ.StateMachine

/-- A request on a machine whose callbacks are all installed: the machine after it, whether it is
accepted, and the callbacks that it fires. -/
inductive Moves : StateMachine → ConnectionState → StateMachine → Bool → List Callback → Prop where
  | rejected {m target} :
    isValidTransition m.state target = false →
    Moves m target m false []
  | connecting {m} :
    m.state = .kIdle ∨ m.state = .kReconnecting →
    Moves m .kConnecting { m with state := .kConnecting } true []
  | connected {m} :
    m.state = .kConnecting →
    m.reconnecting = false →
    Moves m .kReady { m with state := .kReady } true [.onConnected]
  | reconnected {m} :
    m.state = .kConnecting →
    m.reconnecting = true →
    Moves m .kReady { m with state := .kReady, reconnecting := false } true [.onReconnected]
  | lost {m} :
    m.state = .kReady →
    Moves m .kReconnecting { m with state := .kReconnecting, reconnecting := true } true
      [.onDisconnected, .onReconnecting]
  | closed {m} :
    m.state ≠ .kClosed →
    Moves m .kClosed { m with state := .kClosed } true [.onClosed]

/-- Every request is one of the moves. -/
lemma moves {m : StateMachine} (h : ∀ c, m.installed c = true) (target : ConnectionState) :
    Moves m target (m.transition target).1 (m.transition target).2.1 (m.transition target).2.2 := by
  have hcap : ∀ c, m.captured c = [c] := fun c => if_pos (h c)
  cases hv : isValidTransition m.state target with
  | false =>
    have heq : m.transition target = (m, false, []) := by simp [transition, hv]
    rw [heq]
    exact .rejected hv
  | true =>
    unfold transition
    simp only [hcap, h, hv, Bool.not_true, Bool.false_eq_true, if_false, if_true]
    obtain ⟨state, reconnecting, installed⟩ := m
    cases state <;> cases target <;> first | (cases hv; done) | cases reconnecting
    case true.kIdle.kConnecting.false | true.kIdle.kConnecting.true => exact .connecting (.inl rfl)
    case true.kReconnecting.kConnecting.false | true.kReconnecting.kConnecting.true =>
      exact .connecting (.inr rfl)
    case true.kConnecting.kReady.false => exact .connected rfl rfl
    case true.kConnecting.kReady.true => exact .reconnected rfl rfl
    case true.kReady.kReconnecting.false | true.kReady.kReconnecting.true => exact .lost rfl
    all_goals exact .closed (by simp)

section

variable {m m' : StateMachine} {target : ConnectionState} {ok : Bool} {new : List Callback}

/-- The flag decides what an accepted `kReady` fires. -/
lemma Moves.reconnected_iff (h : Moves m target m' ok new) :
    .onReconnected ∈ new ↔ ok = true ∧ target = .kReady ∧ m.reconnecting = true := by
  cases h <;> simp_all

lemma Moves.reconnected_only (h : Moves m target m' ok new) (hmem : .onReconnected ∈ new) :
    new = [.onReconnected] := by
  cases h <;> simp_all

end

/-- A reconnection has begun and no connection is made since. -/
def ReconnectPending (accepted : List Accepted) : Prop :=
  ∃ before source after, accepted = before ++ (source, .kReconnecting) :: after ∧
    ∀ t ∈ after, t.2 ≠ .kReady

lemma reconnectPending_concat {accepted : List Accepted} {t : Accepted} :
    ReconnectPending (accepted ++ [t]) ↔
      t.2 = .kReconnecting ∨ (ReconnectPending accepted ∧ t.2 ≠ .kReady) := by
  constructor
  · rintro ⟨before, source, after, heq, hno⟩
    rcases after.eq_nil_or_concat with rfl | ⟨after, last, rfl⟩
    · obtain ⟨-, ht⟩ := List.append_inj' heq rfl
      cases ht
      exact .inl rfl
    · rw [List.concat_eq_append] at heq hno
      rw [← List.cons_append, ← List.append_assoc] at heq
      obtain ⟨hacc, ht⟩ := List.append_inj' heq rfl
      cases ht
      refine .inr ⟨⟨before, source, after, hacc, fun u hu => ?_⟩, ?_⟩
      · exact hno u (List.mem_append_left _ hu)
      · exact hno t (List.mem_append_right _ List.mem_cons_self)
  · rintro (ht | ⟨⟨before, source, after, rfl, hno⟩, ht⟩)
    · obtain ⟨source, target⟩ := t
      cases ht
      exact ⟨accepted, source, [], rfl, List.forall_mem_nil _⟩
    · refine ⟨before, source, after ++ [t], by simp, fun u hu => ?_⟩
      rcases List.mem_append.mp hu with hu | hu
      · exact hno u hu
      · cases List.mem_singleton.mp hu
        exact ht

/-- What holds of the callbacks fired in a run, in the order in which they are fired. -/
structure LogLaws (log : List Callback) : Prop where
  connectedOnce : log.count .onConnected ≤ 1
  connectedFirst : ∀ before after, log = before ++ .onConnected :: after → .onReconnected ∉ before
  preceded : ∀ before after, log = before ++ .onReconnecting :: after →
    ∃ rest, before = rest ++ [.onDisconnected]
  paired : log.count .onDisconnected = log.count .onReconnecting
  closedLast : ∀ before after, log = before ++ .onClosed :: after → after = []

/-- The laws hold of no callbacks. -/
lemma LogLaws.nil : LogLaws [] := by
  constructor
  case connectedOnce => exact Nat.zero_le _
  case paired => rfl
  all_goals
    intro before after h
    cases before <;> cases h

/-- A callback other than the two of a lost connection. -/
lemma LogLaws.concat {log : List Callback} {c : Callback} (h : LogLaws log)
    (hopen : .onClosed ∉ log) (hfirst : c = .onConnected → log = [])
    (hd : c ≠ .onDisconnected) (hr : c ≠ .onReconnecting) : LogLaws (log ++ [c]) := by
  constructor
  case connectedOnce =>
    by_cases hc : c = .onConnected
    · rw [hfirst hc, hc]
      decide
    · have := h.connectedOnce
      simpa [List.count_singleton, hc] using this
  case connectedFirst =>
    intro before after heq
    rcases Lts.split_concat heq with ⟨rest, hlog, -⟩ | ⟨rfl, hc, -⟩
    · exact h.connectedFirst before rest hlog
    · rw [hfirst hc.symm]
      exact List.not_mem_nil
  case preceded =>
    intro before after heq
    rcases Lts.split_concat heq with ⟨rest, hlog, -⟩ | ⟨-, hc, -⟩
    · exact h.preceded before rest hlog
    · exact absurd hc.symm hr
  case paired =>
    have := h.paired
    simpa [List.count_singleton, hd, hr] using this
  case closedLast =>
    intro before after heq
    rcases Lts.split_concat heq with ⟨rest, hlog, -⟩ | ⟨-, -, hnil⟩
    · refine absurd ?_ hopen
      rw [hlog]
      exact List.mem_append_right _ List.mem_cons_self
    · exact hnil

/-- The two callbacks of a lost connection. -/
lemma LogLaws.lost {log : List Callback} (h : LogLaws log) (hopen : .onClosed ∉ log) :
    LogLaws (log ++ [.onDisconnected, .onReconnecting]) := by
  have htwo : ∀ {x : Callback} {rest after : List Callback},
      [.onDisconnected, .onReconnecting] = rest ++ x :: after →
        x = .onDisconnected ∨ (x = .onReconnecting ∧ rest = [.onDisconnected]) := by
    intro x rest after heq
    cases rest with
    | nil => exact .inl (List.cons.inj heq).1.symm
    | cons y rest =>
      obtain ⟨hy, htail⟩ := List.cons.inj heq
      cases rest with
      | nil => exact .inr ⟨(List.cons.inj htail).1.symm, by rw [hy]⟩
      | cons z rest =>
        have hnil := (List.cons.inj htail).2
        exact absurd hnil.symm (List.append_ne_nil_of_right_ne_nil _ (List.cons_ne_nil _ _))
  constructor
  case connectedOnce =>
    have := h.connectedOnce
    simpa using this
  case connectedFirst =>
    intro before after heq
    rcases Lts.split_append heq with ⟨rest, hlog, -⟩ | ⟨rest, hb, hnew⟩
    · exact h.connectedFirst before rest hlog
    · rcases htwo hnew with hx | ⟨hx, -⟩ <;> cases hx
  case preceded =>
    intro before after heq
    rcases Lts.split_append heq with ⟨rest, hlog, -⟩ | ⟨rest, hb, hnew⟩
    · exact h.preceded before rest hlog
    · rcases htwo hnew with hx | ⟨-, rfl⟩
      · cases hx
      · exact ⟨log, hb⟩
  case paired =>
    have := h.paired
    simpa using this
  case closedLast =>
    intro before after heq
    rcases Lts.split_append heq with ⟨rest, hlog, -⟩ | ⟨rest, -, hnew⟩
    · refine absurd ?_ hopen
      rw [hlog]
      exact List.mem_append_right _ List.mem_cons_self
    · rcases htwo hnew with hx | ⟨hx, -⟩ <;> cases hx

/-- There is one reconnection more than there are reconnected connections, or none; the flag tells
which. -/
def Cycles (log : List Callback) (reconnecting : Bool) : Prop :=
  log.count .onReconnecting = log.count .onReconnected + reconnecting.toNat

/-- At every point of the log, also between the two callbacks of one request. -/
def Alternating (log : List Callback) : Prop :=
  ∀ before after, log = before ++ after →
    before.count .onReconnected ≤ before.count .onReconnecting ∧
      before.count .onReconnecting ≤ before.count .onReconnected + 1

/-- What ties a machine to the transitions it accepted and the callbacks it fired. -/
structure Inv (m : StateMachine) (accepted : List Accepted) (log : List Callback) : Prop where
  installed : ∀ c, m.installed c = true
  laws : LogLaws log
  fresh : m.reconnecting = false → m.state = .kIdle ∨ m.state = .kConnecting → log = []
  ready : m.state = .kReady → m.reconnecting = false
  lost : m.state = .kReconnecting → m.reconnecting = true
  pending : m.reconnecting = true ↔ ReconnectPending accepted
  cycles : Cycles log m.reconnecting
  alternating : Alternating log
  unclosed : m.state ≠ .kClosed → .onClosed ∉ log

/-- The callbacks of a request count all together or not at all. -/
lemma Alternating.append {log new : List Callback} {b : Bool} (h : Alternating log)
    (hcycles : Cycles (log ++ new) b)
    (hnew : ∀ rest after, new = rest ++ after → rest = new ∨
      (rest.count .onReconnected = 0 ∧ rest.count .onReconnecting = 0)) :
    Alternating (log ++ new) := by
  intro before after heq
  rcases List.append_eq_append_iff.mp heq with ⟨rest, rfl, hn⟩ | ⟨rest, hl, -⟩
  · rcases hnew rest after hn with rfl | ⟨hr, hg⟩
    · have := Bool.toNat_le b
      unfold Cycles at hcycles
      omega
    · have := h log [] (List.append_nil log).symm
      simpa [hr, hg] using this
  · exact h before rest hl

/-- Nothing of a single callback, or all of it. -/
lemma prefix_singleton {c : Callback} {rest after : List Callback} (h : [c] = rest ++ after) :
    rest = [c] ∨ (rest.count .onReconnected = 0 ∧ rest.count .onReconnecting = 0) := by
  cases rest with
  | nil => exact .inr ⟨rfl, rfl⟩
  | cons x rest =>
    obtain ⟨rfl, hnil⟩ := List.cons.inj h
    obtain ⟨rfl, -⟩ := List.append_eq_nil_iff.mp hnil.symm
    exact .inl rfl

/-- One move keeps the invariant. -/
lemma Inv.move {m m' : StateMachine} {accepted : List Accepted} {log new : List Callback}
    {target : ConnectionState} {ok : Bool} (h : Inv m accepted log)
    (hm : Moves m target m' ok new) :
    Inv m' (if ok then accepted ++ [(m.state, target)] else accepted) (log ++ new) := by
  cases hm with
  | rejected _ =>
    rw [List.append_nil]
    exact h
  | connecting hs =>
    have hflag : m.reconnecting = false → m.state = .kIdle := by
      intro hr
      refine hs.resolve_right fun hl => ?_
      rw [h.lost hl] at hr
      cases hr
    rw [List.append_nil]
    constructor
    case installed => exact h.installed
    case laws => exact h.laws
    case fresh => exact fun hr _ => h.fresh hr (.inl (hflag hr))
    case ready => exact nofun
    case lost => exact nofun
    case pending => simpa [reconnectPending_concat] using h.pending
    case cycles => exact h.cycles
    case alternating => exact h.alternating
    case unclosed =>
      refine fun _ => h.unclosed ?_
      rcases hs with hs | hs <;> rw [hs] <;> exact nofun
  | connected hs hr =>
    have hnil := h.fresh hr (.inr hs)
    subst hnil
    have hcycles : Cycles [.onConnected] m.reconnecting := by
      rw [hr]
      rfl
    constructor
    case installed => exact h.installed
    case laws => exact h.laws.concat List.not_mem_nil (fun _ => rfl) nofun nofun
    case fresh => exact fun _ ho => ho.elim nofun nofun
    case ready => exact fun _ => hr
    case lost => exact nofun
    case pending => simp [reconnectPending_concat, hr]
    case cycles => exact hcycles
    case alternating => exact h.alternating.append hcycles fun _ _ => prefix_singleton
    case unclosed => exact fun _ => by decide
  | reconnected hs hr =>
    have hopen : .onClosed ∉ log := h.unclosed (by rw [hs]; exact nofun)
    have hcycles : Cycles (log ++ [.onReconnected]) false := by
      have := h.cycles
      rw [hr] at this
      simpa [Cycles] using this
    constructor
    case installed => exact h.installed
    case laws => exact h.laws.concat hopen nofun nofun nofun
    case fresh => exact fun _ ho => ho.elim nofun nofun
    case ready => exact fun _ => rfl
    case lost => exact nofun
    case pending => simp [reconnectPending_concat]
    case cycles => exact hcycles
    case alternating => exact h.alternating.append hcycles fun _ _ => prefix_singleton
    case unclosed => exact fun _ => by simp [hopen]
  | lost hs =>
    have hopen : .onClosed ∉ log := h.unclosed (by rw [hs]; exact nofun)
    have hcycles : Cycles (log ++ [.onDisconnected, .onReconnecting]) true := by
      have := h.cycles
      rw [h.ready hs] at this
      simpa [Cycles] using this
    constructor
    case installed => exact h.installed
    case laws => exact h.laws.lost hopen
    case fresh => exact nofun
    case ready => exact nofun
    case lost => exact fun _ => rfl
    case pending => simp [reconnectPending_concat]
    case cycles => exact hcycles
    case alternating =>
      refine h.alternating.append hcycles fun rest after hnew => ?_
      cases rest with
      | nil => exact .inr ⟨rfl, rfl⟩
      | cons x rest =>
        obtain ⟨rfl, htail⟩ := List.cons.inj hnew
        rcases prefix_singleton htail with rfl | ⟨hr, hg⟩
        · exact .inl rfl
        · exact .inr ⟨by simpa using hr, by simpa using hg⟩
    case unclosed => exact fun _ => by simp [hopen]
  | closed hs =>
    have hcycles : Cycles (log ++ [.onClosed]) m.reconnecting := by
      have := h.cycles
      simpa [Cycles] using this
    constructor
    case installed => exact h.installed
    case laws => exact h.laws.concat (h.unclosed hs) nofun nofun nofun
    case fresh => exact fun _ ho => ho.elim nofun nofun
    case ready => exact nofun
    case lost => exact nofun
    case pending => simpa [reconnectPending_concat] using h.pending
    case cycles => exact hcycles
    case alternating => exact h.alternating.append hcycles fun _ _ => prefix_singleton
    case unclosed => exact fun hne => absurd rfl hne

/-- One more request at the end of a run. -/
lemma transitions_concat (m : StateMachine) (calls : List ConnectionState) (target : ConnectionState) :
    m.transitions (calls ++ [target]) =
      let r := m.transitions calls
      let t := r.1.transition target
      (t.1, if t.2.1 then r.2.1 ++ [(r.1.state, target)] else r.2.1, r.2.2 ++ t.2.2) := by
  induction calls generalizing m with
  | nil =>
    simp only [List.nil_append, transitions, List.append_nil]
    rfl
  | cons c calls ih =>
    simp only [List.cons_append, transitions, ih, List.append_assoc]
    split <;> split <;> rfl

/-- A new machine with its five callbacks set. -/
def withCallbacks : StateMachine := Callback.all.foldl setCallback (init .kIdle)

/-- The invariant holds of every run. -/
lemma inv_transitions (calls : List ConnectionState) :
    Inv (withCallbacks.transitions calls).1 (withCallbacks.transitions calls).2.1
      (withCallbacks.transitions calls).2.2 := by
  induction calls using List.reverseRecOn with
  | nil =>
    constructor
    case installed => exact fun c => by cases c <;> rfl
    case laws => exact .nil
    case fresh => exact fun _ _ => rfl
    case ready => exact nofun
    case lost => exact nofun
    case pending =>
      refine iff_of_false nofun ?_
      rintro ⟨before, source, after, heq, -⟩
      exact absurd heq.symm (List.append_ne_nil_of_right_ne_nil _ (List.cons_ne_nil _ _))
    case cycles => rfl
    case alternating =>
      intro before after heq
      obtain ⟨rfl, -⟩ := List.append_eq_nil_iff.mp heq.symm
      exact ⟨Nat.le_refl 0, Nat.zero_le 1⟩
    case unclosed => exact fun _ => List.not_mem_nil
  | append_singleton calls target ih =>
    rw [transitions_concat]
    exact ih.move (moves ih.installed target)

/-- The laws of a run: the machine after some requests, the transitions accepted and the callbacks
fired. -/
structure Obeys (m : StateMachine) (accepted : List Accepted) (log : List Callback) : Prop where
  rejected : ∀ target, (m.transition target).2.1 = false → m.transition target = (m, false, [])
  laws : LogLaws log
  reconnectedAt : ∀ target, .onReconnected ∈ (m.transition target).2.2 ↔
    (m.transition target).2.1 = true ∧ target = .kReady ∧ ReconnectPending accepted
  reconnectedOnly : ∀ target, .onReconnected ∈ (m.transition target).2.2 →
    (m.transition target).2.2 = [.onReconnected]
  cycles : Cycles log m.reconnecting
  alternating : Alternating log
  closedOnce : log.count .onClosed ≤ 1
  closedForever : m.state = .kClosed → ∀ calls, (m.transitions calls).1.state = .kClosed

/-- A callback after which nothing fires is fired once. -/
lemma LogLaws.closedOnce {log : List Callback} (h : LogLaws log) : log.count .onClosed ≤ 1 := by
  by_cases hmem : .onClosed ∈ log
  · obtain ⟨before, after, rfl, hfirst⟩ := List.eq_append_cons_of_mem hmem
    cases h.closedLast before after rfl
    rw [List.count_append, List.count_eq_zero_of_not_mem hfirst]
    exact Nat.le_refl 1
  · rw [List.count_eq_zero_of_not_mem hmem]
    exact Nat.zero_le 1

/-- A request is accepted exactly when the table allows it. -/
lemma transition_accepted (m : StateMachine) (target : ConnectionState) :
    (m.transition target).2.1 = isValidTransition m.state target := by
  unfold transition
  cases isValidTransition m.state target with
  | false => rfl
  | true =>
    dsimp only [Bool.not_true, Bool.false_eq_true, if_false]
    repeat' split
    all_goals first | rfl | contradiction

lemma transition_rejected {m : StateMachine} {target : ConnectionState}
    (h : (m.transition target).2.1 = false) : m.transition target = (m, false, []) := by
  rw [transition_accepted] at h
  simp [transition, h]

/-- What the next request does, from the invariant. -/
lemma Inv.obeys {m : StateMachine} {accepted : List Accepted} {log : List Callback}
    (h : Inv m accepted log) : Obeys m accepted log := by
  constructor
  case rejected => exact fun target => transition_rejected
  case laws => exact h.laws
  case reconnectedAt =>
    intro target
    rw [← h.pending]
    exact (moves h.installed target).reconnected_iff
  case reconnectedOnly => exact fun target => (moves h.installed target).reconnected_only
  case cycles => exact h.cycles
  case alternating => exact h.alternating
  case closedOnce => exact h.laws.closedOnce
  case closedForever =>
    intro hs calls
    rw [transitions_closed hs]
    exact hs

/-- Every run from `kIdle` obeys the laws, at each of its points. -/
theorem runs_obey (calls : List ConnectionState) :
    Obeys (withCallbacks.transitions calls).1 (withCallbacks.transitions calls).2.1
      (withCallbacks.transitions calls).2.2 :=
  (inv_transitions calls).obeys

/-- A connection is made, lost and made again, and the machine is closed. -/
theorem runs_obey_reconnected :
    let r := withCallbacks.transitions
      [.kConnecting, .kReady, .kReconnecting, .kConnecting, .kReady, .kClosed]
    r.2.2 = [.onConnected, .onDisconnected, .onReconnecting, .onReconnected, .onClosed] ∧
      Obeys r.1 r.2.1 r.2.2 :=
  ⟨rfl, runs_obey _⟩

/-- Whatever callbacks are installed, a request that fires `onClosed` leads to `kClosed` and fires
nothing else. -/
lemma transition_fires_closed {m : StateMachine} {target : ConnectionState}
    (h : .onClosed ∈ (m.transition target).2.2) :
    (m.transition target).1.state = .kClosed ∧ (m.transition target).2.2 = [.onClosed] := by
  have hcap : ∀ c, m.captured c = [] ∨ m.captured c = [c] := by
    intro c
    unfold captured
    split
    · exact .inr rfl
    · exact .inl rfl
  by_cases ht : target = .kClosed
  · subst ht
    by_cases hs : m.state = .kClosed
    · rw [transition_closed hs] at h
      cases h
    · rw [transition_to_closed hs] at h ⊢
      rcases hcap .onClosed with hc | hc
      · rw [hc] at h
        cases h
      · exact ⟨rfl, hc⟩
  · refine absurd h ?_
    have hno : ∀ c, c ≠ .onClosed → .onClosed ∉ m.captured c := by
      intro c hne
      rcases hcap c with hc | hc <;> rw [hc]
      · exact List.not_mem_nil
      · exact fun hm => hne (List.mem_singleton.mp hm).symm
    have hbeq : (target == ConnectionState.kClosed) = false := beq_eq_false_iff_ne.mpr ht
    simp only [transition, hbeq, Bool.false_eq_true, if_false]
    split
    · exact List.not_mem_nil
    · split
      · split
        · exact hno .onReconnected (by decide)
        · exact hno .onConnected (by decide)
      · split
        · split
          · exact List.not_mem_cons_of_ne_of_not_mem (by decide) (hno .onReconnecting (by decide))
          · exact hno .onReconnecting (by decide)
        · exact List.not_mem_nil

/-- Nothing fires after `onClosed`. -/
lemma transitions_closed_last {m : StateMachine} {calls : List ConnectionState}
    {before after : List Callback}
    (h : (m.transitions calls).2.2 = before ++ .onClosed :: after) : after = [] := by
  induction calls generalizing m before with
  | nil =>
    have hne := List.append_ne_nil_of_right_ne_nil before (List.cons_ne_nil Callback.onClosed after)
    exact absurd h.symm hne
  | cons target rest ih =>
    rcases Lts.split_append h with ⟨mid, hnew, hafter⟩ | ⟨mid, -, hrest⟩
    · have hmem : .onClosed ∈ (m.transition target).2.2 := by
        rw [hnew]
        exact List.mem_append_right _ List.mem_cons_self
      obtain ⟨hclosed, honly⟩ := transition_fires_closed hmem
      rw [transitions_closed hclosed, List.append_nil] at hafter
      rw [honly] at hnew
      cases before with
      | nil => rw [hafter, ← (List.cons.inj hnew).2]
      | cons c before =>
        have hnil := (List.cons.inj hnew).2
        exact absurd hnil.symm (List.append_ne_nil_of_right_ne_nil _ (List.cons_ne_nil _ _))
    · exact ih hrest

end KubeMQ.StateMachine
