import KubeMQ.Events.Broker
import KubeMQ.Subscription.Delivery

/-!
# Events are delivered at most once

Every `on_event` of a subscription belongs to a `Send` of its own that wrote its event successfully,
carries what that `Send` was given, and the events of one handle come in the order in which they
were written (`events_at_most_once`). As long as nothing that is meant for the subscription gets lost,
no event is missing either (`events_exactly_once`).

The invariant follows the events of one handle: those that a subscription has read, those on the way
to it and those the broker has not taken yet are, in this order, among those the handle has written.
-/

namespace KubeMQ.Events

open StreamHandle (Traced UserAction traced tracedNext encodeEvent writesBy)
open Subscription (Sub messages onEvents)

section

variable {h : ℕ} {opts : ClientOptions}

/-- The events that a handle has written, in order. -/
def accepted (h : ℕ) (log : List (StreamHandle.Obs Proto.Event Proto.Result Empty)) : List Sent :=
  log.filterMap fun
    | .write i e true => some ⟨h, i, e⟩
    | _ => none

lemma accepted_append (log o : List (StreamHandle.Obs Proto.Event Proto.Result Empty)) :
    accepted h (log ++ o) = accepted h log ++ accepted h o :=
  List.filterMap_append

lemma accepted_of_not_write {o : StreamHandle.Obs Proto.Event Proto.Result Empty}
    (ho : o.isWrite = false) : accepted h [o] = [] := by
  cases o with
  | write => cases ho
  | _ => rfl

/-- An action of a handle adds to its events what leaves it. -/
lemma accepted_step {s t : Sender} {a : UserAction Draft Proto.Result}
    (hn : tracedNext HandleSpec.eventStream (encodeEvent opts) s a = some t) :
    accepted h t.handle.mem.log = accepted h s.handle.mem.log ++ written h s a := by
  obtain ⟨t', ht, rfl⟩ := Option.map_eq_some_iff.mp hn
  have st := (StreamHandle.Step.of_next ht).2
  cases a with
  | begin op =>
    cases st
    exact (List.append_nil _).symm
  | destroy =>
    cases st
    exact (List.append_nil _).symm
  | free =>
    cases st
    exact (List.append_nil _).symm
  | reader l =>
    cases st with
    | reader st =>
      obtain ⟨-, -, -, hlog | ⟨o, ho, -, hlog⟩⟩ := st.writes
      · exact (congrArg (accepted h) hlog).trans (List.append_nil _).symm
      · refine (congrArg (accepted h) hlog).trans ?_
        rw [accepted_append, accepted_of_not_write ho]
        rfl
  | call i l =>
    cases st with
    | call hpc st =>
      cases st
      case sendWrite e ok =>
        refine (accepted_append _ _).trans ?_
        cases ok with
        | true =>
          rw [written, hpc]
          rfl
        | false => rfl
      case closeWritesDone => exact accepted_append _ _
      all_goals exact (List.append_nil _).symm

lemma mem_accepted {log : List (StreamHandle.Obs Proto.Event Proto.Result Empty)} {o : Sent}
    (ho : o ∈ accepted h log) : o.handle = h ∧ (o.event, true) ∈ writesBy o.call log := by
  obtain ⟨x, hx, hox⟩ := List.mem_filterMap.mp ho
  split at hox
  · cases hox
    exact ⟨rfl, StreamHandle.mem_writesBy hx⟩
  · cases hox

lemma accepted_of_written {log : List (StreamHandle.Obs Proto.Event Proto.Result Empty)} {i : ℕ}
    {e : Proto.Event} (he : (e, true) ∈ writesBy i log) : ⟨h, i, e⟩ ∈ accepted h log := by
  obtain ⟨x, hx, hox⟩ := List.mem_filterMap.mp he
  refine List.mem_filterMap.mpr ⟨x, hx, ?_⟩
  split at hox
  · split at hox
    · next hi =>
      cases hox
      rw [hi]
    · cases hox
  · cases hox

/-- How often a call shows up among the events of its handle. -/
lemma count_accepted (i : ℕ) (log : List (StreamHandle.Obs Proto.Event Proto.Result Empty)) :
    ((accepted h log).map Sent.call).count i = (writesBy i log).countP Prod.snd := by
  rw [List.count, List.countP_map, accepted, List.countP_filterMap, writesBy, List.countP_filterMap]
  refine List.countP_congr fun o _ => ?_
  cases o with
  | write j e ok =>
    by_cases hj : j = i <;> cases ok <;> simp [hj]
  | _ => simp

/-- A call that has written something is on record, and stands somewhere. -/
lemma progress_of_call {s : Sender}
    (inv : StreamHandle.TracedInv HandleSpec.eventStream (encodeEvent opts) s) (i : ℕ) :
    writesBy i s.handle.mem.log = [] ∨
      ∃ issue pc, s.issued[i]? = some issue ∧ s.handle.calls[i]? = some pc ∧
        StreamHandle.Progress HandleSpec.eventStream (encodeEvent opts) issue pc
          (writesBy i s.handle.mem.log) := by
  by_cases hlt : i < s.handle.calls.length
  · have hissue := List.getElem?_eq_getElem (inv.length ▸ hlt : i < s.issued.length)
    have hcall := List.getElem?_eq_getElem hlt
    exact .inr ⟨_, _, hissue, hcall, inv.progress i _ _ hissue hcall⟩
  · exact .inl (inv.fresh i (Nat.not_lt.mp hlt))

/-- The calls that wrote the events of a handle. -/
lemma nodup_accepted {s : Sender}
    (inv : StreamHandle.TracedInv HandleSpec.eventStream (encodeEvent opts) s) :
    ((accepted h s.handle.mem.log).map Sent.call).Nodup := by
  refine List.nodup_iff_count_le_one.mpr fun i => ?_
  rw [count_accepted]
  refine List.countP_le_length.trans ?_
  rcases progress_of_call inv i with hnone | ⟨issue, pc, -, -, progress⟩
  · rw [hnone]
    exact Nat.zero_le 1
  · generalize writesBy i s.handle.mem.log = ws at progress
    cases progress with
    | written => exact Nat.le_refl 1
    | _ => exact Nat.zero_le 1

/-- `r` is what call `i` of `Send` was given; the call began on an open handle, and its status, once
it has one, is OK. -/
structure Delivers (opts : ClientOptions) (s : Sender) (i : ℕ) (m : Draft) (r : EventReceive) :
    Prop where
  issued : ∃ issue, s.issued[i]? = some issue ∧ issue.op = .send m ∧ issue.late = false
  ok : ∀ st, s.handle.calls[i]? = some (.sent st) → st.ok = true
  id : r.id = firstNonEmpty m.2.id (generateUUID m.1)
  channel : r.channel = m.2.channel
  metadata : r.metadata = m.2.metadata
  body : r.body = m.2.body
  tags : r.tags = m.2.tags

/-- The broker passed `o` on as `p`. -/
def Forwarded (o : Sent) (p : Proto.EventReceive) : Prop :=
  ∃ sequence timestamp, p = forwarded o.event sequence timestamp

/-- An event that a handle has written and that the broker passed on reaches the callback as its
`Send` was given it. -/
lemma delivers_of_accepted {s : Sender} {o : Sent} {p : Proto.EventReceive}
    (inv : StreamHandle.TracedInv HandleSpec.eventStream (encodeEvent opts) s)
    (ho : o ∈ accepted h s.handle.mem.log) (hp : Forwarded o p) :
    ∃ m, Delivers opts s o.call m (receiveEvent p) := by
  obtain ⟨-, hw⟩ := mem_accepted ho
  obtain hnone | ⟨issue, pc, hissue, hcall, progress⟩ := progress_of_call inv o.call
  · rw [hnone] at hw
    cases hw
  generalize writesBy o.call s.handle.mem.log = ws at progress hw
  cases progress with
  | @written m ok _ hop hlate hpc =>
    obtain ⟨he, rfl⟩ := Prod.mk.inj (List.mem_singleton.mp hw)
    obtain ⟨n, t, rfl⟩ := hp
    refine ⟨m, ⟨issue, hissue, hop, hlate⟩, fun st hst => ?_, ?_, ?_, ?_, ?_, ?_⟩
    · cases Option.some.inj (hcall.symm.trans hst)
      rcases hpc with hpc | hpc <;> cases hpc
      rfl
    · exact congrArg Proto.Event.eventID he
    · exact congrArg Proto.Event.channel he
    · exact congrArg Proto.Event.metadata he
    · exact congrArg Proto.Event.body he
    · rw [receiveEvent, forwarded, he]
      simp [encodeEvent]
  | _ => cases hw

end

section

variable {P R : Type} {κ : SubKind P R} {h : Subscription.Handlers}

/-- The message that an action takes from the stream. -/
def received : Subscription.Action P → List P
  | .reader (.msg p) => [p]
  | _ => []

/-- What a step of the reader thread adds to the history, and to the calls of `on_event`. -/
lemma readerStep_adds {m m' : Subscription.Mem P R} {n : ℕ} {lst : GrpcStatus}
    {pc : Subscription.ReaderPc R} {r' : Subscription.Reader R} {l : Subscription.ReaderLabel P}
    (st : Subscription.ReaderStep κ h m n lst pc l m' r') (hset : h.onEvent = true)
    (hall : ∀ p, κ.accepts p = true) :
    ∃ e, m'.log = m.log ++ e ∧ messages e = received (.reader l) ∧
      onEvents e ++ r'.pc.pending = pc.pending ++ (received (.reader l)).map κ.convert := by
  cases st
  case accept p ha ht => exact ⟨_, (Subscription.Mem.take_spec ht).2.2.2.2.1, rfl, rfl⟩
  case skip p ha ht => exact absurd (hall p) (by simp [ha])
  case noCall hno => exact absurd hset (by simp [hno])
  all_goals
    first
      | exact ⟨[], (List.append_nil _).symm, rfl, rfl⟩
      | exact ⟨[_], rfl, rfl, rfl⟩

/-- `on_event` has been or is about to be called with every message that was read, in order. -/
def Passed (κ : SubKind P R) (s : Sub P R) : Prop :=
  onEvents s.mem.log ++ s.reader.pc.pending = (messages s.mem.log).map κ.convert

lemma subscription_step {s t : Sub P R} {a : Subscription.Action P}
    (st : Subscription.Step κ h s a t) (hset : h.onEvent = true)
    (hall : ∀ p, κ.accepts p = true) :
    messages t.mem.log = messages s.mem.log ++ received a ∧ (Passed κ s → Passed κ t) := by
  cases st with
  | begin => exact ⟨(List.append_nil _).symm, id⟩
  | call hpc st =>
    have hlog := st.effect.log
    refine ⟨(congrArg messages hlog).trans (List.append_nil _).symm, fun passed => ?_⟩
    simp only [Passed, hlog] at passed ⊢
    exact passed
  | reader st =>
    obtain ⟨e, hlog, hm, hadd⟩ := readerStep_adds st hset hall
    constructor
    · simp only [hlog]
      rw [Subscription.messages_append, hm]
    · intro passed
      simp only [Passed, hlog] at passed ⊢
      rw [Subscription.onEvents_append, Subscription.messages_append, List.map_append,
        List.append_assoc, hm, hadd, ← List.append_assoc, passed]

end

section

variable {opts : ℕ → ClientOptions} {onError : ℕ → Bool} {s t : World} {a : Action} {h k : ℕ}

/-- The events that reached subscription `k`, read or not. -/
def World.reached (s : World) (k : ℕ) : List Sent :=
  s.read k ++ (s.outbox k).map Prod.fst

/-- The events of handle `h` that reached subscription `k`, and those that the broker has not taken. -/
def World.trail (s : World) (h k : ℕ) : List Sent :=
  (s.reached k).filter (·.handle = h) ++ s.inbox h

/-- What handle `h` writes with an action. -/
def World.leaving (s : World) (h : ℕ) : Action → List Sent
  | .sender j a => if j = h then written h (s.senders h) a else []
  | _ => []

/-- The invariant of the system. -/
structure Inv (opts : ℕ → ClientOptions) (s : World) : Prop where
  senders : ∀ h, StreamHandle.TracedInv HandleSpec.eventStream (encodeEvent (opts h)) (s.senders h)
  passed : ∀ k, Passed SubKind.events (s.subscribers k)
  read : ∀ k, List.Forall₂ Forwarded (s.read k) (messages (s.subscribers k).mem.log)
  outbox : ∀ k, ∀ x ∈ s.outbox k, Forwarded x.1 x.2
  trail : ∀ h k, (s.trail h k).Sublist (accepted h (s.senders h).handle.mem.log)

lemma taken_cases {out rest : List (Sent × Proto.EventReceive)} {os : List Sent}
    {a : Subscription.Action Proto.EventReceive} (ht : taken out a = some (os, rest)) :
    (os = [] ∧ rest = out ∧ received a = []) ∨
      ∃ o p, out = (o, p) :: rest ∧ os = [o] ∧ received a = [p] := by
  simp only [taken] at ht
  split at ht
  · split at ht
    · cases ht
    · next o q tail =>
      split at ht
      · next hq =>
        cases ht
        exact .inr ⟨o, q, rfl, rfl, congrArg (fun p => [p]) hq.symm⟩
      · cases ht
  · next hne =>
    cases ht
    refine .inl ⟨rfl, rfl, ?_⟩
    rcases a with _ | _ | l
    · rfl
    · rfl
    · cases l with
      | msg p => exact absurd rfl (hne p)
      | _ => rfl

/-- What an action reads is what it takes from the way. -/
lemma taken_reached {out rest : List (Sent × Proto.EventReceive)} {os : List Sent}
    {a : Subscription.Action Proto.EventReceive} (ht : taken out a = some (os, rest)) :
    os ++ rest.map Prod.fst = out.map Prod.fst := by
  rcases taken_cases ht with ⟨rfl, rfl, -⟩ | ⟨o, p, rfl, rfl, -⟩
  · rfl
  · rfl

/-- The events of a handle advance by what it writes; nothing is added to them, and as long as
nothing gets lost nothing is taken away. -/
lemma Step.trail (st : Step opts onError s a t) (owner : ∀ h, ∀ o ∈ s.inbox h, o.handle = h)
    (h k : ℕ) :
    (t.trail h k).Sublist (s.trail h k ++ s.leaving h a) ∧
      (a.keeps k = true → t.trail h k = s.trail h k ++ s.leaving h a) := by
  have same (he : t.trail h k = s.trail h k ++ s.leaving h a) :
      (t.trail h k).Sublist (s.trail h k ++ s.leaving h a) ∧
        (a.keeps k = true → t.trail h k = s.trail h k ++ s.leaving h a) :=
    ⟨he ▸ List.Sublist.refl _, fun _ => he⟩
  cases st with
  | @sender j a s' hs =>
    apply same
    by_cases hj : j = h
    · subst hj
      simp [World.trail, World.reached, World.leaving]
    · simp [World.trail, World.reached, World.leaving, hj, Function.update_of_ne (Ne.symm hj)]
  | @route j dest o rest hin =>
    have ho : o.handle = j := owner j o (hin ▸ List.mem_cons_self)
    by_cases hj : j = h
    · subst hj
      cases hdest : dest k with
      | none =>
        refine ⟨?_, fun hkeeps => ?_⟩
        · simp [World.trail, World.reached, World.leaving, passedOn, hdest, hin]
        · simp [Action.keeps, hdest] at hkeeps
      | some stamp =>
        apply same
        simp [World.trail, World.reached, World.leaving, passedOn, hdest, hin, ho]
    · apply same
      have hne : o.handle ≠ h := ho ▸ hj
      cases hdest : dest k <;>
        simp [World.trail, World.reached, World.leaving, passedOn, hdest, hne,
          Function.update_of_ne (Ne.symm hj)]
  | @lose j i =>
    by_cases hj : j = k
    · subst hj
      refine ⟨?_, fun hkeeps => by simp [Action.keeps] at hkeeps⟩
      simp only [World.trail, World.reached, World.leaving, Function.update_self, List.append_nil]
      refine ((List.Sublist.filter _ ?_).append_right _)
      exact ((List.eraseIdx_sublist _ i).map Prod.fst).append_left _
    · apply same
      simp [World.trail, World.reached, World.leaving, Function.update_of_ne (Ne.symm hj)]
  | @subscriber j a os rest s' htaken hs =>
    apply same
    by_cases hj : j = k
    · subst hj
      simp [World.trail, World.reached, World.leaving, ← taken_reached htaken]
    · simp [World.trail, World.reached, World.leaving, Function.update_of_ne (Ne.symm hj)]

lemma Step.accepted (st : Step opts onError s a t) (h : ℕ) :
    accepted h (t.senders h).handle.mem.log =
      accepted h (s.senders h).handle.mem.log ++ s.leaving h a := by
  cases st with
  | @sender j a s' hs =>
    by_cases hj : j = h
    · subst hj
      simpa [World.leaving] using accepted_step hs
    · simp [World.leaving, hj, Function.update_of_ne (Ne.symm hj)]
  | _ => exact (List.append_nil _).symm

lemma Inv.owner (inv : Inv opts s) (h : ℕ) (o : Sent) (ho : o ∈ s.inbox h) : o.handle = h :=
  (mem_accepted ((inv.trail h 0).subset (List.mem_append_right _ ho))).1

lemma forwarded_passedOn {o : Sent} {dest : ℕ → Option (ℕ × Int)}
    {x : Sent × Proto.EventReceive} (hx : x ∈ passedOn o dest k) : Forwarded x.1 x.2 := by
  simp only [passedOn] at hx
  split at hx
  · cases hx
  · next n time _ =>
    cases List.mem_singleton.mp hx
    exact ⟨n, time, rfl⟩

/-- Every step of the system keeps the invariant. -/
lemma Inv.step (inv : Inv opts s) (st : Step opts onError s a t) : Inv opts t := by
  have trail (h k : ℕ) : (t.trail h k).Sublist (Events.accepted h (t.senders h).handle.mem.log) := by
    rw [st.accepted h]
    exact (st.trail inv.owner h k).1.trans ((inv.trail h k).append_right _)
  cases st with
  | @sender j a s' hs =>
    refine ⟨?_, inv.passed, inv.read, inv.outbox, trail⟩
    intro h
    dsimp only
    by_cases hj : h = j
    · subst hj
      rw [Function.update_self]
      exact (inv.senders h).step hs
    · rw [Function.update_of_ne hj]
      exact inv.senders h
  | route hin =>
    refine ⟨inv.senders, inv.passed, inv.read, ?_, trail⟩
    intro k x hx
    rcases List.mem_append.mp hx with hx | hx
    · exact inv.outbox k x hx
    · exact forwarded_passedOn hx
  | @lose j i =>
    refine ⟨inv.senders, inv.passed, inv.read, ?_, trail⟩
    intro k x hx
    dsimp only at hx
    by_cases hj : k = j
    · subst hj
      rw [Function.update_self] at hx
      exact inv.outbox k x (List.mem_of_mem_eraseIdx hx)
    · rw [Function.update_of_ne hj] at hx
      exact inv.outbox k x hx
  | @subscriber j a os rest s' htaken hs =>
    obtain ⟨hm, hpassed⟩ := subscription_step hs rfl (fun _ => rfl)
    refine ⟨inv.senders, ?_, ?_, ?_, trail⟩
    · intro k
      dsimp only
      by_cases hj : k = j
      · subst hj
        rw [Function.update_self]
        exact hpassed (inv.passed k)
      · rw [Function.update_of_ne hj]
        exact inv.passed k
    · intro k
      dsimp only
      by_cases hj : k = j
      · subst hj
        rw [Function.update_self, Function.update_self, hm]
        rcases taken_cases htaken with ⟨rfl, -, hr⟩ | ⟨o, p, hout, rfl, hr⟩
        · rw [hr, List.append_nil, List.append_nil]
          exact inv.read k
        · have hp : Forwarded o p := inv.outbox k (o, p) (hout ▸ List.mem_cons_self)
          rw [hr]
          exact List.rel_append (inv.read k) (.cons hp .nil)
      · rw [Function.update_of_ne hj, Function.update_of_ne hj]
        exact inv.read k
    · intro k x hx
      dsimp only at hx
      by_cases hj : k = j
      · subst hj
        rw [Function.update_self] at hx
        rcases taken_cases htaken with ⟨-, rfl, -⟩ | ⟨o, p, hout, -, -⟩
        · exact inv.outbox k x hx
        · exact inv.outbox k x (hout ▸ List.mem_cons_of_mem _ hx)
      · rw [Function.update_of_ne hj] at hx
        exact inv.outbox k x hx

lemma inv_reachable (hs : (sys opts onError).Reachable s) : Inv opts s := by
  refine hs.invariant ?_ ?_
  · intro s hi
    refine ⟨fun h => StreamHandle.tracedInv_reachable (.init (hi.senders h)), ?_, ?_, ?_, ?_⟩
    · intro k
      rw [hi.subscribers k]
      rfl
    · intro k
      rw [hi.subscribers k, hi.read k]
      exact .nil
    · intro k x hx
      rw [hi.outbox k] at hx
      cases hx
    · intro h k
      rw [World.trail, World.reached, hi.read k, hi.outbox k, hi.inbox h]
      exact List.nil_sublist _
  · intro s a t _ inv _ hn
    exact inv.step (Step.of_next hn)

/-- `origins` tells to which `Send` of which handle each call of `on_event` of subscription `k`
belongs. -/
structure Origins (opts : ℕ → ClientOptions) (s : World) (k : ℕ) (origins : List Sent) : Prop where
  delivers : List.Forall₂
    (fun o r => ∃ m, Delivers (opts o.handle) (s.senders o.handle) o.call m r)
    origins (onEvents (s.subscribers k).mem.log)
  once : (origins.map fun o => (o.handle, o.call)).Nodup
  ordered : ∀ h, (origins.filter (·.handle = h)).Sublist
    (accepted h (s.senders h).handle.mem.log)

/-- Events that are different for each handle are different. -/
lemma nodup_of_handles {l : List Sent}
    (each : ∀ h, ((l.filter (·.handle = h)).map Sent.call).Nodup) :
    (l.map fun o => (o.handle, o.call)).Nodup := by
  refine List.nodup_iff_count_le_one.mpr fun x => ?_
  refine Nat.le_trans (Nat.le_of_eq ?_) (List.nodup_iff_count_le_one.mp (each x.1) x.2)
  rw [List.count, List.countP_map, List.count, List.countP_map, List.countP_filter]
  refine List.countP_congr fun o _ => ?_
  obtain ⟨h, i⟩ := x
  simp [and_comm]

/-- The events that subscription `k` has passed to `on_event`, as long as it passes on what it read. -/
lemma Inv.origins (inv : Inv opts s) (k : ℕ) :
    Origins opts s k ((s.read k).take (onEvents (s.subscribers k).mem.log).length) := by
  have hsub (h : ℕ) : ((s.read k).filter (·.handle = h)).Sublist
      (accepted h (s.senders h).handle.mem.log) := by
    refine List.Sublist.trans ?_ (inv.trail h k)
    exact ((List.sublist_append_left _ _).filter _).trans (List.sublist_append_left _ _)
  have htake (h : ℕ) := ((List.take_sublist (onEvents (s.subscribers k).mem.log).length
    (s.read k)).filter (·.handle = h)).trans (hsub h)
  refine ⟨?_, nodup_of_handles fun h => ?_, htake⟩
  · have hread : List.Forall₂ (fun o r => ∃ p, Forwarded o p ∧ r = receiveEvent p) (s.read k)
        ((messages (s.subscribers k).mem.log).map receiveEvent) :=
      List.forall₂_map_right_iff.mpr ((inv.read k).imp fun o p hp => ⟨p, hp, rfl⟩)
    have hpassed : onEvents (s.subscribers k).mem.log ++ (s.subscribers k).reader.pc.pending =
        (messages (s.subscribers k).mem.log).map receiveEvent := inv.passed k
    have hcalled := List.forall₂_take (onEvents (s.subscribers k).mem.log).length hread
    rw [← hpassed, List.take_left] at hcalled
    have hwritten : ∀ o ∈ (s.read k).take (onEvents (s.subscribers k).mem.log).length,
        o ∈ accepted o.handle (s.senders o.handle).handle.mem.log :=
      fun o ho => (htake o.handle).subset (List.mem_filter.mpr ⟨ho, decide_eq_true rfl⟩)
    refine ((List.forall₂_and_left _ _).mpr ⟨hwritten, hcalled⟩).imp ?_
    rintro o r ⟨ho, p, hp, rfl⟩
    exact delivers_of_accepted (inv.senders o.handle) ho hp
  · exact (nodup_accepted (inv.senders h)).sublist ((htake h).map Sent.call)

/-- In every run of any number of event streams and event subscriptions, with all their threads and
whatever the broker passes on and loses, each call of `on_event` belongs to a `Send` of its own that
wrote its event and was given what the callback is called with, and the events of one handle come in
the order in which they were written. -/
theorem events_at_most_once (opts : ℕ → ClientOptions) (onError : ℕ → Bool) (s : World)
    (hs : (sys opts onError).Reachable s) (k : ℕ) : ∃ origins, Origins opts s k origins :=
  ⟨_, (inv_reachable hs).origins k⟩

/-- Where the events of all handles are, as subscription `k` sees it: passed to `on_event`, on the
way there, or still with their handle. -/
structure Accounted (opts : ℕ → ClientOptions) (s : World) (k : ℕ) (called onTheWay : List Sent) :
    Prop where
  origins : Origins opts s k called
  length : onTheWay.length = (s.subscribers k).reader.pc.pending.length + (s.outbox k).length
  complete : ∀ h, (called ++ onTheWay).filter (·.handle = h) ++ s.inbox h =
    accepted h (s.senders h).handle.mem.log
  /-- A `Send` that has returned wrote its event exactly when it says so. -/
  sent : ∀ h i issue m st, (s.senders h).issued[i]? = some issue → issue.op = .send m →
    (s.senders h).handle.calls[i]? = some (.sent st) →
    (st.ok = true ↔
      ⟨h, i, encodeEvent (opts h) m⟩ ∈ accepted h (s.senders h).handle.mem.log)

/-- The status of a `Send` tells whether its event is among those that the handle has written. -/
lemma sent_ok_iff {opts : ClientOptions} {s : Sender}
    (inv : StreamHandle.TracedInv HandleSpec.eventStream (encodeEvent opts) s) {i : ℕ}
    {issue : StreamHandle.Issue Draft} {m : Draft} {st : Status} (hissue : s.issued[i]? = some issue)
    (hop : issue.op = .send m) (hcall : s.handle.calls[i]? = some (.sent st)) :
    st.ok = true ↔ ⟨h, i, encodeEvent opts m⟩ ∈ accepted h s.handle.mem.log := by
  rcases (inv.progress i issue _ hissue hcall).sent hop with ⟨ok, hws, rfl, -⟩ | ⟨hws, rfl⟩
  · rw [StreamHandle.sendStatus_ok]
    constructor
    · rintro rfl
      exact accepted_of_written (hws ▸ List.mem_singleton.mpr rfl)
    · intro ho
      have hw := (mem_accepted ho).2
      rw [hws] at hw
      exact ((Prod.mk.inj (List.mem_singleton.mp hw)).2).symm
  · constructor
    · intro hok
      cases hok
    · intro ho
      have hw := (mem_accepted ho).2
      rw [hws] at hw
      cases hw

/-- As long as nothing that is meant for subscription `k` is lost, no event is missing. -/
theorem events_exactly_once (opts : ℕ → ClientOptions) (onError : ℕ → Bool) (s : World) (k : ℕ)
    (hs : (sys opts onError).Reach (fun _ a => a.keeps k = true) s) :
    ∃ called onTheWay, Accounted opts s k called onTheWay := by
  have inv := inv_reachable hs.reachable
  have complete (h : ℕ) : s.trail h k = accepted h (s.senders h).handle.mem.log := by
    refine hs.invariant (I := fun s => s.trail h k = accepted h (s.senders h).handle.mem.log) ?_ ?_
    · intro s hi
      obtain ⟨onResult, onError, hstart⟩ := hi.senders h
      rw [World.trail, World.reached, hi.read k, hi.outbox k, hi.inbox h, hstart]
      rfl
    · intro s a t hs ih hkeeps hn
      have st := Step.of_next hn
      rw [st.accepted h, ← ih]
      exact (st.trail (inv_reachable hs.reachable).owner h k).2 hkeeps
  have hlength : (s.read k).length = (onEvents (s.subscribers k).mem.log).length +
      (s.subscribers k).reader.pc.pending.length := by
    rw [(inv.read k).length_eq, ← List.length_append, inv.passed k, List.length_map]
  refine ⟨_, (s.read k).drop (onEvents (s.subscribers k).mem.log).length ++
    (s.outbox k).map Prod.fst, inv.origins k, ?_, fun h => ?_, ?_⟩
  · rw [List.length_append, List.length_drop, List.length_map, hlength, Nat.add_sub_cancel_left]
  · rw [← List.append_assoc, List.take_append_drop]
    exact complete h
  · intro h i issue m st hissue hop hcall
    exact sent_ok_iff (inv.senders h) hissue hop hcall

end

/-- No handle has sent anything, and no subscription has read anything. -/
def quiet : World where
  senders := fun _ => ⟨StreamHandle.start none none, []⟩
  subscribers := fun _ => Subscription.start
  inbox := fun _ => []
  outbox := fun _ => []
  read := fun _ => []

/-- Handle `h` sends `e` in its first call. -/
def sendFirst (h : ℕ) (e : Event) : List Action :=
  [.sender h (.begin (.send ((0, 0), e))), .sender h (.call 0 .tau), .sender h (.call 0 .tau),
    .sender h (.call 0 (.wrote true)), .sender h (.call 0 .tau)]

def order : Event := { id := "e1", channel := "orders", metadata := "created" }

def bill : Event := { id := "e2", channel := "orders", metadata := "paid" }

/-- Two handles send; the event of the second one reaches subscription `0` first, and that of the
first one is lost on the way to subscription `1`. -/
def twoHandles : List Action :=
  sendFirst 0 order ++ sendFirst 1 bill ++
    [.route 1 (fun k => if k < 2 then some (1, 5) else none),
      .route 0 (fun k => if k < 2 then some (2, 6) else none), .lose 1 1,
      .subscriber 0 (.reader .tau),
      .subscriber 0 (.reader (.msg (forwarded (encodeEvent {} ((0, 0), bill)) 1 5))),
      .subscriber 0 (.reader .tau), .subscriber 0 (.reader (.callback none)),
      .subscriber 0 (.reader (.msg (forwarded (encodeEvent {} ((0, 0), order)) 2 6))),
      .subscriber 0 (.reader .tau)]

lemma quiet_reach (G : World → Action → Prop) :
    (sys (fun _ => {}) (fun _ => true)).Reach G quiet :=
  .init ⟨fun _ => ⟨none, none, rfl⟩, fun _ => rfl, fun _ => rfl, fun _ => rfl, fun _ => rfl⟩

theorem events_at_most_once_twoHandles :
    ∃ s, (sys (fun _ => {}) (fun _ => true)).exec quiet twoHandles = some s ∧
      (onEvents (s.subscribers 0).mem.log).map EventReceive.id = ["e2", "e1"] ∧
      ∃ origins, Origins (fun _ => {}) s 0 origins := by
  refine ⟨_, rfl, by decide +kernel, ?_⟩
  exact events_at_most_once (fun _ => {}) (fun _ => true) _
    ((quiet_reach _).exec twoHandles (fun _ _ _ => trivial) rfl) 0

theorem events_exactly_once_twoHandles :
    ∃ s, (sys (fun _ => {}) (fun _ => true)).exec quiet twoHandles = some s ∧
      ∃ called onTheWay, Accounted (fun _ => {}) s 0 called onTheWay := by
  refine ⟨_, rfl, events_exactly_once (fun _ => {}) (fun _ => true) _ 0 ?_⟩
  refine (quiet_reach _).exec twoHandles ?_ rfl
  intro a ha _
  revert a
  decide

end KubeMQ.Events
