import KubeMQ.Client.Lifecycle
import KubeMQ.Lts.Lock
import KubeMQ.Subscription.Cancel

/-!
# Draining the subscriptions of a closed client

No operation adds a context to `active_contexts`, so `DrainAll` cancels nothing. In the runs in
which nothing is left to drain when it is called (`nothingToDrain`), the contexts are cancelled
when `Close` returns and no reader thread follows the pointer to a freed transport
(`close_drains_subscriptions`): a settled subscription stays settled and never opens a stream
again. `close_leaves_the_reader_running` has two runs in which a subscription was not settled.
-/

namespace KubeMQ.Client

open Subscription (Sub Handlers ReaderPc ReaderStep CallEffect)

section Settled

variable {P R : Type} {κ : SubKind P R} {h : Handlers}

lemma settled_iff {t : Sub P R} : settled t = true ↔
    t.mem.done = true ∧ (t.mem.cancelled t.mem.ctx).isSome = true ∧ contexts t = [t.mem.ctx] := by
  obtain ⟨m, ⟨pc, n, st⟩, calls⟩ := t
  cases pc <;> simp [settled, contexts]

/-- Only a re-subscription has a context of its own, and it is not begun once `done` is set. -/
lemma settled_reader {m m' : Subscription.Mem P R} {r r' : Subscription.Reader R}
    {l : Subscription.ReaderLabel P} {calls : List Subscription.CallPc}
    (st : ReaderStep κ h m r.stream r.lastStatus r.pc l m' r')
    (hs : settled ⟨m, r, calls⟩ = true) : settled ⟨m', r', calls⟩ = true := by
  obtain ⟨pc, n, lst⟩ := r
  obtain ⟨hd, hc, hx⟩ := settled_iff.mp hs
  dsimp only at hd hc hx st
  have taken {p : P} {m' : Subscription.Mem P R} (ht : m.take n p = some m') :
      (m'.cancelled m'.ctx).isSome = true := by
    obtain ⟨-, hctx, -, -, -, hcan⟩ := Subscription.Mem.take_spec ht
    rw [hctx]
    rcases hcan with ⟨-, hcan⟩ | ⟨k, -, hcan⟩
    · rwa [hcan]
    · rw [hcan]
      by_cases hn : m.ctx = n
      · simp [hn]
      · rwa [Function.update_of_ne hn]
  cases st
  case accept _ ht =>
    exact settled_iff.mpr ⟨(Subscription.Mem.take_spec ht).1.trans hd, taken ht, rfl⟩
  case skip _ ht =>
    exact settled_iff.mpr ⟨(Subscription.Mem.take_spec ht).1.trans hd, taken ht, rfl⟩
  case attempt hnd => rw [hd] at hnd; cases hnd
  case storeCtx => cases hx
  case gatePassed => cases hx
  case gateRefused => cases hx
  case opened => cases hx
  case stubRefused => cases hx
  case exitStore => exact settled_iff.mpr ⟨rfl, hc, rfl⟩
  all_goals exact settled_iff.mpr ⟨hd, hc, rfl⟩

lemma settled_effect {m m' : Subscription.Mem P R} {r : Subscription.Reader R} {b : Bool}
    {calls calls' : List Subscription.CallPc} (e : CallEffect b m m')
    (hs : settled ⟨m, r, calls⟩ = true) : settled ⟨m', r, calls'⟩ = true := by
  obtain ⟨hd, hc, hx⟩ := settled_iff.mp hs
  dsimp only at hd hc
  refine settled_iff.mpr ⟨e.done hd, ?_, ?_⟩
  · show (m'.cancelled m'.ctx).isSome = true
    rw [e.ctx, e.cancelled _ hc]
    exact hc
  · simp only [contexts, List.cons.injEq, true_and] at hx ⊢
    exact hx

/-- A settled subscription stays settled. -/
lemma settled_step {t t' : Sub P R} {a : Subscription.Action P}
    (st : Subscription.Step κ h t a t') (hs : settled t = true) : settled t' = true := by
  cases st with
  | begin => exact hs
  | call _ st => exact settled_effect st.effect hs
  | reader st => exact settled_reader st hs

/-- A settled subscription does not use the transport. -/
lemma usesTransport_settled {t t' : Sub P R} {a : Subscription.Action P}
    (st : Subscription.Step κ h t a t') (hs : settled t = true) : usesTransport a = false := by
  cases st with
  | begin => rfl
  | call => rfl
  | reader st =>
    obtain ⟨m, ⟨pc, n, lst⟩, calls⟩ := t
    obtain ⟨-, -, hx⟩ := settled_iff.mp hs
    dsimp only at st
    cases st <;> first | rfl | cases hx

end Settled

/-- What holds of every subscription of a client. -/
def State.Settled (s : State) : Prop :=
  ∀ k, ∀ p ∈ s.subs k, settled p.sub = true

lemma State.Settled.setSub {s : State} {k : Kind} {i : ℕ} {p : Subscriber k} (hs : s.Settled)
    (hp : settled p.sub = true) : (s.setSub k i p).Settled := by
  intro k' q hq
  by_cases hk : k' = k
  · subst hk
    simp only [State.setSub, Function.update_self] at hq
    rcases List.mem_or_eq_of_mem_set hq with hq | rfl
    · exact hs _ q hq
    · exact hp
  · simp only [State.setSub, Function.update_of_ne hk] at hq
    exact hs _ q hq

/-- A call that has set `closed`. -/
def ClosePc.pastStore : ClosePc → Bool
  | .enter _ => false
  | .store _ => false
  | _ => true

/-- A call that has gone through the once-flag. -/
def ClosePc.pastOnce : ClosePc → Bool
  | .free => true
  | .freed => true
  | .returned => true
  | _ => false

/-- What holds of a client, as long as nothing is left to drain. -/
structure DrainInv (s : State) : Prop where
  untracked : s.activeContexts = []
  stored : ∀ pc ∈ s.calls, pc.pastStore = true → s.closed = true
  once : ∀ pc ∈ s.calls, pc.pastOnce = true → s.onceCompleted = true
  completed : s.onceCompleted = true → s.closed = true ∧ s.Settled
  drained : ∀ d, .transport d ∈ s.calls → s.Settled
  freed : s.freed = true → s.onceCompleted = true
  noUse : s.usedAfterFree = false

lemma drainInv_start : DrainInv start where
  untracked := rfl
  stored := nofun
  once := nofun
  completed := nofun
  drained := nofun
  freed := nofun
  noUse := rfl

/-- Nothing is subscribed once `Close` has begun. -/
lemma DrainInv.subscribe {s t : State} {k : Kind} {h : Handlers} {opened : Bool}
    (inv : DrainInv s) (hn : next s (.subscribe k h opened) = some t) : DrainInv t := by
  simp only [next] at hn
  split at hn
  · next hret =>
    split at hn
    · next hopen =>
      cases hn
      have hopen : s.closed = false := by simp_all
      have hcalls : s.calls = [] := by
        refine List.eq_nil_iff_forall_not_mem.mpr fun pc hpc => ?_
        have hpc' := List.all_eq_true.mp hret pc hpc
        have := inv.stored pc hpc (by simp_all [ClosePc.pastStore])
        rw [hopen] at this
        cases this
      refine ⟨inv.untracked, inv.stored, inv.once, fun hc => ?_, fun d hd => ?_, inv.freed,
        inv.noUse⟩
      · rw [(inv.completed hc).1] at hopen
        cases hopen
      · have hd : .transport d ∈ s.calls := hd
        rw [hcalls] at hd
        cases hd
    · cases hn
      exact inv
  · cases hn

lemma DrainInv.begin {s t : State} {d : Bool} (inv : DrainInv s)
    (hn : next s (.begin d) = some t) : DrainInv t := by
  simp only [next] at hn
  split at hn
  · cases hn
  · cases hn
    have call {pc : ClosePc} (hpc : pc ∈ s.calls ++ [.enter d]) :
        pc ∈ s.calls ∨ pc = .enter d := by
      simpa using hpc
    refine ⟨inv.untracked, fun pc hpc hp => ?_, fun pc hpc hp => ?_, inv.completed,
      fun d' hd => ?_, inv.freed, inv.noUse⟩
    · rcases call hpc with hpc | rfl
      · exact inv.stored pc hpc hp
      · cases hp
    · rcases call hpc with hpc | rfl
      · exact inv.once pc hpc hp
      · cases hp
    · rcases call hd with hd | hd
      · exact inv.drained d' hd
      · cases hd

/-- The steps of a subscription. -/
lemma DrainInv.sub {s t : State} {k : Kind} {i : ℕ} {a : Subscription.Action k.Msg}
    (inv : DrainInv s) (hn : next s (.sub k i a) = some t) : DrainInv t := by
  obtain ⟨p, hp, hn⟩ := Option.bind_eq_some_iff.mp hn
  split at hn
  · obtain ⟨u, hu, rfl⟩ := Option.map_eq_some_iff.mp hn
    have st := Subscription.Step.of_next hu
    have hmem := List.mem_of_getElem? hp
    have settled' (hs : s.Settled) : (s.setSub k i { p with sub := u }).Settled :=
      hs.setSub (settled_step st (hs k p hmem))
    refine ⟨inv.untracked, inv.stored, inv.once, fun hc => ?_, fun d hd => ?_, inv.freed, ?_⟩
    · exact ⟨(inv.completed hc).1, settled' (inv.completed hc).2⟩
    · exact settled' (inv.drained d hd)
    · show (s.usedAfterFree || (s.freed && usesTransport a)) = false
      rw [inv.noUse, Bool.false_or]
      cases hf : s.freed with
      | false => rfl
      | true =>
        have hs := (inv.completed (inv.freed hf)).2
        exact usesTransport_settled st (hs k p hmem)
  · cases hn

/-- A step of a call of `Close` keeps the subscriptions. -/
lemma DrainInv.advance {s s' : State} {i : ℕ} {pc : ClosePc} (inv : DrainInv s)
    (hsubs : s'.subs = s.subs) (hcalls : s'.calls = s.calls) (hact : s'.activeContexts = [])
    (huse : s'.usedAfterFree = false) (hclosed : s.closed = true → s'.closed = true)
    (hstored : pc.pastStore = true → s'.closed = true)
    (honce : s.onceCompleted = true → s'.onceCompleted = true)
    (hpast : pc.pastOnce = true → s'.onceCompleted = true)
    (hcompleted : s'.onceCompleted = true → s'.closed = true ∧ s.Settled)
    (hdrained : ∀ d, pc = .transport d → s.Settled)
    (hfreed : s'.freed = true → s'.onceCompleted = true) :
    DrainInv { s' with calls := s'.calls.set i pc } := by
  have call {q : ClosePc} (hq : q ∈ s'.calls.set i pc) : q ∈ s.calls ∨ q = pc := by
    rw [hcalls] at hq
    exact List.mem_or_eq_of_mem_set hq
  have settled' (hs : s.Settled) : ∀ k, ∀ p ∈ s'.subs k, settled p.sub = true := by
    rw [hsubs]
    exact hs
  refine ⟨hact, fun q hq hp => ?_, fun q hq hp => ?_, fun hc => ?_, fun d hd => ?_, hfreed, huse⟩
  · rcases call hq with hq | rfl
    · exact hclosed (inv.stored q hq hp)
    · exact hstored hp
  · rcases call hq with hq | rfl
    · exact honce (inv.once q hq hp)
    · exact hpast hp
  · exact ⟨(hcompleted hc).1, settled' (hcompleted hc).2⟩
  · rcases call hd with hd | hd
    · exact settled' (inv.drained d hd)
    · exact settled' (hdrained d hd.symm)

/-- One step of `Close`; where it drains, nothing is left to drain. -/
lemma DrainInv.close {s t : State} {i budget : ℕ} (inv : DrainInv s)
    (hg : nothingToDrain s (.close i budget) = true)
    (hn : next s (.close i budget) = some t) : DrainInv t := by
  obtain ⟨pc, hpc, hn⟩ := Option.bind_eq_some_iff.mp hn
  obtain ⟨⟨s', pc'⟩, hc, rfl⟩ := Option.map_eq_some_iff.mp hn
  have hmem := List.mem_of_getElem? hpc
  cases pc with
  | enter d =>
    simp only [closeNext] at hc
    split at hc
    · next hcomp =>
      obtain ⟨rfl, rfl⟩ := Prod.mk.inj (Option.some.inj hc)
      refine inv.advance rfl rfl inv.untracked inv.noUse id (fun _ => (inv.completed hcomp).1) id
        (fun _ => hcomp) inv.completed (fun d' hd => ?_) inv.freed
      cases d <;> cases hd
    · split at hc
      · cases hc
      · obtain ⟨rfl, rfl⟩ := Prod.mk.inj (Option.some.inj hc)
        exact inv.advance rfl rfl inv.untracked inv.noUse id nofun id nofun inv.completed nofun
          inv.freed
  | store d =>
    obtain ⟨rfl, rfl⟩ := Prod.mk.inj (Option.some.inj hc)
    exact inv.advance rfl rfl inv.untracked inv.noUse (fun _ => rfl) (fun _ => rfl) id nofun
      (fun h => ⟨rfl, (inv.completed h).2⟩) nofun inv.freed
  | drain d =>
    -- `active_contexts` is empty
    simp only [closeNext, inv.untracked] at hc
    obtain ⟨rfl, rfl⟩ := Prod.mk.inj (Option.some.inj hc)
    have hclosed := inv.stored _ hmem rfl
    have hsettled : s.Settled := by
      simp only [nothingToDrain, hpc] at hg
      exact fun k p hp =>
        List.all_eq_true.mp (List.all_eq_true.mp hg k (Kind.mem_all k)) p hp
    exact inv.advance rfl rfl inv.untracked inv.noUse id (fun _ => hclosed) id nofun inv.completed
      (fun _ _ => hsettled) inv.freed
  | transport d =>
    obtain ⟨rfl, rfl⟩ := Prod.mk.inj (Option.some.inj hc)
    have hclosed := inv.stored _ hmem rfl
    have hsettled := inv.drained d hmem
    refine inv.advance rfl rfl inv.untracked inv.noUse id (fun _ => hclosed) (fun _ => rfl)
      (fun _ => rfl) (fun _ => ⟨hclosed, hsettled⟩) (fun _ _ => hsettled) (fun _ => rfl)
  | free =>
    obtain ⟨rfl, rfl⟩ := Prod.mk.inj (Option.some.inj hc)
    have hcomp := inv.once _ hmem rfl
    exact inv.advance rfl rfl inv.untracked inv.noUse id (fun _ => (inv.completed hcomp).1) id
      (fun _ => hcomp) inv.completed nofun (fun _ => hcomp)
  | freed => cases hc
  | returned => cases hc

lemma DrainInv.step {s t : State} {a : Action} (inv : DrainInv s)
    (hg : nothingToDrain s a = true) (hn : next s a = some t) : DrainInv t := by
  cases a with
  | subscribe => exact inv.subscribe hn
  | begin => exact inv.begin hn
  | close => exact inv.close hg hn
  | sub => exact inv.sub hn

/-- If every subscription is settled whenever `DrainAll` is run, then the contexts are cancelled
when a `Close` has returned, and no reader thread uses the transport of a freed client. -/
theorem close_drains_subscriptions (s : State)
    (hr : sys.Reach (fun s a => nothingToDrain s a = true) s) : Drained s := by
  have inv : DrainInv s := by
    refine hr.invariant (I := DrainInv) ?_ ?_
    · rintro s rfl
      exact drainInv_start
    · exact fun s a t _ inv hg hn => inv.step hg hn
  refine ⟨fun ⟨pc, hpc, hret⟩ k p hp c hc => ?_, inv.noUse⟩
  have hpast : pc.pastOnce = true := by
    rcases hret with rfl | rfl | rfl <;> rfl
  obtain ⟨-, hcan, hctx⟩ := settled_iff.mp ((inv.completed (inv.once pc hpc hpast)).2 k p hp)
  rw [hctx] at hc
  cases List.mem_singleton.mp hc
  exact hcan

/-- Two subscriptions, one of them reconnecting; both are cancelled before the client is
destroyed. -/
def cancelThenDestroy : List Action :=
  [.subscribe .events ⟨true, true⟩ true, .subscribe .queries ⟨true, false⟩ true,
    .sub .events 0 (.reader .tau), .sub .events 0 (.reader .eos),
    .sub .queries 0 (.begin .cancel), .sub .queries 0 (.call 0 .tau),
    .sub .events 0 (.reader (.finish ⟨.UNAVAILABLE, "down"⟩)), .sub .events 0 (.reader .tau),
    .sub .events 0 (.reader .tau), .sub .events 0 (.begin .cancel),
    .sub .queries 0 (.call 0 .tau), .sub .queries 0 (.call 0 (.tryCancel 0)),
    .sub .events 0 (.call 0 .tau), .sub .events 0 (.call 0 .tau),
    .sub .events 0 (.call 0 (.tryCancel 0)), .begin true, .close 0 0, .close 0 0, .close 0 0,
    .close 0 0, .close 0 0, .sub .events 0 (.reader .slept), .sub .events 0 (.reader .tau)]

theorem close_drains_subscriptions_cancelled :
    ∃ s, sys.exec start cancelThenDestroy = some s ∧ Drained s :=
  ⟨_, rfl, close_drains_subscriptions _ <|
    Lts.Sys.Reach.execWhere (.init rfl) cancelThenDestroy rfl⟩

/-- The stream has ended and the reader sleeps; then `Close` is called. -/
def closeWhileAway : List Action :=
  [.subscribe .events ⟨true, true⟩ true, .sub .events 0 (.reader .tau),
    .sub .events 0 (.reader .eos), .sub .events 0 (.reader (.finish ⟨.UNAVAILABLE, "down"⟩)),
    .sub .events 0 (.reader .tau), .sub .events 0 (.reader .tau), .begin false, .close 0 0,
    .close 0 0, .close 0 0, .close 0 0]

/-- The client is destroyed while the reader sleeps, which then subscribes again. -/
def destroyWhileAway : List Action :=
  closeWhileAway ++ [.begin true, .close 1 0, .close 1 0, .sub .events 0 (.reader .slept),
    .sub .events 0 (.reader .tau), .sub .events 0 (.reader (.gate false))]

/-- `Close` cancels nothing, and a reader thread goes on to use the freed transport. -/
theorem close_leaves_the_reader_running :
    (¬∀ s, sys.Reachable s → s.closeReturned → ∀ k, ∀ p ∈ s.subs k, ∀ c ∈ contexts p.sub,
      (p.sub.mem.cancelled c).isSome = true) ∧
    ¬∀ s, sys.Reachable s → s.usedAfterFree = false := by
  constructor
  · intro hall
    have := hall _ (Lts.Sys.Reachable.exec (.init rfl) closeWhileAway rfl)
      ⟨.returned, .head _, .inl rfl⟩ .events _ (.head _) 0 (.head _)
    cases this
  · intro hall
    have := hall _ (Lts.Sys.Reachable.exec (.init rfl) destroyWhileAway rfl)
    cases this

end KubeMQ.Client
