import KubeMQ.Lts.Condition
import KubeMQ.Transport.StateRuns

/-!
# Waiting for a connection state

`StateMachine::WaitForState` and `WaitForStateFor` beside any number of `Transition` calls: the
machine with `mu_` and `cv_` is a condition variable. A transition notifies after it has given the
lock back; the callbacks that it invokes afterwards are left to `Transport.Notifications`. A
`WaitForStateFor` is a waiter whose time may end whenever it sleeps.
-/

namespace KubeMQ.StateMachine

open Lts Condition

/-- Calls of `Transition` change the machine, waiters look at `state_`. -/
def watched : Condition StateMachine ConnectionState ConnectionState where
  change m target :=
    let r := m.transition target
    if r.2.1 then some r.1 else none
  ready m target := m.state == target

/-- A machine in use by callers and waiters. -/
abbrev Watch := State StateMachine ConnectionState ConnectionState

/-- The accepted transitions of a log. -/
def targets (log : List (Event ConnectionState)) : List ConnectionState :=
  log.filterMap fun
    | .changed target => some target
    | .answered _ _ => none

variable {m : StateMachine} {s t : Watch}

/-- The machine has run through the transitions of the log. -/
lemma replay_eq (log : List (Event ConnectionState)) :
    watched.replay m log = (m.transitions (targets log)).1 := by
  induction log using List.reverseRecOn with
  | nil => rfl
  | append_singleton log e ih =>
    rw [replay_concat, ih]
    cases e with
    | answered j r => simp [undergo, targets]
    | changed target =>
      have ht : targets (log ++ [.changed target]) = targets log ++ [target] := by
        simp [targets]
      rw [ht, transitions_concat]
      simp only [undergo, watched]
      split
      · rfl
      · next hr =>
        rw [transition_rejected (Bool.eq_false_iff.mpr hr)]
        rfl

/-- One thread waits for `kClosed` and one, with a limit, for `kReady`; the connection is closed
before it was ever ready, the first one is notified and the second one gives up. -/
def closeWhileWaiting : List (Action ConnectionState ConnectionState) :=
  [.wait .kClosed false, .wait .kReady true, .waiter 0, .waiter 0, .waiter 1, .waiter 1,
    .call .kClosed, .caller 0, .caller 0, .timeout 1, .caller 0]

/-- The state in which `Transition` has closed the machine and not notified anybody. -/
def closedUnnotified : Watch :=
  ⟨(withCallbacks.transition .kClosed).1, none, [.notifying],
    [⟨.kClosed, false, .asleep⟩, ⟨.kReady, true, .wants true⟩], [.changed .kClosed]⟩

lemma closeWhileWaiting_exec :
    (watched.sys withCallbacks).exec (start withCallbacks) closeWhileWaiting
      = some closedUnnotified := rfl

lemma closedUnnotified_reachable : (watched.sys withCallbacks).Reachable closedUnnotified :=
  .exec (.init rfl) closeWhileWaiting closeWhileWaiting_exec

/-- What waiting threads are told, in every run: a call that has returned `true` saw its state under
the lock, one that has returned `false` is a `WaitForStateFor` and did not; and nobody is left asleep
in front of its state but for a transition that is still going to notify. -/
theorem waits_answer (h : (watched.sys m).Reachable s) :
    (∀ (j : ℕ) (w : Waiter ConnectionState) r, s.waiters[j]? = some w → w.phase = .returned r →
      ∃ before after, s.log = before ++ .answered j r :: after ∧
        (r = true ↔ (m.transitions (targets before)).1.state = w.what) ∧
        (r = false → w.timed = true)) ∧
      s.obj = (m.transitions (targets s.log)).1 ∧
      ∀ (j : ℕ) (w : Waiter ConnectionState), s.waiters[j]? = some w → w.phase = .asleep →
        s.obj.state = w.what → ∃ (i : ℕ) (c : Caller ConnectionState), s.callers[i]? = some c ∧ c.pending = true := by
  have hs := Sound.reachable h
  refine ⟨?_, ?_, ?_⟩
  · intro j w r hw hp
    have hres : w.result = some r := by
      unfold Waiter.result
      rw [hp]
    obtain ⟨before, after, hsplit⟩ := List.mem_iff_append.mp (hs.said j w r hw hres)
    obtain ⟨x, hx, -, hready, htimed⟩ := hs.truthful before _ after hsplit j r rfl
    rw [hw] at hx
    cases hx
    refine ⟨before, after, hsplit, ?_, htimed⟩
    rw [← replay_eq, ← hready]
    exact beq_iff_eq
  · rw [← replay_eq, hs.replay]
  · intro j w hw hp hst
    exact hs.notified j w hw hp (beq_iff_eq.mpr hst)

/-- The thread that sleeps although the machine is closed is going to be notified. -/
theorem waits_answer_unnotified :
    ∃ (i : ℕ) (c : Caller ConnectionState),
      closedUnnotified.callers[i]? = some c ∧ c.pending = true :=
  (waits_answer closedUnnotified_reachable).2.2 0 _ rfl rfl rfl

/-- A machine left alone comes to rest: no schedule of the threads' own steps is longer than the rank,
some schedule ends where none of them can move, and wherever that is, every `Transition` has returned
and whoever still waits is asleep in another state than the one it waits for. -/
theorem waits_settle (h : (watched.sys m).Reachable s) :
    (∀ as t, (∀ a ∈ as, a.own = true) → (watched.sys m).exec s as = some t → as.length ≤ s.rank) ∧
      (∃ as t, (∀ a ∈ as, a.own = true) ∧ (watched.sys m).exec s as = some t ∧ watched.AtRest t) ∧
      ∀ as t, (watched.sys m).exec s as = some t → watched.AtRest t →
        (∀ (i : ℕ) (c : Caller ConnectionState), t.callers[i]? = some c → ∃ ok, c = .returned ok) ∧
          ∀ (j : ℕ) (w : Waiter ConnectionState), t.waiters[j]? = some w →
            (∃ r, w.phase = .returned r) ∨ (w.phase = .asleep ∧ t.obj.state ≠ w.what) := by
  refine ⟨?_, ?_, ?_⟩
  · intro as t has he
    have hle := Sys.length_le_rank (T := watched.sys m) (fun _ _ _ => own_lt) has he
    omega
  · exact Sys.exists_rest (T := watched.sys m) (fun _ _ _ => own_lt) s
  · intro as t he hrest
    obtain ⟨hcallers, hwaiters⟩ := hrest.settles (Sound.reachable (h.exec as he))
    refine ⟨hcallers, ?_⟩
    intro j w hw
    rcases hwaiters j w hw with hr | ⟨ha, hr⟩
    · exact .inl hr
    · exact .inr ⟨ha, beq_eq_false_iff_ne.mp hr⟩

theorem waits_settle_unnotified :
    ∃ as t, (∀ a ∈ as, a.own = true) ∧
      (watched.sys withCallbacks).exec closedUnnotified as = some t ∧ watched.AtRest t :=
  (waits_settle closedUnnotified_reachable).2.1

lemma watched_closed {m : StateMachine} (h : m.state = .kClosed) (target : ConnectionState) :
    watched.change m target = none := by
  simp [watched, transition_closed h]

/-- A closed machine stays closed whatever is asked of it. -/
lemma replay_closed {log : List (Event ConnectionState)} (more : List (Event ConnectionState))
    (h : (watched.replay m log).state = .kClosed) :
    (watched.replay m (log ++ more)).state = .kClosed := by
  induction more using List.reverseRecOn with
  | nil => rwa [List.append_nil]
  | append_singleton more e ih =>
    rw [← List.append_assoc, replay_concat]
    cases e with
    | answered j r => exact ih
    | changed target =>
      rw [undergo, watched_closed ih, Option.getD_none]
      exact ih

/-- Once the machine is closed, the threads that wait for `kClosed` are told so: they return `true`, at
the latest when nothing moves any more. A `WaitForState` for any other state that has no answer yet
never returns. -/
theorem waits_after_close (h : (watched.sys m).Reachable s) (hclosed : s.obj.state = .kClosed)
    {as : List (Action ConnectionState ConnectionState)} (he : (watched.sys m).exec s as = some t)
    {j : ℕ} {w w' : Waiter ConnectionState} (hw : s.waiters[j]? = some w) (hnone : w.result = none)
    (hw' : t.waiters[j]? = some w') :
    (w.what = .kClosed → (∀ r, w'.phase = .returned r → r = true) ∧
      (watched.AtRest t → w'.phase = .returned true)) ∧
      (w.what ≠ .kClosed → w.timed = false → ∀ r, w'.phase ≠ .returned r) := by
  have hs := Sound.reachable h
  have hreplay : (watched.replay m s.log).state = .kClosed := by
    rw [hs.replay]
    exact hclosed
  have hanswer : ∀ r, w'.phase = .returned r →
      (.kClosed == w.what) = r ∧ (r = false → w.timed = true) := by
    intro r hp
    have hres : w'.result = some r := by
      unfold Waiter.result
      rw [hp]
    obtain ⟨before, ⟨more, rfl⟩, hready, htimed⟩ := answered_later h he hw hnone hw' hres
    refine ⟨?_, htimed⟩
    have hclosed' := replay_closed more hreplay
    rw [← hready, ← hclosed']
    rfl
  constructor
  · intro hwhat
    have htrue : ∀ r, w'.phase = .returned r → r = true := by
      intro r hp
      rw [← (hanswer r hp).1, hwhat]
      rfl
    refine ⟨htrue, ?_⟩
    intro hrest
    obtain ⟨-, hwaiters⟩ := hrest.settles (Sound.reachable (h.exec as he))
    obtain ⟨hbefore, hext⟩ := later_of_exec he
    rcases hwaiters j w' hw' with ⟨r, hr⟩ | ⟨-, hr⟩
    · rw [hr, htrue r hr]
    · obtain ⟨x, hx, hsame, -, -⟩ := hext j w hw
      rw [hw'] at hx
      cases hx
      obtain ⟨more, hmore⟩ := hbefore
      have ht := (Sound.reachable (h.exec as he)).replay
      have hc : t.obj.state = .kClosed := by
        rw [← ht, ← hmore]
        exact replay_closed more hreplay
      have hne := beq_eq_false_iff_ne.mp hr
      rw [hsame, hwhat] at hne
      exact absurd hc hne
  · intro hwhat htimed r hp
    obtain ⟨heq, hlate⟩ := hanswer r hp
    cases r with
    | true => exact hwhat (beq_iff_eq.mp heq).symm
    | false =>
      rw [hlate rfl] at htimed
      cases htimed

/-- The notification arrives, and both threads return. -/
def notifyAndReturn : List (Action ConnectionState ConnectionState) :=
  [.caller 0, .waiter 1, .waiter 1, .waiter 1, .waiter 0, .waiter 0, .waiter 0]

theorem waits_after_close_unnotified :
    ∃ t, (watched.sys withCallbacks).exec closedUnnotified notifyAndReturn = some t ∧
      ∀ r, (⟨.kClosed, false, .returned r⟩ : Waiter ConnectionState) ∈ t.waiters[0]? → r = true := by
  refine ⟨_, rfl, ?_⟩
  intro r hw
  have h := waits_after_close closedUnnotified_reachable rfl
    (show (watched.sys withCallbacks).exec closedUnnotified notifyAndReturn = some _ from rfl)
    (j := 0) rfl rfl hw
  exact (h.1 rfl).1 r rfl

end KubeMQ.StateMachine
