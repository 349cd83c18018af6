import KubeMQ.Lts.Basic
import KubeMQ.Lts.Lock
import KubeMQ.Lts.History

/-!
# Condition variables

An object behind a lock that callers change and waiters watch. A caller changes it under the lock and
notifies all waiters after it has given the lock back; a change that is refused notifies nobody. A
waiter tests under the lock whether the object is what it waits for, and otherwise gives the lock back
and falls asleep in one step. It wakes when it is notified, for no reason, or because its time is over,
and then takes the lock again; after the last of these it tests once more and returns.

`Sound` says that no wake-up is lost and that an answer is true when it is given; `AtRest.settles`
says that a system left alone comes to rest with nobody asleep in front of what it waits for.
-/

namespace Lts

variable {σ α β : Type*}

/-- What callers do to the object, unless it is refused, and what waiters wait for. -/
structure Condition (σ α β : Type*) where
  change : σ → α → Option σ
  ready : σ → β → Bool

namespace Condition

inductive Caller (α : Type*) where
  | wants (a : α)
  | holds (a : α)
  | leaving (ok : Bool)
  | notifying
  | returned (ok : Bool)
  deriving DecidableEq

/-- `late` tells that the time of the waiter is over. -/
inductive Phase where
  | wants (late : Bool)
  | testing (late : Bool)
  | leaving (r : Bool)
  | asleep
  | returned (r : Bool)
  deriving DecidableEq

/-- A waiter; `timed` tells whether it waits for a limited time. -/
structure Waiter (β : Type*) where
  what : β
  timed : Bool
  phase : Phase
  deriving DecidableEq

/-- The changes made, and what the waiters found when they last tested. -/
inductive Event (α : Type*) where
  | changed (a : α)
  | answered (j : ℕ) (r : Bool)
  deriving DecidableEq

structure State (σ α β : Type*) where
  obj : σ
  lock : Option (ℕ ⊕ ℕ)
  callers : List (Caller α)
  waiters : List (Waiter β)
  log : List (Event α)

inductive Action (α β : Type*) where
  | call (a : α)
  | wait (what : β) (timed : Bool)
  | caller (i : ℕ)
  | waiter (j : ℕ)
  | spurious (j : ℕ)
  | timeout (j : ℕ)

/-- `notify_all`. -/
def Waiter.notify (w : Waiter β) : Waiter β :=
  if w.phase = .asleep then { w with phase := .wants false } else w

variable (C : Condition σ α β)

/-- A step of caller `i` by itself. -/
def nextCaller (s : State σ α β) (i : ℕ) : Caller α → Option (State σ α β)
  | .wants a =>
    if s.lock = none then
      some { s with lock := some (.inl i), callers := s.callers.set i (.holds a) }
    else none
  | .holds a =>
    match C.change s.obj a with
    | some obj =>
      some { s with
        obj := obj
        callers := s.callers.set i (.leaving true)
        log := s.log ++ [.changed a] }
    | none => some { s with callers := s.callers.set i (.leaving false) }
  | .leaving ok =>
    some { s with
      lock := none
      callers := s.callers.set i (if ok then .notifying else .returned false) }
  | .notifying =>
    some { s with
      callers := s.callers.set i (.returned true)
      waiters := s.waiters.map Waiter.notify }
  | .returned _ => none

/-- A step of waiter `j` by itself. -/
def nextWaiter (s : State σ α β) (j : ℕ) (w : Waiter β) : Option (State σ α β) :=
  match w.phase with
  | .wants late =>
    if s.lock = none then
      some { s with
        lock := some (.inr j)
        waiters := s.waiters.set j { w with phase := .testing late } }
    else none
  | .testing late =>
    if C.ready s.obj w.what || late then
      some { s with
        waiters := s.waiters.set j { w with phase := .leaving (C.ready s.obj w.what) }
        log := s.log ++ [.answered j (C.ready s.obj w.what)] }
    else
      some { s with lock := none, waiters := s.waiters.set j { w with phase := .asleep } }
  | .leaving r =>
    some { s with lock := none, waiters := s.waiters.set j { w with phase := .returned r } }
  | _ => none

def next (s : State σ α β) : Action α β → Option (State σ α β)
  | .call a => some { s with callers := s.callers ++ [.wants a] }
  | .wait what timed => some { s with waiters := s.waiters ++ [⟨what, timed, .wants false⟩] }
  | .caller i => (s.callers[i]?).bind (C.nextCaller s i)
  | .waiter j => (s.waiters[j]?).bind (C.nextWaiter s j)
  | .spurious j =>
    match s.waiters[j]? with
    | some ⟨what, timed, .asleep⟩ =>
      some { s with waiters := s.waiters.set j ⟨what, timed, .wants false⟩ }
    | _ => none
  | .timeout j =>
    match s.waiters[j]? with
    | some ⟨what, true, .asleep⟩ =>
      some { s with waiters := s.waiters.set j ⟨what, true, .wants true⟩ }
    | _ => none

/-- The object before anybody has called. -/
def start (s₀ : σ) : State σ α β := ⟨s₀, none, [], [], []⟩

def sys (s₀ : σ) : Sys (State σ α β) (Action α β) := ⟨(· = start s₀), C.next⟩

/-- The steps of a caller. -/
inductive CallerStep (s : State σ α β) (i : ℕ) : Caller α → State σ α β → Prop where
  | acquire {a} :
    s.lock = none →
    CallerStep s i (.wants a) { s with lock := some (.inl i), callers := s.callers.set i (.holds a) }
  | change {a obj} :
    C.change s.obj a = some obj →
    CallerStep s i (.holds a)
      { s with
        obj := obj
        callers := s.callers.set i (.leaving true)
        log := s.log ++ [.changed a] }
  | refuse {a} :
    C.change s.obj a = none →
    CallerStep s i (.holds a) { s with callers := s.callers.set i (.leaving false) }
  | release {ok} :
    CallerStep s i (.leaving ok)
      { s with
        lock := none
        callers := s.callers.set i (if ok then .notifying else .returned false) }
  | notify :
    CallerStep s i .notifying
      { s with
        callers := s.callers.set i (.returned true)
        waiters := s.waiters.map Waiter.notify }

/-- The steps of a waiter, those included that the environment decides. -/
inductive WaiterStep (s : State σ α β) (j : ℕ) (w : Waiter β) : State σ α β → Prop where
  | acquire {late} :
    w.phase = .wants late →
    s.lock = none →
    WaiterStep s j w
      { s with
        lock := some (.inr j)
        waiters := s.waiters.set j { w with phase := .testing late } }
  | answer {late} :
    w.phase = .testing late →
    (C.ready s.obj w.what || late) = true →
    WaiterStep s j w
      { s with
        waiters := s.waiters.set j { w with phase := .leaving (C.ready s.obj w.what) }
        log := s.log ++ [.answered j (C.ready s.obj w.what)] }
  | sleep :
    w.phase = .testing false →
    C.ready s.obj w.what = false →
    WaiterStep s j w
      { s with lock := none, waiters := s.waiters.set j { w with phase := .asleep } }
  | release {r} :
    w.phase = .leaving r →
    WaiterStep s j w
      { s with lock := none, waiters := s.waiters.set j { w with phase := .returned r } }
  | wake {late} :
    w.phase = .asleep →
    (late = true → w.timed = true) →
    WaiterStep s j w { s with waiters := s.waiters.set j { w with phase := .wants late } }

/-- The steps of the system. -/
inductive Step (s : State σ α β) : Action α β → State σ α β → Prop where
  | call {a} :
    Step s (.call a) { s with callers := s.callers ++ [.wants a] }
  | wait {what timed} :
    Step s (.wait what timed) { s with waiters := s.waiters ++ [⟨what, timed, .wants false⟩] }
  | caller {i c t} :
    s.callers[i]? = some c →
    C.CallerStep s i c t →
    Step s (.caller i) t
  | waiter {a j w t} :
    s.waiters[j]? = some w →
    C.WaiterStep s j w t →
    Step s a t

variable {C} {s t : State σ α β} {s₀ : σ}

lemma CallerStep.of_next {i : ℕ} {c : Caller α} (h : C.nextCaller s i c = some t) :
    C.CallerStep s i c t := by
  cases c with
  | wants a =>
    simp only [nextCaller] at h
    split at h
    · next hl =>
      cases h
      exact .acquire hl
    · cases h
  | holds a =>
    simp only [nextCaller] at h
    split at h
    · next hc =>
      cases h
      exact .change hc
    · next hc =>
      cases h
      exact .refuse hc
  | leaving ok =>
    cases h
    exact .release
  | notifying =>
    cases h
    exact .notify
  | returned ok => cases h

lemma WaiterStep.of_next {j : ℕ} {w : Waiter β} (h : C.nextWaiter s j w = some t) :
    C.WaiterStep s j w t := by
  unfold nextWaiter at h
  split at h
  · next late hp =>
    split at h
    · next hl =>
      cases h
      exact .acquire hp hl
    · cases h
  · next late hp =>
    split at h
    · next hr =>
      cases h
      exact .answer hp hr
    · next hr =>
      cases h
      rw [Bool.or_eq_true, not_or] at hr
      rw [Bool.eq_false_iff.mpr hr.2] at hp
      exact .sleep hp (Bool.eq_false_iff.mpr hr.1)
  · next r hp =>
    cases h
    exact .release hp
  · cases h

lemma Step.of_next {a : Action α β} (h : C.next s a = some t) : C.Step s a t := by
  cases a with
  | call a =>
    cases h
    exact .call
  | wait what timed =>
    cases h
    exact .wait
  | caller i =>
    obtain ⟨c, hc, h⟩ := Option.bind_eq_some_iff.mp h
    exact .caller hc (.of_next h)
  | waiter j =>
    obtain ⟨w, hw, h⟩ := Option.bind_eq_some_iff.mp h
    exact .waiter hw (.of_next h)
  | spurious j =>
    simp only [next] at h
    split at h
    · next hw =>
      cases h
      exact .waiter hw (.wake rfl nofun)
    · cases h
  | timeout j =>
    simp only [next] at h
    split at h
    · next hw =>
      cases h
      exact .waiter hw (.wake rfl fun _ => rfl)
    · cases h

/-- The caller holds the lock. -/
def Caller.inside : Caller α → Bool
  | .holds _ | .leaving _ => true
  | _ => false

/-- The caller has changed the object and has not notified yet. -/
def Caller.pending : Caller α → Bool
  | .leaving ok => ok
  | .notifying => true
  | _ => false

namespace Waiter

/-- The waiter holds the lock. -/
def inside (w : Waiter β) : Bool :=
  match w.phase with
  | .testing _ | .leaving _ => true
  | _ => false

/-- What the waiter returns, once it knows. -/
def result (w : Waiter β) : Option Bool :=
  match w.phase with
  | .leaving r | .returned r => some r
  | _ => none

/-- The time of the waiter is over. -/
def late (w : Waiter β) : Bool :=
  match w.phase with
  | .wants late | .testing late => late
  | _ => false

variable (w : Waiter β)

@[simp] lemma notify_what : w.notify.what = w.what := by
  unfold notify
  split <;> rfl

@[simp] lemma notify_timed : w.notify.timed = w.timed := by
  unfold notify
  split <;> rfl

@[simp] lemma notify_inside : w.notify.inside = w.inside := by
  unfold notify
  split
  · next h => simp [inside, h]
  · rfl

@[simp] lemma notify_result : w.notify.result = w.result := by
  unfold notify
  split
  · next h => simp [result, h]
  · rfl

@[simp] lemma notify_late : w.notify.late = w.late := by
  unfold notify
  split
  · next h => simp [late, h]
  · rfl

lemma notify_not_asleep : w.notify.phase ≠ .asleep := by
  unfold notify
  split
  · nofun
  · next h => exact h

end Waiter

variable (C) in
/-- What an event does to the object. -/
def undergo (s : σ) : Event α → σ
  | .changed a => (C.change s a).getD s
  | .answered _ _ => s

variable (C) in
/-- The object after the changes of a log. -/
def replay (s₀ : σ) (log : List (Event α)) : σ := log.foldl C.undergo s₀

lemma replay_concat (log : List (Event α)) (e : Event α) :
    C.replay s₀ (log ++ [e]) = C.undergo (C.replay s₀ log) e := by
  unfold replay
  rw [List.foldl_append, List.foldl_cons, List.foldl_nil]

/-- The waiters keep what they wait for, and what they have found. -/
def Extends (ws ws' : List (Waiter β)) : Prop :=
  ∀ (j : ℕ) (w : Waiter β), ws[j]? = some w →
    ∃ w', ws'[j]? = some w' ∧ w'.what = w.what ∧ w'.timed = w.timed ∧
      ∀ r, w.result = some r → w'.result = some r

section Extends

variable {ws : List (Waiter β)} {w w' : Waiter β} {j : ℕ}

lemma Extends.append : Extends ws (ws ++ [w]) := by
  intro j x hx
  exact ⟨x, List.getElem?_append_left (List.getElem?_eq_some_iff.mp hx).1 ▸ hx, rfl, rfl, fun _ => id⟩

lemma Extends.notify : Extends ws (ws.map Waiter.notify) := by
  intro j x hx
  refine ⟨x.notify, ?_, x.notify_what, x.notify_timed, ?_⟩
  · rw [List.getElem?_map, hx, Option.map_some]
  · intro r hr
    rw [x.notify_result, hr]

lemma Extends.set (hw : ws[j]? = some w) (what : w'.what = w.what) (timed : w'.timed = w.timed)
    (result : ∀ r, w.result = some r → w'.result = some r) : Extends ws (ws.set j w') := by
  intro i x hx
  by_cases hij : j = i
  · subst hij
    rw [hw] at hx
    cases hx
    exact ⟨w', List.getElem?_set_self (List.getElem?_eq_some_iff.mp hw).1, what, timed, result⟩
  · exact ⟨x, by rwa [List.getElem?_set_ne hij], rfl, rfl, fun _ => id⟩

end Extends

variable (C) in
/-- A waiter answered what the object was when it last tested; with `false` only when it is timed. -/
def Truthful (s₀ : σ) (ws : List (Waiter β)) (log : List (Event α)) : Prop :=
  ∀ before x after, log = before ++ x :: after → ∀ j r, x = .answered j r →
    ∃ w, ws[j]? = some w ∧ w.result = some r ∧ C.ready (C.replay s₀ before) w.what = r ∧
      (r = false → w.timed = true)

lemma Truthful.extend {ws ws' : List (Waiter β)} {log : List (Event α)} (h : C.Truthful s₀ ws log)
    (he : Extends ws ws') : C.Truthful s₀ ws' log := by
  intro before x after hsplit j r hx
  obtain ⟨w, hw, hres, hready, htimed⟩ := h before x after hsplit j r hx
  obtain ⟨w', hw', hwhat, htimed', hres'⟩ := he j w hw
  refine ⟨w', hw', hres' r hres, ?_, ?_⟩
  · rwa [hwhat]
  · rwa [htimed']

/-- The waiters that know what they return have said so. -/
def Said (ws : List (Waiter β)) (log : List (Event α)) : Prop :=
  ∀ (j : ℕ) (w : Waiter β) (r : Bool), ws[j]? = some w → w.result = some r → .answered j r ∈ log

/-- Only timed waiters run late. -/
def Punctual (ws : List (Waiter β)) : Prop :=
  ∀ (j : ℕ) (w : Waiter β), ws[j]? = some w → w.late = true → w.timed = true

variable (C) in
/-- Who sleeps in front of what it waits for is about to be notified. -/
def Notified (obj : σ) (cs : List (Caller α)) (ws : List (Waiter β)) : Prop :=
  ∀ (j : ℕ) (w : Waiter β), ws[j]? = some w → w.phase = .asleep → C.ready obj w.what = true →
    ∃ (i : ℕ) (c : Caller α), cs[i]? = some c ∧ c.pending = true

variable (C) in
/-- What holds in every reachable state. -/
structure Sound (s₀ : σ) (s : State σ α β) : Prop where
  lock : Shared Caller.inside Waiter.inside s.lock s.callers s.waiters
  replay : C.replay s₀ s.log = s.obj
  truthful : C.Truthful s₀ s.waiters s.log
  said : Said s.waiters s.log
  punctual : Punctual s.waiters
  notified : C.Notified s.obj s.callers s.waiters

lemma Sound.start : C.Sound s₀ (start s₀ : State σ α β) where
  lock := Shared.nil
  replay := rfl
  truthful := by simp [Truthful, Condition.start]
  said := by simp [Said, Condition.start]
  punctual := by simp [Punctual, Condition.start]
  notified := by simp [Notified, Condition.start]

/-- A caller that is about to notify stays so when another entry is replaced by one that is. -/
lemma Notified.set {obj : σ} {cs : List (Caller α)} {ws : List (Waiter β)} {i : ℕ} {c c' : Caller α}
    (h : C.Notified obj cs ws) (hc : cs[i]? = some c) (hp : c.pending = true → c'.pending = true) :
    C.Notified obj (cs.set i c') ws := by
  intro j w hw ha hr
  obtain ⟨k, x, hx, hpx⟩ := h j w hw ha hr
  by_cases hik : i = k
  · subst hik
    rw [hc] at hx
    cases hx
    exact ⟨i, c', List.getElem?_set_self (List.getElem?_eq_some_iff.mp hc).1, hp hpx⟩
  · exact ⟨k, x, by rwa [List.getElem?_set_ne hik], hpx⟩

/-- A caller that has just changed the object notifies later. -/
lemma Notified.of_pending {obj : σ} {cs : List (Caller α)} {ws : List (Waiter β)} {i : ℕ}
    {c c' : Caller α} (hc : cs[i]? = some c) (hp : c'.pending = true) :
    C.Notified obj (cs.set i c') ws := by
  intro _ _ _ _ _
  exact ⟨i, c', List.getElem?_set_self (List.getElem?_eq_some_iff.mp hc).1, hp⟩

lemma Said.log {ws : List (Waiter β)} {log : List (Event α)} (h : Said ws log) (e : Event α) :
    Said ws (log ++ [e]) := by
  intro j w r hw hr
  exact List.mem_append_left _ (h j w r hw hr)

/-- A step of a caller. -/
lemma Sound.caller {i : ℕ} {c : Caller α} (h : C.Sound s₀ s) (hc : s.callers[i]? = some c)
    (st : C.CallerStep s i c t) : C.Sound s₀ t := by
  cases st with
  | @acquire a hl =>
    refine ⟨?_, h.replay, h.truthful, h.said, h.punctual, h.notified.set hc nofun⟩
    exact h.lock.step_left hc (.inl ⟨hl, rfl, rfl⟩)
  | @change a obj ho =>
    refine ⟨?_, ?_, ?_, h.said.log _, h.punctual, .of_pending hc rfl⟩
    · exact h.lock.step_left hc (.inr (.inr ⟨rfl, rfl⟩))
    · rw [replay_concat, h.replay, undergo, ho, Option.getD_some]
    · apply forall_split_concat h.truthful
      intro j r hx
      cases hx
  | @refuse a ho =>
    refine ⟨?_, h.replay, h.truthful, h.said, h.punctual, h.notified.set hc nofun⟩
    exact h.lock.step_left hc (.inr (.inr ⟨rfl, rfl⟩))
  | @release ok =>
    refine ⟨?_, h.replay, h.truthful, h.said, h.punctual, h.notified.set hc ?_⟩
    · refine h.lock.step_left hc (.inr (.inl ⟨rfl, ?_, rfl⟩))
      cases ok <;> rfl
    · intro hp
      have hok : ok = true := hp
      rw [hok]
      rfl
  | notify =>
    refine ⟨?_, h.replay, h.truthful.extend .notify, ?_, ?_, ?_⟩
    · have hlock : Shared Caller.inside Waiter.inside s.lock
          (s.callers.set i (.returned true)) s.waiters :=
        h.lock.step_left hc (.inr (.inr ⟨rfl, rfl⟩))
      exact hlock.map_right Waiter.notify_inside
    · intro j w r hw hr
      rw [List.getElem?_map] at hw
      obtain ⟨x, hx, rfl⟩ := Option.map_eq_some_iff.mp hw
      exact h.said j x r hx (x.notify_result ▸ hr)
    · intro j w hw hl
      rw [List.getElem?_map] at hw
      obtain ⟨x, hx, rfl⟩ := Option.map_eq_some_iff.mp hw
      rw [x.notify_timed]
      exact h.punctual j x hx (x.notify_late ▸ hl)
    · -- nobody sleeps any more
      intro j w hw ha
      rw [List.getElem?_map] at hw
      obtain ⟨x, hx, rfl⟩ := Option.map_eq_some_iff.mp hw
      exact absurd ha x.notify_not_asleep

/-- The parts of `Sound` about the waiters when one of them moves. -/
lemma Sound.set {j : ℕ} {w w' : Waiter β} {lock : Option (ℕ ⊕ ℕ)} (h : C.Sound s₀ s)
    (hw : s.waiters[j]? = some w)
    (hlock : Shared Caller.inside Waiter.inside lock s.callers (s.waiters.set j w'))
    (what : w'.what = w.what) (timed : w'.timed = w.timed) (result : w'.result = w.result)
    (late : w'.late = true → w.timed = true)
    (asleep : w'.phase = .asleep → C.ready s.obj w.what = false) :
    C.Sound s₀ { s with lock := lock, waiters := s.waiters.set j w' } where
  lock := hlock
  replay := h.replay
  truthful := h.truthful.extend (.set hw what timed fun r hr => result.trans hr)
  said := by
    intro k x r hx hr
    rcases getElem?_set_cases hx with ⟨rfl, rfl⟩ | ⟨-, hx⟩
    · exact h.said k w r hw (result.symm.trans hr)
    · exact h.said k x r hx hr
  punctual := by
    intro k x hx hl
    rcases getElem?_set_cases hx with ⟨rfl, rfl⟩ | ⟨-, hx⟩
    · rw [timed]
      exact late hl
    · exact h.punctual k x hx hl
  notified := by
    intro k x hx ha hr
    rcases getElem?_set_cases hx with ⟨rfl, rfl⟩ | ⟨-, hx⟩
    · rw [what, asleep ha] at hr
      cases hr
    · exact h.notified k x hx ha hr

/-- A step of a waiter. It falls asleep under the lock, in front of an object that is not ready. -/
lemma Sound.waiter {j : ℕ} {w : Waiter β} (h : C.Sound s₀ s) (hw : s.waiters[j]? = some w)
    (st : C.WaiterStep s j w t) : C.Sound s₀ t := by
  obtain ⟨what, timed, phase⟩ := w
  cases st with
  | @acquire late hp hl =>
    cases hp
    refine h.set hw ?_ rfl rfl rfl ?_ nofun
    · exact h.lock.step_right hw (.inl ⟨hl, rfl, rfl⟩)
    · exact h.punctual j ⟨what, timed, .wants late⟩ hw
  | @answer late hp hr =>
    cases hp
    have hext : Extends s.waiters (s.waiters.set j
        ⟨what, timed, .leaving (C.ready s.obj what)⟩) := .set hw rfl rfl nofun
    have hlt := (List.getElem?_eq_some_iff.mp hw).1
    refine ⟨?_, ?_, ?_, ?_, ?_, ?_⟩
    · exact h.lock.step_right hw (.inr (.inr ⟨rfl, rfl⟩))
    · rw [replay_concat, h.replay]
      rfl
    · apply forall_split_concat (h.truthful.extend hext)
      intro k r hx
      cases hx
      refine ⟨_, List.getElem?_set_self hlt, rfl, ?_, ?_⟩
      · rw [h.replay]
      · intro hf
        rw [hf, Bool.false_or] at hr
        exact h.punctual j ⟨what, timed, .testing late⟩ hw hr
    · intro k x r hx hr'
      rcases getElem?_set_cases hx with ⟨rfl, rfl⟩ | ⟨-, hx⟩
      · cases hr'
        exact List.mem_append_right _ List.mem_cons_self
      · exact h.said.log _ k x r hx hr'
    · intro k x hx hl
      rcases getElem?_set_cases hx with ⟨-, rfl⟩ | ⟨-, hx⟩
      · cases hl
      · exact h.punctual k x hx hl
    · intro k x hx ha
      rcases getElem?_set_cases hx with ⟨-, rfl⟩ | ⟨-, hx⟩
      · cases ha
      · exact h.notified k x hx ha
  | sleep hp hr =>
    cases hp
    refine h.set hw ?_ rfl rfl rfl nofun fun _ => hr
    exact h.lock.step_right hw (.inr (.inl ⟨rfl, rfl, rfl⟩))
  | @release r hp =>
    cases hp
    refine h.set hw ?_ rfl rfl rfl nofun nofun
    exact h.lock.step_right hw (.inr (.inl ⟨rfl, rfl, rfl⟩))
  | @wake late hp hl =>
    cases hp
    refine h.set hw ?_ rfl rfl rfl hl nofun
    exact h.lock.step_right hw (.inr (.inr ⟨rfl, rfl⟩))

theorem Sound.step {a : Action α β} (h : C.Sound s₀ s) (st : C.Step s a t) : C.Sound s₀ t := by
  cases st with
  | @call a =>
    refine ⟨h.lock.append_left rfl, h.replay, h.truthful, h.said, h.punctual, ?_⟩
    intro j w hw ha hr
    obtain ⟨i, c, hc, hp⟩ := h.notified j w hw ha hr
    exact ⟨i, c, List.getElem?_append_left (List.getElem?_eq_some_iff.mp hc).1 ▸ hc, hp⟩
  | @wait what timed =>
    refine ⟨h.lock.append_right rfl, h.replay, h.truthful.extend .append, ?_, ?_, ?_⟩
    · intro j w r hw hr
      rcases getElem?_concat_cases hw with hw | ⟨-, rfl⟩
      · exact h.said j w r hw hr
      · cases hr
    · intro j w hw hl
      rcases getElem?_concat_cases hw with hw | ⟨-, rfl⟩
      · exact h.punctual j w hw hl
      · cases hl
    · intro j w hw ha hr
      rcases getElem?_concat_cases hw with hw | ⟨-, rfl⟩
      · exact h.notified j w hw ha hr
      · cases ha
  | caller hc st => exact h.caller hc st
  | waiter hw st => exact h.waiter hw st

theorem Sound.reachable (h : (C.sys s₀).Reachable s) : C.Sound s₀ s := by
  apply h.invariant (I := C.Sound s₀)
  · rintro s rfl
    exact .start
  · intro s a t _ hs _ hn
    exact hs.step (.of_next hn)

/-- A later state: the log has grown, and the waiters are the same ones. -/
def Later (s t : State σ α β) : Prop := s.log <+: t.log ∧ Extends s.waiters t.waiters

lemma Extends.refl (ws : List (Waiter β)) : Extends ws ws :=
  fun _ w hw => ⟨w, hw, rfl, rfl, fun _ => id⟩

lemma Later.trans {u : State σ α β} (h : Later s t) (h' : Later t u) : Later s u := by
  refine ⟨h.1.trans h'.1, ?_⟩
  intro j w hw
  obtain ⟨w₁, hw₁, hwhat₁, htimed₁, hres₁⟩ := h.2 j w hw
  obtain ⟨w₂, hw₂, hwhat₂, htimed₂, hres₂⟩ := h'.2 j w₁ hw₁
  exact ⟨w₂, hw₂, hwhat₂.trans hwhat₁, htimed₂.trans htimed₁, fun r hr => hres₂ r (hres₁ r hr)⟩

lemma CallerStep.later {i : ℕ} {c : Caller α} (st : C.CallerStep s i c t) : Later s t := by
  cases st with
  | change ho => exact ⟨List.prefix_append _ _, .refl _⟩
  | notify => exact ⟨List.prefix_refl _, .notify⟩
  | _ => exact ⟨List.prefix_refl _, .refl _⟩

lemma WaiterStep.later {j : ℕ} {w : Waiter β} (hw : s.waiters[j]? = some w)
    (st : C.WaiterStep s j w t) : Later s t := by
  obtain ⟨what, timed, phase⟩ := w
  cases st with
  | acquire hp hl =>
    cases hp
    exact ⟨List.prefix_refl _, .set hw rfl rfl nofun⟩
  | answer hp hr =>
    cases hp
    exact ⟨List.prefix_append _ _, .set hw rfl rfl nofun⟩
  | sleep hp hr =>
    cases hp
    exact ⟨List.prefix_refl _, .set hw rfl rfl nofun⟩
  | release hp =>
    cases hp
    exact ⟨List.prefix_refl _, .set hw rfl rfl fun _ => id⟩
  | wake hp hl =>
    cases hp
    exact ⟨List.prefix_refl _, .set hw rfl rfl nofun⟩

lemma Step.later {a : Action α β} (st : C.Step s a t) : Later s t := by
  cases st with
  | call => exact ⟨List.prefix_refl _, .refl _⟩
  | wait => exact ⟨List.prefix_refl _, .append⟩
  | caller hc st => exact st.later
  | waiter hw st => exact st.later hw

lemma later_of_exec {as : List (Action α β)} (he : (C.sys s₀).exec s as = some t) : Later s t := by
  induction as generalizing s with
  | nil =>
    cases he
    exact ⟨List.prefix_refl _, .refl _⟩
  | cons a as ih =>
    obtain ⟨u, hu, hut⟩ := Option.bind_eq_some_iff.mp he
    exact (Step.of_next hu).later.trans (ih hut)

/-- Who has no answer yet is answered about the object as it is then or later. -/
theorem answered_later (h : (C.sys s₀).Reachable s) {as : List (Action α β)}
    (he : (C.sys s₀).exec s as = some t) {j : ℕ} {w w' : Waiter β} {r : Bool}
    (hw : s.waiters[j]? = some w) (hnone : w.result = none) (hw' : t.waiters[j]? = some w')
    (hr : w'.result = some r) :
    ∃ before, s.log <+: before ∧ C.ready (C.replay s₀ before) w.what = r ∧
      (r = false → w.timed = true) := by
  have hs := Sound.reachable h
  have ht := Sound.reachable (h.exec as he)
  obtain ⟨⟨new, hnew⟩, hext⟩ := later_of_exec he
  obtain ⟨x, hx, hwhat, htimed, -⟩ := hext j w hw
  rw [hw'] at hx
  cases hx
  obtain ⟨before, after, hsplit⟩ := List.mem_iff_append.mp (ht.said j w' r hw' hr)
  obtain ⟨x, hx, -, hready, hpatient⟩ := ht.truthful before _ after hsplit j r rfl
  rw [hw'] at hx
  cases hx
  rw [hwhat] at hready
  rw [htimed] at hpatient
  rw [← hnew] at hsplit
  rcases split_append hsplit with ⟨rest, hold, -⟩ | ⟨rest, hbefore, -⟩
  · -- the answer would be an old one
    obtain ⟨x, hx, hres, -, -⟩ := hs.truthful before _ rest hold j r rfl
    rw [hw] at hx
    cases hx
    rw [hnone] at hres
    cases hres
  · exact ⟨before, ⟨rest, hbefore.symm⟩, hready, hpatient⟩

/-- The steps that callers and waiters take by themselves. -/
def Action.own : Action α β → Bool
  | .caller _ | .waiter _ => true
  | _ => false

def Caller.rank : Caller α → ℕ
  | .wants _ => 4
  | .holds _ => 3
  | .leaving _ => 2
  | .notifying => 1
  | .returned _ => 0

def Waiter.rank (w : Waiter β) : ℕ :=
  match w.phase with
  | .wants _ => 3
  | .testing _ => 2
  | .leaving _ => 1
  | _ => 0

/-- The steps that are left: a caller that still notifies may wake every waiter once more. -/
def State.rank (s : State σ α β) : ℕ :=
  (s.callers.map Caller.rank).sum * (3 * s.waiters.length + 1) + (s.waiters.map Waiter.rank).sum

lemma sum_rank_le (ws : List (Waiter β)) : (ws.map Waiter.rank).sum ≤ 3 * ws.length := by
  induction ws with
  | nil => simp
  | cons w ws ih =>
    have hw : w.rank ≤ 3 := by
      unfold Waiter.rank
      split <;> omega
    rw [List.map_cons, List.sum_cons, List.length_cons]
    omega

/-- A caller's step pays for all the waiters that it may wake. -/
lemma rank_lt_of_caller {i : ℕ} {c c' : Caller α} (hc : s.callers[i]? = some c)
    (ht : t.callers = s.callers.set i c') (hw : t.waiters.length = s.waiters.length)
    (lt : c'.rank < c.rank) : t.rank < s.rank := by
  have hsum := sum_map_set Caller.rank hc c'
  have hle := sum_rank_le t.waiters
  have hmul := Nat.mul_le_mul_right (3 * s.waiters.length + 1)
    (show ((s.callers.set i c').map Caller.rank).sum + 1 ≤ (s.callers.map Caller.rank).sum by omega)
  rw [Nat.add_mul] at hmul
  rw [hw] at hle
  unfold State.rank
  rw [ht, hw]
  omega

lemma CallerStep.rank_lt {i : ℕ} {c : Caller α} (hc : s.callers[i]? = some c)
    (st : C.CallerStep s i c t) : t.rank < s.rank := by
  cases st with
  | acquire hl => exact rank_lt_of_caller hc rfl rfl (by simp [Caller.rank])
  | change ho => exact rank_lt_of_caller hc rfl rfl (by simp [Caller.rank])
  | refuse ho => exact rank_lt_of_caller hc rfl rfl (by simp [Caller.rank])
  | @release ok =>
    refine rank_lt_of_caller hc rfl rfl ?_
    cases ok <;> simp [Caller.rank]
  | notify => exact rank_lt_of_caller hc rfl (List.length_map _) (by simp [Caller.rank])

lemma WaiterStep.rank_lt {j : ℕ} {w : Waiter β} (hw : s.waiters[j]? = some w)
    (st : C.WaiterStep s j w t) (ha : w.phase ≠ .asleep) : t.rank < s.rank := by
  obtain ⟨what, timed, phase⟩ := w
  have hset (phase' : Phase) := sum_map_set Waiter.rank hw ⟨what, timed, phase'⟩
  cases st with
  | @acquire late hp hl =>
    cases hp
    have hsum := hset (.testing late)
    simp only [Waiter.rank, State.rank, List.length_set] at hsum ⊢
    omega
  | @answer late hp hr =>
    cases hp
    have hsum := hset (.leaving (C.ready s.obj what))
    simp only [Waiter.rank, State.rank, List.length_set] at hsum ⊢
    omega
  | sleep hp hr =>
    cases hp
    have hsum := hset .asleep
    simp only [Waiter.rank, State.rank, List.length_set] at hsum ⊢
    omega
  | @release r hp =>
    cases hp
    have hsum := hset (.returned r)
    simp only [Waiter.rank, State.rank, List.length_set] at hsum ⊢
    omega
  | wake hp => exact absurd hp ha

/-- Every step that is somebody's own lowers the rank. -/
lemma own_lt {a : Action α β} (ha : a.own = true) (h : C.next s a = some t) : t.rank < s.rank := by
  cases a with
  | caller i =>
    obtain ⟨c, hc, h⟩ := Option.bind_eq_some_iff.mp h
    exact CallerStep.rank_lt hc (.of_next h)
  | waiter j =>
    obtain ⟨w, hw, h⟩ := Option.bind_eq_some_iff.mp h
    refine WaiterStep.rank_lt hw (.of_next h) ?_
    intro hp
    rw [nextWaiter, hp] at h
    cases h
  | _ => cases ha

/-- Nobody can move by itself. -/
def AtRest (C : Condition σ α β) (s : State σ α β) : Prop :=
  ∀ a : Action α β, a.own = true → C.next s a = none

lemma AtRest.caller (h : C.AtRest s) {i : ℕ} {c : Caller α} (hc : s.callers[i]? = some c) :
    C.nextCaller s i c = none := by
  have hn := h (.caller i) rfl
  rwa [next, hc] at hn

lemma AtRest.waiter (h : C.AtRest s) {j : ℕ} {w : Waiter β} (hw : s.waiters[j]? = some w) :
    C.nextWaiter s j w = none := by
  have hn := h (.waiter j) rfl
  rwa [next, hw] at hn

/-- At rest the lock is free: whoever holds it can move. -/
lemma AtRest.lock_free (h : C.AtRest s) (hs : C.Sound s₀ s) : s.lock = none := by
  cases hl : s.lock with
  | none => rfl
  | some o =>
    cases o with
    | inl i =>
      obtain ⟨c, hc, hin⟩ := hs.lock.left.held i (by rw [hl]; rfl)
      have hn := h.caller hc
      cases c with
      | holds a =>
        simp only [nextCaller] at hn
        split at hn <;> cases hn
      | leaving ok => cases hn
      | _ => cases hin
    | inr j =>
      obtain ⟨⟨what, timed, phase⟩, hw, hin⟩ := hs.lock.right.held j (by rw [hl]; rfl)
      have hn := h.waiter hw
      cases phase with
      | testing late =>
        simp only [nextWaiter] at hn
        split at hn <;> cases hn
      | leaving r => cases hn
      | _ => cases hin

/-- At rest every caller has returned, and a waiter that has not sleeps in front of an object that
is not what it waits for. -/
theorem AtRest.settles (h : C.AtRest s) (hs : C.Sound s₀ s) :
    (∀ (i : ℕ) (c : Caller α), s.callers[i]? = some c → ∃ ok, c = .returned ok) ∧
      ∀ (j : ℕ) (w : Waiter β), s.waiters[j]? = some w →
        (∃ r, w.phase = .returned r) ∨ (w.phase = .asleep ∧ C.ready s.obj w.what = false) := by
  have hl := h.lock_free hs
  have hcallers : ∀ (i : ℕ) (c : Caller α), s.callers[i]? = some c → ∃ ok, c = .returned ok := by
    intro i c hc
    have hn := h.caller hc
    cases c with
    | wants a =>
      rw [nextCaller, if_pos hl] at hn
      cases hn
    | holds a =>
      have hlock := hs.lock.held_left hc rfl
      rw [hl] at hlock
      cases hlock
    | leaving ok => cases hn
    | notifying => cases hn
    | returned ok => exact ⟨ok, rfl⟩
  refine ⟨hcallers, ?_⟩
  intro j w hw
  have hn := h.waiter hw
  obtain ⟨what, timed, phase⟩ := w
  cases phase with
  | wants late =>
    simp only [nextWaiter, if_pos hl] at hn
    cases hn
  | testing late =>
    have hlock := hs.lock.held_right hw rfl
    rw [hl] at hlock
    cases hlock
  | leaving r => cases hn
  | asleep =>
    refine .inr ⟨rfl, ?_⟩
    cases hr : C.ready s.obj what with
    | false => rfl
    | true =>
      obtain ⟨i, c, hc, hp⟩ := hs.notified j _ hw rfl hr
      obtain ⟨ok, rfl⟩ := hcallers i c hc
      cases hp
  | returned r => exact .inl ⟨r, rfl⟩

end Condition

end Lts
