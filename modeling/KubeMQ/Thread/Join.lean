import Mathlib.Tactic.Common

/-!
# Joining the reader thread

`JoinReader` is the same method in `Subscription::Impl` and in the three stream handles: under
`std::call_once(join_once, …)` it joins `reader_thread` when that is joinable. `std::call_once` is
taken as documented: one caller runs the body, the others wait until the body has returned.

`Joiner.next` is one step of one call; `JoinPc` says where the call stands. The facts that every
caller needs are collected in `Joiner.Sound`: a completed `join_once` means a joined thread, and a
joined thread has exited.
-/

namespace KubeMQ

/-- Where a call of `JoinReader` stands. -/
inductive JoinPc where
  | enter | body | returned
  deriving DecidableEq

/-- The once-flag `join_once` and the joinability of `reader_thread`. -/
structure Joiner where
  running : Bool
  completed : Bool
  joinable : Bool
  deriving DecidableEq

/-- A started reader thread that nobody has joined. -/
def Joiner.start : Joiner := ⟨false, false, true⟩

/-- One step of a call of `JoinReader`; `exited` tells whether the thread's function returned. A thread
that has come to join itself has no step here. In the code `std::thread::join` then throws
`resource_deadlock_would_occur`: what follows a self-join is outside the model, which stops there. -/
def Joiner.next (exited : Bool) (j : Joiner) : JoinPc → Option (Joiner × JoinPc)
  | .enter =>
    if j.completed then some (j, .returned)
    else if j.running then none
    else some ({ j with running := true }, .body)
  | .body =>
    if j.joinable then
      -- `reader_thread.join()` blocks until the thread has exited
      if exited then some (⟨false, true, false⟩, .returned) else none
    else some ({ j with running := false, completed := true }, .returned)
  | .returned => none

/-- A completed once-flag means a joined thread, and only an exited thread is joined. -/
structure Joiner.Sound (j : Joiner) (exited : Bool) : Prop where
  joined : j.completed = true → j.joinable = false
  exited : j.joinable = false → exited = true

lemma Joiner.sound_start (exited : Bool) : Joiner.start.Sound exited :=
  ⟨nofun, nofun⟩

/-- The thread may exit at any time. -/
lemma Joiner.Sound.mono {j : Joiner} {b c : Bool} (h : j.Sound b) (le : b = true → c = true) :
    j.Sound c :=
  ⟨h.joined, fun hj => le (h.exited hj)⟩

/-- What one step of a call does to the once-flag and to the thread. -/
lemma Joiner.next_spec {exited : Bool} {j j' : Joiner} {p p' : JoinPc} (h : j.Sound exited)
    (hn : j.next exited p = some (j', p')) :
    j'.Sound exited ∧ (p' = .returned → j'.completed = true) ∧
      (j.completed = true → j'.completed = true) ∧ (j.joinable = false → j'.joinable = false) := by
  cases p with
  | enter =>
    simp only [next] at hn
    split at hn
    · next hc =>
      cases hn
      exact ⟨h, fun _ => hc, id, id⟩
    · split at hn
      · cases hn
      · cases hn
        exact ⟨⟨h.joined, h.exited⟩, nofun, id, id⟩
  | body =>
    simp only [next] at hn
    split at hn
    · split at hn
      · next hx =>
        cases hn
        exact ⟨⟨fun _ => rfl, fun _ => hx⟩, fun _ => rfl, fun _ => rfl, fun _ => rfl⟩
      · cases hn
    · next hj =>
      have hj : j.joinable = false := by simpa using hj
      cases hn
      exact ⟨⟨fun _ => hj, h.exited⟩, fun _ => rfl, fun _ => rfl, id⟩
  | returned => cases hn

/-- When the thread has exited, a call waits only for another one that is joining it. -/
lemma Joiner.next_enabled (j : Joiner) {p : JoinPc} (hp : p ≠ .returned)
    (hr : p = .enter → j.running = false) : ∃ r, j.next true p = some r := by
  cases p with
  | enter =>
    simp only [next, hr rfl]
    split <;> exact ⟨_, rfl⟩
  | body =>
    simp only [next]
    split <;> exact ⟨_, rfl⟩
  | returned => exact absurd rfl hp

/-- Who is joining after a step has begun with it or was not the one who moved. -/
lemma Joiner.next_running {exited : Bool} {j j' : Joiner} {p p' : JoinPc}
    (hn : j.next exited p = some (j', p')) (hr : j'.running = true) :
    p' = .body ∨ (j.running = true ∧ p ≠ .body) := by
  cases p with
  | enter =>
    simp only [next] at hn
    split at hn
    · cases hn
      refine .inr ⟨hr, ?_⟩
      intro hbody
      cases hbody
    · split at hn
      · cases hn
      · cases hn
        exact .inl rfl
  | body =>
    simp only [next] at hn
    split at hn
    · split at hn
      · cases hn
        cases hr
      · cases hn
    · cases hn
      cases hr
  | returned => cases hn

end KubeMQ
