import KubeMQ.Policy.Schedule
import KubeMQ.Transport.ReconnectLoop

/-!
# The attempts of one run of the reconnect loop

The thread that executes `Run`, with the results of its function given as a sequence, beside the
other threads that use the loop: one of them at a time holds `mu_`, and a `Stop` that holds it sets
`stop_requested_`. A `Start` leaves a loop that is running as it is. The attempt counter is not
bounded. `draw j` are the draws of the `j`-th backoff.
-/

namespace KubeMQ.ReconnectRun
open ReconnectLoop (Mem RunPc RunLabel RunStep runNext exhausted)

/-- The loop while one thread executes `Run`, and what that thread has done. -/
structure Run where
  mem : Mem
  pc : RunPc
  /-- How often the function has been called. -/
  connects : ℕ
  /-- The waits that are over: the backoff, and whether it passed in full. -/
  waits : List (Int × Bool)
  /-- How many calls began after the stop request. -/
  late : ℕ

/-- One action: a step of the thread, a wake-up of its condition variable before the backoff has
passed, and the steps of the other threads. -/
inductive Action where
  | run
  | wakeEarly
  | acquire
  | request
  | release
  deriving DecidableEq

/-- The thread that executes `Run`, and the other one that holds `mu_`. -/
abbrev runner : ℕ ⊕ ℕ := .inr 0

abbrev other : ℕ ⊕ ℕ := .inl 0

section
variable (policy : ReconnectPolicy) (outcomes : ℕ → Bool) (draw : ℕ → Int → Int → Int)

/-- What `CalculateBackoff` returns after the `j`-th failure. -/
def backoff (j : ℕ) : Int := ReconnectLoop.calculateBackoff policy (draw j) j

/-- The next result of the function, and a backoff that has passed. -/
def label (s : Run) : RunLabel :=
  match s.pc with
  | .connecting _ => .connected (outcomes (s.connects - 1))
  | .asleep _ => .wake true
  | _ => .tau

/-- A step of `Run`, with what it adds to the record. -/
def runWith (s : Run) (l : RunLabel) : Option Run :=
  (runNext policy s.mem 0 s.pc l).map fun r =>
    { mem := r.1
      pc := r.2
      connects :=
        match s.pc with
        | .connect _ => s.connects + 1
        | _ => s.connects
      waits :=
        match s.pc, r.2 with
        | .wait timedOut attempt, .check _ =>
          s.waits ++ [(backoff policy draw (attempt - 1), timedOut)]
        | _, _ => s.waits
      late :=
        match s.pc with
        | .connect _ => if s.mem.stopRequested then s.late + 1 else s.late
        | _ => s.late }

def next (s : Run) : Action → Option Run
  | .run => runWith policy draw s (label outcomes s)
  | .wakeEarly =>
    match s.pc with
    | .asleep _ => runWith policy draw s (.wake false)
    | _ => none
  | .acquire =>
    if s.mem.mu.isNone then some { s with mem := { s.mem with mu := some other } } else none
  -- Stop under its lock
  | .request =>
    if s.mem.mu = some other ∧ s.mem.running then
      some { s with mem := { s.mem with stopRequested := true } }
    else none
  | .release =>
    if s.mem.mu = some other then some { s with mem := { s.mem with mu := none } } else none

/-- The thread has been started, and `Start` is about to unlock. -/
def begin : Run where
  mem := ⟨some other, true, false, some 0, [.check 0], false, [.spawned 0]⟩
  pc := .check 0
  connects := 0
  waits := []
  late := 0

def sys : Lts.Sys Run Action where
  init s := s = begin
  next := next policy outcomes draw

end

/-- The steps of the thread, by where it stands. -/
inductive ThreadStep (policy : ReconnectPolicy) (outcomes : ℕ → Bool) (draw : ℕ → Int → Int → Int)
    (s : Run) : Run → Prop where
  | leave {a : ℕ} :
    s.pc = .check a →
    (s.mem.stopRequested || exhausted policy a) = true →
    ThreadStep policy outcomes draw s { s with pc := .finish }
  | goOn {a : ℕ} :
    s.pc = .check a →
    (s.mem.stopRequested || exhausted policy a) = false →
    ThreadStep policy outcomes draw s { s with pc := .connect a }
  | connect {a : ℕ} :
    s.pc = .connect a →
    ThreadStep policy outcomes draw s
      { s with mem := s.mem.observe (.connect 0), pc := .connecting a, connects := s.connects + 1,
               late := if s.mem.stopRequested then s.late + 1 else s.late }
  | connected {a : ℕ} :
    s.pc = .connecting a →
    outcomes (s.connects - 1) = true →
    ThreadStep policy outcomes draw s { s with pc := .finish }
  | refused {a : ℕ} :
    s.pc = .connecting a →
    outcomes (s.connects - 1) = false →
    ThreadStep policy outcomes draw s { s with pc := .lock (a + 1) }
  | lock {a : ℕ} :
    s.pc = .lock a →
    s.mem.mu = none →
    ThreadStep policy outcomes draw s
      { s with mem := { s.mem with mu := some runner }, pc := .wait false a }
  | waited {timedOut : Bool} {a : ℕ} :
    s.pc = .wait timedOut a →
    (s.mem.stopRequested || timedOut) = true →
    ThreadStep policy outcomes draw s
      { s with mem := { s.mem with mu := none }, pc := .check a,
               waits := s.waits ++ [(backoff policy draw (a - 1), timedOut)] }
  | sleep {timedOut : Bool} {a : ℕ} :
    s.pc = .wait timedOut a →
    (s.mem.stopRequested || timedOut) = false →
    ThreadStep policy outcomes draw s
      { s with mem := { s.mem with mu := none }, pc := .asleep a }
  | wake {a : ℕ} :
    s.pc = .asleep a →
    s.mem.mu = none →
    ThreadStep policy outcomes draw s
      { s with mem := { s.mem with mu := some runner }, pc := .wait true a }
  | finish :
    s.pc = .finish →
    s.mem.mu = none →
    ThreadStep policy outcomes draw s
      { s with mem := { s.mem with mu := some runner }, pc := .store }
  | store :
    s.pc = .store →
    ThreadStep policy outcomes draw s
      { s with mem := { s.mem with running := false }, pc := .unlock }
  | unlock :
    s.pc = .unlock →
    ThreadStep policy outcomes draw s
      { s with mem := { s.mem with mu := none }, pc := .exited }

/-- The steps of the system. -/
inductive Step (policy : ReconnectPolicy) (outcomes : ℕ → Bool) (draw : ℕ → Int → Int → Int)
    (s : Run) : Action → Run → Prop where
  | run {t : Run} :
    ThreadStep policy outcomes draw s t →
    Step policy outcomes draw s .run t
  | wakeEarly {a : ℕ} :
    s.pc = .asleep a →
    s.mem.mu = none →
    Step policy outcomes draw s .wakeEarly
      { s with mem := { s.mem with mu := some runner }, pc := .wait false a }
  | acquire :
    s.mem.mu = none →
    Step policy outcomes draw s .acquire { s with mem := { s.mem with mu := some other } }
  | request :
    s.mem.mu = some other →
    s.mem.running = true →
    Step policy outcomes draw s .request { s with mem := { s.mem with stopRequested := true } }
  | release :
    s.mem.mu = some other →
    Step policy outcomes draw s .release { s with mem := { s.mem with mu := none } }

variable {policy : ReconnectPolicy} {outcomes : ℕ → Bool} {draw : ℕ → Int → Int → Int}

lemma ThreadStep.of_next {s t : Run} (hn : next policy outcomes draw s .run = some t) :
    ThreadStep policy outcomes draw s t := by
  obtain ⟨⟨m, pc⟩, hr, rfl⟩ := Option.map_eq_some_iff.mp hn
  have st := RunStep.of_next hr
  generalize hpc : s.pc = pc₀ at st
  generalize hl : label outcomes s = l at st
  unfold label at hl
  cases st with
  | leave h => simpa [hpc] using ThreadStep.leave hpc h
  | goOn h => simpa [hpc] using ThreadStep.goOn hpc h
  | connect => simpa [hpc] using ThreadStep.connect hpc
  | connected =>
    simp only [hpc, RunLabel.connected.injEq] at hl
    simpa [hpc] using ThreadStep.connected hpc hl
  | refused =>
    simp only [hpc, RunLabel.connected.injEq] at hl
    simpa [hpc] using ThreadStep.refused hpc hl
  | lock h => simpa [hpc] using ThreadStep.lock hpc h
  | waited h => simpa [hpc] using ThreadStep.waited hpc h
  | sleep h => simpa [hpc] using ThreadStep.sleep hpc h
  | wake h =>
    simp only [hpc, RunLabel.wake.injEq] at hl
    subst hl
    simpa [hpc] using ThreadStep.wake hpc h
  | finish h => simpa [hpc] using ThreadStep.finish hpc h
  | store => simpa [hpc] using ThreadStep.store hpc
  | unlock => simpa [hpc] using ThreadStep.unlock hpc

lemma Step.of_next {s t : Run} {a : Action} (hn : next policy outcomes draw s a = some t) :
    Step policy outcomes draw s a t := by
  cases a with
  | run => exact .run (.of_next hn)
  | wakeEarly =>
    simp only [next] at hn
    split at hn
    next attempt hpc =>
      obtain ⟨⟨m, pc⟩, hr, rfl⟩ := Option.map_eq_some_iff.mp hn
      rw [hpc] at hr
      cases RunStep.of_next hr with
      | wake h => simpa [hpc] using Step.wakeEarly hpc h
    next => cases hn
  | acquire =>
    simp only [next, Option.isNone_iff_eq_none] at hn
    split at hn <;> cases hn
    exact .acquire ‹_›
  | request =>
    simp only [next] at hn
    split at hn <;> cases hn
    next h => exact .request h.1 h.2
  | release =>
    simp only [next] at hn
    split at hn <;> cases hn
    exact .release ‹_›

/-- The thread is inside a lock scope. -/
def holding : RunPc → Bool
  | .wait _ _ => true
  | .store => true
  | .unlock => true
  | _ => false

/-- The thread has stored `running_`. -/
def stored : RunPc → Bool
  | .unlock => true
  | .exited => true
  | _ => false

/-- The lock, the flags and the calls that began after a stop request. -/
structure Inv (s : Run) : Prop where
  owner : s.mem.mu = none ∨ s.mem.mu = some other ∨ s.mem.mu = some runner
  mu : s.mem.mu = some runner ↔ holding s.pc = true
  running : s.mem.running = !stored s.pc
  late_le : s.late ≤ 1
  late_stop : s.late = 1 → s.mem.stopRequested = true ∧ ∀ a, s.pc ≠ .connect a
  on_time : s.mem.stopRequested = false → s.late = 0

lemma inv_begin : Inv begin where
  owner := .inr (.inl rfl)
  mu := by simp [begin, holding]
  running := rfl
  late_le := Nat.zero_le _
  late_stop := nofun
  on_time _ := rfl

section
variable {s t : Run}

/-- A step that neither begins a call nor requests a stop. -/
lemma Inv.after (inv : Inv s) (hlate : t.late = s.late)
    (hflag : t.mem.stopRequested = s.mem.stopRequested) (hpc : ∀ a, t.pc ≠ .connect a)
    (owner : t.mem.mu = none ∨ t.mem.mu = some other ∨ t.mem.mu = some runner)
    (mu : t.mem.mu = some runner ↔ holding t.pc = true)
    (running : t.mem.running = !stored t.pc) : Inv t where
  owner := owner
  mu := mu
  running := running
  late_le := by
    rw [hlate]
    exact inv.late_le
  late_stop hl := by
    rw [hlate] at hl
    rw [hflag]
    exact ⟨(inv.late_stop hl).1, hpc⟩
  on_time h := by
    rw [hflag] at h
    rw [hlate]
    exact inv.on_time h

/-- While the thread holds `mu_` nobody else does. -/
lemma Inv.not_holding (inv : Inv s) (h : s.mem.mu ≠ some runner) : holding s.pc ≠ true :=
  fun hh => h (inv.mu.mpr hh)

lemma Inv.thread (inv : Inv s) (st : ThreadStep policy outcomes draw s t) : Inv t := by
  have hmu := inv.mu
  have hrunning := inv.running
  cases st with
  | leave hpc h =>
    rw [hpc] at hmu hrunning
    exact inv.after rfl rfl nofun inv.owner hmu hrunning
  | goOn hpc h =>
    rw [hpc] at hmu hrunning
    refine ⟨inv.owner, hmu, hrunning, inv.late_le, ?_, inv.on_time⟩
    intro hl
    have hflag := (inv.late_stop hl).1
    simp [hflag] at h
  | connect hpc =>
    rw [hpc] at hmu hrunning
    have hlate : s.late = 0 := by
      by_contra hne
      have hle := inv.late_le
      exact (inv.late_stop (by omega)).2 _ hpc
    refine ⟨inv.owner, hmu, hrunning, ?_, ?_, ?_⟩
    · show (if s.mem.stopRequested then s.late + 1 else s.late) ≤ 1
      split <;> omega
    · intro hl
      replace hl : (if s.mem.stopRequested then s.late + 1 else s.late) = 1 := hl
      rw [hlate] at hl
      refine ⟨?_, nofun⟩
      show s.mem.stopRequested = true
      simpa using hl
    · intro hflag
      replace hflag : s.mem.stopRequested = false := hflag
      simp [hflag, hlate]
  | connected hpc h =>
    rw [hpc] at hmu hrunning
    exact inv.after rfl rfl nofun inv.owner hmu hrunning
  | refused hpc h =>
    rw [hpc] at hmu hrunning
    exact inv.after rfl rfl nofun inv.owner hmu hrunning
  | lock hpc h =>
    rw [hpc] at hrunning
    exact inv.after rfl rfl nofun (.inr (.inr rfl)) ⟨fun _ => rfl, fun _ => rfl⟩ hrunning
  | waited hpc h =>
    rw [hpc] at hrunning
    exact inv.after rfl rfl nofun (.inl rfl) ⟨nofun, nofun⟩ hrunning
  | sleep hpc h =>
    rw [hpc] at hrunning
    exact inv.after rfl rfl nofun (.inl rfl) ⟨nofun, nofun⟩ hrunning
  | wake hpc h =>
    rw [hpc] at hrunning
    exact inv.after rfl rfl nofun (.inr (.inr rfl)) ⟨fun _ => rfl, fun _ => rfl⟩ hrunning
  | finish hpc h =>
    rw [hpc] at hrunning
    exact inv.after rfl rfl nofun (.inr (.inr rfl)) ⟨fun _ => rfl, fun _ => rfl⟩ hrunning
  | store hpc =>
    rw [hpc] at hmu
    exact inv.after rfl rfl nofun inv.owner hmu rfl
  | unlock hpc =>
    rw [hpc] at hrunning
    exact inv.after rfl rfl nofun (.inl rfl) ⟨nofun, nofun⟩ hrunning

lemma Inv.step {a : Action} (inv : Inv s) (st : Step policy outcomes draw s a t) : Inv t := by
  have hrunning := inv.running
  cases st with
  | run st => exact inv.thread st
  | wakeEarly hpc h =>
    rw [hpc] at hrunning
    exact inv.after rfl rfl nofun (.inr (.inr rfl)) ⟨fun _ => rfl, fun _ => rfl⟩ hrunning
  | acquire h =>
    have hfree : holding s.pc ≠ true := by
      apply inv.not_holding
      rw [h]
      nofun
    exact ⟨.inr (.inl rfl), ⟨nofun, fun hh => absurd hh hfree⟩, hrunning, inv.late_le,
      inv.late_stop, inv.on_time⟩
  | request h hr =>
    exact ⟨inv.owner, inv.mu, hrunning, inv.late_le, fun hl => ⟨rfl, (inv.late_stop hl).2⟩, nofun⟩
  | release h =>
    have hfree : holding s.pc ≠ true := by
      apply inv.not_holding
      rw [h]
      nofun
    exact ⟨.inl rfl, ⟨nofun, fun hh => absurd hh hfree⟩, hrunning, inv.late_le, inv.late_stop,
      inv.on_time⟩

/-- Until it has exited, the thread can go on as soon as no other thread holds `mu_`. -/
lemma Inv.enabled (inv : Inv s) (hpc : s.pc ≠ .exited) (hmu : s.mem.mu ≠ some other) :
    (next policy outcomes draw s .run).isSome := by
  have hfree : holding s.pc = false → s.mem.mu = none := by
    intro hh
    obtain h | h | h := inv.owner
    · exact h
    · exact absurd h hmu
    · rw [inv.mu.mp h] at hh
      cases hh
  show (Option.map _ (runNext policy s.mem 0 s.pc (label outcomes s))).isSome
  rw [Option.isSome_map]
  unfold label
  cases h : s.pc with
  | check a => rfl
  | connect a => rfl
  | connecting a => rfl
  | lock a =>
    rw [h] at hfree
    simp [runNext, hfree rfl]
  | wait timedOut a => rfl
  | asleep a =>
    rw [h] at hfree
    simp [runNext, hfree rfl]
  | finish =>
    rw [h] at hfree
    simp [runNext, hfree rfl]
  | store => rfl
  | unlock => rfl
  | exited => exact absurd h hpc

end

end KubeMQ.ReconnectRun
