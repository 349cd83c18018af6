import KubeMQ.Transport.ReconnectAttempts

/-!
# How a run of the reconnect loop ends

The calls and the waits of a run are counted against the results of the function; a rank that every
step of the thread lowers says when it ends.
-/

namespace KubeMQ.ReconnectRun
open ReconnectLoop (exhausted)

variable {policy : ReconnectPolicy} {outcomes : ℕ → Bool} {draw : ℕ → Int → Int → Int}

/-- The first `a` calls failed, and the bound admitted a further one after each but the last. -/
structure Failed (policy : ReconnectPolicy) (outcomes : ℕ → Bool) (a : ℕ) : Prop where
  failed : ∀ j < a, outcomes j = false
  admitted : ∀ j < a, exhausted policy j = false

lemma Failed.zero : Failed policy outcomes 0 := ⟨nofun, nofun⟩

lemma Failed.succ {a : ℕ} (h : Failed policy outcomes a) (hout : outcomes a = false)
    (hadm : exhausted policy a = false) : Failed policy outcomes (a + 1) := by
  constructor
  · intro j hj
    obtain hj | rfl := Nat.lt_succ_iff_lt_or_eq.mp hj
    · exact h.failed j hj
    · exact hout
  · intro j hj
    obtain hj | rfl := Nat.lt_succ_iff_lt_or_eq.mp hj
    · exact h.admitted j hj
    · exact hadm

/-- How the run has ended without a stop request: with the first success, or at the bound. -/
inductive Ended (policy : ReconnectPolicy) (outcomes : ℕ → Bool) : ℕ → ℕ → Prop where
  | success {i : ℕ} :
    Failed policy outcomes i →
    exhausted policy i = false →
    outcomes i = true →
    Ended policy outcomes (i + 1) i
  | bound {a : ℕ} :
    Failed policy outcomes a →
    exhausted policy a = true →
    Ended policy outcomes a a

/-- What the calls so far were, by where the thread stands. -/
def Counted (policy : ReconnectPolicy) (outcomes : ℕ → Bool) (s : Run) : Prop :=
  match s.pc with
  | .check a => s.connects = a ∧ Failed policy outcomes a
  | .connect a => s.connects = a ∧ Failed policy outcomes a ∧ exhausted policy a = false
  | .connecting a => s.connects = a + 1 ∧ Failed policy outcomes a ∧ exhausted policy a = false
  | .lock b => s.connects = b ∧ Failed policy outcomes b ∧ 0 < b
  | .wait _ b => s.connects = b ∧ Failed policy outcomes b ∧ 0 < b
  | .asleep b => s.connects = b ∧ Failed policy outcomes b ∧ 0 < b
  | _ => True

section
variable {s t : Run}

lemma counted_begin : Counted policy outcomes begin := ⟨rfl, .zero⟩

lemma Counted.thread (h : Counted policy outcomes s) (st : ThreadStep policy outcomes draw s t) :
    Counted policy outcomes t := by
  unfold Counted at h
  cases st with
  | leave hpc hleave => exact trivial
  | goOn hpc hgo =>
    rw [hpc] at h
    obtain ⟨-, hadm⟩ := Bool.or_eq_false_iff.mp hgo
    exact ⟨h.1, h.2, hadm⟩
  | connect hpc =>
    rw [hpc] at h
    exact ⟨congrArg (· + 1) h.1, h.2⟩
  | connected hpc hout => exact trivial
  | refused hpc hout =>
    rw [hpc] at h
    obtain ⟨hcount, hfailed, hadm⟩ := h
    rw [hcount, Nat.add_sub_cancel] at hout
    exact ⟨hcount, hfailed.succ hout hadm, Nat.succ_pos _⟩
  | lock hpc hfree =>
    rw [hpc] at h
    exact h
  | waited hpc hend =>
    rw [hpc] at h
    exact ⟨h.1, h.2.1⟩
  | sleep hpc hgo =>
    rw [hpc] at h
    exact h
  | wake hpc hfree =>
    rw [hpc] at h
    exact h
  | finish hpc hfree => exact trivial
  | store hpc => exact trivial
  | unlock hpc => exact trivial

lemma Counted.step {a : Action} (h : Counted policy outcomes s)
    (st : Step policy outcomes draw s a t) : Counted policy outcomes t := by
  cases st with
  | run st => exact h.thread st
  | wakeEarly hpc hfree =>
    unfold Counted at h
    rw [hpc] at h
    exact h
  | acquire hfree => exact h
  | request hheld hrunning => exact h
  | release hheld => exact h

end

/-- The waits after the first `a` failures, each of its full backoff. -/
def passed (policy : ReconnectPolicy) (draw : ℕ → Int → Int → Int) (a : ℕ) : List (Int × Bool) :=
  (List.range a).map fun j => (backoff policy draw j, true)

lemma passed_succ (a : ℕ) :
    passed policy draw (a + 1) = passed policy draw a ++ [(backoff policy draw a, true)] := by
  simp [passed, List.range_succ]

/-- A run without a stop request has waited in full after every failure. -/
structure Unstopped (policy : ReconnectPolicy) (outcomes : ℕ → Bool)
    (draw : ℕ → Int → Int → Int) (s : Run) : Prop where
  flag : s.mem.stopRequested = false
  waits : match s.pc with
    | .check a => s.waits = passed policy draw a
    | .connect a => s.waits = passed policy draw a
    | .connecting a => s.waits = passed policy draw a
    | .lock b => s.waits = passed policy draw (b - 1)
    | .wait _ b => s.waits = passed policy draw (b - 1)
    | .asleep b => s.waits = passed policy draw (b - 1)
    | _ => ∃ k, Ended policy outcomes s.connects k ∧ s.waits = passed policy draw k

section
variable {s t : Run}

lemma unstopped_begin : Unstopped policy outcomes draw begin := ⟨rfl, rfl⟩

lemma Unstopped.thread (h : Unstopped policy outcomes draw s) (hc : Counted policy outcomes s)
    (st : ThreadStep policy outcomes draw s t) : Unstopped policy outcomes draw t := by
  obtain ⟨hflag, hwaits⟩ := h
  unfold Counted at hc
  cases st with
  | leave hpc hleave =>
    rw [hpc] at hwaits hc
    rw [hflag, Bool.false_or] at hleave
    refine ⟨hflag, _, ?_, hwaits⟩
    show Ended policy outcomes s.connects _
    rw [hc.1]
    exact .bound hc.2 hleave
  | goOn hpc hgo =>
    rw [hpc] at hwaits
    exact ⟨hflag, hwaits⟩
  | connect hpc =>
    rw [hpc] at hwaits
    exact ⟨hflag, hwaits⟩
  | connected hpc hout =>
    rw [hpc] at hwaits hc
    obtain ⟨hcount, hfailed, hadm⟩ := hc
    rw [hcount, Nat.add_sub_cancel] at hout
    refine ⟨hflag, _, ?_, hwaits⟩
    show Ended policy outcomes s.connects _
    rw [hcount]
    exact .success hfailed hadm hout
  | refused hpc hout =>
    rw [hpc] at hwaits
    exact ⟨hflag, hwaits⟩
  | lock hpc hfree =>
    rw [hpc] at hwaits
    exact ⟨hflag, hwaits⟩
  | @waited timedOut a hpc hend =>
    rw [hpc] at hwaits hc
    obtain ⟨-, -, hpos⟩ := hc
    rw [hflag, Bool.false_or] at hend
    subst hend
    refine ⟨hflag, ?_⟩
    show s.waits ++ [(backoff policy draw (a - 1), true)] = passed policy draw a
    obtain ⟨b, rfl⟩ := Nat.exists_eq_succ_of_ne_zero (Nat.pos_iff_ne_zero.mp hpos)
    rw [hwaits]
    exact (passed_succ b).symm
  | sleep hpc hgo =>
    rw [hpc] at hwaits
    exact ⟨hflag, hwaits⟩
  | wake hpc hfree =>
    rw [hpc] at hwaits
    exact ⟨hflag, hwaits⟩
  | finish hpc hfree =>
    rw [hpc] at hwaits
    exact ⟨hflag, hwaits⟩
  | store hpc =>
    rw [hpc] at hwaits
    exact ⟨hflag, hwaits⟩
  | unlock hpc =>
    rw [hpc] at hwaits
    exact ⟨hflag, hwaits⟩

lemma Unstopped.step {a : Action} (h : Unstopped policy outcomes draw s)
    (hc : Counted policy outcomes s) (ha : a ≠ .request) (st : Step policy outcomes draw s a t) :
    Unstopped policy outcomes draw t := by
  obtain ⟨hflag, hwaits⟩ := h
  cases st with
  | run st => exact Unstopped.thread ⟨hflag, hwaits⟩ hc st
  | wakeEarly hpc hfree =>
    rw [hpc] at hwaits
    exact ⟨hflag, hwaits⟩
  | acquire hfree => exact ⟨hflag, hwaits⟩
  | request hheld hrunning => exact absurd rfl ha
  | release hheld => exact ⟨hflag, hwaits⟩

end

/-- What is left to do for the thread when it calls the function at most `bound` times. -/
def remaining (bound : ℕ) (s : Run) : ℕ :=
  match s.pc with
  | .check a => 7 * (bound - a) + 4
  | .connect a => 7 * (bound - a) + 3
  | .connecting a => 7 * (bound - a) + 2
  | .lock b => 7 * (bound - b) + 8
  | .wait false b => 7 * (bound - b) + 7
  | .asleep b => 7 * (bound - b) + 6
  | .wait true b => 7 * (bound - b) + 5
  | .finish => 3
  | .store => 2
  | .unlock => 1
  | .exited => 0

/-- What is left to do once a stop has been requested. -/
def remainingStopped (s : Run) : ℕ :=
  match s.pc with
  | .connect _ => 8
  | .connecting _ => 7
  | .lock _ => 6
  | .asleep _ => 6
  | .wait _ _ => 5
  | .check _ => 4
  | .finish => 3
  | .store => 2
  | .unlock => 1
  | .exited => 0

section
variable {s t : Run}

lemma ThreadStep.remaining_lt {bound : ℕ}
    (hb : ∀ a, Failed policy outcomes a → exhausted policy a = false → a < bound)
    (hc : Counted policy outcomes s) (st : ThreadStep policy outcomes draw s t) :
    remaining bound t < remaining bound s := by
  unfold Counted at hc
  unfold remaining
  cases st with
  | leave hpc hleave =>
    simp only [hpc]
    omega
  | goOn hpc hgo =>
    simp only [hpc]
    omega
  | connect hpc =>
    simp only [hpc]
    omega
  | @connected a hpc hout =>
    rw [hpc] at hc
    have hlt := hb a hc.2.1 hc.2.2
    simp only [hpc]
    omega
  | @refused a hpc hout =>
    rw [hpc] at hc
    have hlt := hb a hc.2.1 hc.2.2
    simp only [hpc]
    omega
  | lock hpc hfree =>
    simp only [hpc]
    omega
  | @waited timedOut a hpc hend =>
    cases timedOut <;> simp only [hpc] <;> omega
  | @sleep timedOut a hpc hgo =>
    obtain ⟨-, rfl⟩ := Bool.or_eq_false_iff.mp hgo
    simp only [hpc]
    omega
  | wake hpc hfree =>
    simp only [hpc]
    omega
  | finish hpc hfree =>
    simp only [hpc]
    omega
  | store hpc =>
    simp only [hpc]
    omega
  | unlock hpc =>
    simp only [hpc]
    omega

lemma ThreadStep.remainingStopped_lt (hflag : s.mem.stopRequested = true)
    (st : ThreadStep policy outcomes draw s t) : remainingStopped t < remainingStopped s := by
  unfold remainingStopped
  cases st with
  | leave hpc hleave =>
    simp only [hpc]
    omega
  | goOn hpc hgo => simp [hflag] at hgo
  | connect hpc =>
    simp only [hpc]
    omega
  | connected hpc hout =>
    simp only [hpc]
    omega
  | refused hpc hout =>
    simp only [hpc]
    omega
  | lock hpc hfree =>
    simp only [hpc]
    omega
  | waited hpc hend =>
    simp only [hpc]
    omega
  | sleep hpc hgo => simp [hflag] at hgo
  | wake hpc hfree =>
    simp only [hpc]
    omega
  | finish hpc hfree =>
    simp only [hpc]
    omega
  | store hpc =>
    simp only [hpc]
    omega
  | unlock hpc =>
    simp only [hpc]
    omega

lemma ThreadStep.flag (st : ThreadStep policy outcomes draw s t) :
    t.mem.stopRequested = s.mem.stopRequested := by
  cases st <;> rfl

end

/-- A step of the thread, and a wake-up before its time. -/
def isRun (a : Action) : Bool := a = .run

def isEarly (a : Action) : Bool := a = .wakeEarly

lemma counted_paid {bound : ℕ}
    (hb : ∀ a, Failed policy outcomes a → exhausted policy a = false → a < bound) :
    (sys policy outcomes draw).Paid (Counted policy outcomes) isRun isEarly (remaining bound) where
  keep _ _ _ h hn := h.step (.of_next hn)
  pay s a t h hn := by
    cases Step.of_next hn with
    | run st => exact st.remaining_lt hb h
    | wakeEarly hpc hfree =>
      unfold remaining
      simp only [hpc]
      exact Nat.le_refl _
    | acquire hfree => exact Nat.le_refl _
    | request hheld hrunning => exact Nat.le_refl _
    | release hheld => exact Nat.le_refl _

lemma stopped_paid : (sys policy outcomes draw).Paid (fun s => s.mem.stopRequested = true)
    isRun isEarly remainingStopped where
  keep s a t h hn := by
    cases Step.of_next hn with
    | run st =>
      rw [st.flag]
      exact h
    | wakeEarly hpc hfree => exact h
    | acquire hfree => exact h
    | request hheld hrunning => rfl
    | release hheld => exact h
  pay s a t h hn := by
    cases Step.of_next hn with
    | run st => exact st.remainingStopped_lt h
    | wakeEarly hpc hfree =>
      unfold remainingStopped
      simp only [hpc]
      decide
    | acquire hfree => exact Nat.le_refl _
    | request hheld hrunning => exact Nat.le_refl _
    | release hheld => exact Nat.le_refl _

/-- No stop is requested. -/
def NoStop (_ : Run) (a : Action) : Prop := a ≠ .request

/-- What holds in every state of a run without a stop request. -/
lemma reach_unstopped {s : Run} (h : (sys policy outcomes draw).Reach NoStop s) :
    Inv s ∧ Counted policy outcomes s ∧ Unstopped policy outcomes draw s := by
  induction h with
  | init hi =>
    subst hi
    exact ⟨inv_begin, counted_begin, unstopped_begin⟩
  | step _ ha hn ih =>
    obtain ⟨inv, hc, hu⟩ := ih
    have st := Step.of_next hn
    exact ⟨inv.step st, hc.step st, hu.step hc ha st⟩

lemma reachable_inv {s : Run} (h : (sys policy outcomes draw).Reachable s) : Inv s := by
  apply h.invariant (I := Inv)
  · rintro s rfl
    exact inv_begin
  · intro s a t _ inv _ hn
    exact inv.step (.of_next hn)

/-- Without a stop request the thread exits: it makes a bounded number of steps, early wake-ups
apart, and until it has exited it can make the next one as soon as no other thread holds `mu_`. -/
structure Terminates (policy : ReconnectPolicy) (outcomes : ℕ → Bool)
    (draw : ℕ → Int → Int → Int) : Prop where
  bounded : ∃ bound, ∀ (as : List Action) (t : Run), (∀ a ∈ as, a ≠ .request) →
    (sys policy outcomes draw).exec begin as = some t →
    as.countP isRun ≤ bound + as.countP isEarly
  enabled : ∀ t, (sys policy outcomes draw).Reach NoStop t → t.pc ≠ .exited →
    t.mem.mu ≠ some other → (next policy outcomes draw t .run).isSome

lemma terminates_of_bound {bound : ℕ}
    (hb : ∀ a, Failed policy outcomes a → exhausted policy a = false → a < bound) :
    Terminates policy outcomes draw where
  bounded := by
    refine ⟨remaining bound begin, ?_⟩
    intro as t _ he
    have hle := (counted_paid hb).countP_le counted_begin he
    omega
  enabled _ h hpc hmu := (reach_unstopped h).1.enabled hpc hmu

/-- The place of the first success. -/
def FirstOk (outcomes : ℕ → Bool) : Option ℕ → Prop
  | some i => outcomes i = true ∧ ∀ j < i, outcomes j = false
  | none => ∀ j, outcomes j = false

/-- The calls of a run that is allowed `n` of them, and those of them that fail. -/
def calls (n : ℕ) : Option ℕ → ℕ
  | some i => min n (i + 1)
  | none => n

def failures (n : ℕ) : Option ℕ → ℕ
  | some i => min n i
  | none => n

section
variable {first : Option ℕ}

lemma exhausted_of_pos {n a : ℕ} (hmax : policy.maxAttempts = n) (hn : 0 < n) :
    exhausted policy a = decide (n ≤ a) := by
  simp [exhausted, hmax, hn]

lemma exhausted_of_nonpos (hmax : policy.maxAttempts ≤ 0) (a : ℕ) : exhausted policy a = false := by
  simp [exhausted, Int.not_lt.mpr hmax]

/-- The first success is the one that ended the run. -/
lemma FirstOk.eq_some {i : ℕ} (h : FirstOk outcomes first) (hi : outcomes i = true)
    (hbefore : ∀ j < i, outcomes j = false) : first = some i := by
  cases first with
  | none => simp [h i] at hi
  | some k =>
    obtain ⟨hk, hbeforeK⟩ := h
    obtain hlt | rfl | hgt := Nat.lt_trichotomy i k
    · simp [hbeforeK i hlt] at hi
    · rfl
    · simp [hbefore k hgt] at hk

/-- Failures alone leave the first success behind them. -/
lemma FirstOk.le {a i : ℕ} (h : FirstOk outcomes (some i)) (hfailed : ∀ j < a, outcomes j = false) :
    a ≤ i := by
  by_contra hlt
  have hi := h.1
  simp [hfailed i (by omega)] at hi

lemma Ended.counts {n c k : ℕ} (hmax : policy.maxAttempts = n) (hn : 0 < n)
    (hfirst : FirstOk outcomes first) (h : Ended policy outcomes c k) :
    c = calls n first ∧ k = failures n first := by
  cases h with
  | @success i hfailed hadm hi =>
    obtain rfl := hfirst.eq_some hi hfailed.failed
    rw [exhausted_of_pos hmax hn, decide_eq_false_iff_not] at hadm
    show k + 1 = min n (k + 1) ∧ k = min n k
    omega
  | bound hfailed hend =>
    rw [exhausted_of_pos hmax hn, decide_eq_true_eq] at hend
    have hle : c ≤ n := by
      by_contra hgt
      have hadm := hfailed.admitted n (by omega)
      rw [exhausted_of_pos hmax hn] at hadm
      simp at hadm
    cases first with
    | none =>
      show c = n ∧ c = n
      omega
    | some i =>
      have hci := hfirst.le hfailed.failed
      show c = min n (i + 1) ∧ c = min n i
      omega

lemma Ended.unbounded {c k : ℕ} (hmax : policy.maxAttempts ≤ 0) (hfirst : FirstOk outcomes first)
    (h : Ended policy outcomes c k) : ∃ i, first = some i ∧ c = i + 1 ∧ k = i := by
  cases h with
  | success hfailed hadm hi => exact ⟨k, hfirst.eq_some hi hfailed.failed, rfl, rfl⟩
  | bound hfailed hend =>
    rw [exhausted_of_nonpos hmax] at hend
    cases hend

end

section
variable {s t : Run}

/-- Where the thread has exited, the run has ended. -/
lemma reach_exited (h : (sys policy outcomes draw).Reach NoStop s) (hpc : s.pc = .exited) :
    s.mem.running = false ∧
      ∃ k, Ended policy outcomes s.connects k ∧ s.waits = passed policy draw k := by
  obtain ⟨inv, -, hu⟩ := reach_unstopped h
  have hrunning := inv.running
  have hwaits := hu.waits
  rw [hpc] at hrunning hwaits
  exact ⟨hrunning, hwaits⟩

lemma ThreadStep.not_other (st : ThreadStep policy outcomes draw s t)
    (h : s.mem.mu ≠ some other) : t.mem.mu ≠ some other := by
  cases st <;> first | exact h | simp

/-- A thread that never exits can make any number of steps. -/
lemma exec_replicate (hlive : ∀ u, (sys policy outcomes draw).Reach NoStop u → u.pc ≠ .exited)
    (k : ℕ) (h : (sys policy outcomes draw).Reach NoStop s) (hmu : s.mem.mu ≠ some other) :
    ∃ t, (sys policy outcomes draw).exec s (List.replicate k .run) = some t := by
  induction k generalizing s with
  | zero => exact ⟨s, rfl⟩
  | succ k ih =>
    have hrun : (next policy outcomes draw s .run).isSome :=
      (reach_unstopped h).1.enabled (hlive s h) hmu
    obtain ⟨u, hu⟩ := Option.isSome_iff_exists.mp hrun
    have hnostop : NoStop s .run := nofun
    have hreach : (sys policy outcomes draw).Reach NoStop u := h.step hnostop hu
    obtain ⟨t, ht⟩ := ih hreach (ThreadStep.not_other (.of_next hu) hmu)
    refine ⟨t, ?_⟩
    show (next policy outcomes draw s .run).bind _ = some t
    rw [hu]
    exact ht

end

/-- Without a bound and without a success the thread never exits. -/
lemma never_exits (hmax : policy.maxAttempts ≤ 0) (hfirst : FirstOk outcomes none) {s : Run}
    (h : (sys policy outcomes draw).Reach NoStop s) : s.pc ≠ .exited := by
  intro hpc
  obtain ⟨-, k, hended, -⟩ := reach_exited h hpc
  obtain ⟨i, hi, -⟩ := hended.unbounded hmax hfirst
  cases hi

lemma not_terminates (hmax : policy.maxAttempts ≤ 0) (hfirst : FirstOk outcomes none) :
    ¬Terminates policy outcomes draw := by
  rintro ⟨⟨bound, hbound⟩, -⟩
  have hbegin : (sys policy outcomes draw).Reach NoStop begin := .init rfl
  have hrelease : (sys policy outcomes draw).Reach NoStop
      { begin with mem := { begin.mem with mu := none } } :=
    hbegin.step (show NoStop begin .release from nofun) rfl
  obtain ⟨t, ht⟩ := exec_replicate (fun u hu => never_exits hmax hfirst hu) (bound + 1) hrelease
    nofun
  have hle := hbound (.release :: List.replicate (bound + 1) .run) t ?_ ht
  · simp [isRun, isEarly, List.countP_replicate] at hle
  · intro a ha
    obtain rfl | ha := List.mem_cons.mp ha
    · nofun
    · rw [List.eq_of_mem_replicate ha]
      nofun

/-- A run calls its function until the first success, the bound or a stop request. -/
theorem run_attempts (policy : ReconnectPolicy) {outcomes : ℕ → Bool}
    (draw : ℕ → Int → Int → Int) {first : Option ℕ} (hfirst : FirstOk outcomes first) :
    (∀ n : ℕ, 0 < n → policy.maxAttempts = n →
      Terminates policy outcomes draw ∧
      ∀ s, (sys policy outcomes draw).Reach NoStop s → s.pc = .exited →
        s.connects = calls n first ∧ s.waits = passed policy draw (failures n first) ∧
          s.mem.running = false) ∧
    (policy.maxAttempts ≤ 0 →
      (Terminates policy outcomes draw ↔ first.isSome) ∧
      (first = none → ∀ s, (sys policy outcomes draw).Reach NoStop s → s.pc ≠ .exited) ∧
      ∀ s, (sys policy outcomes draw).Reach NoStop s → s.pc = .exited →
        ∃ i, first = some i ∧ s.connects = i + 1 ∧ s.waits = passed policy draw i ∧
          s.mem.running = false) ∧
    ∀ s, (sys policy outcomes draw).Reachable s →
      s.late ≤ 1 ∧ (s.pc = .exited → s.mem.running = false) ∧
      (s.pc ≠ .exited → s.mem.mu ≠ some other → (next policy outcomes draw s .run).isSome) ∧
      (s.mem.stopRequested = true → ∀ as t, (sys policy outcomes draw).exec s as = some t →
        as.countP isRun ≤ 8 + as.countP isEarly) := by
  refine ⟨?_, ?_, ?_⟩
  · intro n hn hmax
    constructor
    · have hbound : ∀ a, Failed policy outcomes a → exhausted policy a = false → a < n := by
        intro a hfailed hadm
        rw [exhausted_of_pos hmax hn, decide_eq_false_iff_not] at hadm
        omega
      exact terminates_of_bound hbound
    · intro s h hpc
      obtain ⟨hrunning, k, hended, hwaits⟩ := reach_exited h hpc
      obtain ⟨hcalls, rfl⟩ := hended.counts hmax hn hfirst
      exact ⟨hcalls, hwaits, hrunning⟩
  · intro hmax
    refine ⟨?_, ?_, ?_⟩
    · cases first with
      | none =>
        simp only [Option.isSome_none, Bool.false_eq_true, iff_false]
        exact not_terminates hmax hfirst
      | some i =>
        simp only [Option.isSome_some, iff_true]
        have hbound : ∀ a, Failed policy outcomes a → exhausted policy a = false → a < i + 1 := by
          intro a hfailed hadm
          exact Nat.lt_succ_of_le (hfirst.le hfailed.failed)
        exact terminates_of_bound hbound
    · rintro rfl s h
      exact never_exits hmax hfirst h
    · intro s h hpc
      obtain ⟨hrunning, k, hended, hwaits⟩ := reach_exited h hpc
      obtain ⟨i, hi, hcalls, rfl⟩ := hended.unbounded hmax hfirst
      exact ⟨k, hi, hcalls, hwaits, hrunning⟩
  · intro s h
    have inv := reachable_inv h
    refine ⟨inv.late_le, ?_, inv.enabled, ?_⟩
    · intro hpc
      have hrunning := inv.running
      rw [hpc] at hrunning
      exact hrunning
    · intro hflag as t he
      have hle := stopped_paid.countP_le hflag he
      have hbound : remainingStopped s ≤ 8 := by
        unfold remainingStopped
        split <;> decide
      omega

/-- Two failures and a success, with three attempts allowed. -/
theorem run_attempts_third :
    ∃ s, (sys { maxAttempts := 3, jitter := .kNone } (fun j => j = 2) (fun _ lo _ => lo)).exec begin
        (.release :: List.replicate 20 .run) = some s ∧
      s.pc = .exited ∧ s.connects = 3 ∧
      s.waits = passed { maxAttempts := 3, jitter := .kNone } (fun _ lo _ => lo) 2 := by
  have hfirst : FirstOk (fun j => j = 2) (some 2) := ⟨by decide, by decide⟩
  have hsome : ((sys { maxAttempts := 3, jitter := .kNone } (fun j => j = 2)
      (fun _ lo _ => lo)).exec begin (.release :: List.replicate 20 .run)).map (·.pc) =
    some .exited := rfl
  obtain ⟨s, hs, hpc⟩ := Option.map_eq_some_iff.mp hsome
  have hreach := Lts.Sys.Reach.exec (.init rfl) (.release :: List.replicate 20 .run)
    (fun a ha u => (show NoStop u a by
      rcases List.mem_cons.mp ha with rfl | ha
      · nofun
      · rw [List.eq_of_mem_replicate ha]
        nofun)) hs
  obtain ⟨hcalls, hwaits, -⟩ :=
    ((run_attempts { maxAttempts := 3, jitter := .kNone } (fun _ lo _ => lo) hfirst).1 3
      (by decide) rfl).2 s hreach hpc
  exact ⟨s, hs, hpc, hcalls, hwaits⟩

end KubeMQ.ReconnectRun
