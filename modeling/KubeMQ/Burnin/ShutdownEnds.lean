import KubeMQ.Burnin.Shutdown
import Mathlib.Algebra.Order.BigOperators.Group.List
import Mathlib.Algebra.Order.Ring.Nat

/-!
# The program ends

As long as each `starting` is published over a state of rest (`overRest`), a program whose server has
been stopped ends (`shutdown_ends`): the calls that are under way and `main` have a bounded number of
steps left, and only wait for a run that can step. A stop request that was lost is made again by the
destructor of the engine, when nobody is left who could clear it.
-/

namespace KubeMQ.Burnin

/-- While each `starting` is published over a state of rest, no call of `StartRun` crashes. -/
lemma Sole.alive {owner : Option (ℕ ⊕ ℕ)} {s : Engine} {i : ℕ} {pc pc' : StartPc} {m' : Mem}
    (h : Sole owner s) (hpc : s.starts[i]? = some pc) (st : StartStep s.busy i s.mem pc m' pc') :
    m'.crashed = s.mem.crashed := by
  cases st with
  | overlap hb =>
    rw [h.not_busy hpc] at hb
    cases hb
  | overwrite ht =>
    have hnone : s.mem.thread = none := h.fits i _ hpc
    rw [ht] at hnone
    cases hnone
  | _ => rfl

lemma StartPc.not_owning_of_returned {pc : StartPc} (h : pc.returned = true) : pc.owning = false := by
  cases pc
  case started => rfl
  case refused => rfl
  case threw => rfl
  all_goals cases h

/-- The steps that a call, `main` or a run has left; the run has been asked to stop. -/
def StartPc.left : StartPc → ℕ
  | .check => 7
  | .publish => 6
  | .reset => 5
  | .joinable => 4
  | .join => 3
  | .joining => 2
  | .spawn => 1
  | _ => 0

def StopPc.left : StopPc → ℕ
  | .check => 2
  | .store => 1
  | .returned _ => 0

def MainPc.left : MainPc → ℕ
  | .joinServer => 4
  | .joinable => 3
  | .store => 2
  | .join => 1
  | _ => 0

def RunPc.left : RunPc → ℕ
  | .create => 9
  | .publish => 8
  | .startWorkers => 7
  | .elapsed => 8
  | .sleep => 7
  | .test => 6
  | .stopWorkers => 5
  | .report => 4
  | .finish => 3
  | .fail => 2
  | .leave => 1
  | .exited => 0

lemma Sole.start_left {owner : Option (ℕ ⊕ ℕ)} {s : Engine} {i : ℕ} {pc pc' : StartPc} {m' : Mem}
    (h : Sole owner s) (hpc : s.starts[i]? = some pc) (st : StartStep s.busy i s.mem pc m' pc') :
    pc'.left < pc.left := by
  cases st with
  | overlap hb =>
    rw [h.not_busy hpc] at hb
    cases hb
  | overwrite ht =>
    have hnone : s.mem.thread = none := h.fits i _ hpc
    rw [ht] at hnone
    cases hnone
  | _ => simp [StartPc.left]

lemma StopStep.left_lt {j : ℕ} {m m' : Mem} {pc pc' : StopPc} (st : StopStep j m pc m' pc') :
    pc'.left < pc.left := by
  cases st
  all_goals simp [StopPc.left]

lemma RunStep.left_lt {k : ℕ} {m m' : Mem} {pc pc' : RunPc} {l : RunLabel}
    (st : RunStep k m pc l m' pc') (hf : m.stopRequested = true) : pc'.left < pc.left := by
  cases st with
  | goOn h =>
    rw [hf] at h
    cases h
  | @throws pc hg =>
    cases pc
    case fail => cases hg
    case leave => cases hg
    case exited => cases hg
    all_goals simp [RunPc.left]
  | _ => simp [RunPc.left]

/-- A run that has not exited can step. -/
lemma RunPc.moves {pc : RunPc} (h : pc.active = true) (m : Mem) (k : ℕ) :
    ∃ l, (runNext m k pc l).isSome = true := by
  cases pc
  case exited => cases h
  case elapsed => exact ⟨.elapsed true, rfl⟩
  all_goals exact ⟨.tau, rfl⟩

/-- A call of `StartRun` that has not returned can step, unless it waits for `run_thread_`. -/
lemma StartPc.moves {pc : StartPc} (h : pc.returned = false) (hj : pc ≠ .joining) (busy : Bool)
    (m : Mem) (i : ℕ) : (startNext busy m i pc).isSome = true := by
  cases pc
  case joining => exact absurd rfl hj
  case started => cases h
  case refused => cases h
  case threw => cases h
  case join => cases busy <;> rfl
  case spawn =>
    simp only [startNext]
    split
    · rfl
    · rfl
  all_goals rfl

lemma StopPc.moves {pc : StopPc} (h : pc.isReturned = false) (m : Mem) (j : ℕ) :
    (stopNext m j pc).isSome = true := by
  cases pc with
  | check =>
    simp only [stopNext]
    split
    · rfl
    · rfl
  | store => rfl
  | returned => cases h

/-- The server has been stopped. -/
def MainPc.closed : MainPc → Bool
  | .joinServer => true
  | .joinable => true
  | .store => true
  | .join => true
  | .destroyed => true
  | _ => false

/-- A request arrives. -/
def ProgramAction.begins : ProgramAction → Bool
  | .engine a => a.begins
  | .main => false

/-- The actions of `main` and of the calls. -/
def ProgramAction.ofCalls : ProgramAction → Bool
  | .main => true
  | .engine (.start _) => true
  | .engine (.stop _) => true
  | _ => false

namespace Program

variable {http : Httplib} {s t : Program}

/-- The program as long as each `starting` is published over a state of rest. -/
def orderly (http : Httplib) : Lts.Sys Program ProgramAction := (sys http).restrict overRest

/-- One test runs at a time, and nothing crashes. -/
structure Orderly (s : Program) : Prop where
  inv : Inv s
  sole : ∃ owner, Sole owner s.engine
  alive : s.engine.mem.crashed = false

lemma Orderly.main (o : Orderly s) (st : MainStep s t) : Orderly t := by
  have inv := o.inv.main st
  obtain ⟨owner, hsole⟩ := o.sole
  cases st with
  | stopRun _ => exact ⟨inv, ⟨owner, hsole.shared, hsole.owned, hsole.fits⟩, o.alive⟩
  | store _ => exact ⟨inv, ⟨owner, hsole.shared, hsole.owned.setFlag true, hsole.fits⟩, o.alive⟩
  | joined hm ht hx =>
    refine ⟨inv, ⟨owner, hsole.shared, hsole.owned.join ht hx, ?_⟩, o.alive⟩
    intro i pc hpc
    have hq := quiet_iff.mp (o.inv.quiet (by rw [hm]; rfl))
    have hr := hq.1 pc (List.mem_of_getElem? hpc)
    exact StartPc.fits_of_not_owning (StartPc.not_owning_of_returned hr) none
  | _ => exact ⟨inv, ⟨owner, hsole⟩, o.alive⟩

lemma Orderly.step {a : ProgramAction} (o : Orderly s) (hg : s.overRest a = true)
    (st : ProgramStep s a t) : Orderly t := by
  cases st with
  | main st => exact o.main st
  | @engine a e hb st =>
    obtain ⟨owner, hsole⟩ := o.sole
    refine ⟨o.inv.engine hb st, hsole.step hg st, ?_⟩
    cases st with
    | beginStart => exact o.alive
    | beginStop => exact o.alive
    | start hpc st => exact (hsole.alive hpc st).trans o.alive
    | stop _ st => exact st.frame.2.2.trans o.alive
    | run _ st => exact st.frame.2.2.trans o.alive

lemma Orderly.next (hw : http.Waits) {a : ProgramAction} (o : Orderly s)
    (hn : (orderly http).next s a = some t) :
    ProgramStep s a t ∧ Orderly t := by
  obtain ⟨hg, hn⟩ := Lts.Sys.restrict_next.mp hn
  have st := ProgramStep.of_next hw hn
  exact ⟨st, o.step hg st⟩

/-- And no further request arrives. -/
def served (http : Httplib) : Lts.Sys Program ProgramAction :=
  (orderly http).restrict fun _ a => !a.begins

/-- The steps that `main` and the calls have left. -/
def left (s : Program) : ℕ :=
  s.main.left + (s.engine.starts.map StartPc.left).sum + (s.engine.stops.map StopPc.left).sum

/-- The server has been stopped. -/
structure Closing (s : Program) : Prop where
  orderly : Orderly s
  closed : s.main.closed = true

lemma left_lt_of_main {pc : MainPc} (hm : s.main = pc) (hstarts : t.engine.starts = s.engine.starts)
    (hstops : t.engine.stops = s.engine.stops) (hlt : t.main.left < pc.left) : t.left < s.left := by
  unfold left
  rw [hm, hstarts, hstops]
  omega

lemma Closing.main (c : Closing s) (st : MainStep s t) : t.main.closed = true ∧ t.left < s.left := by
  have hopen {pc : MainPc} (hm : s.main = pc) (hc : pc.closed = false) : False := by
    have h := c.closed
    rw [hm, hc] at h
    cases h
  cases st with
  | signal hm => exact (hopen hm rfl).elim
  | busy hm => exact (hopen hm rfl).elim
  | idle hm => exact (hopen hm rfl).elim
  | stopRun hm => exact (hopen hm rfl).elim
  | stopped hm => exact (hopen hm rfl).elim
  | stopServer hm => exact (hopen hm rfl).elim
  | joinServer hm _ => exact ⟨rfl, left_lt_of_main hm rfl rfl (by simp [MainPc.left])⟩
  | leftover hm _ => exact ⟨rfl, left_lt_of_main hm rfl rfl (by simp [MainPc.left])⟩
  | clean hm _ => exact ⟨rfl, left_lt_of_main hm rfl rfl (by simp [MainPc.left])⟩
  | store hm => exact ⟨rfl, left_lt_of_main hm rfl rfl (by simp [MainPc.left])⟩
  | joined hm _ _ => exact ⟨rfl, left_lt_of_main hm rfl rfl (by simp [MainPc.left])⟩

/-- A step of a call leaves fewer of them, and one of a run changes nothing about them. -/
lemma Closing.engine (c : Closing s) {a : Action} {e : Engine} (hb : a.begins = false)
    (st : Step s.engine a e) :
    ({ s with engine := e } : Program).left + (ProgramAction.engine a).ofCalls.toNat ≤ s.left := by
  obtain ⟨owner, hsole⟩ := c.orderly.sole
  cases st with
  | beginStart => cases hb
  | beginStop => cases hb
  | @start i pc m' pc' hpc st =>
    have hlt := hsole.start_left hpc st
    have hsum := Lts.sum_map_set StartPc.left hpc pc'
    show s.main.left + ((s.engine.starts.set i pc').map StartPc.left).sum +
      (s.engine.stops.map StopPc.left).sum + 1 ≤ s.left
    unfold left
    omega
  | @stop j pc m' pc' hpc st =>
    have hlt := st.left_lt
    have hsum := Lts.sum_map_set StopPc.left hpc pc'
    show s.main.left + (s.engine.starts.map StartPc.left).sum +
      ((s.engine.stops.set j pc').map StopPc.left).sum + 1 ≤ s.left
    unfold left
    omega
  | run _ _ => exact Nat.le_refl _

lemma Closing.step (hw : http.Waits) {a : ProgramAction} (c : Closing s)
    (hn : (Program.orderly http).next s a = some t) : Closing t := by
  obtain ⟨st, o⟩ := c.orderly.next hw hn
  cases st with
  | main st => exact ⟨o, (c.main st).1⟩
  | engine _ _ => exact ⟨o, c.closed⟩

/-- The steps that are left once the destructor has asked the run to stop. -/
def rest (s : Program) : ℕ :=
  match s.main with
  | .join => 1 + (s.engine.mem.thread.bind fun k => s.engine.mem.runs[k]?).elim 0 RunPc.left
  | _ => 0

/-- The destructor waits for the run, or is over. -/
structure Joining (s : Program) : Prop where
  closing : Closing s
  place : s.main = .join ∨ s.main = .destroyed

lemma rest_of_join {k : ℕ} {pc : RunPc} (hm : s.main = .join) (ht : s.engine.mem.thread = some k)
    (hpc : s.engine.mem.runs[k]? = some pc) : s.rest = 1 + pc.left := by
  simp [rest, hm, ht, hpc]

/-- While the destructor waits, every step brings the program nearer to its end. -/
lemma Joining.step {a : ProgramAction} (j : Joining s) (st : ProgramStep s a t) :
    (t.main = .join ∨ t.main = .destroyed) ∧ t.rest < s.rest := by
  have inv := j.closing.orderly.inv
  have halone : s.main.alone = true := by
    rcases j.place with h | h
    · rw [h]
      rfl
    · rw [h]
      rfl
  cases st with
  | main st =>
    have hno {pc : MainPc} (hm : s.main = pc) (hj : pc ≠ .join) (hd : pc ≠ .destroyed) : False := by
      rcases j.place with h | h
      · exact hj (hm.symm.trans h)
      · exact hd (hm.symm.trans h)
    cases st with
    | signal hm => exact (hno hm nofun nofun).elim
    | busy hm => exact (hno hm nofun nofun).elim
    | idle hm => exact (hno hm nofun nofun).elim
    | stopRun hm => exact (hno hm nofun nofun).elim
    | stopped hm => exact (hno hm nofun nofun).elim
    | stopServer hm => exact (hno hm nofun nofun).elim
    | joinServer hm _ => exact (hno hm nofun nofun).elim
    | leftover hm _ => exact (hno hm nofun nofun).elim
    | clean hm _ => exact (hno hm nofun nofun).elim
    | store hm => exact (hno hm nofun nofun).elim
    | joined hm ht hx =>
      refine ⟨.inr rfl, ?_⟩
      rw [rest_of_join hm ht hx]
      exact Nat.zero_lt_one
  | @engine a e hb st =>
    obtain ⟨k, l, pc, m', pc', -, hpc, hrun, rfl⟩ :=
      step_of_quiet (quiet_iff.mp (inv.quiet halone)) (hb halone) st
    have ht := inv.tracked.current k pc hpc hrun.active
    rcases j.place with hm | hm
    · obtain ⟨hruns, hthread, -⟩ := hrun.frame
      refine ⟨.inl hm, ?_⟩
      have hk : k < m'.runs.length := by
        rw [hruns]
        exact (List.getElem?_eq_some_iff.mp hpc).1
      have hset : (m'.runs.set k pc')[k]? = some pc' := List.getElem?_set_self hk
      have hafter : ({ s with engine := { s.engine with mem := { m' with runs := m'.runs.set k pc' } } } :
          Program).rest = 1 + pc'.left := rest_of_join hm (hthread.trans ht) hset
      rw [hafter, rest_of_join hm ht hpc]
      exact Nat.add_lt_add_left (hrun.left_lt (inv.flag hm)) 1
    · have hknows := inv.knows
      rw [hm] at hknows
      cases ht.symm.trans hknows

lemma isSome_start {i : ℕ} {pc : StartPc} (o : Orderly s) (hpc : s.engine.starts[i]? = some pc)
    (hn : (startNext s.engine.busy s.engine.mem i pc).isSome = true) :
    (s.next http (.engine (.start i))).isSome = true := by
  simp [next, Action.begins, Burnin.next, o.alive, liveNext, hpc, hn]

lemma isSome_stop {j : ℕ} {pc : StopPc} (o : Orderly s) (hpc : s.engine.stops[j]? = some pc)
    (hn : (stopNext s.engine.mem j pc).isSome = true) :
    (s.next http (.engine (.stop j))).isSome = true := by
  simp [next, Action.begins, Burnin.next, o.alive, liveNext, hpc, hn]

lemma isSome_run {k : ℕ} {pc : RunPc} {l : RunLabel} (o : Orderly s)
    (hpc : s.engine.mem.runs[k]? = some pc) (hn : (runNext s.engine.mem k pc l).isSome = true) :
    (s.next http (.engine (.run k l))).isSome = true := by
  simp [next, Action.begins, Burnin.next, o.alive, liveNext, hpc, hn]

/-- Somebody can step: `main` or a call, or the run that it waits for. -/
def Moves (http : Httplib) (s : Program) : Prop :=
  (∃ a, a.ofCalls = true ∧ (s.next http a).isSome = true) ∨
    ∃ k l, (s.next http (.engine (.run k l))).isSome = true ∧
      (s.engine.mem.runs[k]? = some .leave ∨ s.main = .join)

/-- A call that waits for `run_thread_` waits for a run that has published its end. -/
lemma Orderly.moves_joining {i : ℕ} (o : Orderly s) (hpc : s.engine.starts[i]? = some .joining) :
    s.Moves http := by
  obtain ⟨owner, hsole⟩ := o.sole
  have hfits : s.engine.mem.thread ≠ none := hsole.fits i _ hpc
  obtain ⟨k, hk⟩ := Option.ne_none_iff_exists'.mp hfits
  have hlt := hsole.owned.bound k hk
  obtain ⟨pc, hrun⟩ : ∃ pc, s.engine.mem.runs[k]? = some pc := ⟨_, List.getElem?_eq_getElem hlt⟩
  have hown : pc.owning = false := by
    cases ho : pc.owning with
    | false => rfl
    | true =>
      have hleft := hsole.shared.held_left hpc rfl
      rw [hsole.shared.held_right hrun ho] at hleft
      cases hleft
  cases pc
  case leave => exact .inr ⟨k, .tau, isSome_run o hrun rfl, .inl hrun⟩
  case exited =>
    refine .inl ⟨.engine (.start i), rfl, isSome_start o hpc ?_⟩
    simp [startNext, Mem.joined, hk, hrun]
  all_goals cases hown

lemma Closing.moves (hw : http.Waits) (c : Closing s) (hd : s.main ≠ .destroyed) :
    s.Moves http := by
  have o := c.orderly
  have hmain : (mainNext http s s.main).isSome = true → s.Moves http := by
    intro hs
    refine .inl ⟨.main, rfl, ?_⟩
    simpa [next, o.alive] using hs
  cases hm : s.main
  case joinServer =>
    cases hq : s.quiet with
    | true =>
      apply hmain
      simp [hm, mainNext, hw.ended, hq]
    | false =>
      -- some call has not returned
      rcases Bool.and_eq_false_iff.mp hq with hq | hq
      · obtain ⟨pc, hmem, hr⟩ := List.all_eq_false.mp hq
        obtain ⟨i, hpc⟩ := List.mem_iff_getElem?.mp hmem
        by_cases hj : pc = .joining
        · exact o.moves_joining (hj ▸ hpc)
        · have hr := Bool.eq_false_iff.mpr hr
          exact .inl ⟨_, rfl, isSome_start o hpc (StartPc.moves hr hj _ _ i)⟩
      · obtain ⟨pc, hmem, hr⟩ := List.all_eq_false.mp hq
        obtain ⟨j, hpc⟩ := List.mem_iff_getElem?.mp hmem
        have hr := Bool.eq_false_iff.mpr hr
        exact .inl ⟨_, rfl, isSome_stop o hpc (StopPc.moves hr _ j)⟩
  case joinable =>
    apply hmain
    rw [hm]
    rfl
  case store =>
    apply hmain
    rw [hm]
    rfl
  case join =>
    have hknows := o.inv.knows
    rw [hm] at hknows
    obtain ⟨k, hk⟩ := Option.ne_none_iff_exists'.mp hknows
    have hlt := o.inv.tracked.bound k hk
    obtain ⟨pc, hrun⟩ : ∃ pc, s.engine.mem.runs[k]? = some pc := ⟨_, List.getElem?_eq_getElem hlt⟩
    cases ha : pc.active with
    | true =>
      obtain ⟨l, hl⟩ := RunPc.moves ha s.engine.mem k
      exact .inr ⟨k, l, isSome_run o hrun hl, .inr hm⟩
    | false =>
      apply hmain
      cases pc
      case exited => simp [hm, mainNext, Mem.joined, hk, hrun]
      all_goals cases ha
  case destroyed => exact absurd hm hd
  all_goals
    have hc := c.closed
    rw [hm] at hc
    cases hc

end Program

end KubeMQ.Burnin
