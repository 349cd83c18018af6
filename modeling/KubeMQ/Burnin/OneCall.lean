import KubeMQ.Burnin.Engine
import KubeMQ.Lts.Lock

/-!
# An engine on which `StartRun` is called once

With one call of `StartRun` there is one thread of control besides the calls of `StopRun`: the call
itself, and once it has returned the run that it started. `Place` says where that thread stands, and
`Move` what a step of the engine does to it.
-/

namespace KubeMQ.Burnin

/-- Only one call of `StartRun` begins. -/
def oneCall (s : Engine) : Action → Bool
  | .beginStart => s.starts.isEmpty
  | _ => true

/-- The engine with one call of `StartRun`, its run and any number of calls of `StopRun`. -/
def single : Lts.Sys Engine Action := sys.restrict oneCall

/-- Where the call, or else its run, stands. -/
inductive Place where
  | idle
  | call (pc : StartPc)
  | run (pc : RunPc)

/-- What a call knows of `run_thread_`. -/
def StartPc.Joinable (thread : Option ℕ) : StartPc → Prop
  | .join => thread ≠ none
  | .joining => thread ≠ none
  | .spawn => thread = none
  | .threw => False
  | .started => False
  | _ => True

/-- The threads of an engine whose one call stands at a place; the runs before it have exited. -/
inductive Threads (old : List RunPc) (s : Engine) : Place → Prop where
  | idle :
    s.starts = [] →
    s.mem.runs = old →
    Threads old s .idle
  | call {pc} :
    s.starts = [pc] →
    s.mem.runs = old →
    pc.Joinable s.mem.thread →
    Threads old s (.call pc)
  | run {pc} :
    s.starts = [.started] →
    s.mem.runs = old ++ [pc] →
    Threads old s (.run pc)

/-- The engine has not crashed, and its thread stands at a place. -/
structure At (old : List RunPc) (s : Engine) (p : Place) : Prop where
  exited : ∀ pc ∈ old, pc = RunPc.exited
  bound : ∀ k : ℕ, s.mem.thread = some k → k < s.mem.runs.length
  alive : s.mem.crashed = false
  threads : Threads old s p

/-- What a step of the engine does to its thread and to the calls of `StopRun`. -/
inductive Move (s t : Engine) : Action → Place → Place → Prop where
  | beginStart :
    t.mem = s.mem →
    t.stops = s.stops →
    Move s t .beginStart .idle (.call .check)
  | beginStop {p} :
    t.mem = s.mem →
    t.stops = s.stops ++ [.check] →
    Move s t .beginStop p p
  | stop {j pc pc' p} :
    s.stops[j]? = some pc →
    StopStep j s.mem pc t.mem pc' →
    t.stops = s.stops.set j pc' →
    Move s t (.stop j) p p
  | call {busy i pc pc'} :
    StartStep busy i s.mem pc t.mem pc' →
    pc' ≠ .started →
    t.stops = s.stops →
    Move s t (.start i) (.call pc) (.call pc')
  | spawn {i} :
    t.mem = { s.mem with
      thread := some s.mem.runs.length, runs := s.mem.runs ++ [RunPc.create] }.observe (.started i) →
    t.stops = s.stops →
    Move s t (.start i) (.call .spawn) (.run .create)
  | run {k l pc pc' m'} :
    s.mem.runs[k]? = some pc →
    RunStep k s.mem pc l m' pc' →
    t.mem = { m' with runs := m'.runs.set k pc' } →
    t.stops = s.stops →
    Move s t (.run k l) (.run pc) (.run pc')

lemma At.of_atRest {s : Engine} (h : AtRest s) : At s.mem.runs s .idle where
  exited := by
    intro pc hpc
    obtain ⟨k, hk⟩ := List.mem_iff_getElem?.mp hpc
    exact h.runs k pc hk
  bound := h.thread
  alive := h.alive
  threads := .idle h.starts rfl

/-- A step of `StopRun`. -/
lemma At.stop {old : List RunPc} {s : Engine} {p : Place} {j : ℕ} {pc pc' : StopPc} {m' : Mem}
    (h : At old s p) (st : StopStep j s.mem pc m' pc') :
    At old { s with mem := m', stops := s.stops.set j pc' } p := by
  obtain ⟨hruns, hthread, hcrashed⟩ := st.frame
  refine ⟨h.exited, ?_, hcrashed.trans h.alive, ?_⟩
  · rw [hruns, hthread]
    exact h.bound
  · cases h.threads with
    | idle hs hr => exact .idle hs (hruns.trans hr)
    | call hs hr hj => exact .call hs (hruns.trans hr) (hthread ▸ hj)
    | run hs hr => exact .run hs (hruns.trans hr)

/-- A step of the call that is not its return. -/
lemma At.call {old : List RunPc} {s : Engine} {i : ℕ} {pc pc' : StartPc} {m' : Mem}
    (h : At old s (.call pc)) (hs : s.starts = [pc])
    (st : StartStep s.busy i s.mem pc m' pc') (hne : pc' ≠ .started) :
    At old { s with mem := m', starts := [pc'] } (.call pc') := by
  have hbound := h.bound
  have halive := h.alive
  cases h.threads with
  | call _ hr hj =>
    cases st with
    | pass _ => exact ⟨h.exited, hbound, halive, .call rfl hr trivial⟩
    | refuse _ => exact ⟨h.exited, hbound, halive, .call rfl hr trivial⟩
    | publish => exact ⟨h.exited, hbound, halive, .call rfl hr trivial⟩
    | reset => exact ⟨h.exited, hbound, halive, .call rfl hr trivial⟩
    | leftover ht => exact ⟨h.exited, hbound, halive, .call rfl hr (by simp [StartPc.Joinable, ht])⟩
    | clean ht => exact ⟨h.exited, hbound, halive, .call rfl hr ht⟩
    | overlap hb =>
      have hfree : s.busy = false := by
        rw [Engine.busy, hs]
        rfl
      rw [hb] at hfree
      cases hfree
    | join _ ht => exact ⟨h.exited, hbound, halive, .call rfl hr (by simp [StartPc.Joinable, ht])⟩
    | threw ht => exact absurd ht hj
    | joined _ _ => exact ⟨h.exited, nofun, halive, .call rfl hr rfl⟩
    | overwrite ht =>
      have hnone : s.mem.thread = none := hj
      rw [ht] at hnone
      cases hnone
    | spawn _ => exact absurd rfl hne

/-- A step of the run. -/
lemma At.run {old : List RunPc} {s : Engine} {k : ℕ} {pc pc' : RunPc} {m' : Mem} {l : RunLabel}
    (h : At old s (.run pc)) (hk : k = old.length) (st : RunStep k s.mem pc l m' pc') :
    At old { s with mem := { m' with runs := m'.runs.set k pc' } } (.run pc') := by
  obtain ⟨hruns, hthread, hcrashed⟩ := st.frame
  cases h.threads with
  | run hs hr =>
    refine ⟨h.exited, ?_, hcrashed.trans h.alive, .run hs ?_⟩
    · simp only [List.length_set, hruns, hthread]
      exact h.bound
    · show m'.runs.set k pc' = old ++ [pc']
      rw [hruns, hr, hk]
      simp

/-- The call returns, and the run that it has started takes its place. -/
lemma At.spawn {old : List RunPc} {s : Engine} (h : At old s (.call .spawn)) {i : ℕ} :
    At old { s with
      mem := { s.mem with
        thread := some s.mem.runs.length, runs := s.mem.runs ++ [RunPc.create] }.observe (.started i)
      starts := [.started] } (.run .create) := by
  cases h.threads with
  | call _ hr _ =>
    refine ⟨h.exited, ?_, h.alive, .run rfl ?_⟩
    · intro k hk
      cases hk
      simp [Mem.observe]
    · simp [Mem.observe, hr]

lemma getElem?_singleton_cases {θ : Type*} {x y : θ} {i : ℕ} (h : [x][i]? = some y) :
    i = 0 ∧ y = x := by
  have hcases := @Lts.getElem?_concat_cases _ [] x i y h
  rcases hcases with h | h
  · cases h
  · exact h

/-- Every step moves the thread, or leaves it where it stands. -/
lemma At.step {old : List RunPc} {s t : Engine} {p : Place} {a : Action} (h : At old s p)
    (hn : single.next s a = some t) : ∃ p', Move s t a p p' ∧ At old t p' := by
  obtain ⟨hg, hn⟩ := Lts.Sys.restrict_next.mp hn
  cases Step.of_next hn with
  | beginStart =>
    have hs : s.starts = [] := List.isEmpty_iff.mp hg
    cases h.threads with
    | idle _ hr =>
      refine ⟨.call .check, .beginStart rfl rfl, h.exited, h.bound, h.alive, .call ?_ hr trivial⟩
      show s.starts ++ [StartPc.check] = [.check]
      rw [hs]
      rfl
    | call hc _ _ =>
      rw [hs] at hc
      cases hc
    | run hc _ =>
      rw [hs] at hc
      cases hc
  | beginStop =>
    refine ⟨p, .beginStop rfl rfl, h.exited, h.bound, h.alive, ?_⟩
    cases h.threads with
    | idle hs hr => exact .idle hs hr
    | call hs hr hj => exact .call hs hr hj
    | run hs hr => exact .run hs hr
  | stop hpc st => exact ⟨p, .stop hpc st rfl, h.stop st⟩
  | @start i pc m' pc' hpc st =>
    cases h.threads with
    | idle hs _ =>
      rw [hs] at hpc
      cases hpc
    | run hs _ =>
      rw [hs] at hpc
      obtain ⟨rfl, rfl⟩ := getElem?_singleton_cases hpc
      cases st
    | @call pc₀ hs hr hj =>
      have hpc₀ := hpc
      rw [hs] at hpc₀
      obtain ⟨rfl, rfl⟩ := getElem?_singleton_cases hpc₀
      rw [hs]
      by_cases hret : pc' = .started
      · subst hret
        cases st with
        | spawn ht => exact ⟨.run .create, .spawn rfl rfl, h.spawn⟩
      · exact ⟨.call pc', .call st hret rfl, h.call hs st hret⟩
  | @run k l pc m' pc' hpc st =>
    have hold : ∀ x, old[k]? = some x → x = .exited :=
      fun x hx => h.exited x (List.mem_of_getElem? hx)
    have hlive : pc ≠ .exited := by
      rintro rfl
      cases st with
      | throws hx => exact absurd hx nofun
    cases h.threads with
    | idle _ hr =>
      rw [hr] at hpc
      exact absurd (hold pc hpc) hlive
    | call _ hr _ =>
      rw [hr] at hpc
      exact absurd (hold pc hpc) hlive
    | @run pc₀ hs hr =>
      have hpc₀ := hpc
      rw [hr] at hpc₀
      rcases Lts.getElem?_concat_cases hpc₀ with hx | ⟨hk, rfl⟩
      · exact absurd (hold pc hx) hlive
      · exact ⟨.run pc', .run hpc st rfl rfl, h.run hk st⟩

/-- What holds at first and is kept by every move holds in every state of a guarded run. -/
lemma at_of_reach {g : Engine → Action → Bool} {I : Engine → Place → Prop} {s : Engine}
    (init : ∀ s, AtRest s → I s .idle)
    (move : ∀ old s t a p p', At old s p → I s p → g s a = true → Move s t a p p' → I t p')
    (h : single.Reach (fun s a => g s a = true) s) : ∃ old p, At old s p ∧ I s p := by
  induction h with
  | init hi => exact ⟨_, .idle, At.of_atRest hi, init _ hi⟩
  | step _ hg hn ih =>
    obtain ⟨old, p, hat, hi⟩ := ih
    obtain ⟨p', hmove, hat'⟩ := hat.step hn
    exact ⟨old, p', hat', move _ _ _ _ _ _ hat hi hg hmove⟩

end KubeMQ.Burnin
