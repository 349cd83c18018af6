import KubeMQ.Client.CloseOnce

/-!
# The state callbacks of a client

`Observed` is what can be seen of a run of `Create` and of the calls that follow it: the transitions
that the state machine accepted, the callbacks invoked so far and those that a `Transition` has
captured and goes on to invoke. A machine invokes the image of what it accepts (`transitions_image`),
but `Create` installs the callbacks in a machine that `Connect` has already taken to `kReady`.
-/

namespace KubeMQ.Closing

/-- The callbacks that are captured and not yet invoked. -/
def Sys.pending (s : Sys) : List Callback := s.calls.flatMap fun call => call.pc.pending

inductive Observed (options : CreateOptions) (env : CreateEnv) :
    List Accepted → List Callback → List Callback → Prop where
  | failed {e c} :
    Client.create options env = .failed e c →
    Observed options env c.accepted c.fired []
  | running {s} :
    (sys options env).Reachable s →
    Observed options env s.mem.accepted s.mem.fired s.pending

/-- Only one entry contributes. -/
lemma flatMap_of_alone {α β : Type} {l : List α} {f : α → List β} {i : ℕ} {x : α}
    (hi : l[i]? = some x) (h : ∀ j y, l[j]? = some y → j ≠ i → f y = []) : l.flatMap f = f x := by
  induction l generalizing i with
  | nil => simp at hi
  | cons y ys ih =>
    cases i with
    | zero =>
      have hx : y = x := by simpa using hi
      have hys : ys.flatMap f = [] := by
        apply List.flatMap_eq_nil_iff.mpr
        intro z hz
        obtain ⟨j, hj⟩ := List.getElem?_of_mem hz
        exact h (j + 1) z (by simpa using hj) (Nat.succ_ne_zero j)
      rw [List.flatMap_cons, hys, List.append_nil, hx]
    | succ i =>
      have hy : f y = [] := h 0 y rfl (Nat.succ_ne_zero i).symm
      have hys : ys.flatMap f = f x := by
        apply ih
        · simpa using hi
        · intro j z hj hne
          exact h (j + 1) z (by simpa using hj) (fun e => hne (Nat.succ.inj e))
      rw [List.flatMap_cons, hy, List.nil_append, hys]

section Pending

variable {c : Connection} {s : Sys}

/-- Who is not in the body of `close_once` has captured nothing. -/
lemma Inv.pending_nil (inv : Inv c s) {call : Call} (hcall : call ∈ s.calls)
    (h : call.pc.closing = false) : call.pc.pending = [] := by
  have hout := inv.outside hcall h
  cases hpc : call.pc with
  | transport k p =>
    rw [(hout k p hpc).1]
    rfl
  | _ => rfl

/-- The facts hold with the callbacks that the calls have captured. -/
lemma Inv.facts_pending (inv : Inv c s) : ∃ g, Facts c g s.pending s.mem := by
  cases hr : s.mem.closeOnce.runner with
  | none =>
    have hnil : s.pending = [] := by
      apply List.flatMap_eq_nil_iff.mpr
      intro call hcall
      apply inv.pending_nil hcall
      by_contra hc
      obtain ⟨i, hi⟩ := List.getElem?_of_mem hcall
      have hrun := inv.once.runner hi (by simpa using hc)
      rw [hr] at hrun
      cases hrun
    rw [hnil]
    exact ⟨_, inv.idle hr⟩
  | some i =>
    obtain ⟨call, hi, hc⟩ := inv.once.mutex.held i hr
    have hpending : s.pending = call.pc.pending := by
      apply flatMap_of_alone hi
      intro j other hj hne
      exact inv.pending_nil (List.mem_of_getElem? hj) (inv.alone hj hi hne hc)
    rw [hpending]
    exact ⟨_, inv.body i call hi hc⟩

end Pending

/-- Only a connected client is used. -/
lemma connects_of_reachable {options : CreateOptions} {env : CreateEnv} {s : Sys}
    (h : (sys options env).Reachable s) : Client.connects options env = true := by
  induction h with
  | init hi => exact (init_connected hi).1
  | step _ _ _ ih => exact ih

/-- Seen of a machine that took two steps before its callbacks were installed. -/
lemma Facts.image {callbacks : Callback → Bool} (all : ∀ c, callbacks c = true) {g : ℕ}
    {pending : List Callback} {m : Mem} (f : Facts (connected callbacks) g pending m) :
    image false m.accepted = .onConnected :: (m.fired ++ pending) := by
  have hcap : (connected callbacks).machine.captured .onClosed = [.onClosed] := by
    unfold StateMachine.captured
    rw [connected_installed, if_pos (all _)]
  rw [f.accepted, f.fired, hcap, (connected_state _).1]
  split <;> rfl

/-- Whether `on_connected` is missing from the callbacks depends on whether the transport got as
far as `kReady`. -/
lemma Observed.cases {options : CreateOptions} {env : CreateEnv} {accepted : List Accepted}
    {fired pending : List Callback} (all : ∀ c, options.callbacks c = true)
    (h : Observed options env accepted fired pending) :
    (Client.connects options env = false ∧ fired ++ pending = image false accepted) ∨
      (Client.connects options env = true ∧
        image false accepted = .onConnected :: (fired ++ pending)) := by
  cases h with
  | @failed e c hc =>
    rcases Client.create_cases options env with ⟨e', he, hb⟩ | ⟨e', he, hb⟩ | ⟨opts, he, -⟩
    · rw [he] at hc
      cases hc
      exact .inl ⟨hb, rfl⟩
    · rw [he] at hc
      cases hc
      refine .inr ⟨hb, ?_⟩
      have openBefore : (connected options.callbacks).machine.state ≠ .kClosed := by
        rw [(connected_state _).1]
        exact nofun
      simp only [Connection.transitions, StateMachine.transitions,
        StateMachine.transition_to_closed openBefore, StateMachine.captured, connected_installed,
        all, (connected_state _).1, if_true, List.append_nil]
      rfl
    · rw [he] at hc
      cases hc
  | @running s hr =>
    obtain ⟨g, f⟩ := (inv_reachable hr).facts_pending
    exact .inr ⟨connects_of_reachable hr, f.image all⟩

/-- In every run of `Create` and of what follows it, with all five callbacks set, the callbacks
reflect the transitions exactly when the transport did not get as far as `kReady`. -/
theorem callbacks_reflect_iff (options : CreateOptions) (env : CreateEnv)
    (accepted : List Accepted) (fired pending : List Callback)
    (all : ∀ c, options.callbacks c = true) (h : Observed options env accepted fired pending) :
    fired ++ pending = image false accepted ↔ Client.connects options env = false := by
  rcases h.cases all with ⟨hb, he⟩ | ⟨hb, he⟩
  · exact ⟨fun _ => hb, fun _ => he⟩
  · constructor
    · intro hall
      have hlength := congrArg List.length (he.symm.trans hall.symm)
      simp at hlength
    · intro hno
      rw [hb] at hno
      cases hno

/-- A client without a closing call. -/
lemma observed_created : Observed observingOptions serverUp
    [(.kIdle, .kConnecting), (.kConnecting, .kReady)] [] [] := by
  obtain ⟨opts, hc⟩ := create_serverUp
  have hinit : (sys observingOptions serverUp).Reachable (start (connected fun _ => true)) :=
    .init ⟨opts, _, hc, rfl⟩
  exact .running hinit

/-- `Create` has returned a client and `on_connected` has not been called. -/
theorem create_skips_on_connected :
    ∃ accepted fired pending, Observed observingOptions serverUp accepted fired pending ∧
      fired ++ pending ≠ image false accepted ∧ .onConnected ∈ image false accepted ∧
      .onConnected ∉ fired ++ pending :=
  ⟨_, _, _, observed_created, by decide⟩

theorem callbacks_reflect_iff_created :
    [] ++ [] = image false [(.kIdle, .kConnecting), (.kConnecting, .kReady)] ↔
      Client.connects observingOptions serverUp = false :=
  callbacks_reflect_iff observingOptions serverUp _ _ _ (fun _ => rfl) observed_created

end KubeMQ.Closing
