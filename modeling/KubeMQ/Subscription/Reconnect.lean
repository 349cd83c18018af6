import KubeMQ.Policy.Backoff
import KubeMQ.Subscription.Cancel
import Mathlib.Tactic.NormNum

/-!
# The delays between re-subscribe attempts

The reader thread doubles its own delay from one second to thirty, starts again with one second
whenever a stream breaks, and counts nothing; the `ReconnectPolicy` of the client is never read.
A failure run lasts from the delivery of a message to the next. `tried` lists, for each attempt of
the current run, how many openings were refused between the break of the stream and the attempt,
and the attempt is made after `delayAt` of that number (`delays_eq`). So the policy is followed as
long as, at every failure, its own schedule happens to agree with what the failures before it make
the reader do next (`Agrees`), and no longer (`policy_followed_while_agrees`).
-/

namespace KubeMQ.Subscription

variable {P R : Type} {κ : SubKind P R} {h : Handlers}

/-- The delays of the attempts made since a message was delivered last. -/
def delays (log : List (Obs P R)) : List ℕ :=
  log.foldl (fun ds o => match o with
    | .read _ _ => []
    | .attempt _ d => ds ++ [d]
    | _ => ds) []

/-- One entry of the log, for the outcomes of the attempts of the failure run: for each refused or
accepted opening the number of refusals since the stream broke, and that number for the next
opening, once a stream has broken. -/
def outcomeStep (acc : List ℕ × Option ℕ) (o : Obs P R) : List ℕ × Option ℕ :=
  match acc, o with
  | (_, j), .read _ _ => ([], j)
  | (js, _), .ended _ _ => (js, some 0)
  | (js, some j), .refused _ => (js ++ [j], some (j + 1))
  | (js, some j), .opened _ _ => (js ++ [j], none)
  | acc, _ => acc

def outcomes (log : List (Obs P R)) : List ℕ × Option ℕ :=
  log.foldl outcomeStep ([], none)

/-- An opening whose outcome is not known yet. -/
def ReaderPc.inFlight : ReaderPc R → Bool
  | .gate _ _ => true
  | .stub _ _ => true
  | _ => false

/-- For each attempt of the failure run, how many openings were refused between the break of the
stream and the attempt. -/
def tried (s : Sub P R) : List ℕ :=
  (outcomes s.mem.log).1 ++ if s.reader.pc.inFlight then (outcomes s.mem.log).2.toList else []

/-- The delay after `j` refusals. -/
def delayAt (j : ℕ) : ℕ := min (1000 * 2 ^ j) 30000

/-- The failure run follows the policy: not too many attempts, each after the delay that
`CalculateBackoff` gives for its number. -/
structure FollowsPolicy (policy : ReconnectPolicy) (draw : Int → Int → Int) (s : Sub P R) :
    Prop where
  attempts : 0 < policy.maxAttempts → ((delays s.mem.log).length : Int) ≤ policy.maxAttempts
  delay : ∀ k d : ℕ, (delays s.mem.log)[k]? = some d → (d : Int) = policy.calculateBackoff draw k

/-- The reader's own delay. -/
def ReaderPc.backoff : ReaderPc R → Option ℕ
  | .backoffLoop b => some b
  | .sleep b => some b
  | .recheck b => some b
  | .gate b _ => some b
  | .stub b _ => some b
  | .postFinish => some initialBackoff
  | _ => none

/-- The delays made so far and the reader's own delay follow from the outcomes. -/
structure BackoffInv (log : List (Obs P R)) (pc : ReaderPc R) : Prop where
  delays : delays log = ((outcomes log).1 ++
    if pc.inFlight then (outcomes log).2.toList else []).map delayAt
  backoff : ∀ b, pc.backoff = some b → ∃ j, (outcomes log).2 = some j ∧ b = delayAt j

lemma delayAt_zero : delayAt 0 = initialBackoff := rfl

lemma nextBackoff_delayAt (j : ℕ) : nextBackoff (delayAt j) = delayAt (j + 1) := by
  simp only [nextBackoff, delayAt, maxBackoff, pow_succ]
  omega

lemma delays_append (log : List (Obs P R)) (o : Obs P R) :
    delays (log ++ [o]) = (match o with
      | .read _ _ => []
      | .attempt _ d => delays log ++ [d]
      | _ => delays log) := by
  simp [delays, List.foldl_append]

lemma outcomes_append (log : List (Obs P R)) (o : Obs P R) :
    outcomes (log ++ [o]) = outcomeStep (outcomes log) o := by
  simp [outcomes, List.foldl_append]

lemma outcomes_ended (log : List (Obs P R)) (n : ℕ) (st : GrpcStatus) :
    outcomes (log ++ [.ended n st]) = ((outcomes log).1, some 0) := by
  rw [outcomes_append]
  rcases outcomes log with ⟨js, _ | j⟩ <;> rfl

lemma outcomes_refused {log : List (Obs P R)} {j : ℕ} (hj : (outcomes log).2 = some j) (n : ℕ) :
    outcomes (log ++ [.refused n]) = ((outcomes log).1 ++ [j], some (j + 1)) := by
  have hacc : outcomes log = ((outcomes log).1, some j) := Prod.ext rfl hj
  rw [outcomes_append, hacc]
  rfl

lemma backoffInv_start : BackoffInv (start : Sub P R).mem.log (start : Sub P R).reader.pc :=
  ⟨rfl, nofun⟩

/-- Entries that are no attempt, no outcome, no message and no end of a stream. -/
def Obs.idle : Obs P R → Bool
  | .reading _ => true
  | .onEvent _ => true
  | .threw _ => true
  | .onError _ => true
  | _ => false

lemma BackoffInv.goto {log : List (Obs P R)} {pc pc' : ReaderPc R} (inv : BackoffInv log pc)
    (hf : pc'.inFlight = pc.inFlight) (hb : ∀ b, pc'.backoff = some b → pc.backoff = some b) :
    BackoffInv log pc' :=
  ⟨hf ▸ inv.delays, fun b h => inv.backoff b (hb b h)⟩

lemma BackoffInv.idle {log : List (Obs P R)} {pc pc' : ReaderPc R} {o : Obs P R}
    (inv : BackoffInv log pc) (ho : o.idle = true) (hf : pc'.inFlight = pc.inFlight)
    (hb : pc'.backoff = none) : BackoffInv (log ++ [o]) pc' := by
  have hd : Subscription.delays (log ++ [o]) = Subscription.delays log := by
    rw [delays_append]
    cases o <;> first | rfl | cases ho
  have hs : outcomes (log ++ [o]) = outcomes log := by
    rw [outcomes_append]
    rcases outcomes log with ⟨js, _ | j⟩ <;> cases o <;> first | rfl | cases ho
  refine ⟨?_, fun b h => ?_⟩
  · rw [hd, hs, hf]
    exact inv.delays
  · rw [hb] at h
    cases h

/-- A message is delivered: the failure run is over. -/
lemma BackoffInv.read {log : List (Obs P R)} {pc' : ReaderPc R} {n : ℕ} {p : P}
    (hf : pc'.inFlight = false) (hb : pc'.backoff = none) :
    BackoffInv (log ++ [.read n p]) pc' := by
  have hs : (outcomes (log ++ [Obs.read n p])).1 = ([] : List ℕ) := by
    rw [outcomes_append]
    rcases outcomes log with ⟨js, _ | j⟩ <;> rfl
  refine ⟨?_, fun b h => ?_⟩
  · rw [delays_append, hs, hf]
    rfl
  · rw [hb] at h
    cases h

/-- A stream breaks. -/
lemma BackoffInv.ended {log : List (Obs P R)} {pc : ReaderPc R} {n : ℕ} {st : GrpcStatus}
    (inv : BackoffInv log pc) (hf : pc.inFlight = false) :
    BackoffInv (log ++ [.ended n st]) (.postFinish : ReaderPc R) := by
  have hs := outcomes_ended log n st
  have hd := inv.delays
  rw [hf] at hd
  refine ⟨?_, fun b h => ?_⟩
  · rw [delays_append, hs]
    exact hd
  · cases h
    exact ⟨0, by rw [hs], delayAt_zero⟩

/-- An attempt is made after the reader's own delay. -/
lemma BackoffInv.attempt {log : List (Obs P R)} {b n : ℕ}
    (inv : BackoffInv log (.recheck b : ReaderPc R)) :
    BackoffInv (log ++ [.attempt n b]) (.gate b n : ReaderPc R) := by
  have hs : outcomes (log ++ [Obs.attempt n b]) = outcomes log := by
    rw [outcomes_append]
    rcases outcomes log with ⟨js, _ | j⟩ <;> rfl
  obtain ⟨j, hj, hb⟩ := inv.backoff b rfl
  have hd := inv.delays
  refine ⟨?_, fun b' h => ?_⟩
  · rw [delays_append, hs, hj]
    simp only [ReaderPc.inFlight, Bool.false_eq_true, if_false, List.append_nil] at hd ⊢
    rw [hd, hb]
    simp
  · cases h
    exact ⟨j, by rw [hs, hj], hb⟩

/-- An opening is refused. -/
lemma BackoffInv.refused {log : List (Obs P R)} {pc : ReaderPc R} {b n : ℕ}
    (inv : BackoffInv log pc) (hf : pc.inFlight = true) (hp : pc.backoff = some b) :
    BackoffInv (log ++ [.refused n]) (.backoffLoop (nextBackoff b) : ReaderPc R) := by
  obtain ⟨j, hj, hb⟩ := inv.backoff b hp
  have hs := outcomes_refused hj n
  have hd := inv.delays
  rw [hf, hj] at hd
  refine ⟨?_, fun b' h => ?_⟩
  · rw [delays_append, hs]
    simpa [ReaderPc.inFlight] using hd
  · cases h
    exact ⟨j + 1, by rw [hs], by rw [hb, nextBackoff_delayAt]⟩

/-- An opening is accepted. -/
lemma BackoffInv.opened {log : List (Obs P R)} {pc : ReaderPc R} {b n : ℕ} {d : Bool}
    (inv : BackoffInv log pc) (hf : pc.inFlight = true) (hp : pc.backoff = some b) :
    BackoffInv (log ++ [.opened n d]) (.storeCtx n : ReaderPc R) := by
  obtain ⟨j, hj, -⟩ := inv.backoff b hp
  have hs : outcomes (log ++ [Obs.opened n d]) = ((outcomes log).1 ++ [j], none) := by
    rw [outcomes_append]
    have hacc : outcomes log = ((outcomes log).1, some j) := Prod.ext rfl hj
    rw [hacc]
    rfl
  have hd := inv.delays
  rw [hf, hj] at hd
  refine ⟨?_, nofun⟩
  rw [delays_append, hs]
  simpa [ReaderPc.inFlight] using hd

/-- One step of the reader. -/
lemma ReaderStep.backoffInv {m m' : Mem P R} {n : ℕ} {lst : GrpcStatus} {pc : ReaderPc R}
    {r' : Reader R} {l : ReaderLabel P} (st : ReaderStep κ h m n lst pc l m' r')
    (inv : BackoffInv m.log pc) : BackoffInv m'.log r'.pc := by
  cases st
  case accept _ ht =>
    obtain ⟨-, -, -, -, hl, -⟩ := Mem.take_spec ht
    rw [hl]
    exact .read rfl rfl
  case skip _ ht =>
    obtain ⟨-, -, -, -, hl, -⟩ := Mem.take_spec ht
    rw [hl]
    exact .read rfl rfl
  case finish => exact inv.ended rfl
  case attempt => exact inv.attempt
  case gateRefused => exact inv.refused rfl rfl
  case stubRefused => exact inv.refused rfl rfl
  case opened => exact inv.opened rfl rfl
  case enter => exact inv.idle rfl rfl rfl
  case call => exact inv.idle rfl rfl rfl
  case threw => exact inv.idle rfl rfl rfl
  case report => exact inv.idle rfl rfl rfl
  case exitReport => exact inv.idle rfl rfl rfl
  all_goals first | exact inv.goto rfl (fun _ hb => hb) | exact inv.goto rfl nofun

lemma BackoffInv.of_reachable {s : Sub P R} (hr : (sys κ h).Reachable s) :
    BackoffInv s.mem.log s.reader.pc := by
  refine hr.invariant (I := fun s => BackoffInv s.mem.log s.reader.pc) ?_ ?_
  · rintro s rfl
    exact backoffInv_start
  · intro s a t _ inv _ hn
    cases Step.of_next hn with
    | begin => exact inv
    | call hpc st =>
      show BackoffInv _ _
      rw [st.effect.log]
      exact inv
    | reader st => exact st.backoffInv inv

/-- The delays of the failure run, in every run of a subscription. -/
lemma delays_eq {s : Sub P R} (hr : (sys κ h).Reachable s) :
    delays s.mem.log = (tried s).map delayAt :=
  (BackoffInv.of_reachable hr).delays

/-- After a failure: how many openings of the failure run have been answered, and how many have
been refused since the stream broke. -/
def failures (log : List (Obs P R)) : ReaderLabel P → Option (ℕ × ℕ)
  | .finish _ => some ((outcomes log).1.length, 0)
  | .gate false => (outcomes log).2.map fun j => ((outcomes log).1.length + 1, j + 1)
  | .stub false => (outcomes log).2.map fun j => ((outcomes log).1.length + 1, j + 1)
  | _ => none

/-- The policy allows a `k`-th attempt, and its delay is the reader's after `j` refusals. -/
def Allows (policy : ReconnectPolicy) (draw : Int → Int → Int) (k j : ℕ) : Prop :=
  (0 < policy.maxAttempts → (k : Int) < policy.maxAttempts) ∧
    policy.calculateBackoff draw k = (delayAt j : Int)

/-- The guard on runs: when a stream breaks or an opening is refused, and the subscription is not
cancelled, the policy allows the next attempt after the delay that the failures make it have. -/
def Agrees (policy : ReconnectPolicy) (draw : Int → Int → Int) (s : Sub P R) : Action P → Prop
  | .reader l => s.mem.done = false →
    ∀ k j : ℕ, failures s.mem.log l = some (k, j) → Allows policy draw k j
  | _ => True

/-- Between a failure and the next attempt. -/
def ReaderPc.waits : ReaderPc R → Bool
  | .postFinish => true
  | .backoffLoop _ => true
  | .sleep _ => true
  | .recheck _ => true
  | _ => false

/-- The policy has been followed, and while the reader waits it allows the next attempt. -/
structure PolicyInv (policy : ReconnectPolicy) (draw : Int → Int → Int) (m : Mem P R)
    (pc : ReaderPc R) : Prop where
  attempts : 0 < policy.maxAttempts → ((delays m.log).length : Int) ≤ policy.maxAttempts
  delay : ∀ k d : ℕ, (delays m.log)[k]? = some d → (d : Int) = policy.calculateBackoff draw k
  due : m.done = false → pc.waits = true → ∀ j : ℕ, (outcomes m.log).2 = some j →
    Allows policy draw (outcomes m.log).1.length j

/-- What a failure adds to the outcomes. -/
lemma ReaderStep.failed {m m' : Mem P R} {n : ℕ} {lst : GrpcStatus} {pc : ReaderPc R}
    {r' : Reader R} {l : ReaderLabel P} {k j : ℕ} (st : ReaderStep κ h m n lst pc l m' r')
    (hf : failures m.log l = some (k, j)) :
    (outcomes m'.log).1.length = k ∧ (outcomes m'.log).2 = some j ∧
      delays m'.log = delays m.log ∧ m'.done = m.done ∧
      (r'.pc = .postFinish ∨ ∃ b, r'.pc = .backoffLoop b) := by
  have refused (n : ℕ) (hf : ((outcomes m.log).2.map fun j =>
      ((outcomes m.log).1.length + 1, j + 1)) = some (k, j)) :
      (outcomes (m.log ++ [.refused n])).1.length = k ∧
        (outcomes (m.log ++ [.refused n])).2 = some j := by
    obtain ⟨i, hi, heq⟩ := Option.map_eq_some_iff.mp hf
    cases heq
    rw [outcomes_refused hi n]
    exact ⟨List.length_append, rfl⟩
  cases st
  case finish =>
    cases hf
    have hs := outcomes_ended m.log n ‹_›
    refine ⟨congrArg (fun acc => acc.1.length) hs, congrArg Prod.snd hs, delays_append _ _, rfl,
      .inl rfl⟩
  case gateRefused b i =>
    obtain ⟨hk, hj⟩ := refused i hf
    exact ⟨hk, hj, delays_append _ _, rfl, .inr ⟨_, rfl⟩⟩
  case stubRefused b i =>
    obtain ⟨hk, hj⟩ := refused i hf
    exact ⟨hk, hj, delays_append _ _, rfl, .inr ⟨_, rfl⟩⟩
  all_goals cases hf

/-- A refused opening is a failure. -/
lemma BackoffInv.failures {log : List (Obs P R)} {pc : ReaderPc R} {b : ℕ}
    (back : BackoffInv log pc) (hb : pc.backoff = some b) :
    ∃ k j, Subscription.failures log (.gate false : ReaderLabel P) = some (k, j) ∧
      Subscription.failures log (.stub false : ReaderLabel P) = some (k, j) := by
  obtain ⟨i, hi, -⟩ := back.backoff b hb
  refine ⟨(outcomes log).1.length + 1, i + 1, ?_, ?_⟩
  · rw [Subscription.failures, hi]
    rfl
  · rw [Subscription.failures, hi]
    rfl

variable {policy : ReconnectPolicy} {draw : Int → Int → Int}

section Policy

variable {m m' : Mem P R} {pc pc' : ReaderPc R}

/-- A step that adds no attempt, and after which the reader does not wait for one it has not waited
for before. -/
lemma PolicyInv.other (inv : PolicyInv policy draw m pc) (hd : delays m'.log = delays m.log)
    (due : m'.done = false → pc'.waits = true → ∀ j : ℕ, (outcomes m'.log).2 = some j →
      Allows policy draw (outcomes m'.log).1.length j) : PolicyInv policy draw m' pc' := by
  refine ⟨?_, ?_, due⟩
  · rw [hd]
    exact inv.attempts
  · rw [hd]
    exact inv.delay

lemma PolicyInv.goto (inv : PolicyInv policy draw m pc) (hl : m'.log = m.log)
    (hd : m'.done = false → m.done = false) (hw : pc'.waits = true → pc.waits = true) :
    PolicyInv policy draw m' pc' := by
  apply inv.other
  · rw [hl]
  · rw [hl]
    exact fun hdone hwaits => inv.due (hd hdone) (hw hwaits)

/-- A message is delivered: no attempt has been made since. -/
lemma PolicyInv.read {n : ℕ} {p : P} (hl : m'.log = m.log ++ [.read n p])
    (hw : pc'.waits = false) : PolicyInv policy draw m' pc' := by
  have hd : delays m'.log = [] := by
    rw [hl, delays_append]
  refine ⟨?_, ?_, fun _ hw' => absurd hw' (by rw [hw]; exact Bool.false_ne_true)⟩
  · rw [hd]
    exact fun hm => Int.le_of_lt hm
  · rw [hd]
    exact nofun

/-- The attempt that the policy allows is made after the delay that it gives. -/
lemma PolicyInv.attempt {b n : ℕ} (inv : PolicyInv policy draw m (.recheck b))
    (back : BackoffInv m.log (.recheck b : ReaderPc R)) (hd : m.done = false)
    (hl : m'.log = m.log ++ [.attempt n b]) : PolicyInv policy draw m' (.gate b n) := by
  obtain ⟨j, hj, hb⟩ := back.backoff b rfl
  obtain ⟨hmax, hdelay⟩ := inv.due hd rfl j hj
  have hlen : (delays m.log).length = (outcomes m.log).1.length := by
    rw [back.delays]
    simp [ReaderPc.inFlight]
  have happ : delays m'.log = delays m.log ++ [b] := by
    rw [hl, delays_append]
  refine ⟨fun hm => ?_, fun k d hk => ?_, fun _ hw => absurd hw Bool.false_ne_true⟩
  · have hlt := hmax hm
    rw [happ, List.length_append, List.length_singleton, hlen]
    omega
  · rw [happ, List.getElem?_append] at hk
    split at hk
    next hlt => exact inv.delay k d hk
    next hge =>
      obtain ⟨hz, rfl⟩ : k - (delays m.log).length = 0 ∧ b = d := by
        simpa [List.getElem?_singleton] using hk
      have hk : k = (outcomes m.log).1.length := by omega
      rw [hk, hdelay, hb]

/-- A failure after which the policy allows the next attempt. -/
lemma PolicyInv.failed {s : Sub P R} {l : ReaderLabel P} {r' : Reader R} {k j : ℕ}
    (inv : PolicyInv policy draw s.mem s.reader.pc) (hf : failures s.mem.log l = some (k, j))
    (st : ReaderStep κ h s.mem s.reader.stream s.reader.lastStatus s.reader.pc l m' r')
    (hg : Agrees policy draw s (.reader l)) : PolicyInv policy draw m' r'.pc := by
  obtain ⟨hk, hj, hd, hdone, -⟩ := st.failed hf
  apply inv.other hd
  intro hd' _ j' hj'
  obtain rfl := Option.some.inj (hj'.symm.trans hj)
  rw [hk]
  exact hg (hdone ▸ hd') k j' hf

/-- One step of the reader. -/
lemma ReaderStep.policyInv {s : Sub P R} {m' : Mem P R} {r' : Reader R} {l : ReaderLabel P}
    (st : ReaderStep κ h s.mem s.reader.stream s.reader.lastStatus s.reader.pc l m' r')
    (inv : PolicyInv policy draw s.mem s.reader.pc) (back : BackoffInv s.mem.log s.reader.pc)
    (hg : Agrees policy draw s (.reader l)) : PolicyInv policy draw m' r'.pc := by
  obtain ⟨m, ⟨pc, n, lst⟩, calls⟩ := s
  dsimp only at st inv back hg
  have step := st
  cases st
  case accept p ha ht =>
    obtain ⟨-, -, -, -, hl, -⟩ := Mem.take_spec ht
    exact .read hl rfl
  case skip p ha ht =>
    obtain ⟨-, -, -, -, hl, -⟩ := Mem.take_spec ht
    exact .read hl rfl
  case attempt hd => exact inv.attempt back hd rfl
  -- the three failures
  case finish => exact inv.failed rfl step hg
  case gateRefused =>
    obtain ⟨k, j, hf, -⟩ := back.failures rfl
    exact inv.failed hf step hg
  case stubRefused =>
    obtain ⟨k, j, -, hf⟩ := back.failures rfl
    exact inv.failed hf step hg
  -- the reader goes on waiting
  case broke => exact inv.goto rfl id fun _ => rfl
  case wait => exact inv.goto rfl id fun _ => rfl
  case slept => exact inv.goto rfl id fun _ => rfl
  case exitStore => exact inv.goto rfl nofun nofun
  -- it does not wait for an attempt afterwards
  all_goals first
    | exact inv.goto rfl id nofun
    | exact inv.other (delays_append _ _) (fun _ hw => absurd hw Bool.false_ne_true)

end Policy

/-- The invariant of the runs in which the policy agrees with the reader at every failure. -/
lemma PolicyInv.of_reach {s : Sub P R} (hr : (sys κ h).Reach (Agrees policy draw) s) :
    PolicyInv policy draw s.mem s.reader.pc := by
  refine hr.invariant (I := fun s => PolicyInv policy draw s.mem s.reader.pc) ?_ ?_
  · rintro s rfl
    exact ⟨fun hm => Int.le_of_lt hm, nofun, fun _ hw => absurd hw Bool.false_ne_true⟩
  · intro s a t hs inv hg hn
    cases Step.of_next hn with
    | begin => exact inv
    | call hpc st =>
      have eff := st.effect
      exact inv.goto eff.log
        (fun hd => Bool.eq_false_iff.mpr fun ht => Bool.eq_false_iff.mp hd (eff.done ht)) id
    | reader st => exact st.policyInv inv (BackoffInv.of_reachable hs.reachable) hg

/-- A reader that has failed and is not cancelled can make its next attempt. -/
lemma exists_attempt {t : Sub P R} (hd : t.mem.done = false)
    (hpc : t.reader.pc = .postFinish ∨ ∃ b, t.reader.pc = .backoffLoop b) :
    ∃ as u b n, (sys κ h).exec t as = some u ∧ t.reader.pc.backoff = some b ∧
      u.mem.log = t.mem.log ++ [.attempt n b] := by
  obtain ⟨⟨done, ctx, created, cancelled, joiner, log⟩, ⟨pc, n, lst⟩, calls⟩ := t
  obtain rfl : done = false := hd
  rcases hpc with hpc | ⟨b, hpc⟩
  · obtain rfl : pc = .postFinish := hpc
    exact ⟨[.reader .tau, .reader .tau, .reader .slept, .reader .tau], _, initialBackoff, created,
      rfl, rfl, rfl⟩
  · obtain rfl : pc = .backoffLoop b := hpc
    exact ⟨[.reader .tau, .reader .slept, .reader .tau], _, b, created, rfl, rfl, rfl⟩

/-- When the attempt after a failure follows the policy, the policy has allowed it. -/
lemma BackoffInv.allows {t u : Sub P R} {j b n : ℕ} (back : BackoffInv t.mem.log t.reader.pc)
    (hpc : t.reader.pc = .postFinish ∨ ∃ b, t.reader.pc = .backoffLoop b)
    (hj : (outcomes t.mem.log).2 = some j) (hb : t.reader.pc.backoff = some b)
    (hu : u.mem.log = t.mem.log ++ [.attempt n b]) (hf : FollowsPolicy policy draw u) :
    Allows policy draw (outcomes t.mem.log).1.length j := by
  have hfl : t.reader.pc.inFlight = false := by
    rcases hpc with hpc | ⟨b, hpc⟩ <;> rw [hpc] <;> rfl
  have hlen : (Subscription.delays t.mem.log).length = (outcomes t.mem.log).1.length := by
    rw [back.delays, hfl]
    simp
  have hdelays : Subscription.delays u.mem.log = Subscription.delays t.mem.log ++ [b] := by
    rw [hu, delays_append]
  obtain ⟨i, hi, rfl⟩ := back.backoff b hb
  obtain rfl := Option.some.inj (hi.symm.trans hj)
  refine ⟨fun hm => ?_, ?_⟩
  · have hle := hf.attempts hm
    rw [hdelays, List.length_append, List.length_singleton, hlen] at hle
    omega
  · refine (hf.delay _ (delayAt i) ?_).symm
    rw [hdelays, ← hlen, List.getElem?_concat_length]

/-- As long as the policy agrees with the reader at every failure, the attempts follow it; and a
failure at which it does not agree can be followed by an attempt that does not. -/
theorem policy_followed_while_agrees {P R : Type} (κ : SubKind P R) (h : Handlers)
    (policy : ReconnectPolicy) (draw : Int → Int → Int) :
    (∀ s, (sys κ h).Reach (Agrees policy draw) s → FollowsPolicy policy draw s) ∧
    ∀ s a t, (sys κ h).Reachable s → (sys κ h).next s a = some t → ¬ Agrees policy draw s a →
      ∃ as u, (sys κ h).exec t as = some u ∧ ¬ FollowsPolicy policy draw u := by
  constructor
  · intro s hr
    have inv := PolicyInv.of_reach hr
    exact ⟨inv.attempts, inv.delay⟩
  · intro s a t hr hn hg
    cases a with
    | begin op => exact absurd trivial hg
    | call i l => exact absurd trivial hg
    | reader l =>
      simp only [Agrees, Classical.not_imp, not_forall] at hg
      obtain ⟨hd, k, j, hf, hnot⟩ := hg
      have back := BackoffInv.of_reachable (.step hr trivial hn)
      have hn : next κ h s (.reader l) = some t := hn
      cases Step.of_next hn with
      | reader st =>
        obtain ⟨rfl, hj, -, hdone, hpc⟩ := st.failed hf
        obtain ⟨as, u, b, n, he, hb, hu⟩ :=
          exists_attempt (κ := κ) (h := h) (t := ⟨_, _, s.calls⟩) (hdone.trans hd) hpc
        exact ⟨as, u, he, fun hfollows => hnot (back.allows hpc hj hb hu hfollows)⟩

/-- The policy whose schedule is the reader's own, as long as no opened stream breaks. -/
def oneSecondPolicy : ReconnectPolicy where
  jitter := .kNone

lemma oneSecondPolicy_calculateBackoff (draw : Int → Int → Int) (k : ℕ) :
    oneSecondPolicy.calculateBackoff draw k = (delayAt k : Int) := by
  have hmin : min (((1000 : Int) : ℚ) * 2 ^ k) ((30000 : Int) : ℚ) = ((delayAt k : Int) : ℚ) := by
    simp [delayAt]
  rw [ReconnectPolicy.calculateBackoff_kNone rfl, backoffDelay]
  exact (congrArg truncate hmin).trans (truncate_intCast _)

/-- As many openings are refused as are answered. -/
def allRefused (s : Sub P R) : Action P → Bool
  | .reader l =>
    match failures s.mem.log l with
    | some (k, j) => k == j
    | none => true
  | _ => true

lemma agrees_of_allRefused (draw : Int → Int → Int) (s : Sub P R) (a : Action P)
    (hg : allRefused s a = true) : Agrees oneSecondPolicy draw s a := by
  cases a with
  | begin op => trivial
  | call i l => trivial
  | reader l =>
    intro _ k j hf
    simp only [allRefused, hf, beq_iff_eq] at hg
    obtain rfl := hg
    exact ⟨fun hm => absurd hm (by decide), oneSecondPolicy_calculateBackoff draw k⟩

/-- A stream breaks and the reader makes its first attempt. -/
def firstAttempt : List (Action Proto.EventReceive) :=
  [.reader .tau, .reader .eos, .reader (.finish ⟨.UNAVAILABLE, "down"⟩), .reader .tau,
    .reader .tau, .reader .slept, .reader .tau]

/-- It is refused, and the reader makes a second one. -/
def secondAttempt : List (Action Proto.EventReceive) :=
  firstAttempt ++ [.reader (.gate false), .reader .tau, .reader .slept, .reader .tau]

theorem policy_followed_while_agrees_refused :
    ∃ s, (sys SubKind.events ⟨true, true⟩).exec start secondAttempt = some s ∧
      delays s.mem.log = [1000, 2000] ∧ FollowsPolicy oneSecondPolicy (fun a _ => a) s := by
  refine ⟨_, rfl, rfl,
    (policy_followed_while_agrees SubKind.events ⟨true, true⟩ oneSecondPolicy _).1 _ ?_⟩
  have hr := Lts.Sys.Reach.execWhere (T := sys SubKind.events ⟨true, true⟩) (g := allRefused)
    (.init rfl) secondAttempt rfl
  exact hr.mono (agrees_of_allRefused _)

/-- A policy with a shorter first delay than the reader's. -/
def halfSecondPolicy : ReconnectPolicy where
  initialDelay := 500
  jitter := .kNone

lemma firstAttempt_delays :
    ((sys SubKind.events ⟨true, true⟩).exec start firstAttempt).map
      (fun s => delays s.mem.log) = some [1000] := rfl

/-- The first delay is one second whatever the policy says. -/
theorem policy_is_not_followed :
    ¬ ∀ s, (sys SubKind.events ⟨true, true⟩).Reachable s →
      FollowsPolicy halfSecondPolicy (fun a _ => a) s := by
  intro hall
  obtain ⟨s, hs, hd⟩ := Option.map_eq_some_iff.mp firstAttempt_delays
  have hf := hall s (Lts.Sys.Reachable.exec (.init rfl) firstAttempt hs)
  have h₀ := hf.delay 0 1000 (by rw [hd]; rfl)
  rw [ReconnectPolicy.calculateBackoff_kNone rfl] at h₀
  norm_num [backoffDelay, halfSecondPolicy, truncate] at h₀

end KubeMQ.Subscription
