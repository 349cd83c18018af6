import KubeMQ.Transport.BufferIndices

/-!
# What a failing sender costs

A journal keeps the messages pushed into a buffer and where each message that left it went.
`Drain` gives a message up as soon as the sender has returned, whatever the answer, and leaves in
the slot what the sender did to it when an exception passes: `noLoss_iff` says for which senders
nothing is lost, `Met` is this condition as a guard on runs. The operations are the checked ones, so
a run ends before a call whose behaviour is undefined.
-/

namespace KubeMQ.MessageBuffer

/-- How a message left the buffer; `refused` is a call of the sender that answered `false`. -/
inductive Fate where
  | evicted | accepted | refused | discarded
  deriving DecidableEq

structure Journal where
  buffer : MessageBuffer
  pushed : List String
  gone : List (Fate × String)
  deriving DecidableEq

/-- What became of a message given to the sender. -/
def fate : String × Answer → Option (Fate × String)
  | (m, .returned true _) => some (.accepted, m)
  | (m, .returned false _) => some (.refused, m)
  | (_, .threw _) => none

/-- The message that a push overwrites. -/
def evicts (b : MessageBuffer) : List (Fate × String) :=
  if b.count = b.capacity then [(.evicted, b.buffer.getD b.head.toNat "")] else []

/-- One call, when its behaviour is defined. -/
def Journal.step (s : Journal) : Op → Option Journal
  | .push m => (s.buffer.pushChecked m).map fun r =>
    ⟨r.1, s.pushed ++ [m], s.gone ++ s.buffer.evicts⟩
  | .drain sender => (s.buffer.drainChecked sender).map fun d =>
    ⟨d.buffer, s.pushed, s.gone ++ d.calls.filterMap fate⟩
  | .discard => s.buffer.discardChecked.map fun r =>
    ⟨r.1, s.pushed, s.gone ++ s.buffer.contents.map (Prod.mk .discarded)⟩

/-- The runs of a buffer from its constructor on. -/
def sys (capacity : ℤ) : Lts.Sys Journal Op where
  init s := s = ⟨new capacity, [], []⟩
  next := Journal.step

/-- The messages that the sender accepted in one `Drain`. -/
def accepted (d : Drained) : List String :=
  d.calls.filterMap fun
    | (m, .returned true _) => some m
    | _ => none

/-- A `Drain` after which the messages buffered before are those accepted and, behind them, those
still buffered, unchanged and in the same order. -/
def NoLoss (sender : Sender) (b : MessageBuffer) : Prop :=
  ∃ d, b.drainChecked sender = some d ∧ accepted d ++ d.buffer.contents = b.contents

/-- The sender accepts the messages in turn until there are none left or it throws, and then it has
left the string as it was. -/
def Sends (sender : Sender) : ℕ → List String → Prop
  | _, [] => True
  | k, m :: q =>
    match sender k m with
    | .returned ok _ => ok = true ∧ Sends sender (k + 1) q
    | .threw left => left = m

/-- The guard on runs: every `Drain` has such a sender. -/
def Met (s : Journal) (a : Op) : Prop :=
  ∀ sender, a = .drain sender → Sends sender 0 s.buffer.contents

variable {b : MessageBuffer} {cap first n : ℕ} {sender : Sender}

/-- What one `Drain` accepts and leaves, by the messages buffered before. -/
lemma accepted_leftOn_iff (k : ℕ) (q : List String) :
    ((callsOn sender k q).filterMap fun
        | (m, .returned true _) => some m
        | _ => none) ++ leftOn sender k q = q ↔ Sends sender k q := by
  induction q generalizing k with
  | nil => exact ⟨fun _ => trivial, fun _ => rfl⟩
  | cons m q ih =>
    have hrec := ih (k + 1)
    unfold callsOn leftOn Sends
    cases sender k m with
    | threw left =>
      constructor
      · intro h
        exact List.head_eq_of_cons_eq h
      · intro h
        rw [h]
        rfl
    | returned ok left =>
      cases ok with
      | false =>
        -- the refused message is neither accepted nor buffered
        constructor
        · intro h
          have hlen : q.length = (m :: q).length := congrArg List.length h
          simp at hlen
        · intro h
          exact absurd h.1 Bool.false_ne_true
      | true =>
        constructor
        · intro h
          exact ⟨rfl, hrec.mp (List.tail_eq_of_cons_eq h)⟩
        · intro h
          exact congrArg (m :: ·) (hrec.mpr h.2)

section Checked

variable (hcap : cap ≤ 2147483647)
include hcap

lemma noLoss_iff (r : b.Rep cap first n) : NoLoss sender b ↔ Sends sender 0 b.contents := by
  obtain ⟨hcalls, -, hleft, -⟩ := drainLoop_spec sender r [] 0
  have hdrain : NoLoss sender b ↔
      accepted (b.drain sender) ++ (b.drain sender).buffer.contents = b.contents := by
    unfold NoLoss
    rw [r.drainChecked hcap]
    simp
  rw [hdrain, accepted, drain, hcalls, hleft, List.nil_append]
  exact accepted_leftOn_iff 0 b.contents

/-- A `Drain` begins with the oldest message. -/
lemma calls_head (r : b.Rep cap first n) : ∃ d, b.drainChecked sender = some d ∧
    (d.calls.map Prod.fst).head? = b.contents.head? := by
  obtain ⟨hcalls, -⟩ := drainLoop_spec sender r [] 0
  refine ⟨b.drain sender, r.drainChecked hcap sender, ?_⟩
  unfold drain
  rw [hcalls, List.nil_append]
  cases b.contents with
  | nil => rfl
  | cons m q =>
    unfold callsOn
    cases sender ([] : List (String × Answer)).length m with
    | threw left => rfl
    | returned ok left => cases ok <;> rfl

variable {s : Journal} (r : s.buffer.Rep cap first n)
include r

lemma Journal.step_push (m : String) : s.step (.push m) =
    some ⟨(s.buffer.push m).1, s.pushed ++ [m], s.gone ++ s.buffer.evicts⟩ := by
  rw [Journal.step, r.pushChecked hcap]
  rfl

lemma Journal.step_drain (sender : Sender) : s.step (.drain sender) =
    some ⟨(s.buffer.drain sender).buffer, s.pushed,
      s.gone ++ (s.buffer.drain sender).calls.filterMap fate⟩ := by
  rw [Journal.step, r.drainChecked hcap]
  rfl

lemma Journal.step_discard : s.step .discard =
    if first + n ≤ 2147483648 then
      some ⟨s.buffer.discard.1, s.pushed, s.gone ++ s.buffer.contents.map (Prod.mk .discarded)⟩
    else none := by
  rw [Journal.step, r.discardChecked hcap]
  split <;> rfl

end Checked

/-- With an accepting sender, what left the buffer in a `Drain` was accepted. -/
lemma fate_of_sends (k : ℕ) (q : List String) (h : Sends sender k q) :
    ((callsOn sender k q).filterMap fate).map Prod.snd ++ leftOn sender k q = q ∧
      ∀ g ∈ (callsOn sender k q).filterMap fate, g.1 = .accepted := by
  induction q generalizing k with
  | nil => exact ⟨rfl, List.forall_mem_nil _⟩
  | cons m q ih =>
    unfold Sends at h
    unfold callsOn leftOn
    cases ha : sender k m with
    | threw left =>
      rw [ha] at h
      refine ⟨?_, List.forall_mem_nil _⟩
      rw [h]
      rfl
    | returned ok left =>
      rw [ha] at h
      obtain ⟨rfl, hq⟩ := h
      obtain ⟨heq, hall⟩ := ih (k + 1) hq
      refine ⟨congrArg (m :: ·) heq, ?_⟩
      intro g hg
      rcases List.mem_cons.mp hg with rfl | hg
      · rfl
      · exact hall g hg

/-- The buffer of a journal is well formed, whatever the senders do. -/
lemma Journal.step_rep {s t : Journal} {a : Op} (hcap : cap ≤ 2147483647)
    (r : s.buffer.Rep cap first n) (hn : s.step a = some t) :
    ∃ first n, t.buffer.Rep cap first n := by
  cases a with
  | push m =>
    obtain rfl := Option.some.inj ((Journal.step_push hcap r m).symm.trans hn)
    exact r.step (.push m)
  | drain sender =>
    obtain rfl := Option.some.inj ((Journal.step_drain hcap r sender).symm.trans hn)
    exact r.step (.drain sender)
  | discard =>
    rw [Journal.step_discard hcap r] at hn
    split at hn
    · obtain rfl := Option.some.inj hn
      exact r.step .discard
    · cases hn

lemma reachable_rep {capacity : ℤ} (hmax : capacity ≤ 2147483647) {s : Journal}
    (h : (sys capacity).Reachable s) :
    ∃ first n, s.buffer.Rep (new capacity).capacity.toNat first n := by
  induction h with
  | init hi =>
    obtain rfl := hi
    exact ⟨0, 0, rep_new_capacity capacity⟩
  | step _ _ hn ih =>
    obtain ⟨first, n, r⟩ := ih
    exact Journal.step_rep (capacity_new_le hmax) r hn

/-- What was pushed left the buffer, in order, and the rest is buffered. -/
structure Journal.Accounted (s : Journal) : Prop where
  pushed : s.pushed = s.gone.map Prod.snd ++ s.buffer.contents
  kept : ∀ g ∈ s.gone, g.1 ≠ .refused

/-- Messages come in, others leave, and none of those was refused. -/
lemma Journal.Accounted.leave {s : Journal} (h : s.Accounted) {pushed more : List String}
    {left : List (Fate × String)} {b' : MessageBuffer} (hp : pushed = s.pushed ++ more)
    (heq : s.buffer.contents ++ more = left.map Prod.snd ++ b'.contents)
    (hleft : ∀ g ∈ left, g.1 ≠ .refused) : Journal.Accounted ⟨b', pushed, s.gone ++ left⟩ where
  pushed := by rw [hp, h.pushed, List.append_assoc, heq, List.map_append, List.append_assoc]
  kept := by
    intro g hg
    rcases List.mem_append.mp hg with hg | hg
    · exact h.kept g hg
    · exact hleft g hg

/-- What a push overwrites is the oldest message. -/
lemma evicts_spec (r : b.Rep cap first n) (m : String) :
    b.contents ++ [m] = b.evicts.map Prod.snd ++ (b.push m).1.contents := by
  rcases Nat.lt_or_eq_of_le r.le with hlt | rfl
  · have hne : ¬ b.count = b.capacity := by
      rw [r.count, r.capacity]
      omega
    have hno : b.evicts = [] := if_neg hne
    rw [hno, (push_spec r hlt m).2.1]
    rfl
  · have heq : b.count = b.capacity := by rw [r.count, r.capacity]
    have hev : b.evicts = [(.evicted, b.buffer.getD b.head.toNat "")] := if_pos heq
    obtain ⟨k, rfl⟩ := Nat.exists_eq_succ_of_ne_zero (Nat.ne_of_gt r.pos)
    rw [hev, (push_spec_full r m).2.1]
    exact congrArg (· ++ [m]) (front_spec r)

lemma evicts_kept : ∀ g ∈ b.evicts, g.1 ≠ .refused := by
  intro g hg
  unfold evicts at hg
  split at hg
  · rw [List.mem_singleton.mp hg]
    exact nofun
  · cases hg

lemma Journal.step_accounted {s t : Journal} {a : Op} (hcap : cap ≤ 2147483647)
    (r : s.buffer.Rep cap first n) (met : Met s a) (h : s.Accounted) (hn : s.step a = some t) :
    t.Accounted := by
  cases a with
  | push m =>
    obtain rfl := Option.some.inj ((Journal.step_push hcap r m).symm.trans hn)
    exact h.leave rfl (evicts_spec r m) evicts_kept
  | drain sender =>
    obtain rfl := Option.some.inj ((Journal.step_drain hcap r sender).symm.trans hn)
    obtain ⟨hcalls, -, hleft, -⟩ := drainLoop_spec sender r [] 0
    obtain ⟨heq, hall⟩ := fate_of_sends 0 s.buffer.contents (met sender rfl)
    have hcalls' : (s.buffer.drain sender).calls = callsOn sender 0 s.buffer.contents := hcalls
    have hleft' : (s.buffer.drain sender).buffer.contents = leftOn sender 0 s.buffer.contents :=
      hleft
    apply h.leave (List.append_nil _).symm
    · rw [hcalls', hleft', List.append_nil, heq]
    · intro g hg
      rw [hcalls'] at hg
      rw [hall g hg]
      exact nofun
  | discard =>
    rw [Journal.step_discard hcap r] at hn
    split at hn
    · obtain rfl := Option.some.inj hn
      apply h.leave (List.append_nil _).symm
      · rw [(discard_spec r).2.1, List.map_map, List.append_nil, List.append_nil]
        exact (List.map_id _).symm
      · intro g hg
        obtain ⟨m, -, rfl⟩ := List.mem_map.mp hg
        exact nofun
    · cases hn

lemma reach_accounted {capacity : ℤ} (hmax : capacity ≤ 2147483647) {s : Journal}
    (h : (sys capacity).Reach Met s) : s.Accounted := by
  induction h with
  | init hi =>
    obtain rfl := hi
    exact ⟨rfl, nofun⟩
  | step hr met hn ih =>
    obtain ⟨first, n, r⟩ := reachable_rep hmax hr.reachable
    exact Journal.step_accounted (capacity_new_le hmax) r met ih hn

/-- Up to a capacity of `2 ^ 30` every call is defined. -/
lemma Journal.step_defined {capacity : ℤ} (hcap : capacity ≤ 1073741824) {s : Journal}
    (h : (sys capacity).Reachable s) (a : Op) : ∃ t, s.step a = some t := by
  have hmax : (new capacity).capacity.toNat ≤ 2147483647 := capacity_new_le (by omega)
  obtain ⟨first, n, r⟩ := reachable_rep (by omega) h
  cases a with
  | push m => exact ⟨_, Journal.step_push hmax r m⟩
  | drain sender => exact ⟨_, Journal.step_drain hmax r sender⟩
  | discard =>
    rw [Journal.step_discard hmax r, if_pos (sum_le hcap r)]
    exact ⟨_, rfl⟩

/-- Whatever happened before, a `Drain` offers the oldest message first, and it loses nothing
exactly when its sender accepts up to an exception that leaves the string alone. Along runs of such
calls every pushed message was evicted, discarded, accepted or is still buffered, in order; and with
a capacity up to `2 ^ 30` no call of them overflows. -/
theorem drain_loses_nothing_iff {capacity : ℤ} (hmax : capacity ≤ 2147483647) :
    (∀ s, (sys capacity).Reachable s → ∀ sender,
      (∃ d, s.buffer.drainChecked sender = some d ∧
        (d.calls.map Prod.fst).head? = s.buffer.contents.head?) ∧
        (NoLoss sender s.buffer ↔ Sends sender 0 s.buffer.contents)) ∧
    (capacity ≤ 1073741824 → ∀ s, (sys capacity).Reach Met s →
      (∀ a, ∃ t, s.step a = some t) ∧
        s.pushed = s.gone.map Prod.snd ++ s.buffer.contents ∧
        ∀ g ∈ s.gone, g.1 = .evicted ∨ g.1 = .discarded ∨ g.1 = .accepted) := by
  constructor
  · intro s hs sender
    obtain ⟨first, n, r⟩ := reachable_rep hmax hs
    have hcap := capacity_new_le hmax
    exact ⟨calls_head hcap r, noLoss_iff hcap r⟩
  · intro hle s hs
    obtain ⟨hpushed, hkept⟩ := reach_accounted hmax hs
    refine ⟨Journal.step_defined hle hs.reachable, hpushed, ?_⟩
    intro g hg
    have hne := hkept g hg
    obtain ⟨f, m⟩ := g
    cases f with
    | evicted => exact .inl rfl
    | accepted => exact .inr (.inr rfl)
    | refused => exact absurd rfl hne
    | discarded => exact .inr (.inl rfl)

/-- A journal with one message pushed into a buffer of two slots. -/
def onePushed : Journal := ⟨((new 2).push "m").1, ["m"], []⟩

lemma onePushed_reachable : (sys 2).Reachable onePushed :=
  .step (a := .push "m") (.init rfl) trivial (by decide)

lemma onePushed_rep : onePushed.buffer.Rep 2 0 1 := by
  constructor <;> decide

lemma onePushed_contents : onePushed.buffer.contents = ["m"] := by decide

/-- A sender that throws before it touched the string: the message is still there, and the run
accounts for it. -/
theorem drain_loses_nothing_thrown :
    NoLoss (fun _ m => .threw m) onePushed.buffer ∧
      ∃ t, onePushed.step (.drain fun _ m => .threw m) = some t ∧
        t.pushed = t.gone.map Prod.snd ++ t.buffer.contents := by
  have hpush : (sys 2).Reach Met onePushed :=
    .step (a := .push "m") (.init rfl) (fun sender e => nomatch e) (by decide)
  have hmet : Met onePushed (.drain fun _ m => .threw m) := by
    intro sender e
    cases e
    rw [onePushed_contents]
    rfl
  have h := @drain_loses_nothing_iff 2 (by decide)
  obtain ⟨t, ht⟩ := (h.2 (by decide) onePushed hpush).1 (.drain fun _ m => .threw m)
  refine ⟨?_, t, ht, (h.2 (by decide) t (.step hpush hmet ht)).2.1⟩
  apply ((h.1 onePushed onePushed_reachable _).2).mpr
  rw [onePushed_contents]
  rfl

/-- A sender that refuses, and one that moves the string away and throws, both lose the message. -/
theorem drain_loses_refused :
    (sys 2).Reachable onePushed ∧
      ¬ NoLoss (fun _ m => .returned false m) onePushed.buffer ∧
      (∃ t, onePushed.step (.drain fun _ m => .returned false m) = some t ∧
        t.buffer.contents = []) ∧
      ¬ NoLoss (fun _ _ => .threw "") onePushed.buffer ∧
      ∃ t, onePushed.step (.drain fun _ _ => .threw "") = some t ∧ t.buffer.contents = [""] := by
  have hcap : 2 ≤ 2147483647 := by decide
  refine ⟨onePushed_reachable, ?_, ⟨_, Journal.step_drain hcap onePushed_rep _, ?_⟩, ?_,
    ⟨_, Journal.step_drain hcap onePushed_rep _, ?_⟩⟩
  · rw [noLoss_iff hcap onePushed_rep, onePushed_contents]
    exact fun h => Bool.false_ne_true h.1
  · have hspec := drainLoop_spec (fun _ m => .returned false m) onePushed_rep [] 0
    rw [onePushed_contents] at hspec
    exact hspec.2.2.1
  · rw [noLoss_iff hcap onePushed_rep, onePushed_contents]
    intro h
    have hm : "" = "m" := h
    exact absurd hm (by decide)
  · have hspec := drainLoop_spec (fun _ _ => .threw "") onePushed_rep [] 0
    rw [onePushed_contents] at hspec
    exact hspec.2.2.1

end KubeMQ.MessageBuffer
