import KubeMQ.EventsStore.Broker
import KubeMQ.Lts.Lock
import KubeMQ.Subscription.Delivery
import Mathlib.Order.Interval.Set.OrdConnected

/-!
# No gap across reconnects

The re-subscription sends the start option of the first subscription again. With a fixed start the
broker serves the same events once more, and nothing is lost; a start that moves with the store or
with the clock may skip what was published while the reader was away. In the runs in which no
position skips the event after one that was delivered (`resumes`) the delivered sequence numbers
form an interval (`no_gap_across_reconnects`); `new_only_loses_an_event` is a run in which they do
not.
-/

namespace KubeMQ.EventsStore

open Subscription

variable {sub : Proto.Subscribe} {h : Handlers}

/-- The steps of the world. -/
inductive Step (sub : Proto.Subscribe) (h : Handlers) (s : World) : Action → World → Prop where
  | publish {e} :
    Step sub h s (.publish e) { s with broker := s.broker.publish e }
  | tick {d : ℕ} :
    Step sub h s (.tick d) { s with broker := s.broker.tick d }
  | accept :
    s.broker.waiting = true →
    Step sub h s .accept { s with broker := s.broker.accept sub }
  | reader {l b m' r'} :
    s.broker.react l = some b →
    ReaderStep SubKind.eventsStore h s.sub.mem s.sub.reader.stream s.sub.reader.lastStatus
      s.sub.reader.pc l m' r' →
    Step sub h s (.reader l) ⟨{ s.sub with mem := m', reader := r' }, b⟩

lemma Step.of_next {s t : World} {a : Action} (hn : next sub h s a = some t) :
    Step sub h s a t := by
  cases a with
  | publish e =>
    cases hn
    exact .publish
  | tick d =>
    cases hn
    exact .tick
  | accept =>
    simp only [next] at hn
    split at hn
    · next hw =>
      cases hn
      exact .accept hw
    · cases hn
  | reader l =>
    obtain ⟨b, hb, hm⟩ := Option.bind_eq_some_iff.mp hn
    obtain ⟨⟨m', r'⟩, hr, rfl⟩ := Option.map_eq_some_iff.mp hm
    exact .reader hb (.of_next hr)

/-- The message that a label delivers. -/
def delivered : ReaderLabel Proto.EventReceive → List Proto.EventReceive
  | .msg p => [p]
  | _ => []

/-- A step of the reader adds the message that it delivers, and no other, to those read. -/
lemma messages_step {m m' : Mem Proto.EventReceive EventStoreReceive} {n : ℕ} {lst : GrpcStatus}
    {pc : ReaderPc EventStoreReceive} {r' : Reader EventStoreReceive}
    {l : ReaderLabel Proto.EventReceive}
    (st : ReaderStep SubKind.eventsStore h m n lst pc l m' r') :
    messages m'.log = messages m.log ++ delivered l := by
  cases st
  case accept _ ht =>
    obtain ⟨-, -, -, -, hl, -⟩ := Mem.take_spec ht
    rw [hl, messages_append]
    rfl
  case skip _ ht =>
    obtain ⟨-, -, -, -, hl, -⟩ := Mem.take_spec ht
    rw [hl, messages_append]
    rfl
  all_goals simp [messages, delivered, Mem.observe]

/-- A step that calls the event callback leaves nothing to pass to it. -/
lemma onEvents_step {m m' : Mem Proto.EventReceive EventStoreReceive} {n : ℕ} {lst : GrpcStatus}
    {pc : ReaderPc EventStoreReceive} {r' : Reader EventStoreReceive}
    {l : ReaderLabel Proto.EventReceive}
    (st : ReaderStep SubKind.eventsStore h m n lst pc l m' r') :
    onEvents m'.log = onEvents m.log ∨ (h.onEvent = true ∧ r'.pc.pending = []) := by
  cases st
  case call _ hset => exact .inr ⟨hset, rfl⟩
  case accept _ ht =>
    obtain ⟨-, -, -, -, hl, -⟩ := Mem.take_spec ht
    rw [hl, onEvents_append]
    exact .inl (List.append_nil _)
  case skip _ ht =>
    obtain ⟨-, -, -, -, hl, -⟩ := Mem.take_spec ht
    rw [hl, onEvents_append]
    exact .inl (List.append_nil _)
  all_goals exact .inl (by simp [onEvents, Mem.observe])

/-- The sequence numbers of the messages read. -/
def seqs (ps : List Proto.EventReceive) : Set ℕ := {n | ∃ p ∈ ps, p.sequence = n}

/-- The sequence numbers of the events passed to `on_event`. -/
def passed (rs : List EventStoreReceive) : Set ℕ := {n | ∃ r ∈ rs, r.sequence = n}

/-- An interval of numbers grows by a number that is neither below it nor more than one above. -/
lemma ordConnected_insert {s : Set ℕ} {n : ℕ} (hs : s.OrdConnected) (low : ∃ x ∈ s, x ≤ n)
    (high : ∃ y ∈ s, n ≤ y + 1) : (insert n s).OrdConnected := by
  obtain ⟨x, hx, hxn⟩ := low
  obtain ⟨y, hy, hny⟩ := high
  refine Set.ordConnected_def.mpr fun i hi j hj k hk => ?_
  obtain ⟨hik, hkj⟩ := hk
  rcases hi with rfl | hi
  · rcases hj with rfl | hj
    · exact .inl (Nat.le_antisymm hkj hik)
    · exact .inr (hs.out hx hj ⟨Nat.le_trans hxn hik, hkj⟩)
  · rcases hj with rfl | hj
    · by_cases hk : k = j
      · exact .inl hk
      · exact .inr (hs.out hi hy ⟨hik, by omega⟩)
    · exact .inr (hs.out hi hj ⟨hik, hkj⟩)

lemma seqs_concat (ps : List Proto.EventReceive) (p : Proto.EventReceive) :
    seqs (ps ++ [p]) = insert p.sequence (seqs ps) := by
  ext n
  simp only [seqs, List.mem_append, List.mem_singleton, Set.mem_ofPred_eq, Set.mem_insert_iff]
  constructor
  · rintro ⟨q, hq | rfl, rfl⟩
    · exact .inr ⟨q, hq, rfl⟩
    · exact .inl rfl
  · rintro (rfl | ⟨q, hq, rfl⟩)
    · exact ⟨p, .inr rfl, rfl⟩
    · exact ⟨q, .inl hq, rfl⟩

lemma passed_map (ps : List Proto.EventReceive) :
    passed (ps.map receiveEventStore) = seqs ps := by
  ext n
  simp [passed, seqs, receiveEventStore]

/-- What the broker has stored. -/
structure StoreInv (b : Broker) : Prop where
  sequences : ∀ (i : ℕ) (e : Proto.EventReceive), b.stored[i]? = some e → e.sequence = i + 1
  times : b.stored.Pairwise fun x y => x.timestamp ≤ y.timestamp
  past : ∀ e ∈ b.stored, e.timestamp ≤ b.now

lemma StoreInv.publish {b : Broker} (inv : StoreInv b) (e : Proto.EventReceive) :
    StoreInv (b.publish e) := by
  refine ⟨fun i x hx => ?_, ?_, fun x hx => ?_⟩
  · rcases Lts.getElem?_concat_cases hx with hx | ⟨rfl, rfl⟩
    · exact inv.sequences i x hx
    · rfl
  · refine List.pairwise_append.mpr ⟨inv.times, List.pairwise_singleton _ _, fun x hx y hy => ?_⟩
    cases List.mem_singleton.mp hy
    exact inv.past x hx
  · rcases List.mem_append.mp hx with hx | hx
    · exact inv.past x hx
    · cases List.mem_singleton.mp hx
      exact Int.le_refl _

/-- A stored event is found at its sequence number. -/
lemma StoreInv.getElem? {b : Broker} (inv : StoreInv b) {e : Proto.EventReceive}
    (he : e ∈ b.stored) : ∃ i, e.sequence = i + 1 ∧ b.stored[i]? = some e := by
  obtain ⟨i, hi⟩ := List.mem_iff_getElem?.mp he
  exact ⟨i, inv.sequences i e hi, hi⟩

lemma StoreInv.eq_of_sequence {b : Broker} (inv : StoreInv b) {e e' : Proto.EventReceive}
    (he : e ∈ b.stored) (he' : e' ∈ b.stored) (hs : e.sequence = e'.sequence) : e = e' := by
  obtain ⟨i, hi, hei⟩ := inv.getElem? he
  obtain ⟨j, hj, hej⟩ := inv.getElem? he'
  have hij : i = j := by omega
  subst hij
  rw [hei] at hej
  exact Option.some.inj hej

/-- Events with larger numbers were stored later. -/
lemma StoreInv.timestamp_le {b : Broker} (inv : StoreInv b) {e e' : Proto.EventReceive}
    (he : e ∈ b.stored) (he' : e' ∈ b.stored) (hs : e.sequence ≤ e'.sequence) :
    e.timestamp ≤ e'.timestamp := by
  obtain ⟨i, hi, hei⟩ := inv.getElem? he
  obtain ⟨j, hj, hej⟩ := inv.getElem? he'
  obtain ⟨hil, rfl⟩ := List.getElem?_eq_some_iff.mp hei
  obtain ⟨hjl, rfl⟩ := List.getElem?_eq_some_iff.mp hej
  rcases Nat.eq_or_lt_of_le (show i ≤ j by omega) with rfl | hlt
  · exact Int.le_refl _
  · exact List.pairwise_iff_getElem.mp inv.times i j hil hjl hlt

/-- The broker sends the first stored event that its position admits. -/
lemma StoreInv.next_spec {b : Broker} (inv : StoreInv b) {p : Proto.EventReceive}
    (hn : b.next = some p) : ∃ pos, b.serving = some pos ∧ p ∈ b.stored ∧ pos.admits p = true ∧
      ∀ e ∈ b.stored, pos.admits e = true → p.sequence ≤ e.sequence := by
  obtain ⟨pos, hpos, hf⟩ := Option.bind_eq_some_iff.mp hn
  refine ⟨pos, hpos, List.mem_of_find?_eq_some hf, List.find?_some hf, fun e he ha => ?_⟩
  obtain ⟨-, i, hi, rfl, hbefore⟩ := List.find?_eq_some_iff_getElem.mp hf
  obtain ⟨j, hj, hej⟩ := inv.getElem? he
  obtain ⟨hjl, rfl⟩ := List.getElem?_eq_some_iff.mp hej
  rw [inv.sequences i _ (List.getElem?_eq_getElem hi), hj]
  by_contra hlt
  have := hbefore j (by omega)
  rw [ha] at this
  cases this

lemma Position.admits_iff {pos : Position} {e : Proto.EventReceive} :
    pos.admits e = true ↔ pos.cursor ≤ e.sequence ∧ ∀ t ∈ pos.since, t ≤ e.timestamp := by
  obtain ⟨c, _ | t⟩ := pos <;> simp [Position.admits]

lemma Broker.reaches_iff {b : Broker} {pos : Position} {n : ℕ} :
    b.reaches pos n = true ↔ pos.cursor ≤ n + 1 ∧ ∀ t ∈ pos.since, t ≤ b.timeAfter n := by
  obtain ⟨c, _ | t⟩ := pos <;> simp [Broker.reaches]

/-- Publishing does not change when the event after `n` is stored at the earliest. -/
lemma Broker.timeAfter_publish (b : Broker) (e : Proto.EventReceive) (n : ℕ) :
    (b.publish e).timeAfter n = b.timeAfter n := by
  unfold Broker.timeAfter Broker.publish
  rcases Nat.lt_trichotomy n b.stored.length with hlt | rfl | hgt
  · simp [List.getElem?_append_left hlt]
  · simp
  · simp [List.getElem?_append_right (Nat.le_of_lt hgt), List.getElem?_eq_none (Nat.le_of_lt hgt),
      show n - b.stored.length ≠ 0 by omega]

lemma Broker.timeAfter_tick (b : Broker) (d n : ℕ) :
    b.timeAfter n ≤ (b.tick d).timeAfter n := by
  unfold Broker.timeAfter Broker.tick
  dsimp only
  split
  · exact Int.le_refl _
  · omega

/-- The store has reached sequence number `n` no later than the event after it. -/
lemma StoreInv.le_timeAfter {b : Broker} (inv : StoreInv b) {e : Proto.EventReceive}
    (he : e ∈ b.stored) : e.timestamp ≤ b.timeAfter e.sequence := by
  unfold Broker.timeAfter
  split
  · next e' he' =>
    have hs := inv.sequences _ _ he'
    exact inv.timestamp_le he (List.mem_of_getElem? he') (by omega)
  · exact inv.past e he

/-- From a position that reaches the event after `n`, the first event served is no later. -/
lemma StoreInv.next_le {b : Broker} (inv : StoreInv b) {pos : Position}
    {p top : Proto.EventReceive}
    (hmin : ∀ e ∈ b.stored, pos.admits e = true → p.sequence ≤ e.sequence)
    (hp : p ∈ b.stored) (hr : b.reaches pos top.sequence = true) :
    p.sequence ≤ top.sequence + 1 := by
  obtain ⟨hc, hs⟩ := Broker.reaches_iff.mp hr
  cases hnext : b.stored[top.sequence]? with
  | none =>
    -- `top` is the last event stored
    obtain ⟨i, hi, hpi⟩ := inv.getElem? hp
    obtain ⟨hlt, -⟩ := List.getElem?_eq_some_iff.mp hpi
    have := List.getElem?_eq_none_iff.mp hnext
    omega
  | some e =>
    have he := inv.sequences _ _ hnext
    have := hmin e (List.mem_of_getElem? hnext) (Position.admits_iff.mpr ⟨by omega, fun t h => ?_⟩)
    · omega
    · have := hs t h
      unfold Broker.timeAfter at this
      rwa [hnext] at this

/-- The position that a `Subscribe` names moves with the store and with the clock, never back. -/
lemma Broker.position_later {b b' : Broker} (hl : b.stored.length ≤ b'.stored.length)
    (hn : b.now ≤ b'.now) {late : Position} (hp : b'.position sub = some late) :
    ∃ early, b.position sub = some early ∧
      ∀ e, late.admits e = true → early.admits e = true := by
  unfold Broker.position at hp ⊢
  split at hp <;> cases hp
  all_goals
    refine ⟨_, rfl, fun e ha => ?_⟩
    simp only [Position.admits_iff, Option.mem_def, Option.some.injEq, reduceCtorEq, false_implies,
      forall_const, forall_eq', and_true] at ha ⊢
    omega

/-- A fixed start names the same position at every time. -/
lemma Broker.position_fixed (hf : fixedStart sub = true) (b b' : Broker) :
    b.position sub = b'.position sub := by
  unfold fixedStart at hf
  unfold Broker.position
  split at hf <;> simp_all

/-- The messages read so far and the broker: what was read is an interval of the store, and
neither the position served nor the one that a new `Subscribe` names lies before it. -/
structure Served (sub : Proto.Subscribe) (ps : List Proto.EventReceive) (b : Broker) : Prop where
  store : StoreInv b
  stored : ∀ p ∈ ps, p ∈ b.stored
  interval : (seqs ps).OrdConnected
  /-- Before the first delivery the stream has been asked for all that a new one would. -/
  unread : ps = [] → ∀ pos ∈ b.serving, ∀ now ∈ b.position sub, ∀ e,
    now.admits e = true → pos.admits e = true
  floor : ps ≠ [] → ∀ pos, (pos ∈ b.serving ∨ pos ∈ b.position sub) → ∀ e ∈ b.stored,
    pos.admits e = true → ∃ x ∈ ps, x.sequence ≤ e.sequence
  ceiling : ps ≠ [] → ∀ pos ∈ b.serving, ∃ top ∈ ps, b.reaches pos top.sequence = true
  fixed : fixedStart sub = true → ∀ pos ∈ b.position sub, (∀ p ∈ ps, pos.admits p = true) ∧
    ∀ cur ∈ b.serving, ∀ e, cur.admits e = true → pos.admits e = true

/-- The store and the clock move on: what is new in the store comes after everything in it. -/
lemma Served.later {ps : List Proto.EventReceive} {b b' : Broker} (inv : Served sub ps b)
    (store : StoreInv b') (serving : b'.serving = b.serving)
    (length : b.stored.length ≤ b'.stored.length) (now : b.now ≤ b'.now)
    (kept : ∀ e ∈ b.stored, e ∈ b'.stored)
    (new : ∀ e ∈ b'.stored, e ∈ b.stored ∨ ∀ p ∈ b.stored, p.sequence ≤ e.sequence)
    (time : ∀ n, b.timeAfter n ≤ b'.timeAfter n) : Served sub ps b' := by
  have earlier {late : Position} (hp : late ∈ b'.position sub) :=
    Broker.position_later length now hp
  refine ⟨store, fun p hp => kept p (inv.stored p hp), inv.interval, ?_, ?_, ?_, ?_⟩
  · intro hps pos hpos late hlate e he
    rw [serving] at hpos
    obtain ⟨early, hearly, hle⟩ := earlier hlate
    exact inv.unread hps pos hpos early hearly e (hle e he)
  · intro hps pos hpos e he ha
    rcases new e he with he | hafter
    · rcases hpos with hpos | hpos
      · rw [serving] at hpos
        exact inv.floor hps pos (.inl hpos) e he ha
      · obtain ⟨early, hearly, hle⟩ := earlier hpos
        exact inv.floor hps early (.inr hearly) e he (hle e ha)
    · obtain ⟨p, hp⟩ := List.exists_mem_of_ne_nil ps hps
      exact ⟨p, hp, hafter p (inv.stored p hp)⟩
  · intro hps pos hpos
    rw [serving] at hpos
    obtain ⟨top, htop, hr⟩ := inv.ceiling hps pos hpos
    obtain ⟨hc, ht⟩ := Broker.reaches_iff.mp hr
    exact ⟨top, htop, Broker.reaches_iff.mpr
      ⟨hc, fun t hmem => Int.le_trans (ht t hmem) (time top.sequence)⟩⟩
  · intro hf pos hpos
    rw [Broker.position_fixed hf b' b] at hpos
    rw [serving]
    exact inv.fixed hf pos hpos

lemma Served.publish {ps : List Proto.EventReceive} {b : Broker} (inv : Served sub ps b)
    (e : Proto.EventReceive) : Served sub ps (b.publish e) := by
  apply inv.later (inv.store.publish e) rfl
  · simp [Broker.publish]
  · exact Int.le_refl _
  · exact fun x hx => List.mem_append_left _ hx
  · intro x hx
    rcases List.mem_append.mp hx with hx | hx
    · exact .inl hx
    · cases List.mem_singleton.mp hx
      refine .inr fun p hp => ?_
      obtain ⟨i, hi, hpi⟩ := inv.store.getElem? hp
      obtain ⟨hlt, -⟩ := List.getElem?_eq_some_iff.mp hpi
      dsimp only
      omega
  · exact fun n => Int.le_of_eq (b.timeAfter_publish e n).symm

lemma Served.tick {ps : List Proto.EventReceive} {b : Broker} (inv : Served sub ps b) (d : ℕ) :
    Served sub ps (b.tick d) := by
  have hn : b.now ≤ (b.tick d).now := by
    simp only [Broker.tick]
    omega
  have store : StoreInv (b.tick d) :=
    ⟨inv.store.sequences, inv.store.times, fun x hx => Int.le_trans (inv.store.past x hx) hn⟩
  apply inv.later store rfl (Nat.le_refl _) hn
  · exact fun _ => id
  · exact fun _ => .inl
  · exact b.timeAfter_tick d

/-- A start that admits what was read does not skip the event after it. -/
lemma StoreInv.reaches {b : Broker} (inv : StoreInv b) {pos : Position}
    {p : Proto.EventReceive} (hp : p ∈ b.stored) (ha : pos.admits p = true) :
    b.reaches pos p.sequence = true := by
  obtain ⟨hc, ht⟩ := Position.admits_iff.mp ha
  exact Broker.reaches_iff.mpr
    ⟨by omega, fun t h => Int.le_trans (ht t h) (inv.le_timeAfter hp)⟩

/-- The broker turns to a `Subscribe`. -/
lemma Served.accept {ps : List Proto.EventReceive} {b : Broker} (inv : Served sub ps b)
    (hg : fixedStart sub = true ∨ ps = [] ∨
      ∀ pos ∈ b.position sub, ∃ p ∈ ps, b.reaches pos p.sequence = true) :
    Served sub ps (b.accept sub) := by
  refine ⟨⟨inv.store.sequences, inv.store.times, inv.store.past⟩, inv.stored, inv.interval,
    fun hps pos hpos now hnow x hx => ?_, fun hps pos hpos => ?_, fun hps pos hpos => ?_,
    fun hf pos hpos => ⟨(inv.fixed hf pos hpos).1, fun cur hcur x hx => ?_⟩⟩
  · cases Option.some.inj (Eq.trans (Eq.symm hpos) hnow)
    exact hx
  · exact inv.floor hps pos (.inr (hpos.elim id id))
  · rcases hg with hf | hnil | hr
    · obtain ⟨p, hp⟩ := List.exists_mem_of_ne_nil ps hps
      exact ⟨p, hp, inv.store.reaches (inv.stored p hp) ((inv.fixed hf pos hpos).1 p hp)⟩
    · exact absurd hnil hps
    · exact hr pos hpos
  · cases Option.some.inj (Eq.trans (Eq.symm hpos) hcur)
    exact hx

/-- The stream is lost; the next `Subscribe` is on its way. -/
lemma Served.reopen {ps : List Proto.EventReceive} {b : Broker} (inv : Served sub ps b) :
    Served sub ps b.reopen where
  store := ⟨inv.store.sequences, inv.store.times, inv.store.past⟩
  stored := inv.stored
  interval := inv.interval
  unread := fun _ _ hpos => nomatch hpos
  floor := fun hps pos hpos => inv.floor hps pos (.inr (hpos.resolve_left nofun))
  ceiling := fun _ _ hpos => nomatch hpos
  fixed := fun hf pos hpos => ⟨(inv.fixed hf pos hpos).1, fun _ hcur => nomatch hcur⟩

/-- The broker delivers its next event, which extends what was read. -/
lemma Served.sent {ps : List Proto.EventReceive} {b : Broker} {p : Proto.EventReceive}
    (inv : Served sub ps b) (hn : b.next = some p) : Served sub (ps ++ [p]) (b.sent p) := by
  obtain ⟨pos, hpos, hp, ha, hmin⟩ := inv.store.next_spec hn
  have moved {cur : Position} (hcur : cur ∈ (b.sent p).serving) :
      cur = { pos with cursor := p.sequence + 1 } := by
    simp only [Broker.sent, hpos, Option.map_some, Option.mem_def, Option.some.injEq] at hcur
    exact hcur.symm
  have narrower {e : Proto.EventReceive}
      (he : Position.admits { pos with cursor := p.sequence + 1 } e = true) :
      pos.admits e = true := by
    have hc := (Position.admits_iff.mp ha).1
    obtain ⟨hc', ht⟩ := Position.admits_iff.mp he
    dsimp only at hc' ht
    exact Position.admits_iff.mpr ⟨by omega, ht⟩
  refine ⟨⟨inv.store.sequences, inv.store.times, inv.store.past⟩, fun q hq => ?_, ?_,
    fun hps => absurd hps (by simp), fun _ cur hcur e he hae => ?_, fun _ cur hcur => ?_,
    fun hf start hs => ⟨fun q hq => ?_, fun cur hcur e hae => ?_⟩⟩
  · rcases List.mem_append.mp hq with hq | hq
    · exact inv.stored q hq
    · cases List.mem_singleton.mp hq
      exact hp
  · rw [seqs_concat]
    by_cases hps : ps = []
    · subst hps
      have hnone : seqs [] = ∅ := by
        ext n
        simp [seqs]
      rw [hnone, insert_empty_eq]
      exact Set.ordConnected_singleton
    · refine ordConnected_insert inv.interval ?_ ?_
      · obtain ⟨x, hx, hle⟩ := inv.floor hps pos (.inl hpos) p hp ha
        exact ⟨x.sequence, ⟨x, hx, rfl⟩, hle⟩
      · obtain ⟨top, ht, hr⟩ := inv.ceiling hps pos hpos
        exact ⟨top.sequence, ⟨top, ht, rfl⟩, inv.store.next_le hmin hp hr⟩
  · by_cases hps : ps = []
    · refine ⟨p, by simp, hmin e he ?_⟩
      rcases hcur with hcur | hcur
      · cases moved hcur
        exact narrower hae
      · exact inv.unread hps pos hpos cur hcur e hae
    · rcases hcur with hcur | hcur
      · cases moved hcur
        obtain ⟨x, hx, hle⟩ := inv.floor hps pos (.inl hpos) e he (narrower hae)
        exact ⟨x, List.mem_append_left _ hx, hle⟩
      · obtain ⟨x, hx, hle⟩ := inv.floor hps cur (.inr hcur) e he hae
        exact ⟨x, List.mem_append_left _ hx, hle⟩
  · cases moved hcur
    refine ⟨p, by simp, Broker.reaches_iff.mpr ⟨Nat.le_refl _, fun t ht => ?_⟩⟩
    exact Int.le_trans ((Position.admits_iff.mp ha).2 t ht) (inv.store.le_timeAfter hp)
  · rcases List.mem_append.mp hq with hq | hq
    · exact (inv.fixed hf start hs).1 q hq
    · cases List.mem_singleton.mp hq
      exact (inv.fixed hf start hs).2 pos hpos p ha
  · cases moved hcur
    exact (inv.fixed hf start hs).2 pos hpos e (narrower hae)

/-- What a step of the reader means to the broker. -/
lemma Served.react {ps : List Proto.EventReceive} {b b' : Broker}
    {l : ReaderLabel Proto.EventReceive} (inv : Served sub ps b) (hb : b.react l = some b') :
    Served sub (ps ++ delivered l) b' := by
  cases l with
  | msg p =>
    obtain ⟨hn, hb⟩ := Option.ite_none_right_eq_some.mp hb
    cases hb
    exact inv.sent hn
  | stub opened =>
    cases opened <;> cases hb
    · simpa [delivered] using inv
    · simpa [delivered] using inv.reopen
  | _ =>
    cases hb
    simpa [delivered] using inv

/-- What holds of the subscription and its broker, as long as every `Subscribe` resumes. -/
structure GapInv (sub : Proto.Subscribe) (h : Handlers) (s : World) : Prop where
  running : s.sub.mem.done = false ∧ s.sub.reader.pc.exiting = false
  answered : Answered SubKind.eventsStore h s.sub.mem.log s.sub.reader.pc
  served : Served sub (messages s.sub.mem.log) s.broker
  interval : (passed (onEvents s.sub.mem.log)).OrdConnected

/-- Every event passed to `on_event` was read. -/
lemma Answered.passed_eq {log : List (Obs Proto.EventReceive EventStoreReceive)}
    {pc : ReaderPc EventStoreReceive} (inv : Answered SubKind.eventsStore h log pc)
    (hset : h.onEvent = true) :
    onEvents log ++ pc.pending = (messages log).map receiveEventStore := by
  have hall : (messages log).filter SubKind.eventsStore.accepts = messages log :=
    List.filter_eq_self.mpr fun _ _ => rfl
  rw [inv.called hset, hall]
  rfl

lemma gapInv_start {s : World} (hi : Initial s) : GapInv sub h s := by
  obtain ⟨⟨m, r, c⟩, b⟩ := s
  obtain ⟨hs, hw, hsv, hq, ht, hp⟩ := hi
  cases hs
  dsimp only at hsv
  refine ⟨⟨rfl, rfl⟩, answered_start, ⟨⟨hq, ht, hp⟩, nofun, ?_, fun _ pos hpos => ?_,
    fun hne => absurd rfl hne, fun hne => absurd rfl hne,
    fun _ pos _ => ⟨nofun, fun cur hcur => ?_⟩⟩, ?_⟩
  · exact Set.ordConnected_def.mpr fun _ hx => nomatch hx
  · rw [hsv] at hpos
    cases hpos
  · rw [hsv] at hcur
    cases hcur
  · exact Set.ordConnected_def.mpr fun _ hx => nomatch hx

/-- The guard, as a proposition. -/
lemma resumes_accept {s : World} (hg : resumes sub s .accept = true) :
    fixedStart sub = true ∨ messages s.sub.mem.log = [] ∨
      ∀ pos ∈ s.broker.position sub, ∃ p ∈ messages s.sub.mem.log,
        s.broker.reaches pos p.sequence = true := by
  simp only [resumes, Bool.or_eq_true, List.isEmpty_iff] at hg
  rcases hg with (hf | hnil) | hr
  · exact .inl hf
  · exact .inr (.inl hnil)
  · refine .inr (.inr fun pos hpos => ?_)
    rw [Option.mem_def.mp hpos] at hr
    exact List.any_eq_true.mp hr

lemma GapInv.step {s t : World} {a : Action} (inv : GapInv sub h s)
    (hg : resumes sub s a = true) (st : Step sub h s a t) : GapInv sub h t := by
  obtain ⟨running, answered, served, interval⟩ := inv
  cases st with
  | publish => exact ⟨running, answered, served.publish _, interval⟩
  | tick => exact ⟨running, answered, served.tick _, interval⟩
  | accept hw => exact ⟨running, answered, served.accept (resumes_accept hg), interval⟩
  | @reader l b m' r' hb st =>
    have answered' := st.answered running.2 answered
    have served' : Served sub (messages m'.log) b := by
      rw [messages_step st]
      exact served.react hb
    refine ⟨st.alive running.1 running.2, answered', served', ?_⟩
    show (passed (onEvents m'.log)).OrdConnected
    rcases onEvents_step st with heq | ⟨hset, hnone⟩
    · rw [heq]
      exact interval
    · have hall := Answered.passed_eq answered' hset
      rw [hnone, List.append_nil] at hall
      rw [hall, passed_map]
      exact served'.interval

lemma GapInv.noGap {s : World} (inv : GapInv sub h s) : NoGap s := by
  intro r₁ h₁ r₂ h₂ e he hlo hhi
  cases hset : h.onEvent with
  | false =>
    rw [inv.answered.noEvent hset] at h₁
    cases h₁
  | true =>
    have hmid := inv.interval.out ⟨r₁, h₁, rfl⟩ ⟨r₂, h₂, rfl⟩
      ⟨Nat.le_of_lt hlo, Nat.le_of_lt hhi⟩
    obtain ⟨r, hr, hseq⟩ := hmid
    have hin : r ∈ (messages s.sub.mem.log).map receiveEventStore := by
      rw [← Answered.passed_eq inv.answered hset]
      exact List.mem_append_left _ hr
    obtain ⟨p, hp, rfl⟩ := List.mem_map.mp hin
    rwa [inv.served.store.eq_of_sequence he (inv.served.stored p hp) hseq.symm]

/-- In a run in which every `Subscribe` that reaches the broker after a delivery has a fixed
start, or names a position that does not skip the event after one that was delivered, no stored
event between two delivered ones is lost. -/
theorem no_gap_across_reconnects (clientId channel : String) (o : SubscriptionOption)
    (h : Handlers) (s : World)
    (hr : (sys (subscribeRequest clientId channel "" o) h).Reach
      (fun s a => resumes (subscribeRequest clientId channel "" o) s a = true) s) : NoGap s := by
  refine (hr.invariant (I := GapInv (subscribeRequest clientId channel "" o) h) ?_ ?_).noGap
  · exact fun _ hi => gapInv_start hi
  · exact fun _ _ _ _ inv hg hn => inv.step hg (Step.of_next hn)

/-- An empty store. -/
def sampleWorld : World := ⟨Subscription.start, ⟨[], 0, true, none⟩⟩

lemma initial_sampleWorld : Initial sampleWorld :=
  ⟨rfl, rfl, rfl, fun _ _ h => (nomatch h), List.Pairwise.nil, nofun⟩

/-- `sampleEvent id` as it is stored with sequence number `n`. -/
def storedEvent (id : String) (n : ℕ) : Proto.EventReceive :=
  { sampleEvent id with sequence := n }

/-- The stream breaks after the first event, and the second is published before the reader has
subscribed again. -/
def publishWhileAway : List Action :=
  [.accept, .publish (sampleEvent "a"), .reader .tau, .reader (.msg (storedEvent "a" 1)),
    .reader .tau, .reader (.callback none), .reader .eos,
    .reader (.finish ⟨.UNAVAILABLE, "down"⟩), .reader .tau, .publish (sampleEvent "b"),
    .reader .tau, .reader .slept, .reader .tau, .reader (.gate true), .reader (.stub true),
    .accept, .reader .tau, .reader .tau, .publish (sampleEvent "c")]

/-- A subscription from the first event on is served the first event once more. -/
def replayAll : List Action :=
  publishWhileAway ++ [.reader (.msg (storedEvent "a" 1)), .reader .tau,
    .reader (.callback none), .reader (.msg (storedEvent "b" 2)), .reader .tau]

theorem no_gap_across_reconnects_first_event :
    ∃ s, (sys (subscribeRequest "me" "news" "" .startFromFirstEvent) ⟨true, true⟩).exec
        sampleWorld replayAll = some s ∧ NoGap s := by
  refine ⟨_, rfl, no_gap_across_reconnects "me" "news" .startFromFirstEvent ⟨true, true⟩ _ ?_⟩
  exact Lts.Sys.Reach.execWhere (.init initial_sampleWorld) replayAll rfl

/-- A subscription to new events only loses what is published while it is away. -/
theorem new_only_loses_an_event :
    ¬∀ (clientId channel : String) (o : SubscriptionOption) (h : Handlers) (s : World),
      (sys (subscribeRequest clientId channel "" o) h).Reachable s → NoGap s := by
  intro hall
  have gap := hall "me" "news" .startFromNewEvents ⟨true, true⟩ _ <|
    Lts.Sys.Reachable.exec (.init initial_sampleWorld)
      (publishWhileAway ++ [.reader (.msg (storedEvent "c" 3)), .reader .tau]) rfl
  have lost : receiveEventStore (storedEvent "b" 2) ∈
      [receiveEventStore (storedEvent "a" 1), receiveEventStore (storedEvent "c" 3)] :=
    gap _ (.head _) _ (.tail _ (.head _)) _ (.tail _ (.head _)) (by decide) (by decide)
  revert lost
  decide

end KubeMQ.EventsStore
