import KubeMQ.Lts.Basic

/-!
# Histories

The history of a run is a list that grows at its end. An entry is met as `before ++ x :: after`, so
that what held when it was made can be said about `before`. `Sys.recording` keeps a history beside the
states of any system.
-/

namespace Lts

variable {α : Type*} {log new before after : List α} {x : α}

/-- An entry of a history that has grown is an old one or one of the new ones. -/
lemma split_append (h : log ++ new = before ++ x :: after) :
    (∃ rest, log = before ++ x :: rest ∧ after = rest ++ new) ∨
      ∃ rest, before = log ++ rest ∧ new = rest ++ x :: after := by
  rcases List.append_eq_append_iff.mp h with ⟨rest, hb, hn⟩ | ⟨rest, hl, hx⟩
  · exact .inr ⟨rest, hb, hn⟩
  · cases rest with
    | nil =>
      refine .inr ⟨[], ?_, ?_⟩
      · simpa using hl.symm
      · simpa using hx.symm
    | cons y rest =>
      obtain ⟨rfl, ha⟩ := List.cons.inj hx
      exact .inl ⟨rest, hl, ha⟩

/-- With one new entry. -/
lemma split_concat {y : α} (h : log ++ [y] = before ++ x :: after) :
    (∃ rest, log = before ++ x :: rest ∧ after = rest ++ [y]) ∨
      before = log ∧ x = y ∧ after = [] := by
  rcases split_append h with hold | ⟨rest, rfl, hnew⟩
  · exact .inl hold
  · cases rest with
    | nil =>
      obtain ⟨rfl, rfl⟩ := List.cons.inj hnew
      exact .inr ⟨List.append_nil _, rfl, rfl⟩
    | cons z rest =>
      have hnil : [] = rest ++ x :: after := (List.cons.inj hnew).2
      exact absurd (List.append_eq_nil_iff.mp hnil.symm).2 nofun

/-- What holds of every entry and those before it, and of the new one, holds afterwards. -/
lemma forall_split_concat {P : List α → α → Prop}
    (h : ∀ before x after, log = before ++ x :: after → P before x) (hx : P log x) :
    ∀ before y after, log ++ [x] = before ++ y :: after → P before y := by
  intro before y after heq
  rcases split_concat heq with ⟨rest, hlog, -⟩ | ⟨rfl, rfl, -⟩
  · exact h before y rest hlog
  · exact hx

/-- A part of the history without an entry of `q` has at most one entry of `p`. -/
def Separated (p q : α → Bool) (log : List α) : Prop :=
  ∀ part, part <:+: log → (∀ x ∈ part, q x = false) → part.countP p ≤ 1

/-- No entry of `q` has followed the last entry of `p`. -/
def Pending (p q : α → Bool) (log : List α) : Prop :=
  ∃ part, part <:+ log ∧ (∀ x ∈ part, q x = false) ∧ ∃ x ∈ part, p x = true

section Separated

variable {p q : α → Bool}

lemma Separated.nil : Separated p q ([] : List α) := by
  intro part hpart _
  rw [List.infix_nil.mp hpart]
  apply Nat.zero_le

lemma Pending.nil (h : Pending p q ([] : List α)) : False := by
  obtain ⟨part, hpart, -, x, hx, -⟩ := h
  rw [List.suffix_nil.mp hpart] at hx
  cases hx

/-- An entry that is not one of `p` leaves pending what was. -/
lemma Pending.of_concat (h : Pending p q (log ++ [x])) (hx : p x = false) : Pending p q log := by
  obtain ⟨part, hpart, hq, y, hy, hp⟩ := h
  rcases List.suffix_concat_iff.mp hpart with rfl | ⟨rest, rfl, hrest⟩
  · cases hy
  · refine ⟨rest, hrest, fun z hz => hq z (List.mem_append_left _ hz), y, ?_, hp⟩
    rcases List.mem_append.mp hy with hy | hy
    · exact hy
    · rw [List.mem_singleton.mp hy, hx] at hp
      cases hp

/-- An entry of `q` leaves nothing pending. -/
lemma Pending.not_concat (hx : q x = true) : ¬ Pending p q (log ++ [x]) := by
  rintro ⟨part, hpart, hq, y, hy, -⟩
  rcases List.suffix_concat_iff.mp hpart with rfl | ⟨rest, rfl, -⟩
  · cases hy
  · have hf := hq x (List.mem_append_right _ List.mem_cons_self)
    rw [hx] at hf
    cases hf

/-- An entry of `p` comes only when none is pending. -/
lemma Separated.concat (h : Separated p q log) (hx : p x = true → ¬ Pending p q log) :
    Separated p q (log ++ [x]) := by
  intro part hpart hq
  rcases List.infix_concat_iff.mp hpart with hs | hi
  · rcases List.suffix_concat_iff.mp hs with rfl | ⟨rest, rfl, hrest⟩
    · apply Nat.zero_le
    · have hqrest : ∀ y ∈ rest, q y = false := fun y hy => hq y (List.mem_append_left _ hy)
      have hle := h rest hrest.isInfix hqrest
      cases hp : p x with
      | false => simpa [hp] using hle
      | true =>
        have hnone : rest.countP p = 0 := by
          apply List.countP_eq_zero.mpr
          intro y hy hpy
          exact hx hp ⟨rest, hrest, hqrest, y, hy, hpy⟩
        simp [hp, hnone]
  · exact h part hi hq

end Separated

/-- A state, and what has been put on record on the way to it. -/
structure Recorded (σ β : Type*) where
  state : σ
  record : List β

namespace Sys

variable {σ β : Type*} {T : Sys σ α} {f : σ → α → List β}

/-- The system that puts `f s a` on record when the action `a` is taken in `s`. -/
def recording (T : Sys σ α) (f : σ → α → List β) : Sys (Recorded σ β) α where
  init := fun v => T.init v.state ∧ v.record = []
  next := fun v a => (T.next v.state a).map fun t => ⟨t, v.record ++ f v.state a⟩

lemma recording_next {v w : Recorded σ β} {a : α} :
    (T.recording f).next v a = some w ↔
      ∃ t, T.next v.state a = some t ∧ w = ⟨t, v.record ++ f v.state a⟩ := by
  constructor
  · intro h
    obtain ⟨t, ht, rfl⟩ := Option.map_eq_some_iff.mp h
    exact ⟨t, ht, rfl⟩
  · rintro ⟨t, ht, rfl⟩
    exact Option.map_eq_some_iff.mpr ⟨t, ht, rfl⟩

/-- The states of a run with a record are those of a run. -/
lemma Reachable.of_recording {v : Recorded σ β} (h : (T.recording f).Reachable v) :
    T.Reachable v.state := by
  induction h with
  | init hi => exact .init hi.1
  | step _ _ hn ih =>
    obtain ⟨t, ht, rfl⟩ := recording_next.mp hn
    exact .step ih trivial ht

/-- Every run can be recorded. -/
lemma Reachable.exists_record {s : σ} (h : T.Reachable s) (f : σ → α → List β) :
    ∃ record, (T.recording f).Reachable ⟨s, record⟩ := by
  induction h with
  | init hi => exact ⟨[], .init ⟨hi, rfl⟩⟩
  | step _ _ hn ih =>
    obtain ⟨record, ih⟩ := ih
    exact ⟨_, .step ih trivial (recording_next.mpr ⟨_, hn, rfl⟩)⟩

/-- When each step uses up what it puts on record, a run records no more than there was left. -/
lemma recording_exec {I : σ → Prop} {left : σ → List β}
    (step : ∀ s a t, I s → T.next s a = some t → I t ∧ (f s a ++ left t).Sublist (left s))
    {v w : Recorded σ β} {as : List α} (hv : I v.state) (he : (T.recording f).exec v as = some w) :
    ∃ new, w.record = v.record ++ new ∧ (new ++ left w.state).Sublist (left v.state) := by
  induction as generalizing v with
  | nil =>
    cases he
    exact ⟨[], (List.append_nil _).symm, List.Sublist.refl _⟩
  | cons a as ih =>
    obtain ⟨u, hu, hw⟩ := Option.bind_eq_some_iff.mp he
    obtain ⟨t, ht, rfl⟩ := recording_next.mp hu
    obtain ⟨hI, hstep⟩ := step _ a t hv ht
    obtain ⟨new, hrecord, hnew⟩ := ih hI hw
    refine ⟨f v.state a ++ new, ?_, ?_⟩
    · rw [hrecord, List.append_assoc]
    · rw [List.append_assoc]
      exact (List.Sublist.append_left hnew _).trans hstep

end Sys

end Lts
