import Mathlib.Data.List.Basic
import Mathlib.Data.Nat.Notation
import Mathlib.Data.Nat.Init
import Mathlib.Tactic.Common

/-!
# Labelled transition systems

A system is given by its initial states and a partial `next` function: the action names the
thread that moves and whatever the environment decides, so that one action has at most one
outcome and a schedule (a list of actions) can be executed. `Sys.Reach G` collects the states
that are reached by steps which all meet the guard `G`, a condition on the state before the step
and the action; `Sys.Reachable` is the unguarded case.

The rules used throughout are `Sys.Reach.invariant` (an invariant of every guarded run),
`Sys.Ranked.countP_le` (a rank bounds how often a class of actions can occur) and
`Sys.Path.eventually` (a thread that keeps being scheduled brings its rank down until it is done).
-/

namespace Lts

variable {σ α : Type*}

/-- A labelled transition system with at most one outcome per action. -/
structure Sys (σ α : Type*) where
  init : σ → Prop
  next : σ → α → Option σ

namespace Sys

/-- The state after a schedule, when every action of it is enabled in turn. -/
def exec (T : Sys σ α) : σ → List α → Option σ
  | s, [] => some s
  | s, a :: as => (T.next s a).bind fun t => T.exec t as

/-- The state after a schedule whose steps all pass the test `g`. -/
def execWhere (T : Sys σ α) (g : σ → α → Bool) : σ → List α → Option σ
  | s, [] => some s
  | s, a :: as => if g s a then (T.next s a).bind fun t => T.execWhere g t as else none

/-- The states reached by runs whose steps all meet the guard `G`. -/
inductive Reach (T : Sys σ α) (G : σ → α → Prop) : σ → Prop where
  | init {s} :
    T.init s →
    Reach T G s
  | step {s a t} :
    Reach T G s →
    G s a →
    T.next s a = some t →
    Reach T G t

/-- The states reached by any run. -/
abbrev Reachable (T : Sys σ α) : σ → Prop :=
  T.Reach fun _ _ => True

variable {T : Sys σ α} {G H : σ → α → Prop}

/-- Weakening the guard keeps a run. -/
lemma Reach.mono {s : σ} (h : T.Reach G s) (le : ∀ s a, G s a → H s a) : T.Reach H s := by
  induction h with
  | init hi => exact .init hi
  | step _ hg hn ih => exact .step ih (le _ _ hg) hn

/-- A guarded run is a run. -/
lemma Reach.reachable {s : σ} (h : T.Reach G s) : T.Reachable s :=
  h.mono fun _ _ _ => trivial

/-- An invariant holds initially and is kept by every step of a guarded run. -/
theorem Reach.invariant {I : σ → Prop} (init : ∀ s, T.init s → I s)
    (step : ∀ s a t, T.Reach G s → I s → G s a → T.next s a = some t → I t)
    {s : σ} (h : T.Reach G s) : I s := by
  induction h with
  | init hi => exact init _ hi
  | step hr hg hn ih => exact step _ _ _ hr ih hg hn

/-- A schedule of admitted actions leads from a reached state to a reached state. -/
lemma Reach.exec {s t : σ} (h : T.Reach G s) (as : List α) (ok : ∀ a ∈ as, ∀ u, G u a)
    (he : T.exec s as = some t) : T.Reach G t := by
  induction as generalizing s with
  | nil =>
    cases he
    exact h
  | cons a as ih =>
    obtain ⟨u, hu, hut⟩ := Option.bind_eq_some_iff.mp he
    have hu' := Reach.step h (ok a List.mem_cons_self s) hu
    exact ih hu' (fun b hb => ok b (List.mem_cons_of_mem a hb)) hut

/-- A schedule executed from a reachable state ends in a reachable state. -/
lemma Reachable.exec {s t : σ} (h : T.Reachable s) (as : List α) (he : T.exec s as = some t) :
    T.Reachable t :=
  Reach.exec h as (fun _ _ _ => trivial) he

/-- A tested schedule executed from a reachable state ends in a reachable state. -/
lemma Reach.execWhere {g : σ → α → Bool} {s t : σ}
    (h : T.Reach (fun s a => g s a = true) s) (as : List α) (he : T.execWhere g s as = some t) :
    T.Reach (fun s a => g s a = true) t := by
  induction as generalizing s with
  | nil =>
    cases he
    exact h
  | cons a as ih =>
    simp only [Sys.execWhere] at he
    split at he
    · next hg =>
      obtain ⟨u, hu, hut⟩ := Option.bind_eq_some_iff.mp he
      exact ih (.step h hg hu) hut
    · cases he

/-- The system in which only the actions that `g` admits are taken. -/
def restrict (T : Sys σ α) (g : σ → α → Bool) : Sys σ α where
  init := T.init
  next s a := if g s a then T.next s a else none

lemma restrict_next {g : σ → α → Bool} {s t : σ} {a : α} :
    (T.restrict g).next s a = some t ↔ g s a = true ∧ T.next s a = some t := by
  simp only [restrict]
  split
  next hg => simp [hg]
  next hg => simp [hg]

section Rank

variable {I : σ → Prop} {p : α → Bool} {rank : σ → ℕ}

/-- A schedule whose actions all lower the rank is no longer than the rank. -/
lemma length_le_rank (lt : ∀ s a t, p a = true → T.next s a = some t → rank t < rank s)
    {s t : σ} {as : List α} (has : ∀ a ∈ as, p a = true) (he : T.exec s as = some t) :
    as.length + rank t ≤ rank s := by
  induction as generalizing s with
  | nil =>
    cases he
    simp
  | cons a as ih =>
    obtain ⟨u, hu, hut⟩ := Option.bind_eq_some_iff.mp he
    have hlt := lt s a u (has a List.mem_cons_self) hu
    have hrec := ih (fun b hb => has b (List.mem_cons_of_mem a hb)) hut
    rw [List.length_cons]
    omega

/-- When the actions in `p` lower the rank, some schedule of them ends where none is enabled. -/
lemma exists_rest (lt : ∀ s a t, p a = true → T.next s a = some t → rank t < rank s) (s : σ) :
    ∃ as t, (∀ a ∈ as, p a = true) ∧ T.exec s as = some t ∧
      ∀ a, p a = true → T.next t a = none := by
  induction hk : rank s using Nat.strongRecOn generalizing s with
  | _ k ih =>
    by_cases hrest : ∀ a, p a = true → T.next s a = none
    · exact ⟨[], s, by simp, rfl, hrest⟩
    · obtain ⟨a, hrest⟩ := not_forall.mp hrest
      obtain ⟨ha, hn⟩ := Classical.not_imp.mp hrest
      obtain ⟨u, hu⟩ := Option.ne_none_iff_exists'.mp hn
      obtain ⟨as, t, has, he, ht⟩ := ih (rank u) (hk ▸ lt s a u ha hu) u rfl
      refine ⟨a :: as, t, ?_, ?_, ht⟩
      · intro b hb
        rcases List.mem_cons.mp hb with rfl | hb
        · exact ha
        · exact has b hb
      · rw [exec, hu, Option.bind_some, he]

/-- `rank` never grows, and drops at every action in `p`. -/
structure Ranked (T : Sys σ α) (I : σ → Prop) (p : α → Bool) (rank : σ → ℕ) : Prop where
  keep : ∀ s a t, I s → T.next s a = some t → I t
  le : ∀ s a t, I s → T.next s a = some t → rank t ≤ rank s
  lt : ∀ s a t, I s → T.next s a = some t → p a = true → rank t < rank s

/-- `rank` pays one for every action in `p`, and only an action in `q` may give one back. -/
structure Paid (T : Sys σ α) (I : σ → Prop) (p q : α → Bool) (rank : σ → ℕ) : Prop where
  keep : ∀ s a t, I s → T.next s a = some t → I t
  pay : ∀ s a t, I s → T.next s a = some t → rank t + (p a).toNat ≤ rank s + (q a).toNat

/-- A schedule contains at most `rank s` actions of `p` more than it contains actions of `q`. -/
theorem Paid.countP_le {q : α → Bool} (r : Paid T I p q rank) {s t : σ} {as : List α} (hs : I s)
    (he : T.exec s as = some t) : as.countP p + rank t ≤ rank s + as.countP q := by
  induction as generalizing s with
  | nil =>
    cases he
    simp
  | cons a as ih =>
    obtain ⟨u, hu, hut⟩ := Option.bind_eq_some_iff.mp he
    have hrec := ih (r.keep _ _ _ hs hu) hut
    have hpay := r.pay _ _ _ hs hu
    have hcons : ∀ f : α → Bool, (a :: as).countP f = as.countP f + (f a).toNat := by
      intro f
      cases hf : f a <;> simp [hf]
    rw [hcons, hcons]
    omega

lemma Ranked.paid (r : Ranked T I p rank) : Paid T I p (fun _ => false) rank where
  keep := r.keep
  pay s a t hs hn := by
    cases hp : p a with
    | true => exact r.lt _ _ _ hs hn hp
    | false => exact r.le _ _ _ hs hn

/-- A schedule contains at most `rank s` actions of `p`. -/
theorem Ranked.countP_le (r : Ranked T I p rank) {s t : σ} {as : List α} (hs : I s)
    (he : T.exec s as = some t) : as.countP p + rank t ≤ rank s := by
  have h := r.paid.countP_le hs he
  simpa using h

/-- An infinite run. -/
structure Path (T : Sys σ α) where
  st : ℕ → σ
  act : ℕ → α
  step : ∀ n, T.next (st n) (act n) = some (st (n + 1))

/-- What every step keeps holds all along an infinite run. -/
lemma Path.invariant (ρ : Path T) (step : ∀ s a t, I s → T.next s a = some t → I t)
    {n : ℕ} (hn : I (ρ.st n)) {m : ℕ} (le : n ≤ m) : I (ρ.st m) := by
  induction m, le using Nat.le_induction with
  | base => exact hn
  | succ m _ ih => exact step _ _ _ ih (ρ.step m)

/-- The rank never grows along an infinite run. -/
lemma Path.rank_le (ρ : Path T) (r : Ranked T I p rank) {n : ℕ} (hn : I (ρ.st n)) {m : ℕ}
    (le : n ≤ m) : rank (ρ.st m) ≤ rank (ρ.st n) := by
  induction m, le using Nat.le_induction with
  | base => exact Nat.le_refl _
  | succ m hm ih => exact Nat.le_trans (r.le _ _ _ (ρ.invariant r.keep hn hm) (ρ.step m)) ih

/-- If `p` is scheduled again and again until `Q` holds, then `Q` is reached. -/
theorem Path.eventually (ρ : Path T) (r : Ranked T I p rank) {Q : σ → Prop} {n : ℕ}
    (hn : I (ρ.st n)) (fair : ∀ n, ∃ m, n ≤ m ∧ (p (ρ.act m) = true ∨ Q (ρ.st m))) :
    ∃ m, n ≤ m ∧ Q (ρ.st m) := by
  -- strong induction on the rank: each turn of `p` either finds `Q` or lowers the rank
  induction hk : rank (ρ.st n) using Nat.strongRecOn generalizing n with
  | _ k ih =>
    obtain ⟨m, hm, hp | hq⟩ := fair n
    · have hI := ρ.invariant r.keep hn hm
      have hle := ρ.rank_le r hn hm
      have hlt := r.lt _ _ _ hI (ρ.step m) hp
      obtain ⟨m', hm', hq⟩ := ih _ (by omega) (r.keep _ _ _ hI (ρ.step m)) rfl
      exact ⟨m', by omega, hq⟩
    · exact ⟨m, hm, hq⟩

end Rank

end Sys

end Lts
