import Mathlib.Algebra.GroupWithZero.Nat
import Mathlib.Data.List.Basic
import Mathlib.Data.Nat.Notation
import Mathlib.Tactic.Common

/-!
# Threads and locks

The threads of a system are the entries of a list, identified by their positions. A step changes
one entry; a new thread is appended. `Locked crit lock ts` says that a thread whose control state
is critical holds the lock; its rules follow a thread through acquiring, holding and releasing it.
`Mutex crit lock ts` adds the converse, that a lock which is held is held by a critical thread.
`Shared` is a lock that threads of two kinds take.
-/

namespace Lts

variable {θ : Type*} {ts : List θ} {t t' : θ} {i j : ℕ}

/-- An entry after one entry was replaced is the new entry or an old one. -/
lemma getElem?_set_cases {x : θ} (h : (ts.set i t)[j]? = some x) :
    (j = i ∧ x = t) ∨ (j ≠ i ∧ ts[j]? = some x) := by
  rw [List.getElem?_set] at h
  by_cases hij : i = j
  · rw [if_pos hij] at h
    split at h
    · cases h
      exact .inl ⟨hij.symm, rfl⟩
    · cases h
  · rw [if_neg hij] at h
    exact .inr ⟨Ne.symm hij, h⟩

/-- A replacement is not seen by a function that agrees on the old and the new entry. -/
lemma map_set_of_eq {β : Type*} {f : θ → β} (h : ts[i]? = some t) (hf : f t' = f t) :
    (ts.set i t').map f = ts.map f := by
  obtain ⟨hi, rfl⟩ := List.getElem?_eq_some_iff.mp h
  rw [List.map_set, hf]
  apply List.ext_getElem
  · simp
  · intro j hj hj'
    rw [List.getElem_set]
    split
    · next hij =>
      subst hij
      rw [List.getElem_map]
    · rfl

/-- An entry after one was appended is the new entry or an old one. -/
lemma getElem?_concat_cases {x : θ} (h : (ts ++ [t])[j]? = some x) :
    ts[j]? = some x ∨ (j = ts.length ∧ x = t) := by
  rw [List.getElem?_append] at h
  split at h
  · exact .inl h
  · next hj =>
    obtain ⟨hlt, hx⟩ := List.getElem?_eq_some_iff.mp h
    have hz : j - ts.length = 0 := by
      simp only [List.length_singleton] at hlt
      omega
    refine .inr ⟨by omega, ?_⟩
    rw [← hx]
    simp [hz]

/-- A sum over the entries after one entry was replaced. -/
lemma sum_map_set (f : θ → ℕ) (h : ts[i]? = some t) (t' : θ) :
    ((ts.set i t').map f).sum + f t = (ts.map f).sum + f t' := by
  induction ts generalizing i with
  | nil => cases h
  | cons x ts ih =>
    cases i with
    | zero =>
      cases h
      simp only [List.set_cons_zero, List.map_cons, List.sum_cons]
      omega
    | succ i =>
      have hrec := ih h
      simp only [List.set_cons_succ, List.map_cons, List.sum_cons]
      omega

/-- Every thread in its critical section holds the lock. -/
def Locked (crit : θ → Bool) (lock : Option ℕ) (ts : List θ) : Prop :=
  ∀ i t, ts[i]? = some t → crit t = true → lock = some i

namespace Locked

variable {crit : θ → Bool} {lock : Option ℕ}

lemma nil : Locked crit lock [] := nofun

/-- The lock excludes a second thread. -/
lemma unique (h : Locked crit lock ts) (hi : ts[i]? = some t) (ci : crit t = true)
    (hj : ts[j]? = some t') (cj : crit t' = true) : i = j := by
  have li := h i t hi ci
  have lj := h j t' hj cj
  rw [li] at lj
  exact Option.some.inj lj

lemma append (h : Locked crit lock ts) (ct : crit t = false) : Locked crit lock (ts ++ [t]) := by
  intro j x hx cx
  rcases getElem?_concat_cases hx with hx | ⟨-, rfl⟩
  · exact h j x hx cx
  · simp [ct] at cx

lemma acquire (h : Locked crit none ts) : Locked crit (some i) (ts.set i t) := by
  intro j x hx cx
  rcases getElem?_set_cases hx with ⟨rfl, -⟩ | ⟨-, hx⟩
  · rfl
  · exact absurd (h j x hx cx) nofun

lemma release (h : Locked crit lock ts) (hi : ts[i]? = some t) (ct : crit t = true)
    (ct' : crit t' = false) : Locked crit none (ts.set i t') := by
  intro j x hx cx
  rcases getElem?_set_cases hx with ⟨-, rfl⟩ | ⟨hj, hx⟩
  · simp [ct'] at cx
  · exact absurd (h.unique hx cx hi ct) hj

/-- A step inside or outside of the critical section. -/
lemma keep (h : Locked crit lock ts) (hi : ts[i]? = some t) (le : crit t' = true → crit t = true) :
    Locked crit lock (ts.set i t') := by
  intro j x hx cx
  rcases getElem?_set_cases hx with ⟨rfl, rfl⟩ | ⟨-, hx⟩
  · exact h j t hi (le cx)
  · exact h j x hx cx

end Locked

/-- Exactly the thread that holds the lock is in its critical section. -/
structure Mutex (crit : θ → Bool) (lock : Option ℕ) (ts : List θ) : Prop where
  locked : Locked crit lock ts
  held : ∀ i, lock = some i → ∃ t, ts[i]? = some t ∧ crit t = true

namespace Mutex

variable {crit : θ → Bool} {lock : Option ℕ}

lemma nil : Mutex crit none ([] : List θ) :=
  ⟨Locked.nil, nofun⟩

lemma append (h : Mutex crit lock ts) (ct : crit t = false) : Mutex crit lock (ts ++ [t]) := by
  refine ⟨h.locked.append ct, ?_⟩
  intro i hi
  obtain ⟨x, hx, cx⟩ := h.held i hi
  exact ⟨x, List.getElem?_append_left (List.getElem?_eq_some_iff.mp hx).1 ▸ hx, cx⟩

lemma acquire (h : Mutex crit none ts) (hi : ts[i]? = some t) (ct' : crit t' = true) :
    Mutex crit (some i) (ts.set i t') := by
  refine ⟨h.locked.acquire, ?_⟩
  intro j hj
  cases hj
  exact ⟨t', List.getElem?_set_self (List.getElem?_eq_some_iff.mp hi).1, ct'⟩

lemma release (h : Mutex crit lock ts) (hi : ts[i]? = some t) (ct : crit t = true)
    (ct' : crit t' = false) : Mutex crit none (ts.set i t') :=
  ⟨h.locked.release hi ct ct', nofun⟩

/-- A new thread is created with a lock that is free. -/
lemma spawn (h : Mutex crit none ts) (ct : crit t = true) :
    Mutex crit (some ts.length) (ts ++ [t]) := by
  constructor
  · intro j x hx cx
    rcases getElem?_concat_cases hx with hx | ⟨rfl, -⟩
    · exact absurd (h.locked j x hx cx) nofun
    · rfl
  · intro j hj
    cases hj
    exact ⟨t, List.getElem?_concat_length, ct⟩

/-- A step that stays inside or outside of the critical section. -/
lemma keep (h : Mutex crit lock ts) (hi : ts[i]? = some t) (e : crit t' = crit t) :
    Mutex crit lock (ts.set i t') := by
  refine ⟨h.locked.keep hi (fun ct => e ▸ ct), ?_⟩
  intro j hj
  obtain ⟨x, hx, cx⟩ := h.held j hj
  by_cases hij : i = j
  · subst hij
    rw [hi] at hx
    cases hx
    exact ⟨t', List.getElem?_set_self (List.getElem?_eq_some_iff.mp hi).1, e.trans cx⟩
  · exact ⟨x, by rwa [List.getElem?_set_ne hij], cx⟩

/-- Threads are changed, but not as to who is in its critical section. -/
lemma map {f : θ → θ} (h : Mutex crit lock ts) (hf : ∀ t, crit (f t) = crit t) :
    Mutex crit lock (ts.map f) := by
  constructor
  · intro i x hx cx
    rw [List.getElem?_map] at hx
    obtain ⟨t, ht, rfl⟩ := Option.map_eq_some_iff.mp hx
    exact h.locked i t ht (hf t ▸ cx)
  · intro i hi
    obtain ⟨t, ht, ct⟩ := h.held i hi
    exact ⟨f t, by rw [List.getElem?_map, ht, Option.map_some], (hf t).trans ct⟩

/-- A step that takes the lock, gives it back or does neither. -/
lemma step {lock' : Option ℕ} (h : Mutex crit lock ts) (hi : ts[i]? = some t)
    (st : (lock = none ∧ lock' = some i ∧ crit t' = true) ∨
      (crit t = true ∧ crit t' = false ∧ lock' = none) ∨ (lock' = lock ∧ crit t' = crit t)) :
    Mutex crit lock' (ts.set i t') := by
  rcases st with ⟨rfl, rfl, ct'⟩ | ⟨ct, ct', rfl⟩ | ⟨rfl, e⟩
  · exact h.acquire hi ct'
  · exact h.release hi ct ct'
  · exact h.keep hi e

end Mutex

/-- A lock of threads of two kinds, held by the `i`-th of the first or the `j`-th of the second. -/
structure Shared {η : Type*} (crit : θ → Bool) (crit' : η → Bool) (lock : Option (ℕ ⊕ ℕ))
    (ts : List θ) (us : List η) : Prop where
  left : Mutex crit (lock.bind Sum.getLeft?) ts
  right : Mutex crit' (lock.bind Sum.getRight?) us

namespace Shared

variable {η : Type*} {crit : θ → Bool} {crit' : η → Bool} {lock lock' : Option (ℕ ⊕ ℕ)}
  {us : List η} {u u' : η}

lemma nil : Shared crit crit' none ([] : List θ) ([] : List η) :=
  ⟨Mutex.nil, Mutex.nil⟩

/-- A critical thread of the first kind holds the lock. -/
lemma held_left (h : Shared crit crit' lock ts us) (hi : ts[i]? = some t) (ct : crit t = true) :
    lock = some (.inl i) := by
  have hl := h.left.locked i t hi ct
  obtain ⟨o, rfl, ho⟩ := Option.bind_eq_some_iff.mp hl
  rw [Sum.getLeft?_eq_some_iff.mp ho]

lemma held_right (h : Shared crit crit' lock ts us) (hi : us[i]? = some u)
    (cu : crit' u = true) : lock = some (.inr i) := by
  have hl := h.right.locked i u hi cu
  obtain ⟨o, rfl, ho⟩ := Option.bind_eq_some_iff.mp hl
  rw [Sum.getRight?_eq_some_iff.mp ho]

lemma append_left (h : Shared crit crit' lock ts us) (ct : crit t = false) :
    Shared crit crit' lock (ts ++ [t]) us :=
  ⟨h.left.append ct, h.right⟩

lemma append_right (h : Shared crit crit' lock ts us) (cu : crit' u = false) :
    Shared crit crit' lock ts (us ++ [u]) :=
  ⟨h.left, h.right.append cu⟩

lemma map_right {f : η → η} (h : Shared crit crit' lock ts us) (hf : ∀ u, crit' (f u) = crit' u) :
    Shared crit crit' lock ts (us.map f) :=
  ⟨h.left, h.right.map hf⟩

/-- A step of a thread of the first kind takes the lock, gives it back or does neither. -/
lemma step_left (h : Shared crit crit' lock ts us) (hi : ts[i]? = some t)
    (st : (lock = none ∧ lock' = some (.inl i) ∧ crit t' = true) ∨
      (crit t = true ∧ crit t' = false ∧ lock' = none) ∨ (lock' = lock ∧ crit t' = crit t)) :
    Shared crit crit' lock' (ts.set i t') us := by
  rcases st with ⟨rfl, rfl, ct'⟩ | ⟨ct, ct', rfl⟩ | ⟨rfl, e⟩
  · exact ⟨h.left.acquire hi ct', h.right⟩
  · have hright := h.right
    rw [h.held_left hi ct] at hright
    exact ⟨h.left.release hi ct ct', hright⟩
  · exact ⟨h.left.keep hi e, h.right⟩

/-- So does one of a thread of the second kind. -/
lemma step_right (h : Shared crit crit' lock ts us) (hi : us[i]? = some u)
    (st : (lock = none ∧ lock' = some (.inr i) ∧ crit' u' = true) ∨
      (crit' u = true ∧ crit' u' = false ∧ lock' = none) ∨
      (lock' = lock ∧ crit' u' = crit' u)) :
    Shared crit crit' lock' ts (us.set i u') := by
  rcases st with ⟨rfl, rfl, cu'⟩ | ⟨cu, cu', rfl⟩ | ⟨rfl, e⟩
  · exact ⟨h.left, h.right.acquire hi cu'⟩
  · have hleft := h.left
    rw [h.held_right hi cu] at hleft
    exact ⟨hleft, h.right.release hi cu cu'⟩
  · exact ⟨h.left, h.right.keep hi e⟩

/-- A thread of the first kind gives the lock to a new thread of the second. -/
lemma hand_over (h : Shared crit crit' lock ts us) (hi : ts[i]? = some t) (ct : crit t = true)
    (ct' : crit t' = false) (cu : crit' u = true) :
    Shared crit crit' (some (.inr us.length)) (ts.set i t') (us ++ [u]) := by
  have hright := h.right
  rw [h.held_left hi ct] at hright
  exact ⟨h.left.release hi ct ct', hright.spawn cu⟩

end Shared

/-- A lock of two threads is free, or held by the one that is in its critical section. -/
def Held {ι : Type*} (o o' : ι) (lock : Option ι) (c c' : Bool) : Prop :=
  lock = none ∨ (lock = some o ∧ c = true) ∨ (lock = some o' ∧ c' = true)

/-- A step of thread `o` takes the lock, gives it back or does neither. -/
def Moves {ι : Type*} (o : ι) (lock lock' : Option ι) (c d : Bool) : Prop :=
  (lock = none ∧ lock' = some o ∧ d = true) ∨ (c = true ∧ d = false ∧ lock' = none) ∨
    (lock' = lock ∧ d = c)

namespace Held

variable {ι : Type*} {o o' : ι} {lock lock' : Option ι} {c c' d d' : Bool}

lemma symm (h : Held o o' lock c c') : Held o' o lock c' c := by
  rcases h with h | h | h
  · exact .inl h
  · exact .inr (.inr h)
  · exact .inr (.inl h)

/-- A step of the first thread. -/
lemma step (h : Held o o' lock c c') (st : Moves o lock lock' c d) : Held o o' lock' d c' := by
  rcases st with ⟨-, hl, hd⟩ | ⟨-, -, hl⟩ | ⟨rfl, rfl⟩
  · exact .inr (.inl ⟨hl, hd⟩)
  · exact .inl hl
  · exact h

/-- A step of the second thread. -/
lemma step' (h : Held o o' lock c c') (st : Moves o' lock lock' c' d') : Held o o' lock' c d' :=
  (h.symm.step st).symm

/-- Who is outside of its critical section waits only for the other thread. -/
lemma other (h : Held o o' lock c c') (hc : c = false) (hl : lock ≠ none) : c' = true := by
  rcases h with h | ⟨-, h⟩ | ⟨-, h⟩
  · exact absurd h hl
  · rw [hc] at h
    cases h
  · exact h

end Held

end Lts
