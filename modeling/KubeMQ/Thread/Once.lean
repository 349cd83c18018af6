import KubeMQ.Lts.Lock

/-!
# `std::call_once`

A once-flag is taken as documented: one caller runs the body, callers that come while it runs wait,
callers that come later skip it. The threads are the entries of a list; `Once.Held crit o ts` says
that exactly the thread that runs the body of `o` stands in it (`crit`), and that nobody does once
it is completed.
-/

namespace KubeMQ

structure Once where
  runner : Option ℕ
  completed : Bool
  deriving DecidableEq

namespace Once

def fresh : Once := ⟨none, false⟩

/-- The flag when a body has returned. -/
def done : Once := ⟨none, true⟩

/-- How thread `i` gets past the flag. -/
inductive Entry where
  | runs (o : Once)
  | skips
  | waits

def enter (o : Once) (i : ℕ) : Entry :=
  if o.completed then .skips else if o.runner.isSome then .waits else .runs ⟨some i, false⟩

variable {θ : Type} {crit : θ → Bool} {o : Once} {ts : List θ} {t t' : θ} {i : ℕ}

lemma enter_runs {o' : Once} (h : o.enter i = .runs o') :
    o = fresh ∧ o' = ⟨some i, false⟩ := by
  obtain ⟨runner, completed⟩ := o
  unfold enter at h
  cases completed with
  | true => cases h
  | false =>
    cases runner with
    | some j => cases h
    | none =>
      cases h
      exact ⟨rfl, rfl⟩

lemma enter_skips (h : o.enter i = .skips) : o.completed = true := by
  unfold enter at h
  split at h
  · next hc => exact hc
  · split at h <;> cases h

lemma enter_waits (h : o.enter i = .waits) : o.completed = false ∧ o.runner.isSome = true := by
  unfold enter at h
  split at h
  · cases h
  · next hc =>
    split at h
    · next hr => exact ⟨by simpa using hc, hr⟩
    · cases h

/-- Exactly the thread that runs the body is in it. -/
structure Held (crit : θ → Bool) (o : Once) (ts : List θ) : Prop where
  mutex : Lts.Mutex crit o.runner ts
  idle : o.completed = true → o.runner = none

namespace Held

lemma nil : Held crit fresh ([] : List θ) := ⟨.nil, nofun⟩

lemma append (h : Held crit o ts) (ct : crit t = false) : Held crit o (ts ++ [t]) :=
  ⟨h.mutex.append ct, h.idle⟩

lemma runs (h : Held crit fresh ts) (hi : ts[i]? = some t) (ct' : crit t' = true) :
    Held crit ⟨some i, false⟩ (ts.set i t') :=
  ⟨h.mutex.acquire hi ct', nofun⟩

lemma finish (h : Held crit o ts) (hi : ts[i]? = some t) (ct : crit t = true)
    (ct' : crit t' = false) : Held crit done (ts.set i t') :=
  ⟨h.mutex.release hi ct ct', fun _ => rfl⟩

lemma keep (h : Held crit o ts) (hi : ts[i]? = some t) (e : crit t' = crit t) :
    Held crit o (ts.set i t') :=
  ⟨h.mutex.keep hi e, h.idle⟩

/-- The thread in the body is the runner. -/
lemma runner (h : Held crit o ts) (hi : ts[i]? = some t) (ct : crit t = true) :
    o.runner = some i :=
  h.mutex.locked i t hi ct

end Held

end Once

end KubeMQ
