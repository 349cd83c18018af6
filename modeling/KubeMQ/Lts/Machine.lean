import Mathlib.Data.List.Basic
import Mathlib.Tactic.Common

/-!
# Objects with operations

An object whose operations return a value is a function `step : σ → ι → σ × ρ`. `runs` applies a
list of operations in turn and collects what they return. `runs_invariant` and `runs_simulation`
are the rules for what every operation keeps and for two objects that return the same values.
`runsDefined` is for operations whose behaviour can be undefined; `runsDefined_eq` tells when it is
not.
-/

namespace Lts

variable {σ τ ι κ ρ π : Type*} {step : σ → ι → σ × ρ} {step' : τ → κ → τ × π}

/-- The operations in turn: the state at the end and the values returned. -/
def runs (step : σ → ι → σ × ρ) : σ → List ι → σ × List ρ
  | s, [] => (s, [])
  | s, a :: as =>
    let r := step s a
    let rest := runs step r.1 as
    (rest.1, r.2 :: rest.2)

@[simp] lemma runs_nil (s : σ) : runs step s [] = (s, []) := rfl

@[simp] lemma runs_cons (s : σ) (a : ι) (as : List ι) :
    runs step s (a :: as)
      = ((runs step (step s a).1 as).1, (step s a).2 :: (runs step (step s a).1 as).2) := rfl

/-- One more operation at the end. -/
lemma runs_concat (s : σ) (as : List ι) (a : ι) :
    runs step s (as ++ [a]) =
      ((step (runs step s as).1 a).1, (runs step s as).2 ++ [(step (runs step s as).1 a).2]) := by
  induction as generalizing s with
  | nil => rfl
  | cons b as ih =>
    rw [List.cons_append, runs_cons, ih]
    rfl

/-- What every admitted operation keeps holds after any list of them. -/
lemma runs_invariant (I : σ → Prop) (ok : ι → Prop) (keep : ∀ s a, ok a → I s → I (step s a).1)
    {as : List ι} (has : ∀ a ∈ as, ok a) {s : σ} (hs : I s) : I (runs step s as).1 := by
  induction as generalizing s with
  | nil => exact hs
  | cons a as ih =>
    have ha := keep s a (has a List.mem_cons_self) hs
    exact ih (fun b hb => has b (List.mem_cons_of_mem a hb)) ha

/-- Two objects related by `R` that return the same values, up to `g`, keep doing so. -/
theorem runs_simulation {R : σ → τ → Prop} {ok : ι → Prop} {f : ι → κ} {g : π → ρ}
    (sim : ∀ s t a, ok a → R s t →
      R (step s a).1 (step' t (f a)).1 ∧ (step s a).2 = g (step' t (f a)).2)
    {as : List ι} (has : ∀ a ∈ as, ok a) {s : σ} {t : τ} (hst : R s t) :
    R (runs step s as).1 (runs step' t (as.map f)).1 ∧
      (runs step s as).2 = (runs step' t (as.map f)).2.map g := by
  induction as generalizing s t with
  | nil => exact ⟨hst, rfl⟩
  | cons a as ih =>
    obtain ⟨hr, he⟩ := sim s t a (has a List.mem_cons_self) hst
    obtain ⟨ihr, ihe⟩ := ih (fun b hb => has b (List.mem_cons_of_mem a hb)) hr
    refine ⟨ihr, ?_⟩
    rw [List.map_cons, runs_cons, runs_cons]
    exact congrArg₂ List.cons he ihe

/-- The operations in turn, as long as each of them is defined. -/
def runsDefined (step : σ → ι → Option (σ × ρ)) : σ → List ι → Option (σ × List ρ)
  | s, [] => some (s, [])
  | s, a :: as =>
    (step s a).bind fun r => (runsDefined step r.1 as).map fun rest => (rest.1, r.2 :: rest.2)

section Defined

variable {part : σ → ι → Option (σ × ρ)}

/-- One more operation at the end. -/
lemma runsDefined_concat (s : σ) (as : List ι) (a : ι) :
    runsDefined part s (as ++ [a]) =
      (runsDefined part s as).bind fun r => (part r.1 a).map fun r' => (r'.1, r.2 ++ [r'.2]) := by
  induction as generalizing s with
  | nil =>
    show (part s a).bind _ = (part s a).map _
    cases part s a <;> rfl
  | cons b as ih =>
    simp only [List.cons_append, runsDefined]
    cases part s b with
    | none => rfl
    | some r =>
      simp only [Option.bind_some, ih, Option.map_bind, Option.bind_map, Function.comp_def,
        Option.map_map]
      rfl

/-- Operations that are defined, and what they are then, as long as an invariant holds. -/
lemma runsDefined_eq (I : σ → Prop) (ok : ι → Prop)
    (defined : ∀ s a, ok a → I s → part s a = some (step s a) ∧ I (step s a).1)
    {as : List ι} (has : ∀ a ∈ as, ok a) {s : σ} (hs : I s) :
    runsDefined part s as = some (runs step s as) := by
  induction as generalizing s with
  | nil => rfl
  | cons a as ih =>
    obtain ⟨ha, hI⟩ := defined s a (has a List.mem_cons_self) hs
    have hrest := ih (fun b hb => has b (List.mem_cons_of_mem a hb)) hI
    rw [runsDefined, ha, Option.bind_some, hrest]
    rfl

end Defined

end Lts
