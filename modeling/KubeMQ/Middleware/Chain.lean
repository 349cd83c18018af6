import KubeMQ.Types.Status

/-!
# Interceptor chains

`src/internal/middleware/chain.cc` and `chain.h`. An operation is a computation of a monad, in which
interceptors have their effects; an interceptor gets the operation it wraps and may run it any
number of times. A `std::function` that the loop builds is a closure over copies of an interceptor
and of the function before it.
-/

namespace KubeMQ

section
variable {M : Type → Type} {α : Type}

/-- `InterceptorOr`, and `Interceptor` at `Status`. -/
def InterceptorOf (M : Type → Type) (α : Type) : Type := M α → M α

/-- The values of `current` in the loop. -/
inductive ChainFunction (M : Type → Type) (α : Type) where
  | operation (op : M α)
  | closure (interceptor : InterceptorOf M α) (prev : ChainFunction M α)

namespace ChainFunction

/-- The call operator. -/
def call : ChainFunction M α → M α
  | operation op => op
  | closure interceptor prev => interceptor prev.call

/-- The loop from `rbegin` to `rend`. -/
def wrap : List (InterceptorOf M α) → ChainFunction M α → ChainFunction M α
  | [], current => current
  | interceptor :: rest, current => wrap rest (closure interceptor current)

@[simp] lemma call_operation (op : M α) : (operation op).call = op := rfl

@[simp] lemma call_closure (interceptor : InterceptorOf M α) (prev : ChainFunction M α) :
    (closure interceptor prev).call = interceptor prev.call := rfl

lemma wrap_append (xs ys : List (InterceptorOf M α)) (current : ChainFunction M α) :
    wrap (xs ++ ys) current = wrap ys (wrap xs current) := by
  induction xs generalizing current with
  | nil => rfl
  | cons x xs ih =>
    show wrap (xs ++ ys) (closure x current) = wrap ys (wrap xs (closure x current))
    exact ih _

end ChainFunction

end

/-- `BuildChain`. -/
def buildChain {M : Type → Type} (interceptors : List (InterceptorOf M Status)) :
    M Status → M Status :=
  if interceptors.isEmpty then fun op => op
  else fun operation => (ChainFunction.wrap interceptors.reverse (.operation operation)).call

/-- `RunChain`. -/
def runChain {M : Type → Type} (interceptors : List (InterceptorOf M Status))
    (operation : M Status) : M Status :=
  let chain := buildChain interceptors
  chain operation

/-- `RunChainOr<T>`. -/
def runChainOr {M : Type → Type} {T : Type} (interceptors : List (InterceptorOf M (StatusOr T)))
    (operation : M (StatusOr T)) : M (StatusOr T) :=
  if interceptors.isEmpty then operation
  else (ChainFunction.wrap interceptors.reverse (.operation operation)).call

/-- An operation inside the interceptors of a list, the first of them outermost. -/
def nested {M : Type → Type} {α : Type} : List (InterceptorOf M α) → M α → M α
  | [], op => op
  | interceptor :: rest, op => interceptor (nested rest op)

section
variable {M : Type → Type} {α : Type}

/-- The loop nests the interceptors. -/
lemma call_wrap_reverse (xs : List (InterceptorOf M α)) (op : M α) :
    (ChainFunction.wrap xs.reverse (.operation op)).call = nested xs op := by
  induction xs with
  | nil => rfl
  | cons x xs ih =>
    rw [List.reverse_cons, ChainFunction.wrap_append]
    show x (ChainFunction.wrap xs.reverse (.operation op)).call = x (nested xs op)
    rw [ih]

lemma nested_append (xs ys : List (InterceptorOf M α)) (op : M α) :
    nested (xs ++ ys) op = nested xs (nested ys op) := by
  induction xs with
  | nil => rfl
  | cons x xs ih => exact congrArg x ih

end

lemma buildChain_eq {M : Type → Type} (xs : List (InterceptorOf M Status)) :
    buildChain xs = nested xs := by
  funext op
  unfold buildChain
  cases xs with
  | nil => rfl
  | cons x xs => exact call_wrap_reverse (x :: xs) op

lemma runChain_eq {M : Type → Type} (xs : List (InterceptorOf M Status)) :
    runChain xs = nested xs := by
  funext op
  show buildChain xs op = nested xs op
  rw [buildChain_eq]

lemma runChainOr_eq {M : Type → Type} {T : Type} (xs : List (InterceptorOf M (StatusOr T))) :
    runChainOr xs = nested xs := by
  funext op
  unfold runChainOr
  cases xs with
  | nil => rfl
  | cons x xs => exact call_wrap_reverse (x :: xs) op

/-- An interceptor with an effect before and one after the operation. -/
def around {M : Type → Type} [Monad M] {α : Type} (before after : M Unit) : InterceptorOf M α :=
  fun next => do
    before
    let result ← next
    after
    pure result

/-- The effects before the operation run in the order of the list, those after it in reverse. -/
lemma nested_around {M : Type → Type} [Monad M] [LawfulMonad M] {α : Type}
    (effects : List (M Unit × M Unit)) (op : M α) :
    nested (effects.map fun e => around e.1 e.2) op = (do
      effects.forM Prod.fst
      let result ← op
      effects.reverse.forM Prod.snd
      pure result) := by
  induction effects with
  | nil => simp [nested]
  | cons e effects ih =>
    show around e.1 e.2 (nested _ op) = _
    rw [ih]
    simp [around, List.forM_append]

/-- The laws of a function that runs an operation through a list of interceptors. -/
structure ChainLaws {M : Type → Type} {α : Type}
    (run : List (InterceptorOf M α) → M α → M α) : Prop where
  append : ∀ xs ys op, run (xs ++ ys) op = run xs (run ys op)
  nil : ∀ op, run [] op = op
  singleton : ∀ x op, run [x] op = x op
  outermost : ∀ x xs op, run (x :: xs) op = x (run xs op)
  innermost : ∀ xs x op, run (xs ++ [x]) op = run xs (x op)

lemma chainLaws_nested {M : Type → Type} {α : Type} :
    ChainLaws (nested : List (InterceptorOf M α) → M α → M α) where
  append := nested_append
  nil _ := rfl
  singleton _ _ := rfl
  outermost _ _ _ := rfl
  innermost xs x op := nested_append xs [x] op

/-- Chains compose, and a built chain runs alike every time. -/
theorem runChain_laws {M : Type → Type} [Monad M] :
    ChainLaws (runChain (M := M)) ∧ (∀ T : Type, ChainLaws (runChainOr (M := M) (T := T))) ∧
      ∀ (xs : List (InterceptorOf M Status)) (ops : List (M Status)),
        ops.mapM (buildChain xs) = ops.mapM (nested xs) ∧
          ∀ op ∈ ops, buildChain xs op = runChain xs op := by
  refine ⟨?_, fun T => ?_, fun xs ops => ⟨?_, fun op _ => rfl⟩⟩
  · rw [show runChain (M := M) = nested from funext runChain_eq]
    exact chainLaws_nested
  · rw [show runChainOr (M := M) (T := T) = nested from funext runChainOr_eq]
    exact chainLaws_nested
  · rw [buildChain_eq]

end KubeMQ
