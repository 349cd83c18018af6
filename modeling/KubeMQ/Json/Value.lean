import Mathlib.Tactic.Common

/-!
# JSON values and typed reads

The values of `nlohmann::json`, the exceptions that its functions throw, and its typed reads. A
number is kept as an unsigned 64-bit integer, a signed one when it is negative, or a double when it
has a fraction or an exponent or fits neither; a read of an `int64_t` takes any of the three with a
`static_cast`. `Verdict` says how a read comes out, judged from the value alone, and `Tracks` ties a
computation to its verdict and to what it was meant to find.

The library is not under `src/`. The bodies of `Reader.ofString`, `Reader.ofBoolean`,
`Reader.ofInt64` and `Reader.value` here, and of `Reader.ofInt` and `Reader.ofMap` in
`Json/Records.lean`, are the assumptions about its typed reads that every result about JSON grants:
which kinds of values a read takes, what it casts, and the `type_error` it throws at the others. No
result assumes more of a read than these bodies say.
-/

namespace Json

/-- A double is kept as the number that it stands for; the keys of an object are distinct. -/
inductive Value where
  | null
  | boolean (b : Bool)
  | unsigned (n : UInt64)
  | integer (n : Int64)
  | float (x : Rat)
  | string (s : String)
  | array (items : List Value)
  | object (fields : List (String × Value))

/-- What ends a computation early: an exception, with its text, or undefined behaviour. -/
inductive Fault where
  | parseError (what : String)
  | typeError (what : String)
  | outOfRange (what : String)
  | undefined
  deriving DecidableEq

/-- What `parse` does. -/
inductive Parsed where
  | value (json : Value)
  | parseError (what : String)
  | outOfRange (what : String)

def Parsed.get : Parsed → Except Fault Value
  | .value json => .ok json
  | .parseError what => .error (.parseError what)
  | .outOfRange what => .error (.outOfRange what)

namespace Value

/-- `type_name`. -/
def typeName : Value → String
  | .null => "null"
  | .boolean _ => "boolean"
  | .unsigned _ => "number"
  | .integer _ => "number"
  | .float _ => "number"
  | .string _ => "string"
  | .array _ => "array"
  | .object _ => "object"

/-- The member of an object with a given key. -/
def find? : Value → String → Option Value
  | .object fields, key => fields.lookup key
  | _, _ => none

def isObject : Value → Bool
  | .object _ => true
  | _ => false

end Value

def typeError (id message : String) : Fault :=
  .typeError ("[json.exception.type_error." ++ id ++ "] " ++ message)

/-- `static_cast<int64_t>` of a double, which is undefined when the truncated number does not
fit. -/
def truncate (x : Rat) : Option Int :=
  let n := x.num.tdiv x.den
  if -9223372036854775808 ≤ n ∧ n < 9223372036854775808 then some n else none

/-- How a read comes out: with the value that is there, with another, with a `type_error`, or in
undefined behaviour. -/
inductive Verdict where
  | exact
  | altered
  | mistyped
  | undefined
  deriving DecidableEq

namespace Verdict

/-- Of two reads in turn: the first that does not return decides. -/
def andThen : Verdict → Verdict → Verdict
  | .exact, v => v
  | .altered, .exact => .altered
  | .altered, v => v
  | .mistyped, _ => .mistyped
  | .undefined, _ => .undefined

def all (vs : List Verdict) : Verdict := vs.foldr andThen .exact

lemma andThen_exact (v : Verdict) : v.andThen .exact = v := by
  cases v <;> rfl

end Verdict

/-- A computation comes out as the verdict says; `E` is what its result should be, and nothing is
unless the verdict is `exact`. -/
inductive Tracks {A : Type} (E : A → Prop) : Except Fault A → Verdict → Prop where
  | exact {a} :
    E a →
    Tracks E (.ok a) .exact
  | altered {a} :
    (∀ b, ¬E b) →
    Tracks E (.ok a) .altered
  | mistyped {what} :
    (∀ b, ¬E b) →
    Tracks E (.error (.typeError what)) .mistyped
  | undefined :
    (∀ b, ¬E b) →
    Tracks E (.error .undefined) .undefined

namespace Tracks

variable {A B : Type} {E E' : A → Prop} {m : Except Fault A} {v w : Verdict}

/-- Nothing is there to be found, unless the verdict is `exact`. -/
lemma none_of_ne (h : Tracks E m v) (hv : v ≠ .exact) : ∀ b, ¬E b := by
  cases h with
  | exact => exact absurd rfl hv
  | altered hE => exact hE
  | mistyped hE => exact hE
  | undefined hE => exact hE

lemma congr (h : Tracks E m v) (hE : ∀ a, E a ↔ E' a) : Tracks E' m v := by
  have none : (∀ b, ¬E b) → ∀ b, ¬E' b := fun hn b hb => hn b ((hE b).mpr hb)
  cases h with
  | exact ha => exact .exact ((hE _).mp ha)
  | altered hn => exact .altered (none hn)
  | mistyped hn => exact .mistyped (none hn)
  | undefined hn => exact .undefined (none hn)

/-- Two computations in turn. -/
lemma bind {f : A → Except Fault B} {F : A → B → Prop} (h : Tracks E m v)
    (k : ∀ a, Tracks (F a) (f a) w) :
    Tracks (fun b => ∃ a, E a ∧ F a b) (m >>= f) (v.andThen w) := by
  cases h with
  | @exact a ha =>
    have hk := k a
    have none : w ≠ .exact → ∀ b, ¬∃ a, E a ∧ F a b := by
      rintro hw b ⟨a', -, hb⟩
      exact (k a').none_of_ne hw b hb
    show Tracks _ (f a) w
    generalize f a = r at hk
    cases hk with
    | exact hb => exact .exact ⟨a, ha, hb⟩
    | altered => exact .altered (none nofun)
    | mistyped => exact .mistyped (none nofun)
    | undefined => exact .undefined (none nofun)
  | @altered a hn =>
    have none : ∀ b, ¬∃ a, E a ∧ F a b := by
      rintro b ⟨a', ha', -⟩
      exact hn a' ha'
    have hk := k a
    show Tracks _ (f a) _
    generalize f a = r at hk
    cases hk with
    | exact => exact .altered none
    | altered => exact .altered none
    | mistyped => exact .mistyped none
    | undefined => exact .undefined none
  | mistyped hn =>
    apply Tracks.mistyped
    rintro b ⟨a', ha', -⟩
    exact hn a' ha'
  | undefined hn =>
    apply Tracks.undefined
    rintro b ⟨a', ha', -⟩
    exact hn a' ha'

lemma pure (a : A) : Tracks (fun b => b = a) (Pure.pure a) .exact := .exact rfl

end Tracks

/-- A typed read, with its verdict and with what it means that a value is read exactly. `get` is what
is assumed of the library; the verdict and `Is` are proved of it by `tracks`. -/
structure Reader (A : Type) where
  get : Value → Except Fault A
  verdict : Value → Verdict
  Is : Value → A → Prop
  tracks : ∀ j, Tracks (Is j) (get j) (verdict j)

namespace Reader

variable {A : Type}

/-- A value has the member `key`, which is read as `a`, or has no such member, and `a` is the
default. -/
def Member (r : Reader A) (j : Value) (key : String) (default a : A) : Prop :=
  j.isObject = true ∧
    match j.find? key with
    | none => a = default
    | some v => r.Is v a

/-- `value(key, default)`, as assumed of the library: only an object has a `value`, and a member that
is there is read with its type. -/
def value (r : Reader A) (j : Value) (key : String) (default : A) : Except Fault A :=
  if j.isObject then
    match j.find? key with
    | none => .ok default
    | some v => r.get v
  else .error (typeError "306" ("cannot use value() with " ++ j.typeName))

def valueVerdict (r : Reader A) (j : Value) (key : String) : Verdict :=
  if j.isObject then
    match j.find? key with
    | none => .exact
    | some v => r.verdict v
  else .mistyped

lemma tracks_value (r : Reader A) (j : Value) (key : String) (default : A) :
    Tracks (r.Member j key default) (r.value j key default) (r.valueVerdict j key) := by
  unfold value valueVerdict Member
  cases j.isObject with
  | false => exact .mistyped fun b h => Bool.false_ne_true h.1
  | true =>
    cases j.find? key with
    | none => exact .exact ⟨rfl, rfl⟩
    | some v => exact (r.tracks v).congr fun a => (and_iff_right rfl).symm

/-- The read of a member that may be absent, `contains(key)` and `operator[]`. -/
def Nested (r : Reader A) (j : Value) (key : String) (default a : A) : Prop :=
  match j.find? key with
  | none => a = default
  | some v => r.Is v a

def nested (r : Reader A) (j : Value) (key : String) (default : A) : Except Fault A :=
  match j.find? key with
  | none => .ok default
  | some v => r.get v

def nestedVerdict (r : Reader A) (j : Value) (key : String) : Verdict :=
  match j.find? key with
  | none => .exact
  | some v => r.verdict v

lemma tracks_nested (r : Reader A) (j : Value) (key : String) (default : A) :
    Tracks (r.Nested j key default) (r.nested j key default) (r.nestedVerdict j key) := by
  unfold nested nestedVerdict Nested
  cases j.find? key with
  | none => exact .exact rfl
  | some v => exact r.tracks v

/-- The elements of an array, one after the other. -/
lemma tracks_mapM (r : Reader A) (items : List Value) :
    Tracks (List.Forall₂ r.Is items) (items.mapM r.get) (.all (items.map r.verdict)) := by
  induction items with
  | nil =>
    rw [List.mapM_nil]
    exact .exact .nil
  | cons j js ih =>
    rw [List.mapM_cons]
    have hrest : ∀ a, Tracks (fun as => ∃ bs, List.Forall₂ r.Is js bs ∧ as = a :: bs)
        (js.mapM r.get >>= fun bs => Pure.pure (a :: bs)) (.all (js.map r.verdict)) := by
      intro a
      have hbind := ih.bind fun bs => Tracks.pure (a :: bs)
      rwa [Verdict.andThen_exact] at hbind
    apply ((r.tracks j).bind hrest).congr
    intro as
    constructor
    · rintro ⟨a, ha, bs, hbs, rfl⟩
      exact .cons ha hbs
    · intro h
      cases h with
      | cons ha hbs => exact ⟨_, ha, _, hbs, rfl⟩

/-- `get<std::string>`, as assumed of the library: it takes strings only. -/
def ofString : Reader String where
  get
    | .string s => .ok s
    | j => .error (typeError "302" ("type must be string, but is " ++ j.typeName))
  verdict
    | .string _ => .exact
    | _ => .mistyped
  Is j s := j = .string s
  tracks j := by
    cases j with
    | string s => exact .exact rfl
    | _ => exact .mistyped nofun

/-- `get<bool>`, as assumed of the library: it takes booleans only. -/
def ofBoolean : Reader Bool where
  get
    | .boolean b => .ok b
    | j => .error (typeError "302" ("type must be boolean, but is " ++ j.typeName))
  verdict
    | .boolean _ => .exact
    | _ => .mistyped
  Is j b := j = .boolean b
  tracks j := by
    cases j with
    | boolean b => exact .exact rfl
    | _ => exact .mistyped nofun

/-- An integer that fits into an `int64_t`. -/
inductive IsInt64 : Value → Int → Prop where
  | integer {n : Int64} :
    IsInt64 (.integer n) n.toInt
  | unsigned {n : UInt64} :
    n.toNat < 9223372036854775808 →
    IsInt64 (.unsigned n) n.toNat

/-- `get<int64_t>`, as assumed of the library: it casts any number and takes nothing else. -/
def ofInt64 : Reader Int where
  get
    | .unsigned n => .ok (Int.bmod n.toNat 18446744073709551616)
    | .integer n => .ok n.toInt
    | .float x =>
      match truncate x with
      | some n => .ok n
      | none => .error .undefined
    | j => .error (typeError "302" ("type must be number, but is " ++ j.typeName))
  verdict
    | .unsigned n => if n.toNat < 9223372036854775808 then .exact else .altered
    | .integer _ => .exact
    | .float x => if (truncate x).isSome then .altered else .undefined
    | _ => .mistyped
  Is := IsInt64
  tracks j := by
    cases j with
    | unsigned n =>
      by_cases hn : n.toNat < 9223372036854775808
      · simp only [if_pos hn]
        apply Tracks.exact
        have hcast : Int.bmod n.toNat 18446744073709551616 = n.toNat := by
          rw [Int.bmod_def]
          omega
        rw [hcast]
        exact .unsigned hn
      · simp only [if_neg hn]
        apply Tracks.altered
        intro a ha
        cases ha with
        | unsigned h => exact hn h
    | integer n => exact .exact .integer
    | float x =>
      dsimp only
      cases truncate x with
      | none => exact .undefined nofun
      | some n => exact .altered nofun
    | _ => exact .mistyped nofun

end Reader

end Json
