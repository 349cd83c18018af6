import KubeMQ.Num.Checked
import KubeMQ.Text.Strings

/-!
# Duration strings

`ParseDurationToSeconds` of `config/config.cc`. An overflow of its `int` arithmetic has no defined
behaviour, and no result here. `Duration` is the grammar that the function is meant to read: digits
and at most one unit.
-/

namespace KubeMQ.Burnin

open Checked Digits

/-- `s[i] - '0'`. -/
def digit (c : Char) : ℤ := (c.toNat : ℤ) - '0'.toNat

/-- The `while` loop: the value of the digits, and what follows them. -/
def digitLoop : ℤ → List Char → Option (ℤ × List Char)
  | value, [] => some (value, [])
  | value, c :: s =>
    if c.isDigit then do
      let value ← int.mulAdd 10 value (digit c)
      digitLoop value s
    else some (value, c :: s)

/-- The `switch` on the character behind the digits, if there is one. -/
def applyUnit (value : ℤ) : List Char → Option ℤ
  | 's' :: _ => some value
  | 'm' :: _ => int.mul value 60
  | 'h' :: _ => int.mul value 3600
  | 'd' :: _ => int.mul value 86400
  | _ :: _ => some value
  | [] => some value

def parseDurationToSeconds (s : List Char) : Option ℤ :=
  if s = [] then some 0
  else do
    let (value, rest) ← digitLoop 0 s
    applyUnit value rest

inductive TimeUnit where
  | second
  | minute
  | hour
  | day

def TimeUnit.letter : TimeUnit → Char
  | .second => 's'
  | .minute => 'm'
  | .hour => 'h'
  | .day => 'd'

def TimeUnit.seconds : TimeUnit → ℕ
  | .second => 1
  | .minute => 60
  | .hour => 3600
  | .day => 86400

/-- A duration string: decimal digits, and one unit or none. -/
structure Duration where
  digits : List Char
  unit : Option TimeUnit
  digits_ne_nil : digits ≠ []
  digits_isDigit : ∀ c ∈ digits, c.isDigit

namespace Duration

def text (d : Duration) : List Char := d.digits ++ (d.unit.map TimeUnit.letter).toList

def seconds (d : Duration) : ℕ := value 10 d.digits * (d.unit.map TimeUnit.seconds).getD 1

lemma text_ne_nil (d : Duration) : d.text ≠ [] := by
  intro h
  exact d.digits_ne_nil (List.append_eq_nil_iff.mp h).1

end Duration

lemma digit_eq {c : Char} (h : c.isDigit) : digit c = digitValue c := by
  rw [Char.isDigit_iff_toNat] at h
  have h0 : '0'.toNat = 48 := rfl
  have h9 : '9'.toNat = 57 := rfl
  have ha : 'a'.toNat = 97 := rfl
  unfold digit digitValue
  rw [if_pos (by omega), h0]
  omega

/-- The accumulated value is the number that the digits denote. -/
lemma foldl_digit {cs : List Char} (h : ∀ c ∈ cs, c.isDigit) (n : ℕ) :
    (cs.map digit).foldl (fun n d => n * 10 + d) (n : ℤ)
      = (cs.foldl (fun n c => 10 * n + digitValue c) n : ℕ) := by
  induction cs generalizing n with
  | nil => rfl
  | cons c cs ih =>
    have hc : (n : ℤ) * 10 + digit c = (10 * n + digitValue c : ℕ) := by
      rw [digit_eq (h c List.mem_cons_self)]
      omega
    rw [List.map_cons, List.foldl_cons, List.foldl_cons, hc]
    exact ih (fun c hc => h c (List.mem_cons_of_mem _ hc)) _

lemma digitLoop_eq_foldlM (value : ℤ) (s : List Char) :
    digitLoop value s =
      (((s.takeWhile Char.isDigit).map digit).foldlM (int.mulAdd 10) value).map
        (·, s.dropWhile Char.isDigit) := by
  induction s generalizing value with
  | nil => rfl
  | cons c s ih =>
    rw [digitLoop]
    by_cases hc : c.isDigit
    · rw [if_pos hc, List.takeWhile_cons_of_pos hc, List.dropWhile_cons_of_pos hc, List.map_cons,
        List.foldlM_cons]
      cases int.mulAdd 10 value (digit c) with
      | none => rfl
      | some value => exact ih value
    · rw [if_neg hc, List.takeWhile_cons_of_neg hc, List.dropWhile_cons_of_neg hc]
      rfl

/-- What the loop finds: the digits at the start, and the rest. -/
lemma digitLoop_eq (s : List Char) :
    digitLoop 0 s =
      (int.exact (value 10 (s.takeWhile Char.isDigit))).map (·, s.dropWhile Char.isDigit) := by
  have hdigits : ∀ c ∈ s.takeWhile Char.isDigit, c.isDigit := List.all_eq_true.mp List.all_takeWhile
  have hnonneg : ∀ d ∈ (s.takeWhile Char.isDigit).map digit, 0 ≤ d := by
    intro d hd
    obtain ⟨c, hc, rfl⟩ := List.mem_map.mp hd
    rw [digit_eq (hdigits c hc)]
    exact Int.natCast_nonneg _
  have hfold := foldl_digit hdigits 0
  rw [digitLoop_eq_foldlM,
    Signed.foldlM_mulAdd (by decide) (le_refl 0) ⟨by decide, by decide⟩ hnonneg]
  exact congrArg (fun v => (int.exact v).map _) hfold

/-- Every string starts with digits, perhaps none. -/
lemma exists_digits (s : List Char) :
    ∃ ds rest, s = ds ++ rest ∧ (∀ c ∈ ds, c.isDigit) ∧ ∀ c ∈ rest.head?, ¬c.isDigit :=
  ⟨s.takeWhile Char.isDigit, s.dropWhile Char.isDigit, List.takeWhile_append_dropWhile.symm,
    List.all_eq_true.mp List.all_takeWhile, Strings.head?_dropWhile_not s⟩

/-- What the function makes of digits, which may be none, with a text behind them. -/
lemma parseDurationToSeconds_append {ds rest : List Char} (hds : ∀ c ∈ ds, c.isDigit)
    (hrest : ∀ c ∈ rest.head?, ¬c.isDigit) :
    parseDurationToSeconds (ds ++ rest) = (int.exact (value 10 ds)).bind (applyUnit · rest) := by
  unfold parseDurationToSeconds
  by_cases hnil : ds ++ rest = []
  · rw [if_pos hnil]
    obtain ⟨rfl, rfl⟩ := List.append_eq_nil_iff.mp hnil
    rfl
  · rw [if_neg hnil, digitLoop_eq, Strings.takeWhile_stops hds hrest,
      Strings.dropWhile_stops hds hrest]
    cases int.exact (value 10 ds) with
    | none => rfl
    | some v => rfl

lemma TimeUnit.not_isDigit_letter (u : TimeUnit) : ¬u.letter.isDigit := by
  cases u <;> decide

lemma TimeUnit.one_le_seconds (u : TimeUnit) : 1 ≤ u.seconds := by
  cases u <;> decide

/-- The digits end at the unit. -/
lemma Duration.unit_not_isDigit (d : Duration) :
    ∀ c ∈ (d.unit.map TimeUnit.letter).toList.head?, ¬c.isDigit := by
  cases d.unit with
  | none => exact nofun
  | some u =>
    intro c hc
    obtain rfl := Option.some.inj hc
    exact u.not_isDigit_letter

/-- A unit multiplies. -/
lemma applyUnit_letter {v : ℤ} (h : int.Fits v) (u : TimeUnit) (rest : List Char) :
    applyUnit v (u.letter :: rest) = int.mul v u.seconds := by
  cases u with
  | second =>
    show some v = int.exact (v * 1)
    rw [Int.mul_one, Signed.exact_of_fits h]
  | _ => rfl

/-- Only one character is looked at. -/
lemma applyUnit_cons (v : ℤ) (c : Char) (rest : List Char) :
    applyUnit v (c :: rest) = applyUnit v [c] := by
  unfold applyUnit
  split <;> simp_all

/-- A character that is no unit is taken for seconds. -/
lemma applyUnit_other {v : ℤ} {c : Char} (h : ∀ u : TimeUnit, u.letter ≠ c) (rest : List Char) :
    applyUnit v (c :: rest) = some v := by
  unfold applyUnit
  split
  next e => exact absurd (List.cons.inj e).1.symm (h .second)
  next e => exact absurd (List.cons.inj e).1.symm (h .minute)
  next e => exact absurd (List.cons.inj e).1.symm (h .hour)
  next e => exact absurd (List.cons.inj e).1.symm (h .day)
  next => rfl
  next => rfl

/-- A duration string is read exactly, and without a result when it does not fit. -/
lemma parseDurationToSeconds_text (d : Duration) :
    parseDurationToSeconds d.text = int.exact d.seconds := by
  have hv : (0 : ℤ) ≤ (value 10 d.digits : ℤ) := Int.natCast_nonneg _
  unfold Duration.text Duration.seconds
  rw [parseDurationToSeconds_append d.digits_isDigit]
  · cases d.unit with
    | none =>
      show (int.exact (value 10 d.digits)).bind some = int.exact ((value 10 d.digits * 1 : ℕ) : ℤ)
      rw [Nat.mul_one, Option.bind_fun_some]
    | some u =>
      show (int.exact (value 10 d.digits)).bind (applyUnit · [u.letter])
        = int.exact ((value 10 d.digits * u.seconds : ℕ) : ℤ)
      rw [Nat.cast_mul]
      by_cases h : int.Fits (value 10 d.digits)
      · rw [Signed.exact_of_fits h, Option.bind_some, applyUnit_letter h]
        rfl
      · have hle : (value 10 d.digits : ℤ) ≤ value 10 d.digits * u.seconds := by
          apply le_mul_of_one_le_right hv
          exact_mod_cast u.one_le_seconds
        rw [Signed.exact_of_not_fits h,
          Signed.exact_of_not_fits (Signed.not_fits_of_le hv h hle)]
        rfl
  · exact d.unit_not_isDigit

example : parseDurationToSeconds "99999999999".toList = none := by decide

/-- Any other string is read as a string that ends before it does: the digits, and at most one
unit. -/
lemma parseDurationToSeconds_prefix {s : List Char} (hne : s ≠ [])
    (h : ∀ d : Duration, d.text ≠ s) :
    ∃ p, p <+: s ∧ p ≠ s ∧ parseDurationToSeconds p = parseDurationToSeconds s := by
  obtain ⟨ds, rest, rfl, hdigits, hstop⟩ := exists_digits s
  have hall := parseDurationToSeconds_append hdigits hstop
  cases rest with
  | nil =>
    have hdigit : ds ≠ [] := by simpa using hne
    exact absurd (by simp [Duration.text]) (h ⟨ds, none, hdigit, hdigits⟩)
  | cons c rest =>
    by_cases hrest : rest = []
    · subst hrest
      -- one character behind the digits, which is a unit without digits or no unit
      have hnone : ∀ c ∈ ([] : List Char).head?, ¬c.isDigit := nofun
      refine ⟨ds ++ [], ⟨[c], by simp⟩, by simp, ?_⟩
      rw [parseDurationToSeconds_append hdigits hnone, hall]
      by_cases hc : ∃ u : TimeUnit, u.letter = c
      · obtain ⟨u, rfl⟩ := hc
        by_cases hnil : ds = []
        · subst hnil
          cases u <;> rfl
        · exact absurd (by simp [Duration.text]) (h ⟨ds, some u, hnil, hdigits⟩)
      · congr 1
        funext v
        rw [applyUnit_other fun u e => hc ⟨u, e⟩]
        rfl
    · refine ⟨ds ++ [c], ⟨rest, by simp⟩, ?_, ?_⟩
      · intro e
        apply hrest
        simpa using e.symm
      · have hone : ∀ d ∈ [c].head?, ¬d.isDigit := hstop
        rw [parseDurationToSeconds_append hdigits hone, hall]
        congr 1
        funext v
        exact (applyUnit_cons v c rest).symm

/-- What is asked of the result for a string: the seconds of a duration, some result when they do
not fit into an `int`, and for any other string a result that is not the one of a string that ends
before it does. -/
structure ReadRight (s : List Char) : Prop where
  exact : ∀ d : Duration, d.text = s → int.Fits d.seconds →
    parseDurationToSeconds s = some (d.seconds : ℤ)
  checked : ∀ d : Duration, d.text = s → ¬int.Fits d.seconds → parseDurationToSeconds s ≠ none
  refused : s ≠ [] → (∀ d : Duration, d.text ≠ s) →
    ∃ v, parseDurationToSeconds s = some v ∧
      ∀ p, p <+: s → p ≠ s → parseDurationToSeconds p ≠ some v

/-- Only durations that fit are read right; the empty string is neither a duration nor refused. -/
theorem readRight_iff (s : List Char) :
    ReadRight s ↔ s = [] ∨ ∃ d : Duration, d.text = s ∧ int.Fits d.seconds := by
  constructor
  · intro h
    by_cases hne : s = []
    · exact .inl hne
    · by_cases hd : ∃ d : Duration, d.text = s
      · obtain ⟨d, hd⟩ := hd
        by_cases hfits : int.Fits d.seconds
        · exact .inr ⟨d, hd, hfits⟩
        · have hnone : parseDurationToSeconds s = none := by
            rw [← hd, parseDurationToSeconds_text, Signed.exact_of_not_fits hfits]
          exact absurd hnone (h.checked d hd hfits)
      · have hother : ∀ d : Duration, d.text ≠ s := fun d e => hd ⟨d, e⟩
        obtain ⟨v, hv, hpre⟩ := h.refused hne hother
        obtain ⟨p, hp, hps, heq⟩ := parseDurationToSeconds_prefix hne hother
        exact absurd (heq.trans hv) (hpre p hp hps)
  · rintro (rfl | ⟨d, rfl, hfits⟩)
    · refine ⟨?_, ?_, ?_⟩
      · intro d hd
        exact absurd hd d.text_ne_nil
      · intro d hd
        exact absurd hd d.text_ne_nil
      · intro hne
        exact absurd rfl hne
    · have hsome : parseDurationToSeconds d.text = some (d.seconds : ℤ) := by
        rw [parseDurationToSeconds_text, Signed.exact_of_fits hfits]
      refine ⟨?_, ?_, ?_⟩
      · intro d' hd' hfits'
        rw [← hd', parseDurationToSeconds_text, Signed.exact_of_fits hfits']
      · intro d' hd' hfits' hnone
        exact absurd (hsome.symm.trans hnone) nofun
      · intro hne hother
        exact absurd rfl (hother d)

/-- Half a second is read as 500 minutes. -/
theorem not_readRight_500ms :
    parseDurationToSeconds "500ms".toList = some 30000 ∧ ¬ReadRight "500ms".toList := by
  have h : parseDurationToSeconds "500ms".toList = some 30000 := by decide
  have hm : parseDurationToSeconds "500m".toList = some 30000 := by decide
  refine ⟨h, fun r => ?_⟩
  have hother : ∀ d : Duration, d.text ≠ "500ms".toList := by
    intro d e
    have hunit : (d.unit.map TimeUnit.letter).toList = ['m', 's'] := by
      rw [← Strings.dropWhile_stops d.digits_isDigit d.unit_not_isDigit]
      exact congrArg (List.dropWhile Char.isDigit) e
    cases hu : d.unit with
    | none => simp [hu] at hunit
    | some u => simp [hu] at hunit
  obtain ⟨v, hv, hpre⟩ := r.refused (by decide) hother
  have heq : v = 30000 := Option.some.inj (hv.symm.trans h)
  subst heq
  exact hpre "500m".toList (by decide) (by decide) hm

end KubeMQ.Burnin
