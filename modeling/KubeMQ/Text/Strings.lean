import KubeMQ.Text.Digits

/-!
# Functions of `std::string`

`rfind` of a character and `std::stoi`, with what they find in a text: `rfind` splits it at the
last occurrence, `stoi` reads a numeral at its start.
-/

namespace Strings
open Digits

/-- `std::string::rfind`: the place of the last occurrence. -/
def rfind (c : Char) : List Char → Option ℕ
  | [] => none
  | x :: xs =>
    match rfind c xs with
    | some i => some (i + 1)
    | none => if x = c then some 0 else none

/-- `std::isspace` in the C locale. -/
def isSpace (c : Char) : Bool := c = ' ' || (9 ≤ c.toNat && c.toNat ≤ 13)

/-- The optional sign of a numeral. -/
def skipSign : List Char → Bool × List Char
  | '-' :: cs => (true, cs)
  | '+' :: cs => (false, cs)
  | cs => (false, cs)

/-- `std::stoi` in base ten; `none` is an exception, `std::invalid_argument` when there is no digit
and `std::out_of_range` when the number is no `int`. -/
def stoi (s : List Char) : Option ℤ :=
  let (negative, s) := skipSign (s.dropWhile isSpace)
  let digits := s.takeWhile Char.isDigit
  if digits = [] then none
  else
    let v : ℤ := if negative then -(value 10 digits : ℤ) else value 10 digits
    if -2147483648 ≤ v ∧ v ≤ 2147483647 then some v else none

/-- A text that starts with a number: blanks, a sign, the digits, and what follows them. -/
structure Numeral where
  blanks : List Char
  sign : List Char
  digits : List Char
  rest : List Char
  blanks_space : ∀ c ∈ blanks, isSpace c
  sign_mem : sign = [] ∨ sign = ['+'] ∨ sign = ['-']
  digits_ne_nil : digits ≠ []
  digits_isDigit : ∀ c ∈ digits, c.isDigit
  rest_stops : ∀ c ∈ rest.head?, ¬c.isDigit

namespace Numeral

def text (n : Numeral) : List Char := n.blanks ++ (n.sign ++ (n.digits ++ n.rest))

def number (n : Numeral) : ℤ :=
  if n.sign = ['-'] then -(value 10 n.digits : ℤ) else value 10 n.digits

end Numeral

lemma rfind_eq_none {c : Char} {cs : List Char} : rfind c cs = none ↔ c ∉ cs := by
  induction cs with
  | nil => simp [rfind]
  | cons x xs ih =>
    rw [rfind]
    cases hx : rfind c xs with
    | some i =>
      rw [hx] at ih
      simp_all
    | none =>
      have hxs : c ∉ xs := ih.mp hx
      by_cases hc : x = c
      · simp [hc]
      · simp [hc, hxs, Ne.symm hc]

/-- The last occurrence splits the text. -/
lemma rfind_append {c : Char} (pre : List Char) {post : List Char} (h : c ∉ post) :
    rfind c (pre ++ c :: post) = some pre.length := by
  induction pre with
  | nil => simp [rfind, rfind_eq_none.mpr h]
  | cons x xs ih => simp [rfind, ih]

lemma exists_split {c : Char} {cs : List Char} (h : c ∈ cs) :
    ∃ pre post, cs = pre ++ c :: post ∧ c ∉ post := by
  induction cs with
  | nil => simp at h
  | cons x xs ih =>
    by_cases hxs : c ∈ xs
    · obtain ⟨pre, post, rfl, hpost⟩ := ih hxs
      exact ⟨x :: pre, post, rfl, hpost⟩
    · obtain rfl | hx := List.mem_cons.mp h
      · exact ⟨[], xs, rfl, hxs⟩
      · exact absurd hx hxs

/-- There is one split at the last occurrence. -/
lemma split_unique {c : Char} {pre pre' post post' : List Char} (h : c ∉ post) (h' : c ∉ post')
    (heq : pre ++ c :: post = pre' ++ c :: post') : pre = pre' ∧ post = post' := by
  have hpos := congrArg (rfind c) heq
  rw [rfind_append pre h, rfind_append pre' h', Option.some.injEq] at hpos
  obtain ⟨hpre, hrest⟩ := List.append_inj heq hpos
  exact ⟨hpre, (List.cons.inj hrest).2⟩

lemma not_isSpace_of_isDigit {c : Char} (h : c.isDigit) : ¬isSpace c := by
  rw [Char.isDigit_iff_toNat] at h
  have hspace : c ≠ ' ' := by
    rintro rfl
    simp at h
  simp only [isSpace, hspace, decide_false, Bool.false_or, Bool.and_eq_true, decide_eq_true_eq]
  intro hc
  have : '0'.toNat = 48 := rfl
  omega

lemma takeWhile_stops {p : Char → Bool} {cs rest : List Char} (hcs : ∀ c ∈ cs, p c)
    (hrest : ∀ c ∈ rest.head?, ¬p c) : (cs ++ rest).takeWhile p = cs := by
  rw [List.takeWhile_append_of_pos hcs]
  cases rest with
  | nil => simp
  | cons c rest =>
    have hc : ¬p c := hrest c rfl
    simp [hc]

lemma dropWhile_stops {p : Char → Bool} {cs rest : List Char} (hcs : ∀ c ∈ cs, p c)
    (hrest : ∀ c ∈ rest.head?, ¬p c) : (cs ++ rest).dropWhile p = rest := by
  rw [List.dropWhile_append_of_pos hcs]
  cases rest with
  | nil => rfl
  | cons c rest =>
    have hc : ¬p c := hrest c rfl
    simp [hc]

lemma head?_dropWhile_not {p : Char → Bool} (cs : List Char) :
    ∀ c ∈ (cs.dropWhile p).head?, ¬p c := by
  intro c hc
  have h := List.head?_dropWhile_not p cs
  rw [Option.mem_def.mp hc] at h
  simpa using h

namespace Numeral
variable (n : Numeral)

lemma exists_digit : ∃ d ds, n.digits = d :: ds ∧ d.isDigit := by
  cases hd : n.digits with
  | nil => exact absurd hd n.digits_ne_nil
  | cons d ds => exact ⟨d, ds, rfl, n.digits_isDigit d (by simp [hd])⟩

/-- The blanks end at the sign or at the first digit. -/
lemma dropWhile_text : n.text.dropWhile isSpace = n.sign ++ (n.digits ++ n.rest) := by
  apply dropWhile_stops n.blanks_space
  obtain ⟨d, ds, hd, hdigit⟩ := n.exists_digit
  intro c hc
  obtain hs | hs | hs := n.sign_mem
  · rw [hs, hd] at hc
    obtain rfl := Option.some.inj hc
    exact not_isSpace_of_isDigit hdigit
  · rw [hs] at hc
    obtain rfl := Option.some.inj hc
    decide
  · rw [hs] at hc
    obtain rfl := Option.some.inj hc
    decide

lemma skipSign_text : skipSign (n.sign ++ (n.digits ++ n.rest)) =
    (decide (n.sign = ['-']), n.digits ++ n.rest) := by
  obtain ⟨d, ds, hd, hdigit⟩ := n.exists_digit
  obtain hs | hs | hs := n.sign_mem
  · have hminus : d ≠ '-' := by
      rintro rfl
      simp at hdigit
    have hplus : d ≠ '+' := by
      rintro rfl
      simp at hdigit
    simp [hs, hd, skipSign, hminus, hplus]
  · simp [hs, skipSign]
  · simp [hs, skipSign]

/-- What `stoi` makes of a text that starts with a numeral. -/
lemma stoi_text : stoi n.text =
    if -2147483648 ≤ n.number ∧ n.number ≤ 2147483647 then some n.number else none := by
  unfold stoi
  rw [dropWhile_text, skipSign_text]
  simp only [takeWhile_stops n.digits_isDigit n.rest_stops, if_neg n.digits_ne_nil,
    decide_eq_true_eq]
  rfl

/-- Digits alone are one numeral, with nothing around it. -/
lemma plain_of_isDigit (h : ∀ c ∈ n.text, c.isDigit) : n.blanks = [] ∧ n.sign = [] ∧ n.rest = [] := by
  have hmem : ∀ c, c ∈ n.blanks ∨ c ∈ n.sign ∨ c ∈ n.digits ∨ c ∈ n.rest → c.isDigit := by
    intro c hc
    apply h
    simpa [text] using hc
  refine ⟨?_, ?_, ?_⟩
  · apply List.eq_nil_iff_forall_not_mem.mpr
    intro c hc
    exact not_isSpace_of_isDigit (hmem c (.inl hc)) (n.blanks_space c hc)
  · obtain hs | hs | hs := n.sign_mem
    · exact hs
    · exact absurd (hmem '+' (by simp [hs])) (by decide)
    · exact absurd (hmem '-' (by simp [hs])) (by decide)
  · cases hr : n.rest with
    | nil => rfl
    | cons c rest =>
      have hstop : ¬c.isDigit := n.rest_stops c (by simp [hr])
      exact absurd (hmem c (by simp [hr])) hstop

/-- A text of digits as a numeral. -/
def plain (digits : List Char) (hne : digits ≠ []) (h : ∀ c ∈ digits, c.isDigit) : Numeral where
  blanks := []
  sign := []
  digits := digits
  rest := []
  blanks_space := List.forall_mem_nil _
  sign_mem := .inl rfl
  digits_ne_nil := hne
  digits_isDigit := h
  rest_stops := by simp

lemma text_plain (digits : List Char) (hne : digits ≠ []) (h : ∀ c ∈ digits, c.isDigit) :
    (plain digits hne h).text = digits := by
  simp [plain, text]

end Numeral

lemma exists_sign (t : List Char) :
    ∃ sign, (sign = [] ∨ sign = ['+'] ∨ sign = ['-']) ∧ t = sign ++ (skipSign t).2 := by
  unfold skipSign
  split
  next => exact ⟨['-'], by simp, rfl⟩
  next => exact ⟨['+'], by simp, rfl⟩
  next => exact ⟨[], by simp, rfl⟩

/-- Where `stoi` reads a number, the text starts with its numeral. -/
lemma exists_numeral {s : List Char} {v : ℤ} (h : stoi s = some v) :
    ∃ n : Numeral, n.text = s := by
  obtain ⟨sign, hmem, hsign⟩ := exists_sign (s.dropWhile isSpace)
  unfold stoi at h
  simp only at h
  generalize (skipSign (s.dropWhile isSpace)).2 = t at h hsign
  split at h
  next => exact absurd h (by simp)
  next hne =>
    refine ⟨⟨s.takeWhile isSpace, sign, t.takeWhile Char.isDigit, t.dropWhile Char.isDigit,
      ?_, hmem, hne, ?_, head?_dropWhile_not _⟩, ?_⟩
    · exact List.all_eq_true.mp List.all_takeWhile
    · exact List.all_eq_true.mp List.all_takeWhile
    · show s.takeWhile isSpace ++ (sign ++ (_ ++ _)) = s
      rw [List.takeWhile_append_dropWhile, ← hsign, List.takeWhile_append_dropWhile]

lemma stoi_eq_some {s : List Char} {v : ℤ} :
    stoi s = some v ↔
      ∃ n : Numeral, n.text = s ∧ n.number = v ∧ -2147483648 ≤ v ∧ v ≤ 2147483647 := by
  constructor
  · intro h
    obtain ⟨n, rfl⟩ := exists_numeral h
    rw [n.stoi_text] at h
    split at h
    next hrange =>
      obtain rfl := Option.some.inj h
      exact ⟨n, rfl, rfl, hrange⟩
    next => exact absurd h (by simp)
  · rintro ⟨n, rfl, rfl, hrange⟩
    rw [n.stoi_text, if_pos hrange]

end Strings
