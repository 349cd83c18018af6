import KubeMQ.Text.Digits
import KubeMQ.Types.Uuid
import Mathlib.Tactic.IntervalCases

/-!
# The layout of a generated identifier

What `snprintf` writes into the buffer of `GenerateUUID`, and that the text holds every bit of the
two draws which version and variant leave free.
-/

namespace KubeMQ
open Digits

/-- The first word of an id: version 4 in bits 12 to 15. -/
def setVersion (a : UInt64) : UInt64 := (a &&& 0xFFFFFFFFFFFF0FFF) ||| 0x0000000000004000

/-- The second word of an id: the variant in bits 62 and 63. -/
def setVariant (b : UInt64) : UInt64 := (b &&& 0x3FFFFFFFFFFFFFFF) ||| 0x8000000000000000

/-- The characters of `%08x-%04x-%04x-%04x-%012llx`, its arguments narrowed by the casts. -/
def printUUID (a b : UInt64) : List Char :=
  hex 8 (a >>> 32).toUInt32.toNat ++ '-' :: hex 4 ((a >>> 16) &&& 0xFFFF).toUInt16.toNat ++
    '-' :: hex 4 (a &&& 0xFFFF).toUInt16.toNat ++ '-' :: hex 4 (b >>> 48).toUInt16.toNat ++
    '-' :: hex 12 (b &&& 0x0000FFFFFFFFFFFF).toNat

/-- `snprintf` keeps the last byte of the buffer for the end of the string. -/
def snprintf (size : ℕ) (out : List Char) : List Char := out.take (size - 1)

/-- `buf` at the end of `GenerateUUID`. -/
def uuidBuffer (draw : UInt64 × UInt64) : List Char :=
  snprintf 37 (printUUID (setVersion draw.1) (setVariant draw.2))

/-- The bits of the two draws that neither version nor variant fixes. -/
def freeBits : UInt64 × UInt64 := (0xFFFFFFFFFFFF0FFF, 0x3FFFFFFFFFFFFFFF)

def bitCount (x : UInt64) : ℕ := (List.range 64).countP x.toNat.testBit

/-- The form `xxxxxxxx-xxxx-4xxx-yxxx-xxxxxxxxxxxx`, in lower case. -/
structure IsUUID (s : List Char) : Prop where
  layout : ∃ (time mid version clock node : List Char) (variant : Char),
    s = time ++ '-' :: mid ++ '-' :: '4' :: version ++ '-' :: variant :: clock ++ '-' :: node ∧
      time.length = 8 ∧ mid.length = 4 ∧ version.length = 3 ∧ clock.length = 3 ∧
      node.length = 12 ∧ variant ∈ ['8', '9', 'a', 'b'] ∧
      ∀ c ∈ time ++ mid ++ version ++ clock ++ node, c ∈ "0123456789abcdef".toList

/-- The two words that the digits of an id denote. -/
def readUUID (s : String) : UInt64 × UInt64 :=
  let digits := s.toList.filter (· ≠ '-')
  (UInt64.ofNat (value 16 (digits.take 16)), UInt64.ofNat (value 16 (digits.drop 16)))

lemma isDigit_hex {w n : ℕ} : ∀ c ∈ hex w n, IsDigit 16 c :=
  isDigit_padded (by decide) w n

lemma value_hex (w n : ℕ) : value 16 (hex w n) = n :=
  value_padded (by decide) (by decide) w n

lemma length_hex {w n : ℕ} (hw : 0 < w) (hn : n < 16 ^ w) : (hex w n).length = w :=
  length_padded (by decide) hw hn

/-- The digits of base sixteen are the ones the tests look for. -/
lemma mem_hexDigits {c : Char} (h : IsDigit 16 c) : c ∈ "0123456789abcdef".toList := by
  obtain ⟨d, hd, rfl⟩ := h
  revert d
  decide

lemma digit_ne_dash {c : Char} (h : IsDigit 16 c) : c ≠ '-' := by
  obtain ⟨d, hd, rfl⟩ := h
  revert d
  decide

/-- A field of the right width starts with the digit of its highest four bits. -/
lemma hex_head {w n : ℕ} (hn : n < 16 ^ (w + 1)) :
    ∃ rest, hex (w + 1) n = Nat.digitChar (n / 16 ^ w) :: rest ∧ rest.length = w := by
  have hlen := length_hex (Nat.succ_pos w) hn
  cases hs : hex (w + 1) n with
  | nil => simp [hs] at hlen
  | cons c rest =>
    have hrest : rest.length = w := by simpa [hs] using hlen
    have hdigits : ∀ c' ∈ c :: rest, IsDigit 16 c' := by
      rw [← hs]
      exact isDigit_hex
    have hval : value 16 (c :: rest) = n := by
      rw [← hs]
      exact value_hex _ _
    have hhead := digitValue_head (c := c) (by decide)
      (fun c' hc' => hdigits c' (List.mem_cons_of_mem _ hc'))
    rw [hval, hrest] at hhead
    refine ⟨rest, ?_, hrest⟩
    rw [← hhead, ← (hdigits c List.mem_cons_self).eq_digitChar (by decide)]

section
variable (a b : UInt64)

-- The fields are disjoint bit ranges of the two words.
def timeLow : ℕ := a.toNat / 2 ^ 32
def timeMid : ℕ := a.toNat / 2 ^ 16 % 2 ^ 16
def timeHigh : ℕ := a.toNat % 2 ^ 16
def clockSeq : ℕ := b.toNat / 2 ^ 48
def nodeId : ℕ := b.toNat % 2 ^ 48

/-- The casts narrow values that fit already. -/
lemma printUUID_uncast :
    printUUID a b = hex 8 (a >>> 32).toNat ++ '-' :: hex 4 ((a >>> 16) &&& 0xFFFF).toNat ++
      '-' :: hex 4 (a &&& 0xFFFF).toNat ++ '-' :: hex 4 (b >>> 48).toNat ++
      '-' :: hex 12 (b &&& 0x0000FFFFFFFFFFFF).toNat := by
  have ha := a.toNat_lt
  have hb := b.toNat_lt
  have hlow : (a >>> 32).toUInt32.toNat = (a >>> 32).toNat := by
    simp [Nat.shiftRight_eq_div_pow]
    omega
  have hmask : ∀ x : UInt64, (x &&& 0xFFFF).toUInt16.toNat = (x &&& 0xFFFF).toNat := by
    intro x
    simp [Nat.and_two_pow_sub_one_eq_mod _ 16]
  have hclock : (b >>> 48).toUInt16.toNat = (b >>> 48).toNat := by
    simp [Nat.shiftRight_eq_div_pow]
    omega
  rw [printUUID, hlow, hmask, hmask, hclock]

lemma printUUID_eq :
    printUUID a b = hex 8 (timeLow a) ++ '-' :: hex 4 (timeMid a) ++ '-' :: hex 4 (timeHigh a) ++
      '-' :: hex 4 (clockSeq b) ++ '-' :: hex 12 (nodeId b) := by
  have hlow : (a >>> 32).toNat = timeLow a := by
    simp [timeLow, Nat.shiftRight_eq_div_pow]
  have hmid : ((a >>> 16) &&& 0xFFFF).toNat = timeMid a := by
    simp [timeMid, Nat.shiftRight_eq_div_pow, Nat.and_two_pow_sub_one_eq_mod _ 16]
  have hhigh : (a &&& 0xFFFF).toNat = timeHigh a := by
    simp [timeHigh, Nat.and_two_pow_sub_one_eq_mod _ 16]
  have hclock : (b >>> 48).toNat = clockSeq b := by
    simp [clockSeq, Nat.shiftRight_eq_div_pow]
  have hnode : (b &&& 0x0000FFFFFFFFFFFF).toNat = nodeId b := by
    simp [nodeId, Nat.and_two_pow_sub_one_eq_mod _ 48]
  rw [printUUID_uncast, hlow, hmid, hhigh, hclock, hnode]

lemma and_or_right (x y z : UInt64) : (x ||| y) &&& z = (x &&& z) ||| (y &&& z) := by
  apply UInt64.toBitVec_inj.mp
  exact BitVec.and_or_distrib_right

/-- A stamp outside a mask leaves what the mask keeps. -/
lemma stamp_and {x keep mark mask : UInt64} (hkeep : keep &&& mask = mask) (hmark : mark &&& mask = 0) :
    (x &&& keep ||| mark) &&& mask = x &&& mask := by
  rw [and_or_right, hmark, UInt64.or_zero, UInt64.and_assoc, hkeep]

/-- A stamp fills the field that was cleared for it. -/
lemma stamp_field {x keep mark field : UInt64} (hkeep : keep &&& field = 0)
    (hmark : mark &&& field = mark) : (x &&& keep ||| mark) &&& field = mark := by
  rw [and_or_right, hmark, UInt64.and_assoc, hkeep, UInt64.and_zero, UInt64.zero_or]

/-- What a field of `w` bits holds, read off the word masked down to it. -/
lemma field_value {n v k w : ℕ} (h : n &&& (2 ^ w - 1) <<< k = v <<< k) :
    n / 2 ^ k % 2 ^ w = v := by
  have hshift : (n &&& (2 ^ w - 1) <<< k) >>> k = (v <<< k) >>> k := by rw [h]
  rw [Nat.shiftRight_and_distrib, Nat.shiftLeft_shiftRight, Nat.shiftLeft_shiftRight,
    Nat.and_two_pow_sub_one_eq_mod, Nat.shiftRight_eq_div_pow] at hshift
  exact hshift

lemma setVersion_free : setVersion a &&& freeBits.1 = a &&& freeBits.1 := by
  apply stamp_and
  · decide
  · decide

lemma setVariant_free : setVariant b &&& freeBits.2 = b &&& freeBits.2 := by
  apply stamp_and
  · decide
  · decide

/-- The highest four bits of the third group are the version. -/
lemma timeHigh_setVersion : timeHigh (setVersion a) / 16 ^ 3 = 4 := by
  have hfield : setVersion a &&& 0xF000 = 0x4000 := by
    apply stamp_field
    · decide
    · decide
  have hbits : (setVersion a).toNat / 2 ^ 12 % 2 ^ 4 = 4 :=
    field_value (congrArg UInt64.toNat hfield)
  unfold timeHigh
  omega

/-- The highest two bits of the fourth group are the variant. -/
lemma clockSeq_setVariant :
    8 ≤ clockSeq (setVariant b) / 16 ^ 3 ∧ clockSeq (setVariant b) / 16 ^ 3 ≤ 11 := by
  have hfield : setVariant b &&& 0xC000000000000000 = 0x8000000000000000 := by
    apply stamp_field
    · decide
    · decide
  have hbits : (setVariant b).toNat / 2 ^ 62 % 2 ^ 2 = 2 :=
    field_value (congrArg UInt64.toNat hfield)
  have hlt := (setVariant b).toNat_lt
  unfold clockSeq
  omega

end

/-- Two words are stamped alike when they agree on the free bits. -/
lemma setVersion_congr {a a' : UInt64} (h : a &&& freeBits.1 = a' &&& freeBits.1) :
    setVersion a = setVersion a' :=
  congrArg (· ||| 0x0000000000004000) h

lemma setVariant_congr {b b' : UInt64} (h : b &&& freeBits.2 = b' &&& freeBits.2) :
    setVariant b = setVariant b' :=
  congrArg (· ||| 0x8000000000000000) h

section
variable (a b : UInt64)

lemma length_timeLow : (hex 8 (timeLow a)).length = 8 := by
  have := a.toNat_lt
  apply length_hex
  · decide
  · unfold timeLow
    omega

lemma length_timeMid : (hex 4 (timeMid a)).length = 4 := by
  apply length_hex
  · decide
  · unfold timeMid
    omega

lemma length_timeHigh : (hex 4 (timeHigh a)).length = 4 := by
  apply length_hex
  · decide
  · unfold timeHigh
    omega

lemma length_clockSeq : (hex 4 (clockSeq b)).length = 4 := by
  have := b.toNat_lt
  apply length_hex
  · decide
  · unfold clockSeq
    omega

lemma length_nodeId : (hex 12 (nodeId b)).length = 12 := by
  apply length_hex
  · decide
  · unfold nodeId
    omega

lemma length_printUUID : (printUUID a b).length = 36 := by
  simp [printUUID_eq, length_timeLow, length_timeMid, length_timeHigh, length_clockSeq,
    length_nodeId]

/-- The hyphens dropped, the groups stand one after the other. -/
lemma filter_printUUID :
    (printUUID a b).filter (· ≠ '-') = (hex 8 (timeLow a) ++ hex 4 (timeMid a) ++
      hex 4 (timeHigh a)) ++ (hex 4 (clockSeq b) ++ hex 12 (nodeId b)) := by
  have hkeep : ∀ w n, (hex w n).filter (· ≠ '-') = hex w n := by
    intro w n
    apply List.filter_eq_self.mpr
    intro c hc
    simpa using digit_ne_dash (isDigit_hex c hc)
  have hdash : ∀ cs : List Char, ('-' :: cs).filter (· ≠ '-') = cs.filter (· ≠ '-') :=
    fun cs => rfl
  simp only [printUUID_eq, List.filter_append, hdash, hkeep, List.append_assoc, List.cons_append]

lemma readUUID_printUUID : readUUID (String.ofList (printUUID a b)) = (a, b) := by
  have ha := a.toNat_lt
  have hb := b.toNat_lt
  have hlen : (hex 8 (timeLow a) ++ hex 4 (timeMid a) ++ hex 4 (timeHigh a)).length = 16 := by
    simp [length_timeLow, length_timeMid, length_timeHigh]
  have hfirst : value 16 (hex 8 (timeLow a) ++ hex 4 (timeMid a) ++ hex 4 (timeHigh a)) =
      a.toNat := by
    simp only [value_append, value_hex, length_timeMid, length_timeHigh]
    unfold timeLow timeMid timeHigh
    omega
  have hsecond : value 16 (hex 4 (clockSeq b) ++ hex 12 (nodeId b)) = b.toNat := by
    simp only [value_append, value_hex, length_nodeId]
    unfold clockSeq nodeId
    omega
  unfold readUUID
  simp only [String.toList_ofList, filter_printUUID]
  rw [List.take_left' hlen, List.drop_left' hlen, hfirst, hsecond]
  simp

/-- The buffer of 37 bytes holds the whole text and the end of the string. -/
lemma snprintf_printUUID : snprintf 37 (printUUID a b) = printUUID a b := by
  apply List.take_of_length_le
  rw [length_printUUID]

end

lemma isUUID_printUUID (draw : UInt64 × UInt64) :
    IsUUID (printUUID (setVersion draw.1) (setVariant draw.2)) := by
  generalize ha : setVersion draw.1 = a
  generalize hb : setVariant draw.2 = b
  have htime : timeHigh a / 16 ^ 3 = 4 := by
    rw [← ha]
    exact timeHigh_setVersion _
  have hclock : 8 ≤ clockSeq b / 16 ^ 3 ∧ clockSeq b / 16 ^ 3 ≤ 11 := by
    rw [← hb]
    exact clockSeq_setVariant _
  obtain ⟨version, hversion, hversionLen⟩ := hex_head (w := 3) (n := timeHigh a) (by omega)
  obtain ⟨clock, hclockHex, hclockLen⟩ := hex_head (w := 3) (n := clockSeq b) (by omega)
  rw [htime] at hversion
  generalize hv : clockSeq b / 16 ^ 3 = v at hclock hclockHex
  have hdigits : ∀ w n, ∀ c ∈ hex w n, c ∈ "0123456789abcdef".toList :=
    fun w n c hc => mem_hexDigits (isDigit_hex c hc)
  refine ⟨hex 8 (timeLow a), hex 4 (timeMid a), version, clock, hex 12 (nodeId b),
    Nat.digitChar v, ?_, length_timeLow a, length_timeMid a, hversionLen, hclockLen,
    length_nodeId b, ?_, ?_⟩
  · rw [printUUID_eq, hversion, hclockHex]
    simp
  · obtain ⟨h8, h11⟩ := hclock
    interval_cases v <;> decide
  · intro c hc
    simp only [List.mem_append] at hc
    rcases hc with (((hc | hc) | hc) | hc) | hc
    · exact hdigits _ _ c hc
    · exact hdigits _ _ c hc
    · apply hdigits 4 (timeHigh a) c
      rw [hversion]
      exact List.mem_cons_of_mem _ hc
    · apply hdigits 4 (clockSeq b) c
      rw [hclockHex]
      exact List.mem_cons_of_mem _ hc
    · exact hdigits _ _ c hc

lemma uuidBuffer_eq (draw : UInt64 × UInt64) :
    uuidBuffer draw = printUUID (setVersion draw.1) (setVariant draw.2) :=
  snprintf_printUUID _ _

/-- The casts and the bound of the buffer change nothing. -/
lemma generateUUID_eq (draw : UInt64 × UInt64) :
    generateUUID draw = String.ofList (uuidBuffer draw) := by
  rw [uuidBuffer_eq, printUUID_uncast]
  rfl

theorem generateUUID_format (draw : UInt64 × UInt64) :
    generateUUID draw = String.ofList (uuidBuffer draw) ∧
      (printUUID (setVersion draw.1) (setVariant draw.2)).length = 36 ∧
      (generateUUID draw).length = 36 ∧
      IsUUID (generateUUID draw).toList ∧
      readUUID (generateUUID draw) = (setVersion draw.1, setVariant draw.2) ∧
      ((readUUID (generateUUID draw)).1 &&& freeBits.1 = draw.1 &&& freeBits.1 ∧
        (readUUID (generateUUID draw)).2 &&& freeBits.2 = draw.2 &&& freeBits.2) ∧
      bitCount freeBits.1 + bitCount freeBits.2 = 122 ∧
      ∀ other : UInt64 × UInt64, generateUUID draw = generateUUID other ↔
        draw.1 &&& freeBits.1 = other.1 &&& freeBits.1 ∧
          draw.2 &&& freeBits.2 = other.2 &&& freeBits.2 := by
  have htext : ∀ d, generateUUID d =
      String.ofList (printUUID (setVersion d.1) (setVariant d.2)) := by
    intro d
    rw [generateUUID_eq, uuidBuffer_eq]
  have hread : ∀ d, readUUID (generateUUID d) = (setVersion d.1, setVariant d.2) := by
    intro d
    rw [htext]
    exact readUUID_printUUID _ _
  refine ⟨generateUUID_eq draw, length_printUUID _ _, ?_, ?_, hread draw, ?_, by decide +kernel, ?_⟩
  · rw [htext, String.length_ofList]
    exact length_printUUID _ _
  · rw [htext, String.toList_ofList]
    exact isUUID_printUUID draw
  · rw [hread]
    exact ⟨setVersion_free _, setVariant_free _⟩
  · intro other
    constructor
    · intro heq
      have hwords := congrArg readUUID heq
      rw [hread, hread, Prod.mk.injEq] at hwords
      obtain ⟨hfirst, hsecond⟩ := hwords
      constructor
      · rw [← setVersion_free, hfirst, setVersion_free]
      · rw [← setVariant_free, hsecond, setVariant_free]
    · rintro ⟨hfirst, hsecond⟩
      rw [htext, htext, setVersion_congr hfirst, setVariant_congr hsecond]

end KubeMQ
