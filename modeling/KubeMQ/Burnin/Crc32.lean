import KubeMQ.Crc.Reflected

/-!
# The checksum of a message

`InitCrc32Table` and `Crc32` of `engine/metrics.cc`. The table is a static array of zeros that the
first call fills. `reflectedCrc32` processes the same bytes one bit at a time.
-/

namespace KubeMQ.Burnin

abbrev crcPolynomial : BitVec 32 := 0xEDB88320#32

structure Crc32Statics where
  crc32Table : List (BitVec 32)
  crc32Initialized : Bool

namespace Crc32Statics

/-- At the start of the program. -/
def start : Crc32Statics := ⟨List.replicate 256 0#32, false⟩

/-- The body of the inner loop of `InitCrc32Table`. -/
def entryStep (crc : BitVec 32) : BitVec 32 :=
  if crc &&& 1#32 ≠ 0#32 then (crc >>> 1) ^^^ crcPolynomial else crc >>> 1

def entry (i : ℕ) : BitVec 32 := entryStep^[8] (BitVec.ofNat 32 i)

def initCrc32Table (s : Crc32Statics) : Crc32Statics :=
  if s.crc32Initialized then s
  else
    { crc32Table := (List.range 256).foldl (fun table i => table.set i (entry i)) s.crc32Table
      crc32Initialized := true }

/-- The loop of `Crc32` over the data. -/
def crc32Loop (table : List (BitVec 32)) (crc : BitVec 32) (data : List (BitVec 8)) : BitVec 32 :=
  data.foldl
    (fun crc c =>
      table.getD ((crc ^^^ c.setWidth 32) &&& 0xFF#32).toNat 0#32 ^^^ (crc >>> 8))
    crc

def crc32 (s : Crc32Statics) (data : List (BitVec 8)) : Crc32Statics × BitVec 32 :=
  let s := s.initCrc32Table
  (s, crc32Loop s.crc32Table 0xFFFFFFFF#32 data ^^^ 0xFFFFFFFF#32)

/-- The calls of a program, one after the other. -/
def calls (s : Crc32Statics) : List (List (BitVec 8)) → Crc32Statics × List (BitVec 32)
  | [] => (s, [])
  | data :: rest =>
    let (s, crc) := s.crc32 data
    let (s, crcs) := s.calls rest
    (s, crc :: crcs)

/-- What earlier calls leave behind. -/
def after (earlier : List (List (BitVec 8))) : Crc32Statics := (start.calls earlier).1

/-- The table that a call uses. -/
def table (s : Crc32Statics) : List (BitVec 32) := s.initCrc32Table.crc32Table

end Crc32Statics

/-- The bits of a text, the lowest of each byte first. -/
def dataBits (data : List (BitVec 8)) : List Bool := data.flatMap (Crc.bits 8)

/-- The checksum, bit by bit. -/
def reflectedCrc32 (data : List (BitVec 8)) : BitVec 32 :=
  Crc.remainder crcPolynomial 0xFFFFFFFF#32 (dataBits data) ^^^ 0xFFFFFFFF#32

namespace Crc32Statics

lemma entryStep_eq (crc : BitVec 32) : entryStep crc = Crc.shift crcPolynomial crc := by
  unfold entryStep Crc.shift
  rw [BitVec.and_one_eq_setWidth_ofBool_getLsbD]
  cases crc.getLsbD 0 <;> rfl

lemma entry_eq (i : ℕ) : entry i = Crc.shifts crcPolynomial 8 (BitVec.ofNat 32 i) := by
  have h : entryStep = Crc.shift crcPolynomial := funext entryStep_eq
  unfold entry Crc.shifts
  rw [h]

lemma length_foldl_set {α : Type} (f : ℕ → α) (is : List ℕ) (l : List α) :
    (is.foldl (fun l i => l.set i (f i)) l).length = l.length := by
  induction is generalizing l with
  | nil => rfl
  | cons i is ih => rw [List.foldl_cons, ih, List.length_set]

/-- The outer loop writes every slot. -/
lemma getElem?_foldl_set {α : Type} (f : ℕ → α) {l : List α} {n i : ℕ} (hi : i < n)
    (hlen : i < l.length) :
    ((List.range n).foldl (fun l i => l.set i (f i)) l)[i]? = some (f i) := by
  induction n with
  | zero => exact absurd hi (Nat.not_lt_zero i)
  | succ n ih =>
    rw [List.range_succ, List.foldl_append, List.foldl_cons, List.foldl_nil, List.getElem?_set,
      length_foldl_set]
    by_cases h : n = i
    · subst h
      rw [if_pos rfl, if_pos hlen]
    · rw [if_neg h]
      exact ih (by omega)

/-- The table is what the bit-wise shifts say, once it is marked as built. -/
structure Built (s : Crc32Statics) : Prop where
  length : s.crc32Table.length = 256
  entries : s.crc32Initialized = true → ∀ i < 256, s.crc32Table[i]? = some (entry i)

lemma built_start : start.Built where
  length := List.length_replicate
  entries := nofun

lemma Built.initCrc32Table {s : Crc32Statics} (h : s.Built) :
    s.initCrc32Table.Built ∧ s.initCrc32Table.crc32Initialized = true := by
  unfold Crc32Statics.initCrc32Table
  by_cases hi : s.crc32Initialized = true
  · rw [if_pos hi]
    exact ⟨h, hi⟩
  · rw [if_neg hi]
    refine ⟨⟨?_, ?_⟩, rfl⟩
    · rw [length_foldl_set]
      exact h.length
    · intro _ i hlt
      have hlen : i < s.crc32Table.length := h.length ▸ hlt
      rw [getElem?_foldl_set entry hlt hlen]

lemma dataBits_cons (c : BitVec 8) (data : List (BitVec 8)) :
    dataBits (c :: data) = Crc.bits 8 c ++ dataBits data := rfl

/-- A byte has no bits above its eighth. -/
lemma byte_shift (c : BitVec 8) : (c.setWidth 32) >>> 8 = 0#32 := by
  apply BitVec.eq_of_getLsbD_eq
  intro i _
  rw [BitVec.getLsbD_ushiftRight, BitVec.getLsbD_setWidth, BitVec.getLsbD_of_ge c _ (by omega)]
  simp

/-- The index of the table is the low byte of what it is taken from. -/
lemma index_bits (y : BitVec 32) {i : ℕ} (hi : i < 8) :
    (y &&& 0xFF#32).getLsbD i = y.getLsbD i := by
  have hmask : ∀ i < 8, (0xFF#32).getLsbD i = true := by decide
  rw [BitVec.getLsbD_and, hmask i hi, Bool.and_true]

lemma index_shift (y : BitVec 32) : (y &&& 0xFF#32) >>> 8 = 0#32 := by
  have hmask : (0xFF#32) >>> 8 = 0#32 := by decide
  rw [BitVec.ushiftRight_and_distrib, hmask, BitVec.and_zero]

lemma index_lt (y : BitVec 32) : (y &&& 0xFF#32).toNat < 256 := by
  rw [BitVec.toNat_and]
  exact Nat.lt_of_le_of_lt Nat.and_le_right (by decide)

/-- A look-up in a table that is built is eight shifts. -/
lemma Built.lookup {s : Crc32Statics} (h : s.Built) (hi : s.crc32Initialized = true)
    (y : BitVec 32) :
    s.crc32Table.getD (y &&& 0xFF#32).toNat 0#32
      = Crc.shifts crcPolynomial 8 (y &&& 0xFF#32) := by
  rw [List.getD_eq_getElem?_getD, h.entries hi _ (index_lt y), entry_eq, BitVec.ofNat_toNat,
    BitVec.setWidth_eq]
  rfl

/-- The loop of `Crc32` computes the remainder of the bits, from any remainder on. -/
lemma Built.crc32Loop {s : Crc32Statics} (h : s.Built) (hi : s.crc32Initialized = true)
    (crc : BitVec 32) (data : List (BitVec 8)) :
    crc32Loop s.crc32Table crc data = Crc.remainder crcPolynomial crc (dataBits data) := by
  induction data generalizing crc with
  | nil => rfl
  | cons c data ih =>
    have hbyte : Crc.bits 8 c = Crc.bits 8 (c.setWidth 32) := by
      apply Crc.bits_congr
      intro i hlt
      rw [BitVec.getLsbD_setWidth, decide_eq_true (by omega), Bool.true_and]
    have hstep := Crc.remainder_bits crcPolynomial (r := crc) (byte_shift c)
      (index_shift (crc ^^^ c.setWidth 32)) (fun i hlt => index_bits _ hlt)
    rw [dataBits_cons, Crc.remainder_append, hbyte, hstep, ← h.lookup hi]
    exact ih _

/-- The loop may be stopped and taken up again. -/
lemma crc32Loop_append (table : List (BitVec 32)) (crc : BitVec 32) (xs ys : List (BitVec 8)) :
    crc32Loop table crc (xs ++ ys) = crc32Loop table (crc32Loop table crc xs) ys :=
  List.foldl_append

/-- One call. -/
lemma Built.crc32 {s : Crc32Statics} (h : s.Built) (data : List (BitVec 8)) :
    (s.crc32 data).1.Built ∧ (s.crc32 data).2 = reflectedCrc32 data := by
  obtain ⟨hbuilt, hi⟩ := h.initCrc32Table
  refine ⟨hbuilt, ?_⟩
  show Crc32Statics.crc32Loop s.initCrc32Table.crc32Table _ data ^^^ _ = _
  rw [hbuilt.crc32Loop hi]
  rfl

/-- A run of calls. -/
lemma Built.calls {s : Crc32Statics} (h : s.Built) (data : List (List (BitVec 8))) :
    (s.calls data).1.Built ∧ (s.calls data).2 = data.map reflectedCrc32 := by
  induction data generalizing s with
  | nil => exact ⟨h, rfl⟩
  | cons d data ih =>
    obtain ⟨hbuilt, hcrc⟩ := h.crc32 d
    obtain ⟨hrest, hcrcs⟩ := ih hbuilt
    exact ⟨hrest, congrArg₂ List.cons hcrc hcrcs⟩

/-- Every call of `Crc32` in the life of the program returns the bit-wise checksum of its text. Its
loop computes the bit-wise remainder from every remainder on, and splits at every place of the
text. -/
theorem crc32_eq_reflectedCrc32 (earlier : List (List (BitVec 8))) (data : List (BitVec 8)) :
    ((after earlier).crc32 data).2 = reflectedCrc32 data ∧
      ∀ crc xs ys,
        crc32Loop (after earlier).table crc xs
          = Crc.remainder crcPolynomial crc (dataBits xs) ∧
        crc32Loop (after earlier).table crc (xs ++ ys)
          = crc32Loop (after earlier).table (crc32Loop (after earlier).table crc xs) ys := by
  have hbuilt : (after earlier).Built := (built_start.calls earlier).1
  obtain ⟨hnext, hi⟩ := hbuilt.initCrc32Table
  refine ⟨(hbuilt.crc32 data).2, fun crc xs ys => ⟨?_, ?_⟩⟩
  · exact hnext.crc32Loop hi crc xs
  · exact crc32Loop_append _ crc xs ys

example :
    (start.crc32 ("123456789".toList.map fun c => BitVec.ofNat 8 c.toNat)).2 = 0xCBF43926#32 := by
  decide +kernel

end Crc32Statics

end KubeMQ.Burnin
