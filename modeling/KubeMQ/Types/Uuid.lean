import Mathlib.Data.Nat.Notation
import Mathlib.Tactic.Common

/-!
# Generated identifiers

`GenerateUUID` of `uuid.cc`. The two draws of the generator are its argument.
-/

namespace KubeMQ

/-- `%0wx`: at least `w` hexadecimal digits. -/
def hex (w n : ℕ) : List Char :=
  let digits := Nat.toDigits 16 n
  List.replicate (w - digits.length) '0' ++ digits

def generateUUID (draw : UInt64 × UInt64) : String :=
  let a := (draw.1 &&& 0xFFFFFFFFFFFF0FFF) ||| 0x0000000000004000
  let b := (draw.2 &&& 0x3FFFFFFFFFFFFFFF) ||| 0x8000000000000000
  String.ofList (hex 8 (a >>> 32).toNat ++ '-' :: hex 4 ((a >>> 16) &&& 0xFFFF).toNat ++
    '-' :: hex 4 (a &&& 0xFFFF).toNat ++ '-' :: hex 4 (b >>> 48).toNat ++
    '-' :: hex 12 (b &&& 0x0000FFFFFFFFFFFF).toNat)

/-- A generated id is never the empty string, which stands for a missing one. -/
lemma generateUUID_ne_empty (draw : UInt64 × UInt64) : generateUUID draw ≠ "" := by
  intro h
  have hlist := congrArg String.toList h
  simp [generateUUID] at hlist

example : generateUUID (0, 0) = "00000000-0000-4000-8000-000000000000" := by decide +kernel

end KubeMQ
