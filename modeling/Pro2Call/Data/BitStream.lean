import Mathlib.Data.Nat.Bitwise
import Pro2Call.Data.Bytes

namespace Pro2Call.Data

/-! Byte strings as bit strings, least significant bit first: bit `k` is bit
`k % 8` of octet `k / 8`. -/

def bitAt (bytes : List UInt8) (k : Nat) : Bool := (bytes.getD (k / 8) 0).toNat.testBit (k % 8)

theorem bitAt_take {bytes : List UInt8} {count k : Nat} (inside : k < 8 * count) :
    bitAt (bytes.take count) k = bitAt bytes k := by
  have octet : k / 8 < count := by omega
  simp only [bitAt, List.getD_eq_getElem?_getD, List.getElem?_take, if_pos octet]

theorem bitAt_set {bytes : List UInt8} (inside : index < bytes.length) (octet : UInt8) (k : Nat) :
    bitAt (bytes.set index octet) k =
      if k / 8 = index then octet.toNat.testBit (k % 8) else bitAt bytes k := by
  simp only [bitAt, List.getD_eq_getElem?_getD, List.getElem?_set]
  by_cases same : k / 8 = index
  · rw [if_pos same.symm, if_pos inside, if_pos same, Option.getD_some]
  · rw [if_neg (Ne.symm same), if_neg same]

theorem testBit_octet (value i : Nat) :
    (UInt8.ofNat value).toNat.testBit i = (decide (i < 8) && value.testBit i) := by
  rw [UInt8.toNat_ofNat', Nat.testBit_mod_two_pow]

theorem testBit_octet_of_le (octet : UInt8) (high : 8 ≤ i) : octet.toNat.testBit i = false := by
  apply Nat.testBit_lt_two_pow
  have power : 2 ^ 8 ≤ 2 ^ i := Nat.pow_le_pow_right (by decide) high
  exact Nat.lt_of_lt_of_le octet.toNat_lt power

end Pro2Call.Data
