import Mathlib.Data.Nat.Bitwise
import Pro2Call.Data.Bytes

namespace Pro2Call.Data

/-! The octets of a character in UTF-8, as digits of base 64 under marker bits and
as shifts and masks. -/

variable {c : Char}

theorem exists_toNat_eq {v : Nat} (valid : v.isValidChar) : ∃ c : Char, c.toNat = v :=
  ⟨Char.ofNatAux v valid, rfl⟩

theorem utf8EncodeChar_one (high : c.toNat < 0x80) :
    String.utf8EncodeChar c = [UInt8.ofNat c.toNat] := by
  have first : c.val.toNat ≤ 127 := Nat.le_of_lt_succ high
  simp only [String.utf8EncodeChar, if_pos first]
  rfl

theorem utf8EncodeChar_two (low : 0x80 ≤ c.toNat) (high : c.toNat < 0x800) :
    String.utf8EncodeChar c =
      [UInt8.ofNat (c.toNat / 64 % 32 + 192), UInt8.ofNat (c.toNat % 64 + 128)] := by
  have first : ¬ c.val.toNat ≤ 127 := Nat.not_le.mpr low
  have second : c.val.toNat ≤ 2047 := Nat.le_of_lt_succ high
  simp only [String.utf8EncodeChar, if_neg first, if_pos second]
  rfl

theorem utf8EncodeChar_three (low : 0x800 ≤ c.toNat) (high : c.toNat < 0x10000) :
    String.utf8EncodeChar c =
      [UInt8.ofNat (c.toNat / 4096 % 16 + 224), UInt8.ofNat (c.toNat / 64 % 64 + 128),
        UInt8.ofNat (c.toNat % 64 + 128)] := by
  have first : ¬ c.val.toNat ≤ 127 := Nat.not_le.mpr (Nat.lt_of_lt_of_le (by decide) low)
  have second : ¬ c.val.toNat ≤ 2047 := Nat.not_le.mpr low
  have third : c.val.toNat ≤ 65535 := Nat.le_of_lt_succ high
  simp only [String.utf8EncodeChar, if_neg first, if_neg second, if_pos third]
  rfl

theorem utf8EncodeChar_four (low : 0x10000 ≤ c.toNat) :
    String.utf8EncodeChar c = [UInt8.ofNat (c.toNat / 262144 % 8 + 240),
        UInt8.ofNat (c.toNat / 4096 % 64 + 128), UInt8.ofNat (c.toNat / 64 % 64 + 128),
        UInt8.ofNat (c.toNat % 64 + 128)] := by
  have first : ¬ c.val.toNat ≤ 127 := Nat.not_le.mpr (Nat.lt_of_lt_of_le (by decide) low)
  have second : ¬ c.val.toNat ≤ 2047 := Nat.not_le.mpr (Nat.lt_of_lt_of_le (by decide) low)
  have third : ¬ c.val.toNat ≤ 65535 := Nat.not_le.mpr low
  simp only [String.utf8EncodeChar, if_neg first, if_neg second, if_neg third]
  rfl

theorem length_utf8EncodeChar_pos (c : Char) : 0 < (String.utf8EncodeChar c).length :=
  List.length_pos_iff.mpr String.utf8EncodeChar_ne_nil

theorem continuation_iff (c : UInt8) :
    c &&& 0xC0 = 0x80 ↔ c = UInt8.ofNat ((c &&& 0x3F).toNat + 128) := by
  revert c
  exact forall_octet (by decide +kernel)

theorem and_3F_lt (c : UInt8) : (c &&& 0x3F).toNat < 64 := by
  revert c
  exact forall_octet (by decide +kernel)

theorem or_low (v width : Nat) (small : low < 2 ^ width) :
    v <<< width ||| low = v * 2 ^ width + low := by
  rw [← Nat.shiftLeft_add_eq_or_of_lt small, Nat.shiftLeft_eq]

theorem or_marker (lead width below : Nat)
    (aligned : marker = lead <<< width) (small : v / 2 ^ below < 2 ^ width) :
    marker ||| v >>> below = v / 2 ^ below % 2 ^ width + marker := by
  rw [aligned, Nat.shiftRight_eq_div_pow, or_low lead width small,
    Nat.shiftLeft_eq, Nat.mod_eq_of_lt small, Nat.add_comm]

theorem or_continuation (v : Nat) : 0x80 ||| v &&& 0x3F = v % 64 + 128 := by
  rw [show v &&& 0x3F = v % 64 from Nat.and_two_pow_sub_one_eq_mod v 6]
  have digit : 0x80 ||| v % 64 = 128 + v % 64 := or_low 2 6 (Nat.mod_lt v (by decide))
  rw [digit, Nat.add_comm]

theorem utf8EncodeChar_bits (c : Char) : String.utf8EncodeChar c =
    if c.toNat < 0x80 then [UInt8.ofNat c.toNat]
    else if c.toNat < 0x800 then
      [UInt8.ofNat (0xC0 ||| c.toNat >>> 6), UInt8.ofNat (0x80 ||| c.toNat &&& 0x3F)]
    else if c.toNat < 0x10000 then
      [UInt8.ofNat (0xE0 ||| c.toNat >>> 12), UInt8.ofNat (0x80 ||| c.toNat >>> 6 &&& 0x3F),
        UInt8.ofNat (0x80 ||| c.toNat &&& 0x3F)]
    else
      [UInt8.ofNat (0xF0 ||| c.toNat >>> 18), UInt8.ofNat (0x80 ||| c.toNat >>> 12 &&& 0x3F),
        UInt8.ofNat (0x80 ||| c.toNat >>> 6 &&& 0x3F),
        UInt8.ofNat (0x80 ||| c.toNat &&& 0x3F)] := by
  have scalar : c.toNat.isValidChar := c.valid
  unfold Nat.isValidChar at scalar
  split_ifs with one two three
  · exact utf8EncodeChar_one one
  · have lead : 0xC0 ||| c.toNat >>> 6 = c.toNat / 64 % 32 + 192 := or_marker 6 5 6 rfl (by omega)
    rw [utf8EncodeChar_two (by omega) two, lead, or_continuation]
  · have lead : 0xE0 ||| c.toNat >>> 12 = c.toNat / 4096 % 16 + 224 :=
      or_marker 14 4 12 rfl (by omega)
    rw [utf8EncodeChar_three (by omega) three, lead, or_continuation, or_continuation,
      Nat.shiftRight_eq_div_pow]
  · have lead : 0xF0 ||| c.toNat >>> 18 = c.toNat / 262144 % 8 + 240 :=
      or_marker 30 3 18 rfl (by omega)
    rw [utf8EncodeChar_four (by omega), lead, or_continuation, or_continuation,
      or_continuation, Nat.shiftRight_eq_div_pow, Nat.shiftRight_eq_div_pow]

end Pro2Call.Data
