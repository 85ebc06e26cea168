import Pro2Call.Data.Bytes

namespace Pro2Call.Task

open Pro2Call.Data

def be16Load (mem : List UInt8) (pos : Nat) : UInt16 := .ofNat (beNat (slice mem pos 2))

def be24Load (mem : List UInt8) (pos : Nat) : UInt32 := .ofNat (beNat (slice mem pos 3))

def be32Load (mem : List UInt8) (pos : Nat) : UInt32 := .ofNat (beNat (slice mem pos 4))

def be40Load (mem : List UInt8) (pos : Nat) : UInt64 := .ofNat (beNat (slice mem pos 5))

theorem be16Load_of_slice {pos value : Nat}
    (field : slice mem pos 2 = beBytes 2 value) (fits : value < 2 ^ 16) :
    be16Load mem pos = .ofNat value := by
  rw [be16Load, field, beNat_beBytes fits]

theorem be32Load_of_slice {value : UInt32}
    (field : slice mem pos 4 = beBytes 4 value.toNat) : be32Load mem pos = value := by
  rw [be32Load, field, beNat_beBytes value.toNat_lt, UInt32.ofNat_toNat]

theorem beBytes_be32Load {mem : List UInt8} (inside : pos + 4 ≤ mem.length) :
    beBytes 4 (be32Load mem pos).toNat = slice mem pos 4 := by
  have length : (slice mem pos 4).length = 4 := length_slice inside
  have small : beNat (slice mem pos 4) < 2 ^ 32 := by
    have below := beNat_lt (slice mem pos 4)
    rw [length] at below
    exact below
  rw [be32Load, UInt32.toNat_ofNat', Nat.mod_eq_of_lt small, beBytes_beNat length]

end Pro2Call.Task
