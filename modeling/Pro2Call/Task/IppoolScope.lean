import Mathlib.Data.Nat.Nth
import Pro2Call.Task.Ippool

namespace Pro2Call.Task

open Pro2Call.Data

/-- The addresses of the prefix, by value. An IPv4 scope shorter than /31 has no
use for its network and broadcast address. -/
def Usable (addr : IppoolAddr) (prefixLen value : Nat) : Prop :=
  value / 2 ^ (addr.len * 8 - prefixLen) = addr.value / 2 ^ (addr.len * 8 - prefixLen) ∧
    (addr.len = ippoolV4 → prefixLen < 31 → value % 2 ^ (addr.len * 8 - prefixLen) ≠ 0 ∧
      value % 2 ^ (addr.len * 8 - prefixLen) ≠ 2 ^ (addr.len * 8 - prefixLen) - 1)

instance (addr : IppoolAddr) (prefixLen : Nat) : DecidablePred (Usable addr prefixLen) :=
  fun _ => inferInstanceAs (Decidable (_ ∧ (_ → _ → _)))

@[simp] theorem length_prefixNet (bytes : List UInt8) (prefixLen : Nat) :
    (prefixNet bytes prefixLen).length = bytes.length := by
  simp [prefixNet]

theorem prefixNet_inside {bytes : List UInt8} {prefixLen : Nat}
    (within : prefixLen ≤ 8 * bytes.length) :
    beNat (prefixNet bytes prefixLen) +
        2 ^ (8 * bytes.length - prefixLen) ≤ 256 ^ bytes.length := by
  have radix : 256 ^ bytes.length = 2 ^ prefixLen * 2 ^ (8 * bytes.length - prefixLen) := by
    rw [← Nat.pow_add, Nat.add_sub_of_le within, Nat.pow_mul]
  have network : beNat bytes / 2 ^ (8 * bytes.length - prefixLen) < 2 ^ prefixLen := by
    rw [Nat.div_lt_iff_lt_mul (by positivity), ← radix]
    exact beNat_lt bytes
  rw [beNat_prefixNet within, radix]
  calc
    beNat bytes / 2 ^ (8 * bytes.length - prefixLen) * 2 ^ (8 * bytes.length - prefixLen) +
        2 ^ (8 * bytes.length - prefixLen) =
        (beNat bytes / 2 ^ (8 * bytes.length - prefixLen) + 1) *
          2 ^ (8 * bytes.length - prefixLen) := by ring
    _ ≤ 2 ^ prefixLen * 2 ^ (8 * bytes.length - prefixLen) := Nat.mul_le_mul_right _ network

/-- A fresh pool over the first of the `count` values from `base` on, which are
those that satisfy `usable`. -/
structure Covers (pool : Ippool) (base : List UInt8) (count : Nat) (usable : Nat → Prop) :
    Prop where
  fresh : pool = freshPool base (min count ippoolMaxSize)
  nonempty : 0 < count
  inside : beNat base + count ≤ 256 ^ base.length
  usable_iff : ∀ value, usable value ↔ beNat base ≤ value ∧ value < beNat base + count

theorem covers_poolNew {size count : Nat} (built : poolNew base size = .ok pool)
    (nonempty : 0 < size)
    (clamped : min size ippoolMaxSize = min count ippoolMaxSize)
    (inside : beNat base + count ≤ 256 ^ base.length)
    (usable_iff : ∀ value, usable value ↔ beNat base ≤ value ∧ value < beNat base + count) :
    Covers pool base count usable := by
  rw [poolNew_of_pos base nonempty, clamped] at built
  have largest : 0 < ippoolMaxSize := by decide
  exact ⟨(Except.ok.inj built).symm, by omega, inside, usable_iff⟩

section Scope

variable {addr : IppoolAddr} {prefixLen : Nat} (within : prefixLen ≤ addr.len * 8)

include within

theorem beNat_net : beNat (prefixNet addr.b prefixLen) =
    addr.value / 2 ^ (addr.len * 8 - prefixLen) * 2 ^ (addr.len * 8 - prefixLen) := by
  have bytes : addr.len * 8 = 8 * addr.b.length := Nat.mul_comm _ _
  rw [bytes] at within ⊢
  exact beNat_prefixNet within

theorem sameNet_iff (value : Nat) :
    value / 2 ^ (addr.len * 8 - prefixLen) = addr.value / 2 ^ (addr.len * 8 - prefixLen) ↔
      beNat (prefixNet addr.b prefixLen) ≤ value ∧
        value < beNat (prefixNet addr.b prefixLen) + 2 ^ (addr.len * 8 - prefixLen) := by
  have positive := Nat.two_pow_pos (addr.len * 8 - prefixLen)
  rw [beNat_net within, Nat.div_eq_iff positive]
  omega

theorem usable_iff_of_whole (whole : ¬ (addr.len = ippoolV4 ∧ addr.len * 8 - prefixLen ≥ 2))
    (value : Nat) : Usable addr prefixLen value ↔ beNat (prefixNet addr.b prefixLen) ≤ value ∧
        value < beNat (prefixNet addr.b prefixLen) + 2 ^ (addr.len * 8 - prefixLen) := by
  rw [← sameNet_iff within]
  refine and_iff_left fun family short => absurd ⟨family, ?_⟩ whole
  rw [family, ippoolV4]
  omega

theorem usable_iff_of_scope (scope : addr.len = ippoolV4 ∧ addr.len * 8 - prefixLen ≥ 2)
    (value : Nat) : Usable addr prefixLen value ↔ beNat (prefixNet addr.b prefixLen) + 1 ≤ value ∧
        value < beNat (prefixNet addr.b prefixLen) + 1 + (2 ^ (addr.len * 8 - prefixLen) - 2) := by
  have short : prefixLen < 31 := by
    have bits := scope.2
    rw [scope.1, ippoolV4] at bits
    omega
  have hosts : 2 ^ 2 ≤ 2 ^ (addr.len * 8 - prefixLen) := Nat.pow_le_pow_right (by decide) scope.2
  have same := sameNet_iff within value
  have split := Nat.div_add_mod' value (2 ^ (addr.len * 8 - prefixLen))
  have below := Nat.mod_lt value (Nat.two_pow_pos (addr.len * 8 - prefixLen))
  have net := beNat_net within
  constructor
  · rintro ⟨sameNet, interior⟩
    obtain ⟨notNet, notBroadcast⟩ := interior scope.1 short
    obtain ⟨least, most⟩ := same.mp sameNet
    rw [sameNet, ← net] at split
    omega
  · rintro ⟨least, most⟩
    have sameNet := same.mpr ⟨by omega, by omega⟩
    rw [sameNet, ← net] at split
    exact ⟨sameNet, fun _ _ => ⟨by omega, by omega⟩⟩

end Scope

theorem ippoolCreate_covers {addr : IppoolAddr} {prefixLen : Nat}
    (built : ippoolCreate addr prefixLen = .ok pool) :
    ∃ base count, base.length = addr.len ∧ Covers pool base count (Usable addr prefixLen) := by
  unfold ippoolCreate at built
  dsimp only at built
  split at built
  · cases built
  · split at built
    · cases built
    · rename_i long
      have within : prefixLen ≤ addr.len * 8 := Nat.not_lt.mp long
      have bytes : 8 * addr.b.length = addr.len * 8 := Nat.mul_comm _ _
      have inside := prefixNet_inside (within.trans_eq bytes.symm)
      rw [bytes] at inside
      split at built
      · rename_i wide
        refine ⟨_, 2 ^ (addr.len * 8 - prefixLen), length_prefixNet _ _,
          covers_poolNew built (by decide) ?_ ?_ (usable_iff_of_whole within ?_)⟩
        · have room : 2 ^ 64 ≤ 2 ^ (addr.len * 8 - prefixLen) :=
            Nat.pow_le_pow_right (by decide) wide
          rw [Nat.min_self, Nat.min_eq_right (le_trans (by decide) room)]
        · rw [length_prefixNet]
          exact inside
        · rintro ⟨family, _⟩
          rw [family, ippoolV4] at wide
          omega
      · split at built
        · rename_i scope
          have hosts : 2 ^ 2 ≤ 2 ^ (addr.len * 8 - prefixLen) :=
            Nat.pow_le_pow_right (by decide) scope.2
          have first : beNat (addrOffset (prefixNet addr.b prefixLen) 1) =
              beNat (prefixNet addr.b prefixLen) + 1 := by
            rw [beNat_addrOffset, length_prefixNet, Nat.mod_eq_of_lt (by omega)]
          refine ⟨_, 2 ^ (addr.len * 8 - prefixLen) - 2, by simp [IppoolAddr.len],
            covers_poolNew built (by omega) rfl ?_ ?_⟩
          · rw [first, length_addrOffset, length_prefixNet]
            omega
          · rw [first]
            exact usable_iff_of_scope within scope
        · rename_i whole
          refine ⟨_, 2 ^ (addr.len * 8 - prefixLen), length_prefixNet _ _,
            covers_poolNew built (Nat.two_pow_pos _) rfl ?_ (usable_iff_of_whole within whole)⟩
          rw [length_prefixNet]
          exact inside

theorem Covers.size_eq {count : Nat} [DecidablePred usable]
    (covers : Covers pool base count usable) :
    pool.size = min (Nat.count usable (256 ^ base.length)) ippoolMaxSize ∧
      ∀ i < count, Nat.nth usable i = beNat base + i := by
  have below : Nat.count usable (beNat base) = 0 := by
    rw [Nat.count_iff_forall_not]
    intro value less satisfied
    exact absurd ((covers.usable_iff value).mp satisfied).1 (Nat.not_le.mpr less)
  have counted : ∀ i ≤ count, Nat.count usable (beNat base + i) = i := by
    intro i most
    rw [Nat.count_add, below, Nat.zero_add]
    refine Nat.count_of_forall fun k less => ?_
    exact (covers.usable_iff _).mpr ⟨Nat.le_add_right _ _, by omega⟩
  constructor
  · obtain ⟨rest, whole⟩ := Nat.exists_eq_add_of_le covers.inside
    have past : Nat.count (fun k => usable (beNat base + count + k)) rest = 0 := by
      rw [Nat.count_iff_forall_not]
      intro k _ satisfied
      exact absurd ((covers.usable_iff _).mp satisfied).2 (by omega)
    rw [whole, Nat.count_add, counted count le_rfl, past, covers.fresh]
    rfl
  · intro i less
    have satisfied := (covers.usable_iff (beNat base + i)).mpr ⟨Nat.le_add_right _ _, by omega⟩
    rw [← Nat.nth_count satisfied, counted i less.le]

end Pro2Call.Task
