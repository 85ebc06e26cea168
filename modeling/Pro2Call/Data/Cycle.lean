import Mathlib.Data.List.Basic

/-! Numbers generated in a cycle `1, 2, …, period, 1, …`. -/

namespace Pro2Call.Data

/-- The number generated after `count` others. -/
def cycle (period count : Nat) : Nat := count % period + 1

def lastCycle (period : Nat) : Nat → Nat
  | 0 => 0
  | count + 1 => cycle period count

/-- How many others are generated before `number`, once `count` have been. -/
def ahead (period count number : Nat) : Nat := (number + period - 1 - count % period) % period

theorem cycle_le (positive : 0 < period) (count : Nat) : cycle period count ≤ period :=
  Nat.mod_lt count positive

theorem ahead_cycle (positive : 0 < period) {started count : Nat} (before : started ≤ count) :
    ahead period started (cycle period count) = (count - started) % period := by
  have below := Nat.mod_lt started positive
  have whole := Nat.div_add_mod started period
  have shifted : count + (period - started % period) =
      count - started + period * (started / period + 1) := by
    rw [Nat.mul_succ]
    omega
  unfold ahead cycle
  rw [show count % period + 1 + period - 1 - started % period =
    count % period + (period - started % period) by omega, Nat.mod_add_mod, shifted,
    Nat.add_mul_mod_self_left]

theorem cycle_ne_of_ahead (positive : 0 < period) {started count number : Nat}
    (before : started ≤ count)
    (early : number ≤ period → count - started < ahead period started number) :
    cycle period count ≠ number := by
  rintro rfl
  have soon := early (cycle_le positive count)
  rw [ahead_cycle positive before] at soon
  exact absurd (Nat.mod_le _ _) (Nat.not_le.mpr soon)

theorem cycle_of_last (positive : 0 < period) (count : Nat) :
    (lastCycle period count + 1) % (period + 1) = 0 ∧ cycle period count = 1 ∨
      (lastCycle period count + 1) % (period + 1) = cycle period count := by
  cases count with
  | zero =>
    right
    show (0 + 1) % (period + 1) = 0 % period + 1
    rw [Nat.zero_mod, Nat.mod_eq_of_lt (by omega)]
  | succ count =>
    have below := Nat.mod_lt count positive
    show (count % period + 1 + 1) % (period + 1) = 0 ∧ (count + 1) % period + 1 = 1 ∨
      (count % period + 1 + 1) % (period + 1) = (count + 1) % period + 1
    by_cases wraps : count % period + 1 = period
    · left
      rw [← Nat.mod_add_mod count period 1, wraps, Nat.mod_self, Nat.mod_self]
      exact ⟨rfl, rfl⟩
    · right
      have next : (count + 1) % period = count % period + 1 := by
        rw [← Nat.mod_add_mod count period 1]
        exact Nat.mod_eq_of_lt (by omega)
      rw [next]
      exact Nat.mod_eq_of_lt (by omega)

end Pro2Call.Data
