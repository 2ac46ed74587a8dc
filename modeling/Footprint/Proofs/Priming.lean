import Mathlib.Algebra.Group.Nat.Defs
import Footprint.Priming

/-!
# Priming values over unbounded integers

A priming scheme is a progression of words: a base and a distance, which is zero if all registers hold the
same value. The words are the progression of integers modulo `2 ^ 64` (`toNat_valueAt`). Two things can be
asked of a position: whether its integer is a word, and whether its word is below the base. The first rules
out the second (`base_le_valueAt_of_reach`), but an integer that is no word can come to lie on either side
(`base_le_valueAt_iff`).
-/

namespace Footprint

namespace Priming

variable {p : Priming} {i j : Nat}

/-- How far the values of neighbouring registers are apart. -/
def stride : Priming → Addr
  | uniform _ => 0
  | distinct _ stride => stride

/-- The value of a register, had words no bound. -/
def reach (p : Priming) (i : Nat) : Nat :=
  p.base.toNat + i * p.stride.toNat

theorem reach_mono (p : Priming) (h : i ≤ j) : p.reach i ≤ p.reach j :=
  Nat.add_le_add_left (Nat.mul_le_mul_right _ h) _

theorem toNat_valueAt (p : Priming) (i : Nat) : (p.valueAt i).toNat = p.reach i % 2 ^ 64 := by
  cases p with
  | uniform value => simp [valueAt, reach, base, stride, Nat.mod_eq_of_lt value.toNat_lt]
  | distinct base stride =>
    calc
      (base + stride * UInt64.ofNat i).toNat
          = (base.toNat + stride.toNat * (i % 2 ^ 64) % 2 ^ 64) % 2 ^ 64 := by
            rw [UInt64.toNat_add, UInt64.toNat_mul, UInt64.toNat_ofNat']
      _ = (base.toNat + i * stride.toNat) % 2 ^ 64 := by
            rw [Nat.mul_mod_mod, Nat.add_mod_mod, Nat.mul_comm]

/-- What a register has above the base, or what is left of that after wrapping. -/
def offset (p : Priming) (i : Nat) : Nat :=
  i * p.stride.toNat % 2 ^ 64

theorem offset_lt (p : Priming) (i : Nat) : p.offset i < 2 ^ 64 :=
  Nat.mod_lt _ (by decide)

/-- A value is the base and an offset, less the size of the address space if that is reached. -/
theorem toNat_valueAt_eq (p : Priming) (i : Nat) :
    (p.valueAt i).toNat =
      if p.base.toNat + p.offset i < 2 ^ 64 then p.base.toNat + p.offset i
      else p.base.toNat + p.offset i - 2 ^ 64 := by
  have hbase := p.base.toNat_lt
  have hoffset := p.offset_lt i
  have hsum : p.reach i % 2 ^ 64 = (p.base.toNat + p.offset i) % 2 ^ 64 := by
    rw [reach, offset, Nat.add_mod_mod]
  rw [toNat_valueAt, hsum]
  split
  next hfits => exact Nat.mod_eq_of_lt hfits
  next hwraps => rw [Nat.mod_eq_sub_mod (by omega), Nat.mod_eq_of_lt (by omega)]

/-- A value is at the base or above it exactly if adding the offset does not wrap. -/
theorem base_le_valueAt_iff (p : Priming) (i : Nat) :
    p.base ≤ p.valueAt i ↔ p.base.toNat + p.offset i < 2 ^ 64 := by
  have hoffset := p.offset_lt i
  rw [UInt64.le_iff_toNat_le, toNat_valueAt_eq]
  split
  all_goals omega

theorem base_le_valueAt_of_reach (h : p.reach i < 2 ^ 64) : p.base ≤ p.valueAt i := by
  rw [UInt64.le_iff_toNat_le, toNat_valueAt, Nat.mod_eq_of_lt h]
  exact Nat.le_add_right _ _

end Priming

end Footprint
