import Footprint.Proofs.Registers
import Footprint.Proofs.Validation

/-!
# Where primed registers point with respect to the guarded region

The guarded region lies at the block of the priming base, which is meant to be the lowest value that a
register is primed with. Validation puts the base below the task size and says nothing about the distance
between values. The base is therefore the lowest value, and no value wraps, exactly if the last value is a
word (`primesAbove_of_validate`), which distances below `2 ^ 60` ensure for every valid configuration. A
distance just below `2 ^ 64` is as good as a negative one: with it a register points below the guarded region
(`primed_below_guard_of_descending`).
-/

namespace Footprint

namespace Config

variable {config : Config} {host : Host} {findings : Findings}

/-- How the primed values of a configuration stand to the base and to the guarded region. -/
structure PrimesAbove (config : Config) (host : Host) : Prop where
  -- The last value decides whether all values are words, at the base or above it.
  ordered_iff : (∀ i < 16, config.priming.base ≤ config.priming.valueAt i ∧
    config.priming.reach i < 2 ^ 64) ↔ config.priming.reach 15 < 2 ^ 64
  base_le_iff : ∀ i, config.priming.base ≤ config.priming.valueAt i ↔
    config.priming.base.toNat + i * config.priming.stride.toNat % 2 ^ 64 < 2 ^ 64
  -- A value that wraps can still lie in the block of the base.
  guard_le_iff : ∀ i, (config.guard host).start ≤ config.priming.valueAt i ↔
    config.priming.base.toNat + i * config.priming.stride.toNat % 2 ^ 64 < 2 ^ 64 ∨
      2 ^ 64 ≤ i * config.priming.stride.toNat % 2 ^ 64 +
        config.priming.base.toNat % (config.granule host).toNat
  registers : config.priming.reach 15 < 2 ^ 64 → ∀ (r : Registers) (entry : Addr),
    ∀ v ∈ (r.prime config.priming entry).generals, (config.guard host).start ≤ v
  short : config.priming.stride.toNat < 2 ^ 60 → config.priming.reach 15 < 2 ^ 64

/-- The guarded region starts at the priming base, less what the base has above its block. -/
theorem guard_start_add_mod (hgranule : Addr.isGranule (config.granule host) = true) :
    (config.guard host).start.toNat + config.priming.base.toNat % (config.granule host).toNat =
      config.priming.base.toNat := by
  have hmod := Nat.mod_le config.priming.base.toNat (config.granule host).toNat
  rw [guard, Addr.toNat_clearBelow _ hgranule]
  omega

theorem guard_start_le_base (hgranule : Addr.isGranule (config.granule host) = true) :
    (config.guard host).start ≤ config.priming.base :=
  UInt64.le_iff_toNat_le.2 (Addr.clearBelow_le _ hgranule)

theorem guard_start_le_valueAt_iff (hgranule : Addr.isGranule (config.granule host) = true) (i : Nat) :
    (config.guard host).start ≤ config.priming.valueAt i ↔
      config.priming.base.toNat + config.priming.offset i < 2 ^ 64 ∨
        2 ^ 64 ≤ config.priming.offset i + config.priming.base.toNat % (config.granule host).toNat := by
  have hstart := guard_start_add_mod hgranule
  have hoffset := config.priming.offset_lt i
  rw [UInt64.le_iff_toNat_le, Priming.toNat_valueAt_eq]
  split
  all_goals omega

/-- In a valid configuration no register is primed below the base, and none with a value that wraps, exactly
if the last value does not wrap. -/
theorem primesAbove_of_validate (h : config.validate host = .ok findings)
    (hvalid : findings.isValid = true) : config.PrimesAbove host := by
  have husable := usable_of_validate h hvalid
  have hwords : config.priming.reach 15 < 2 ^ 64 → ∀ i < 16, config.priming.reach i < 2 ^ 64 :=
    fun hlast i hi => Nat.lt_of_le_of_lt (config.priming.reach_mono (Nat.le_of_lt_succ hi)) hlast
  refine ⟨⟨?keeps, ?ordered⟩, config.priming.base_le_valueAt_iff,
    guard_start_le_valueAt_iff husable.granule, ?registers, ?short⟩
  case keeps => exact fun hall => (hall 15 (by decide)).2
  case ordered =>
    exact fun hlast i hi => ⟨Priming.base_le_valueAt_of_reach (hwords hlast i hi), hwords hlast i hi⟩
  case registers =>
    intro hlast r entry v hv
    rw [Registers.generals_prime, List.mem_map] at hv
    rcases hv with ⟨i, hi, rfl⟩
    have hbase := Priming.base_le_valueAt_of_reach (hwords hlast i (List.mem_range.1 hi))
    exact UInt64.le_trans (guard_start_le_base husable.granule) hbase
  case short =>
    intro hstride
    have hstart := guard_start_add_mod husable.granule
    have hreach := Nat.mod_lt config.priming.base.toNat (Addr.granule_pos husable.granule)
    have hfits : (config.guard host).start.toNat + (config.granule host).toNat ≤ 2 ^ 47 :=
      Nat.le_trans husable.guardFits (by decide)
    rw [Priming.reach]
    omega

/-- The greatest of the short distances. -/
theorem primesAbove_of_widestShort :
    let host : Host := ⟨"x86_64", 0x1000, 0x10000⟩
    let config : Config := { Config.standard with priming := .distinct 0x20010 0xfffffffffffffff }
    let findings : Findings := ⟨[], [.moreBlocksThanIterations 512 256]⟩
    config.validate host = .ok findings ∧ findings.isValid = true ∧ config.PrimesAbove host ∧
      ∀ i < 16, config.priming.base ≤ config.priming.valueAt i ∧ config.priming.reach i < 2 ^ 64 := by
  intro host config findings
  have hvalidate : config.validate host = .ok findings := by decide
  have hvalid : findings.isValid = true := rfl
  have habove := primesAbove_of_validate hvalidate hvalid
  exact ⟨hvalidate, hvalid, habove, habove.ordered_iff.2 (habove.short (by decide))⟩

/-- A valid configuration whose second register points one page below the guarded region. -/
theorem primed_below_guard_of_descending :
    let host : Host := ⟨"x86_64", 0x1000, 0x10000⟩
    let config : Config := { Config.standard with priming := .distinct 0x20000 0xfffffffffffff000 }
    ∃ findings, config.validate host = .ok findings ∧ findings.isValid = true ∧
      ¬ (∀ i < 16, config.priming.base ≤ config.priming.valueAt i) ∧
      ¬ (∀ i < 16, config.priming.reach i < 2 ^ 64) ∧
      config.priming.valueAt 1 < (config.guard host).start := by
  intro host config
  have hvalidate : config.validate host = .ok ⟨[], [.moreBlocksThanIterations 512 256]⟩ := by decide
  have hbelow : ¬ config.priming.base ≤ config.priming.valueAt 1 := by decide
  have hwraps : ¬ config.priming.reach 1 < 2 ^ 64 := by decide
  exact ⟨_, hvalidate, rfl, fun h => hbelow (h 1 (by decide)), fun h => hwraps (h 1 (by decide)), by decide⟩

end Config

end Footprint
