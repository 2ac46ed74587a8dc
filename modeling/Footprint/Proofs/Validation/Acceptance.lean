import Mathlib.Order.CompletePartialOrder
import Mathlib.Order.Interval.Set.Disjoint
import Footprint.Proofs.Region
import Footprint.Proofs.Validation

/-!
# Which configurations are accepted

Validation works on machine words: it adds with checks, clamps the ends of regions and gives up early where
a length does not fit. `Acceptable` lists the conditions over unbounded integers that it stands for, and
each examination is shown to find no fault exactly under its own part of them. A sum that leaves the 64-bit
range lies far above the task size, so no shortcut accepts or refuses a configuration that the integers
would not (`validate_isValid_iff`).
-/

namespace Footprint

namespace Config

variable {config : Config} {host : Host}

/-- Where the guarded region starts: the priming base, rounded down to a block. -/
def guardStart (config : Config) (host : Host) : Nat :=
  config.priming.base.toNat / (config.granule host).toNat * (config.granule host).toNat

/-- The length of the longest block with sentinel and stub, rounded up to pages. -/
def longestLen (config : Config) (host : Host) : Nat :=
  (config.maxCodeLen.toNat + 4 + (host.pageSize.toNat - 1)) / host.pageSize.toNat * host.pageSize.toNat

/-- The longest block has room at a location: whole pages that may be mapped and are apart from the
guarded region. -/
structure HasRoom (config : Config) (host : Host) (location : Nat) : Prop where
  aligned : host.pageSize.toNat ∣ location
  above : host.mapMin.toNat ≤ location
  below : location + config.longestLen host ≤ taskSize.toNat
  apart : Disjoint (Set.Ico location (location + config.longestLen host))
    (Set.Ico (config.guardStart host) (config.guardStart host + (config.granule host).toNat))

/-- The guarded region may be mapped. -/
structure GuardFits (config : Config) (host : Host) : Prop where
  above : host.mapMin.toNat ≤ config.guardStart host
  below : config.guardStart host + (config.granule host).toNat ≤ taskSize.toNat

/-- What a configuration has to meet on a host, over unbounded integers. -/
structure Acceptable (config : Config) (host : Host) : Prop where
  powerOfTwo : (config.granule host).toNat.isPowerOfTwo
  pageSize_le : host.pageSize.toNat ≤ (config.granule host).toNat
  someCode : config.maxCodeLen.toNat ≠ 0
  someBlocks : config.maxBlocks.toNat ≠ 0
  someIterations : config.maxIterations.toNat ≠ 0
  someTime : config.wallLimitMs.toNat ≠ 0
  windowNonempty : config.window.start.toNat < config.window.stop.toNat
  windowBelow : config.window.stop.toNat ≤ 2 ^ 47
  guard : config.GuardFits host
  room : ∀ location, config.placement = .fixed location → config.HasRoom host location.toNat

/-! ## The examinations one by one -/

theorem isValid_examineBlockSize_iff : (config.examineBlockSize host).isValid = true ↔
    (config.granule host).toNat.isPowerOfTwo ∧ host.pageSize.toNat ≤ (config.granule host).toNat := by
  rw [← Addr.isGranule_iff]
  unfold examineBlockSize
  cases hgranule : Addr.isGranule (config.granule host) with
  | false => simp [hgranule]
  | true => simp [hgranule, UInt64.le_iff_toNat_le]

theorem isValid_examineLimits_iff : config.examineLimits.isValid = true ↔
    config.maxCodeLen.toNat ≠ 0 ∧ config.maxBlocks.toNat ≠ 0 ∧ config.maxIterations.toNat ≠ 0 ∧
      config.wallLimitMs.toNat ≠ 0 := by
  simp [examineLimits, ← UInt64.toNat_inj, ← UInt32.toNat_inj, and_assoc]

theorem isValid_examineWindow_iff : config.examineWindow.isValid = true ↔
    config.window.start.toNat < config.window.stop.toNat ∧ config.window.stop.toNat ≤ 2 ^ 47 := by
  have hlimit : userAddressLimit.toNat = 2 ^ 47 := by decide
  simp [examineWindow, UInt64.lt_iff_toNat_lt, UInt64.le_iff_toNat_le, hlimit]

/-- The region of the longest block has its length over unbounded integers, or that exceeds all words. -/
theorem longestRegion?_eq (config : Config) (hpage : Addr.isGranule host.pageSize = true) :
    (config.longestRegion? host = .ok none ∧ UInt64.size ≤ config.longestLen host) ∨
      ∃ len, config.longestRegion? host = .ok (some len) ∧ len.toNat = config.longestLen host := by
  have hpos := Addr.granule_pos hpage
  have hslack : Addr.sub host.pageSize 1 = .ok (host.pageSize - 1) := by
    rw [Addr.sub_eq_ok_iff, Addr.toNat_sub_one hpos]
    have hone : (1 : Addr).toNat = 1 := rfl
    omega
  have hbehind : (sentinelLen + stubLen).toNat = 4 := rfl
  -- a padded length that leaves the range is rounded down to the size of the range at least
  have hlong (h : UInt64.size ≤ config.maxCodeLen.toNat + 4 + (host.pageSize.toNat - 1)) :
      UInt64.size ≤ config.longestLen host :=
    calc
      UInt64.size = UInt64.size / host.pageSize.toNat * host.pageSize.toNat :=
        (Nat.div_mul_cancel (Addr.granule_dvd_size hpage)).symm
      _ ≤ config.longestLen host := Nat.mul_le_mul_right _ (Nat.div_le_div_right h)
  unfold longestRegion?
  cases himage : Addr.add? config.maxCodeLen (sentinelLen + stubLen) with
  | none =>
    have hoverflow := Addr.add?_eq_none_iff.1 himage
    exact .inl ⟨rfl, hlong (by omega)⟩
  | some imageLen =>
    have himageLen := Addr.add?_eq_some_iff.1 himage
    simp only [hslack, bind, Except.bind]
    cases hpadded : Addr.add? imageLen (host.pageSize - 1) with
    | none =>
      have hoverflow := Addr.add?_eq_none_iff.1 hpadded
      rw [Addr.toNat_sub_one hpos] at hoverflow
      exact .inl ⟨rfl, hlong (by omega)⟩
    | some padded =>
      have hpaddedLen := Addr.add?_eq_some_iff.1 hpadded
      rw [Addr.toNat_sub_one hpos] at hpaddedLen
      refine .inr ⟨Addr.clearBelow padded host.pageSize, ?_, ?_⟩
      · simp [hpage, pure, Except.pure]
      · rw [Addr.toNat_clearBelow _ hpage, ← Nat.div_mul_self_eq_mod_sub_self, hpaddedLen, himageLen,
          hbehind]
        rfl

/-- The guarded region as it is examined. -/
theorem toNat_guard_start (hgranule : Addr.isGranule (config.granule host) = true) :
    (config.guard host).start.toNat = config.guardStart host := by
  unfold guard guardStart
  rw [Addr.toNat_clearBelow _ hgranule, ← Nat.div_mul_self_eq_mod_sub_self]

/-- Two regions below the task size overlap exactly if they have an integer in common. -/
theorem overlaps_eq_false_iff_disjoint {r s : Region} (hr : r.start.toNat + r.len.toNat ≤ taskSize.toNat)
    (hs : s.start.toNat + s.len.toNat ≤ taskSize.toNat) (hrlen : 0 < r.len.toNat)
    (hslen : 0 < s.len.toNat) :
    r.overlaps s = false ↔ Disjoint (Set.Ico r.start.toNat (r.start.toNat + r.len.toNat))
      (Set.Ico s.start.toNat (s.start.toNat + s.len.toNat)) := by
  have htask : taskSize.toNat < UInt64.size := taskSize.toNat_lt
  rw [Bool.eq_false_iff, Ne, Region.overlaps_iff (by omega) (by omega), Set.Ico_disjoint_Ico]
  omega

theorem longestLen_pos (config : Config) (hpage : Addr.isGranule host.pageSize = true) :
    0 < config.longestLen host := by
  have hpos := Addr.granule_pos hpage
  exact Nat.mul_pos (Nat.div_pos (by omega) hpos) hpos

/-- A block of the greatest length that ends below the task size overlaps a guarded region that fits exactly
if they have an integer in common. -/
theorem overlaps_guard_eq_false_iff (hpage : Addr.isGranule host.pageSize = true)
    (hgranule : Addr.isGranule (config.granule host) = true) (hguard : config.GuardFits host)
    {location len : Addr} (hlen : len.toNat = config.longestLen host)
    (hbelow : location.toNat + config.longestLen host ≤ taskSize.toNat) :
    (⟨location, len⟩ : Region).overlaps (config.guard host) = false ↔
      Disjoint (Set.Ico location.toNat (location.toNat + config.longestLen host))
        (Set.Ico (config.guardStart host) (config.guardStart host + (config.granule host).toNat)) := by
  have hpos := longestLen_pos config hpage
  have hguardFits : (config.guard host).start.toNat + (config.guard host).len.toNat ≤ taskSize.toNat := by
    rw [toNat_guard_start hgranule]
    exact hguard.below
  rw [← hlen] at hbelow hpos
  rw [overlaps_eq_false_iff_disjoint hbelow hguardFits hpos (Addr.granule_pos hgranule),
    toNat_guard_start hgranule, hlen]
  exact Iff.rfl

/-- The examination of a fixed location has an answer, and next to a guarded region that fits it finds no
fault exactly if the longest block has room. -/
theorem isValid_examineCode_iff (hpage : Addr.isGranule host.pageSize = true)
    (hgranule : Addr.isGranule (config.granule host) = true) (location : Addr) :
    ∃ findings, config.examineCode host (config.guard host) location = .ok findings ∧
      (config.GuardFits host →
        (findings.isValid = true ↔ config.HasRoom host location.toNat)) := by
  unfold examineCode
  rcases longestRegion?_eq config hpage with ⟨hnone, hlong⟩ | ⟨len, hsome, hlen⟩
  · refine ⟨_, by rw [hnone]; rfl, fun _ => ?_⟩
    simp only [Findings.isValid_faultIf, Bool.not_true, Bool.false_eq_true, false_iff]
    intro hroom
    have hbelow := hroom.below
    have htask : taskSize.toNat < UInt64.size := taskSize.toNat_lt
    omega
  · refine ⟨_, by rw [hsome]; rfl, fun hguard => ?_⟩
    have hmod : location % host.pageSize = 0 ↔ host.pageSize.toNat ∣ location.toNat := by
      rw [← UInt64.toNat_inj, UInt64.toNat_mod]
      exact Nat.dvd_iff_mod_eq_zero.symm
    simp only [Findings.isValid_append, Findings.isValid_faultIf, Bool.and_eq_true, Bool.not_not,
      Bool.not_eq_true', bne_eq_false_iff_eq, decide_eq_false_iff_not, UInt64.not_lt, endsInside_iff,
      hlen, hmod, UInt64.le_iff_toNat_le]
    constructor
    · rintro ⟨⟨⟨haligned, habove⟩, hbelow⟩, hnone⟩
      exact ⟨haligned, habove, hbelow, (overlaps_guard_eq_false_iff hpage hgranule hguard hlen hbelow).1 hnone⟩
    · rintro ⟨haligned, habove, hbelow, hdisjoint⟩
      exact ⟨⟨⟨haligned, habove⟩, hbelow⟩,
        (overlaps_guard_eq_false_iff hpage hgranule hguard hlen hbelow).2 hdisjoint⟩

/-- Where blocks have a proper size, the examination of the layout has an answer and finds no fault exactly
if the guarded region may be mapped and the longest block has room at a fixed location. -/
theorem isValid_examineLayout_iff (hpage : Addr.isGranule host.pageSize = true)
    (hgranule : Addr.isGranule (config.granule host) = true) :
    ∃ findings, config.examineLayout host = .ok findings ∧
      (findings.isValid = true ↔ config.GuardFits host ∧
        ∀ location, config.placement = .fixed location → config.HasRoom host location.toNat) := by
  have honGuard : ∀ caution, (Findings.faultIf ((config.guard host).start < host.mapMin)
        (.guardTooLow (config.guard host).start host.mapMin) ++
      Findings.faultIf (!endsInside (config.guard host)) (.guardOutside (config.guard host).start) ++
      Findings.cautionIf caution (.guardOutsideWindow (config.guard host).start)).isValid = true ↔
        config.GuardFits host := by
    intro caution
    simp only [Findings.isValid_append, Findings.isValid_faultIf, Findings.isValid_cautionIf,
      Bool.and_eq_true, Bool.not_not, Bool.not_eq_true', decide_eq_false_iff_not, UInt64.not_lt,
      UInt64.le_iff_toNat_le, endsInside_iff, toNat_guard_start hgranule, and_true]
    exact ⟨fun h => ⟨h.1, h.2⟩, fun h => ⟨h.above, h.below⟩⟩
  unfold examineLayout
  simp only [hgranule, Addr.alignDown_eq_ok, bind, Except.bind, pure, Except.pure, Bool.not_true,
    Bool.false_eq_true, if_false]
  cases hplacement : config.placement with
  | randomized =>
    refine ⟨_, rfl, (honGuard _).trans ?_⟩
    simp
  | fixed location =>
    rcases isValid_examineCode_iff hpage hgranule location with ⟨onCode, hcode, hvalid⟩
    simp only [guard] at hcode
    simp only [hcode]
    refine ⟨_, rfl, ?_⟩
    rw [Findings.isValid_append, Bool.and_eq_true]
    refine (and_congr (honGuard _) Iff.rfl).trans (and_congr_right fun hguard => ?_)
    simp [hvalid hguard]

/-- On a host whose pages are a power of two, validation has an answer for every configuration, and accepts
exactly those that meet the conditions over unbounded integers. -/
theorem validate_isValid_iff (config : Config) {host : Host} (hpage : host.pageSize.toNat.isPowerOfTwo) :
    ∃ findings, config.validate host = .ok findings ∧
      (findings.isValid = true ↔ config.Acceptable host) := by
  unfold validate
  by_cases hgranule : Addr.isGranule (config.granule host) = true
  · rcases isValid_examineLayout_iff (Addr.isGranule_iff.2 hpage) hgranule with ⟨onLayout, hlayout, hvalid⟩
    refine ⟨_, by rw [hlayout]; rfl, ?_⟩
    simp only [Findings.isValid_append, Bool.and_eq_true, hvalid, isValid_examineBlockSize_iff,
      isValid_examineLimits_iff, isValid_examineWindow_iff]
    constructor
    · rintro ⟨⟨⟨⟨hpower, hle⟩, hcode, hblocks, hiterations, htime⟩, hnonempty, hbelow⟩, hguard, hroom⟩
      exact ⟨hpower, hle, hcode, hblocks, hiterations, htime, hnonempty, hbelow, hguard, hroom⟩
    · rintro ⟨hpower, hle, hcode, hblocks, hiterations, htime, hnonempty, hbelow, hguard, hroom⟩
      exact ⟨⟨⟨⟨hpower, hle⟩, hcode, hblocks, hiterations, htime⟩, hnonempty, hbelow⟩, hguard, hroom⟩
  · -- nothing is said about a layout without blocks, but their size is a fault already
    have hnothing : config.examineLayout host = .ok .nothing := by
      simp [examineLayout, hgranule, pure, Except.pure]
    refine ⟨_, by rw [hnothing]; rfl, ?_⟩
    simp only [Findings.isValid_append, Bool.and_eq_true, isValid_examineBlockSize_iff]
    constructor
    · rintro ⟨⟨⟨⟨hpower, _⟩, _⟩, _⟩, _⟩
      exact absurd (Addr.isGranule_iff.2 hpower) hgranule
    · intro hacceptable
      exact absurd (Addr.isGranule_iff.2 hacceptable.powerOfTwo) hgranule

/-- The longest block fills two pages, which end at the task size and begin where the guarded region ends.
With one more byte it has no room. -/
theorem acceptable_of_brimful :
    let host : Host := ⟨"x86_64", 0x1000, 0x10000⟩
    let config (maxCodeLen : UInt64) : Config :=
      { Config.standard with
        maxCodeLen := maxCodeLen, placement := .fixed 0x7fffffffd000, priming := .uniform 0x7fffffffcfff }
    host.pageSize.toNat.isPowerOfTwo ∧ (config 0x1ffc).Acceptable host ∧
      ¬ (config 0x1ffd).Acceptable host := by
  intro host config
  have hpage : host.pageSize.toNat.isPowerOfTwo := ⟨12, rfl⟩
  have hfits : (config 0x1ffc).validate host = .ok ⟨[], [.moreBlocksThanIterations 512 256]⟩ := by
    decide
  have hexceeds : (config 0x1ffd).validate host =
      .ok ⟨[.codeOutside ⟨0x7fffffffd000, 0x3000⟩], [.moreBlocksThanIterations 512 256]⟩ := by
    decide
  rcases validate_isValid_iff (config 0x1ffc) hpage with ⟨findings, hfound, haccepted⟩
  rcases validate_isValid_iff (config 0x1ffd) hpage with ⟨findings', hfound', hrefused⟩
  obtain rfl := Except.ok.inj (hfits.symm.trans hfound)
  obtain rfl := Except.ok.inj (hexceeds.symm.trans hfound')
  refine ⟨hpage, haccepted.1 rfl, fun h => ?_⟩
  cases hrefused.2 h

end Config

end Footprint
