import Footprint.Proofs.Layout
import Footprint.Validation

/-!
# What a valid configuration guarantees

Validation collects faults and answers findings; a configuration is used only if there are none. Here
the findings are read back into the bounds on the regions of a sandbox that later arithmetic relies on
(`Config.Usable`).
-/

namespace Footprint

namespace Findings

@[simp]
theorem isValid_append (f g : Findings) : (f ++ g).isValid = (f.isValid && g.isValid) := by
  change (f.faults ++ g.faults).isEmpty = (f.faults.isEmpty && g.faults.isEmpty)
  cases f.faults
  all_goals rfl

@[simp]
theorem isValid_faultIf (condition : Bool) (fault : ConfigFault) :
    (faultIf condition fault).isValid = !condition := by
  cases condition
  all_goals rfl

@[simp]
theorem isValid_cautionIf (condition : Bool) (caution : ConfigCaution) :
    (cautionIf condition caution).isValid = true := by
  cases condition
  all_goals rfl

end Findings

namespace Config

variable {config : Config} {host : Host} {findings : Findings} {location : Addr}

/-- A region that ends inside ends below the task size, without wrapping. -/
theorem endsInside_iff {r : Region} :
    endsInside r = true ↔ r.start.toNat + r.len.toNat ≤ taskSize.toNat := by
  unfold endsInside Region.stop?
  cases hstop : Addr.add? r.start r.len with
  | none =>
    have hwraps : ¬ r.start.toNat + r.len.toNat < UInt64.size := by
      intro hfits
      simp [Addr.add?, hfits] at hstop
    have htask : taskSize.toNat < UInt64.size := taskSize.toNat_lt
    simp only [Bool.false_eq_true, false_iff]
    omega
  | some stop =>
    rw [← Addr.add?_eq_some_iff.1 hstop]
    simp [UInt64.le_iff_toNat_le]

/-- The region of the longest block is as many pages as that block takes with its sentinel and stub. -/
theorem pages_of_longestRegion? {len : Addr} (h : config.longestRegion? host = .ok (some len)) :
    Addr.isGranule host.pageSize = true ∧ len.toNat % host.pageSize.toNat = 0 ∧
      config.maxCodeLen.toNat + 4 ≤ len.toNat := by
  unfold longestRegion? at h
  split at h
  · cases h
  next imageLen himage =>
    have himageLen : imageLen.toNat = config.maxCodeLen.toNat + 4 := Addr.add?_eq_some_iff.1 himage
    rcases Checked.bind_eq_ok_iff.1 h with ⟨slack, hslack, h⟩
    have hslackLen : host.pageSize.toNat = slack.toNat + 1 := Addr.sub_eq_ok_iff.1 hslack
    split at h
    · cases h
    next padded hpadded =>
      have hpaddedLen : padded.toNat = imageLen.toNat + slack.toNat :=
        Addr.add?_eq_some_iff.1 hpadded
      rcases Checked.bind_eq_ok_iff.1 h with ⟨down, hdown, hlen⟩
      cases hlen
      have hgranule : Addr.isGranule host.pageSize = true := Addr.isGranule_of_alignDown hdown
      obtain rfl : Addr.clearBelow padded host.pageSize = len := by simpa [hgranule] using hdown
      have hreach := Addr.lt_clearBelow_add padded hgranule
      exact ⟨hgranule, Addr.clearBelow_mod padded hgranule, by omega⟩

/-- Room for the longest block at a fixed location: whole pages that may be mapped and are apart from the
guarded region. -/
structure Room (config : Config) (host : Host) (guard : Region) (location len : Addr) : Prop where
  pageSize : Addr.isGranule host.pageSize = true
  lenAligned : len.toNat % host.pageSize.toNat = 0
  holds : config.maxCodeLen.toNat + 4 ≤ len.toNat
  aligned : location.toNat % host.pageSize.toNat = 0
  above : host.mapMin.toNat ≤ location.toNat
  below : location.toNat + len.toNat ≤ taskSize.toNat
  apart : (⟨location, len⟩ : Region).overlaps guard = false

theorem room_of_examineCode {guard : Region}
    (h : config.examineCode host guard location = .ok findings) (hvalid : findings.isValid = true) :
    ∃ len, config.Room host guard location len := by
  rcases Checked.bind_eq_ok_iff.1 h with ⟨longest, hlongest, h⟩
  cases longest with
  | none =>
    -- the longest block exceeds the address space, which is a fault
    cases h
    simp at hvalid
  | some len =>
    cases h
    simp only [Findings.isValid_append, Findings.isValid_faultIf, Bool.and_eq_true, Bool.not_not,
      Bool.not_eq_true', bne_eq_false_iff_eq, decide_eq_false_iff_not, UInt64.not_lt] at hvalid
    rcases hvalid with ⟨⟨⟨haligned, habove⟩, hbelow⟩, hapart⟩
    rcases pages_of_longestRegion? hlongest with ⟨hpage, hpages, hholds⟩
    refine ⟨len, hpage, hpages, hholds, ?_, UInt64.le_iff_toNat_le.1 habove,
      endsInside_iff.1 hbelow, hapart⟩
    rw [← UInt64.toNat_mod, haligned]
    rfl

/-- What a configuration without faults guarantees. -/
structure Usable (config : Config) (host : Host) : Prop where
  granule : Addr.isGranule (config.granule host) = true
  -- The guarded region ends below the task size.
  guardFits : (Addr.clearBelow config.priming.base (config.granule host)).toNat +
    (config.granule host).toNat ≤ taskSize.toNat
  -- So does the code region of the longest block at a fixed location.
  codeFits : ∀ location, config.placement = .fixed location →
    location.toNat + config.maxCodeLen.toNat + 4 ≤ taskSize.toNat
  codeAligned : ∀ location, config.placement = .fixed location →
    location.toNat % host.pageSize.toNat = 0
  windowFits : config.window.stop.toNat ≤ userAddressLimit.toNat
  -- Some block may be granted.
  someIterations : 0 < config.maxIterations.toNat
  someBlocks : 0 < config.maxBlocks.toNat

/-- Blocks are powers of two, and pages fill them. -/
theorem granule_of_examineBlockSize (hvalid : (config.examineBlockSize host).isValid = true) :
    Addr.isGranule (config.granule host) = true ∧
      host.pageSize.toNat ≤ (config.granule host).toNat := by
  unfold examineBlockSize at hvalid
  cases hgranule : Addr.isGranule (config.granule host) with
  | false => simp [hgranule] at hvalid
  | true =>
    have hpage : host.pageSize ≤ config.granule host := by
      simpa [hgranule] using hvalid
    exact ⟨rfl, UInt64.le_iff_toNat_le.1 hpage⟩

/-- The guarded region of a configuration. -/
def guard (config : Config) (host : Host) : Region :=
  ⟨Addr.clearBelow config.priming.base (config.granule host), config.granule host⟩

/-- Where validation found both regions of a sandbox to lie. -/
structure Placed (config : Config) (host : Host) : Prop where
  guardAbove : host.mapMin.toNat ≤ (config.guard host).start.toNat
  guardBelow : (config.guard host).start.toNat + (config.granule host).toNat ≤ taskSize.toNat
  room : ∀ location, config.placement = .fixed location →
    ∃ len, config.Room host (config.guard host) location len

/-- Without a granule nothing is said about the layout, so the granule is known from elsewhere. -/
theorem placed_of_examineLayout (hgranule : Addr.isGranule (config.granule host) = true)
    (h : config.examineLayout host = .ok findings) (hvalid : findings.isValid = true) :
    config.Placed host := by
  unfold examineLayout at h
  simp only [hgranule, Addr.alignDown_eq_ok, bind, Except.bind, pure, Except.pure, Bool.not_true,
    Bool.false_eq_true, if_false] at h
  split at h
  next location hplacement =>
    split at h
    · cases h
    next onCode honCode =>
      cases h
      simp only [Findings.isValid_append, Findings.isValid_faultIf, Findings.isValid_cautionIf,
        Bool.and_eq_true, Bool.not_not, Bool.not_eq_true', decide_eq_false_iff_not,
        UInt64.not_lt] at hvalid
      rcases hvalid with ⟨⟨⟨habove, hbelow⟩, _⟩, honCodeValid⟩
      refine ⟨UInt64.le_iff_toNat_le.1 habove, endsInside_iff.1 hbelow, ?_⟩
      intro location' hlocation'
      obtain rfl : location = location' := by simpa [hplacement] using hlocation'
      exact room_of_examineCode honCode honCodeValid
  next hplacement =>
    cases h
    simp only [Findings.isValid_append, Findings.isValid_faultIf, Findings.isValid_cautionIf,
      Bool.and_eq_true, Bool.not_not, Bool.not_eq_true', decide_eq_false_iff_not,
      UInt64.not_lt] at hvalid
    rcases hvalid with ⟨⟨habove, hbelow⟩, _⟩
    refine ⟨UInt64.le_iff_toNat_le.1 habove, endsInside_iff.1 hbelow, ?_⟩
    intro location hlocation
    simp [hplacement] at hlocation

theorem windowFits_of_examineWindow (hvalid : (config.examineWindow).isValid = true) :
    config.window.stop.toNat ≤ userAddressLimit.toNat := by
  have hbelow : ¬ userAddressLimit < config.window.stop := by
    intro habove
    simp [examineWindow, habove] at hvalid
  exact UInt64.le_iff_toNat_le.1 (UInt64.not_lt.1 hbelow)

theorem pos_of_examineLimits (hvalid : config.examineLimits.isValid = true) :
    0 < config.maxIterations.toNat ∧ 0 < config.maxBlocks.toNat := by
  have hnonzero : config.maxBlocks ≠ 0 ∧ config.maxIterations ≠ 0 := by
    simp only [examineLimits, Findings.isValid_append, Findings.isValid_faultIf, Bool.and_eq_true,
      Bool.not_eq_true', beq_eq_false_iff_ne] at hvalid
    exact ⟨hvalid.1.1.1.1.1.2, hvalid.1.1.1.1.2⟩
  constructor
  · exact Nat.pos_of_ne_zero fun hzero => hnonzero.2 (UInt32.toNat_inj.1 hzero)
  · exact Nat.pos_of_ne_zero fun hzero => hnonzero.1 (UInt64.toNat_inj.1 hzero)

theorem codeLen_pos_of_examineLimits (hvalid : config.examineLimits.isValid = true) :
    0 < config.maxCodeLen.toNat := by
  simp only [examineLimits, Findings.isValid_append, Findings.isValid_faultIf, Bool.and_eq_true,
    Bool.not_eq_true', beq_eq_false_iff_ne] at hvalid
  have hnonzero : config.maxCodeLen ≠ 0 := hvalid.1.1.1.1.1.1
  exact Nat.pos_of_ne_zero fun hzero => hnonzero (UInt64.toNat_inj.1 hzero)

/-- What the parts of a validation without faults say. -/
theorem checks_of_validate (h : config.validate host = .ok findings) (hvalid : findings.isValid = true) :
    (config.examineBlockSize host).isValid = true ∧ config.examineLimits.isValid = true ∧
      config.examineWindow.isValid = true ∧
      ∃ onLayout, config.examineLayout host = .ok onLayout ∧ onLayout.isValid = true := by
  rcases Checked.bind_eq_ok_iff.1 h with ⟨onLayout, hlayout, hfindings⟩
  cases hfindings
  simp only [Findings.isValid_append, Bool.and_eq_true] at hvalid
  rcases hvalid with ⟨⟨⟨hblockSize, hlimits⟩, hwindow⟩, honLayout⟩
  exact ⟨hblockSize, hlimits, hwindow, onLayout, hlayout, honLayout⟩

theorem placed_of_validate (h : config.validate host = .ok findings) (hvalid : findings.isValid = true) :
    config.Placed host := by
  rcases checks_of_validate h hvalid with ⟨hblockSize, _, _, _, hlayout, honLayout⟩
  exact placed_of_examineLayout (granule_of_examineBlockSize hblockSize).1 hlayout honLayout

/-- A configuration that validation finds no faults in is usable. -/
theorem usable_of_validate (h : config.validate host = .ok findings)
    (hvalid : findings.isValid = true) : config.Usable host := by
  rcases checks_of_validate h hvalid with ⟨hblockSize, hlimits, hwindow, _⟩
  have hplaced := placed_of_validate h hvalid
  have hroom : ∀ location, config.placement = .fixed location →
      location.toNat + config.maxCodeLen.toNat + 4 ≤ taskSize.toNat ∧
        location.toNat % host.pageSize.toNat = 0 := by
    intro location hlocation
    rcases hplaced.room location hlocation with ⟨len, hroom⟩
    have hholds := hroom.holds
    have hbelow := hroom.below
    exact ⟨by omega, hroom.aligned⟩
  exact {
    granule := (granule_of_examineBlockSize hblockSize).1
    guardFits := hplaced.guardBelow
    codeFits := fun location hlocation => (hroom location hlocation).1
    codeAligned := fun location hlocation => (hroom location hlocation).2
    windowFits := windowFits_of_examineWindow hwindow
    someIterations := (pos_of_examineLimits hlimits).1
    someBlocks := (pos_of_examineLimits hlimits).2 }

end Config

end Footprint
