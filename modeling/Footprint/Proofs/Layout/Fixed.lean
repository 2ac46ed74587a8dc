import Footprint.Proofs.Admission

/-!
# Layouts at a fixed location

Validation rounds the longest accepted image up to pages and examines the two regions that come of it.
A plan rounds the image of one block, in an order of operations of its own. Rounding is monotone, so the
region of a plan is a part of the region that was examined, and everything that was examined holds of the
plan: it is never out of range, its regions may be mapped and are apart, and image, sentinel and stub lie
in the code region (`Layout.WellPlaced`). Nothing but the kernel can refuse to set such a layout up
(`Sandbox.fixed_never_refused`).
-/

namespace Footprint

namespace Region

/-- Whole pages of addresses that a process may map. -/
structure Mappable (r : Region) (host : Host) : Prop where
  startAligned : r.start.toNat % host.pageSize.toNat = 0
  lenAligned : r.len.toNat % host.pageSize.toNat = 0
  above : host.mapMin.toNat ≤ r.start.toNat
  below : r.start.toNat + r.len.toNat ≤ taskSize.toNat

/-- One region lies in the other, whole and without wrapping. -/
structure Within (r s : Region) : Prop where
  starts : s.start.toNat ≤ r.start.toNat
  ends : r.start.toNat + r.len.toNat ≤ s.start.toNat + s.len.toNat
  fits : s.start.toNat + s.len.toNat < UInt64.size

variable {r s : Region} {a : Addr} {host : Host}

theorem Mappable.fits (h : r.Mappable host) : r.start.toNat + r.len.toNat < UInt64.size :=
  Nat.lt_of_le_of_lt h.below taskSize.toNat_lt

theorem Mappable.whole (h : r.Mappable host) : r.Whole host.pageSize :=
  ⟨h.startAligned, h.lenAligned, h.fits⟩

end Region

namespace Layout

/-- A layout whose parts are where a sandbox needs them. -/
structure WellPlaced (l : Layout) (config : Config) (host : Host) : Prop where
  powerOfTwo : l.blockSize.toNat.isPowerOfTwo
  pagesFillBlocks : l.blockSize.toNat % host.pageSize.toNat = 0
  -- The guarded region is the block of the priming base.
  guardLen : l.guardRegion.len = l.blockSize
  guardAligned : l.guardRegion.start.toNat % l.blockSize.toNat = 0
  guardHoldsBase : l.guardRegion.contains config.priming.base = true
  guardMappable : l.guardRegion.Mappable host
  codeMappable : l.codeRegion.Mappable host
  apart : ∀ a, ¬(l.codeRegion.contains a = true ∧ l.guardRegion.contains a = true)
  blockWithin : (⟨l.codeLocation, l.codeLen⟩ : Region).Within l.codeRegion
  -- The sums behind the block are in range, as far as the end of the stub.
  stubWithin : ∃ sentinel stub behind, l.sentinelAddr = .ok sentinel ∧ l.stubAddr = .ok stub ∧
    Addr.add stub stubLen = .ok behind ∧ (⟨sentinel, sentinelLen⟩ : Region).Within l.codeRegion ∧
    (⟨stub, stubLen⟩ : Region).Within l.codeRegion

variable {l : Layout} {codeLen draw location : Addr} {config : Config} {host : Host}

/-- Sentinel and stub follow the block without a gap. -/
theorem stubWithin_of_imageFits (hstart : l.codeRegion.start = l.codeLocation)
    (himage : l.codeLen.toNat + 4 ≤ l.codeRegion.len.toNat)
    (hfits : l.codeRegion.start.toNat + l.codeRegion.len.toNat < UInt64.size) :
    ∃ sentinel stub behind, l.sentinelAddr = .ok sentinel ∧ l.stubAddr = .ok stub ∧
      Addr.add stub stubLen = .ok behind ∧ (⟨sentinel, sentinelLen⟩ : Region).Within l.codeRegion ∧
      (⟨stub, stubLen⟩ : Region).Within l.codeRegion := by
  have hsentinelLen : sentinelLen.toNat = 1 := rfl
  have hstubLen : stubLen.toNat = 3 := rfl
  rw [hstart] at hfits
  have hsentinelFits : l.codeLocation.toNat + l.codeLen.toNat < UInt64.size := by omega
  rcases Addr.add_isOk hsentinelFits with ⟨sentinel, hsentinel⟩
  have hsentinelAt := Addr.add_eq_ok_iff.1 hsentinel
  have hstubFits : l.codeLocation.toNat + l.codeLen.toNat + 1 < UInt64.size := by omega
  rcases completionPc_isOk hstubFits with ⟨stub, hstub⟩
  rw [← stubAddr_eq_completionPc] at hstub
  have hstubAt := stubAddr_eq_ok_iff.1 hstub
  have hbehindFits : stub.toNat + stubLen.toNat < UInt64.size := by omega
  rcases Addr.add_isOk hbehindFits with ⟨behind, hbehind⟩
  refine ⟨sentinel, stub, behind, hsentinel, hstub, hbehind, ?_, ?_⟩
  · constructor
    all_goals
      simp only [hstart]
      omega
  · constructor
    all_goals
      simp only [hstart]
      omega

section

variable {guard : Region} {len : Addr}

/-- A block that is not longer than the longest one takes no more pages. -/
theorem codeRegion_le_of_room (hpages : CodePages host.pageSize l)
    (hroom : config.Room host guard location len) (hlen : l.codeLen.toNat ≤ config.maxCodeLen.toNat) :
    l.codeRegion.len.toNat ≤ len.toNat := by
  have hshort := hpages.short
  have hholds := hroom.holds
  by_contra hlonger
  have hpage : len.toNat + host.pageSize.toNat ≤ l.codeRegion.len.toNat :=
    Addr.add_le_of_multiples hroom.lenAligned hpages.aligned (Nat.lt_of_not_le hlonger)
  omega

theorem codeRegion_mappable_of_room (hpages : CodePages host.pageSize l)
    (hroom : config.Room host guard l.codeLocation len)
    (hlen : l.codeLen.toNat ≤ config.maxCodeLen.toNat) : l.codeRegion.Mappable host := by
  have hstart := hpages.start_eq
  refine ⟨hstart ▸ hroom.aligned, hpages.aligned, hstart ▸ hroom.above, ?_⟩
  calc
    l.codeRegion.start.toNat + l.codeRegion.len.toNat
        = l.codeLocation.toNat + l.codeRegion.len.toNat := by rw [hstart]
    _ ≤ l.codeLocation.toNat + len.toNat :=
          Nat.add_le_add_left (codeRegion_le_of_room hpages hroom hlen) _
    _ ≤ taskSize.toNat := hroom.below

theorem codeRegion_apart_of_room (hpages : CodePages host.pageSize l)
    (hroom : config.Room host guard l.codeLocation len)
    (hlen : l.codeLen.toNat ≤ config.maxCodeLen.toNat) : l.codeRegion.overlaps guard = false := by
  have hregion : l.codeRegion = ⟨l.codeLocation, l.codeRegion.len⟩ := by rw [← hpages.start_eq]
  rw [Bool.eq_false_iff, hregion]
  intro hoverlaps
  have hlonger := Region.overlaps_of_le (codeRegion_le_of_room hpages hroom hlen) hoverlaps
  rw [hroom.apart] at hlonger
  cases hlonger

end

theorem Planned.guardRegion_eq_guard (h : Planned codeLen config host draw l) :
    l.guardRegion = config.guard host := by
  rw [h.guardRegion_eq, h.blockSize_eq]
  rfl

theorem Planned.codeLocation_eq_of_fixed (h : Planned codeLen config host draw l)
    (hplacement : config.placement = .fixed location) : l.codeLocation = location := by
  have hlocated := h.located
  rw [hplacement] at hlocated
  exact (Except.ok.inj hlocated).symm

/-- A fixed location is the same for every draw. -/
theorem plan_eq_of_fixed (hplacement : config.placement = .fixed location) (draw : Addr) :
    plan codeLen config host draw = plan codeLen config host 0 := by
  simp only [plan, hplacement, Placement.locate]

end Layout

namespace Config

variable {config : Config} {host : Host} {findings : Findings} {location codeLen : Addr} {l : Layout}

/-- The guarded region is one block, and whole blocks are whole pages. -/
theorem Placed.guard_mappable (h : config.Placed host) (hgranule : Addr.isGranule (config.granule host) = true)
    (hfills : (config.granule host).toNat % host.pageSize.toNat = 0) :
    (config.guard host).Mappable host := by
  refine ⟨?_, hfills, h.guardAbove, h.guardBelow⟩
  have haligned : (config.guard host).start.toNat % (config.granule host).toNat = 0 :=
    Addr.clearBelow_mod _ hgranule
  exact Nat.mod_eq_zero_of_dvd (Nat.dvd_trans (Nat.dvd_of_mod_eq_zero hfills)
    (Nat.dvd_of_mod_eq_zero haligned))

/-- Validation leaves no plan at a fixed location out of range. -/
theorem plan_isOk_of_validate (h : config.validate host = .ok findings)
    (hvalid : findings.isValid = true) (hplacement : config.placement = .fixed location)
    (hlen : codeLen.toNat ≤ config.maxCodeLen.toNat) :
    ∃ l, Layout.plan codeLen config host 0 = .ok l := by
  rcases checks_of_validate h hvalid with ⟨hblockSize, _⟩
  rcases granule_of_examineBlockSize hblockSize with ⟨hgranule, hpage⟩
  have hplaced := placed_of_validate h hvalid
  rcases hplaced.room location hplacement with ⟨len, hroom⟩
  have hlocated : config.placement.locate host.pageSize 0 = .ok location := by
    rw [hplacement]
    rfl
  refine Layout.plan_isOk hroom.pageSize hgranule hlocated ?_
  have htask : taskSize.toNat + taskSize.toNat < UInt64.size := by decide
  have himage : codeLen.toNat + 4 ≤ taskSize.toNat := by
    calc
      codeLen.toNat + 4 ≤ config.maxCodeLen.toNat + 4 := Nat.add_le_add_right hlen 4
      _ ≤ len.toNat := hroom.holds
      _ ≤ location.toNat + len.toNat := Nat.le_add_left _ _
      _ ≤ taskSize.toNat := hroom.below
  have hpageFits : host.pageSize.toNat ≤ taskSize.toNat := by
    calc
      host.pageSize.toNat ≤ (config.granule host).toNat := hpage
      _ ≤ (config.guard host).start.toNat + (config.granule host).toNat := Nat.le_add_left _ _
      _ ≤ taskSize.toNat := hplaced.guardBelow
  exact Nat.lt_of_le_of_lt (Nat.add_le_add himage hpageFits) htask

/-- What validation examined for the longest block holds of the plan for any block. -/
theorem wellPlaced_of_plan (h : config.validate host = .ok findings)
    (hvalid : findings.isValid = true) (hplacement : config.placement = .fixed location)
    (hlen : codeLen.toNat ≤ config.maxCodeLen.toNat)
    (hplan : Layout.plan codeLen config host 0 = .ok l) :
    l.codeRegion.overlaps l.guardRegion = false ∧ l.WellPlaced config host := by
  rcases checks_of_validate h hvalid with ⟨hblockSize, _⟩
  rcases granule_of_examineBlockSize hblockSize with ⟨hgranule, hpage⟩
  have hplaced := placed_of_validate h hvalid
  rcases hplaced.room location hplacement with ⟨len, hroom⟩
  rcases Layout.plan_eq_ok_iff.1 hplan with ⟨hplanned, hpages, himage, _⟩
  rw [← hplanned.codeLen_eq] at hlen himage
  rw [← hplanned.codeLocation_eq_of_fixed hplacement] at hroom
  have hfills : (config.granule host).toNat % host.pageSize.toNat = 0 :=
    Addr.mod_granule_of_le hroom.pageSize hgranule hpage
  have hguard : l.guardRegion = config.guard host := hplanned.guardRegion_eq_guard
  have hguardAligned : (config.guard host).start.toNat % (config.granule host).toNat = 0 :=
    Addr.clearBelow_mod _ hgranule
  have hguardMappable : (config.guard host).Mappable host := hplaced.guard_mappable hgranule hfills
  have hcodeMappable : l.codeRegion.Mappable host :=
    Layout.codeRegion_mappable_of_room hpages hroom hlen
  have hapart : l.codeRegion.overlaps (config.guard host) = false :=
    Layout.codeRegion_apart_of_room hpages hroom hlen
  rw [hguard]
  refine ⟨hapart, ?_⟩
  constructor
  case powerOfTwo => exact Addr.isGranule_iff.1 hplanned.granule
  case pagesFillBlocks =>
    rw [hplanned.blockSize_eq]
    exact hfills
  case guardLen =>
    rw [hguard, hplanned.blockSize_eq]
    rfl
  case guardAligned =>
    rw [hguard, hplanned.blockSize_eq]
    exact hguardAligned
  case guardHoldsBase =>
    rw [hguard]
    exact (Region.contains_block_iff hgranule hguardAligned hguardMappable.fits).2 rfl
  case guardMappable =>
    rw [hguard]
    exact hguardMappable
  case codeMappable => exact hcodeMappable
  case apart =>
    intro a hboth
    rw [hguard] at hboth
    have hcode := Region.contains_eq_false_of_apart hapart hboth.2
    rw [hboth.1] at hcode
    cases hcode
  case blockWithin =>
    refine ⟨Nat.le_of_eq (congrArg UInt64.toNat hpages.start_eq), ?_, hcodeMappable.fits⟩
    rw [hpages.start_eq]
    exact Nat.add_le_add_left (Nat.le_trans (Nat.le_add_right _ 4) himage) _
  case stubWithin =>
    exact Layout.stubWithin_of_imageFits hpages.start_eq himage hcodeMappable.fits

end Config

namespace Sandbox

variable {code : Code} {config : Config} {host : Host} {findings : Findings} {location : Addr}

/-- At a fixed location, a valid configuration makes every accepted block a sandbox that is well placed,
and starting it is nothing but the two requests to the kernel that set it up. -/
theorem fixed_never_refused (hvalidate : config.validate host = .ok findings)
    (hvalid : findings.isValid = true) (hplacement : config.placement = .fixed location)
    (hchecked : code.check config.maxCodeLen = .ok ()) :
    ∃ layout : Layout,
      (∀ draw, Layout.plan (UInt64.ofNat code.length) config host draw = .ok layout) ∧
      layout.codeLocation = location ∧ layout.codeLen.toNat = code.length ∧
      layout.WellPlaced config host ∧
      spawn code config host = setUp code layout := by
  have hshort : code.length ≤ config.maxCodeLen.toNat := (Code.check_eq_ok_iff.1 hchecked).2
  have hcodeLen : (UInt64.ofNat code.length).toNat = code.length :=
    UInt64.toNat_ofNat_of_lt (Nat.lt_of_le_of_lt hshort config.maxCodeLen.toNat_lt)
  have hlen : (UInt64.ofNat code.length).toNat ≤ config.maxCodeLen.toNat := by
    rw [hcodeLen]
    exact hshort
  rcases Config.plan_isOk_of_validate hvalidate hvalid hplacement hlen with ⟨layout, hplan⟩
  rcases Config.wellPlaced_of_plan hvalidate hvalid hplacement hlen hplan with ⟨hapart, hwellPlaced⟩
  have hplanned := Layout.planned_of_plan hplan
  refine ⟨layout, ?_, hplanned.codeLocation_eq_of_fixed hplacement, ?_, hwellPlaced, ?_⟩
  · intro draw
    rw [Layout.plan_eq_of_fixed hplacement]
    exact hplan
  · rw [hplanned.codeLen_eq]
    exact hcodeLen
  · refine spawn_eq_setUp hchecked ?_ hplan hapart
    simp [hplacement]

/-- Blocks of four pages, and code right behind the guarded one. -/
def adjacentRegions : Config :=
  { Config.standard with blockSize := some 0x4000, maxCodeLen := 5000, placement := .fixed 0x14000 }

/-- Code whose stub reaches into a second page is placed right behind the guarded region. -/
theorem fixed_never_refused_of_adjacentRegions :
    let host : Host := ⟨"x86_64", 0x1000, 0x10000⟩
    let code : Code := List.replicate 4093 0x90
    let layout : Layout := ⟨0x14000, 4093, ⟨0x14000, 0x2000⟩, ⟨0x10000, 0x4000⟩, 0x4000⟩
    layout.WellPlaced adjacentRegions host ∧ spawn code adjacentRegions host = setUp code layout := by
  intro host code layout
  have hlength : code.length = 4093 := List.length_replicate
  have hvalidate : adjacentRegions.validate ⟨"x86_64", 0x1000, 0x10000⟩ =
      .ok ⟨[], [.moreBlocksThanIterations 512 256]⟩ := by
    rfl
  have hchecked : code.check adjacentRegions.maxCodeLen = .ok () := by
    refine Code.check_eq_ok_iff.2 ⟨List.cons_ne_nil _ _, ?_⟩
    rw [hlength]
    decide
  have hplan : Layout.plan (UInt64.ofNat code.length) adjacentRegions host 0 = .ok layout := by
    rw [hlength]
    change Layout.plan 4093 adjacentRegions ⟨"x86_64", 0x1000, 0x10000⟩ 0 = .ok layout
    rfl
  rcases fixed_never_refused hvalidate rfl rfl hchecked with
    ⟨planned, hplanned, _, _, hwellPlaced, hspawn⟩
  obtain rfl : planned = layout := Except.ok.inj ((hplanned 0).symm.trans hplan)
  exact ⟨hwellPlaced, hspawn⟩

end Sandbox

end Footprint
