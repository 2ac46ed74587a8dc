import Footprint.Layout
import Footprint.Proofs.Alignment

/-!
# Addresses of a layout as numbers

The sentinel, the stub and the program counter behind the sentinel are checked sums. This module
states each of them as one equation between numbers, and reads a planned layout back: which numbers
a plan that succeeds rests on.
-/

namespace Footprint

namespace Addr

/-- Two checked sums in a row are one sum of numbers. -/
theorem add_bind_add_eq_ok_iff {a b c d : Addr} :
    (add a b >>= fun s => add s c) = .ok d ↔ d.toNat = a.toNat + b.toNat + c.toNat := by
  simp only [Checked.bind_eq_ok_iff, add_eq_ok_iff]
  constructor
  · rintro ⟨s, hs, hd⟩
    rw [hd, hs]
  · intro hd
    have hlt : d.toNat < UInt64.size := d.toNat_lt
    rcases add_isOk (a := a) (b := b) (by omega) with ⟨s, hok⟩
    have hs : s.toNat = a.toNat + b.toNat := add_eq_ok_iff.1 hok
    exact ⟨s, hs, hs ▸ hd⟩

end Addr

namespace Layout

variable {l : Layout} {pc : Addr}

theorem completionPc_eq_ok_iff :
    l.completionPc = .ok pc ↔ pc.toNat = l.codeLocation.toNat + l.codeLen.toNat + 1 :=
  Addr.add_bind_add_eq_ok_iff

theorem stubAddr_eq_ok_iff :
    l.stubAddr = .ok pc ↔ pc.toNat = l.codeLocation.toNat + l.codeLen.toNat + 1 :=
  Addr.add_bind_add_eq_ok_iff

/-- The stub follows the one-byte sentinel, so it starts where execution stops behind that. -/
theorem stubAddr_eq_completionPc (l : Layout) : l.stubAddr = l.completionPc := rfl

theorem completionPc_isOk (h : l.codeLocation.toNat + l.codeLen.toNat + 1 < UInt64.size) :
    ∃ pc, l.completionPc = .ok pc := by
  refine ⟨UInt64.ofNat (l.codeLocation.toNat + l.codeLen.toNat + 1), completionPc_eq_ok_iff.2 ?_⟩
  rw [UInt64.toNat_ofNat']
  exact Nat.mod_eq_of_lt h

/-- What a plan that succeeds lays out. -/
structure Planned (codeLen : Addr) (config : Config) (host : Host) (draw : Addr) (l : Layout) :
    Prop where
  codeLen_eq : l.codeLen = codeLen
  blockSize_eq : l.blockSize = config.granule host
  granule : Addr.isGranule l.blockSize = true
  located : config.placement.locate host.pageSize draw = .ok l.codeLocation
  guardRegion_eq : l.guardRegion = ⟨Addr.clearBelow config.priming.base l.blockSize, l.blockSize⟩

/-- The code region of a plan starts at the code, and is as many pages long as the image takes. -/
structure CodePages (pageSize : Addr) (l : Layout) : Prop where
  granule : Addr.isGranule pageSize = true
  start_eq : l.codeRegion.start = l.codeLocation
  aligned : l.codeRegion.len.toNat % pageSize.toNat = 0
  short : l.codeRegion.len.toNat < l.codeLen.toNat + 4 + pageSize.toNat

theorem imageLen_eq_ok_iff {codeLen len : Addr} :
    imageLen codeLen = .ok len ↔ len.toNat = codeLen.toNat + 4 :=
  Addr.add_bind_add_eq_ok_iff

variable {codeLen draw : Addr} {config : Config} {host : Host}

/-- Everything that a plan needs, and everything that it lays out: besides a location and granules, it
takes room for a page behind the image. -/
theorem plan_eq_ok_iff :
    plan codeLen config host draw = .ok l ↔
      Planned codeLen config host draw l ∧ CodePages host.pageSize l ∧
        codeLen.toNat + 4 ≤ l.codeRegion.len.toNat ∧
        codeLen.toNat + 4 + host.pageSize.toNat < UInt64.size := by
  simp only [plan, Checked.bind_eq_ok_iff, imageLen_eq_ok_iff, Addr.alignUp_eq_ok_iff]
  constructor
  · rintro ⟨image, himage, regionLen, ⟨hpage, hfits, haligned, hholds, hshort⟩, location, hlocated,
      guard, hguard, hl⟩
    have hgranule : Addr.isGranule (config.granule host) = true := Addr.isGranule_of_alignDown hguard
    obtain rfl : Addr.clearBelow config.priming.base (config.granule host) = guard := by
      simpa [hgranule] using hguard
    cases hl
    rw [himage] at hfits hholds hshort
    exact ⟨⟨rfl, rfl, hgranule, hlocated, rfl⟩, ⟨hpage, rfl, haligned, hshort⟩, hholds, hfits⟩
  · rintro ⟨⟨rfl, hblockSize, hgranule, hlocated, hguard⟩, ⟨hpage, hstart, haligned, hshort⟩,
      hholds, hfits⟩
    have himage : (l.codeLen + 4).toNat = l.codeLen.toNat + 4 :=
      Addr.toNat_add_of_fits (Nat.lt_of_le_of_lt (Nat.le_add_right _ _) hfits)
    rw [hblockSize] at hgranule hguard
    refine ⟨l.codeLen + 4, himage, l.codeRegion.len, ?_, l.codeLocation, hlocated,
      _, Addr.alignDown_eq_ok _ hgranule, ?_⟩
    · rw [himage]
      exact ⟨hpage, hfits, haligned, hholds, hshort⟩
    · have hregion : l.codeRegion = ⟨l.codeLocation, l.codeRegion.len⟩ := by rw [← hstart]
      rw [← hregion, ← hguard, ← hblockSize]
      rfl

/-- With a location and granules, room for a page behind the image is all that a plan takes. -/
theorem plan_isOk {location : Addr} (hpage : Addr.isGranule host.pageSize = true)
    (hgranule : Addr.isGranule (config.granule host) = true)
    (hlocated : config.placement.locate host.pageSize draw = .ok location)
    (hfits : codeLen.toNat + 4 + host.pageSize.toNat < UInt64.size) :
    ∃ l, plan codeLen config host draw = .ok l := by
  have himage : (codeLen + 4).toNat = codeLen.toNat + 4 :=
    Addr.toNat_add_of_fits (Nat.lt_of_le_of_lt (Nat.le_add_right _ _) hfits)
  rcases Addr.alignUp_isOk (a := codeLen + 4) hpage (himage.symm ▸ hfits) with ⟨regionLen, hregionLen⟩
  simp only [plan, Checked.bind_eq_ok_iff]
  exact ⟨_, _, imageLen_eq_ok_iff.2 himage, regionLen, hregionLen, location, hlocated,
    _, Addr.alignDown_eq_ok _ hgranule, rfl⟩

/-- A plan succeeds only if each of its parts does. -/
theorem planned_of_plan (h : plan codeLen config host draw = .ok l) :
    Planned codeLen config host draw l :=
  (plan_eq_ok_iff.1 h).1

theorem codePages_of_plan (h : plan codeLen config host draw = .ok l) : CodePages host.pageSize l :=
  (plan_eq_ok_iff.1 h).2.1

/-- A plan that succeeds has rounded, so its blocks are granules. -/
theorem isGranule_of_plan (h : plan codeLen config host draw = .ok l) :
    Addr.isGranule l.blockSize = true :=
  (planned_of_plan h).granule

end Layout

end Footprint
