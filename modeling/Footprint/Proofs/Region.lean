import Footprint.Proofs.Alignment
import Footprint.Region

/-!
# Regions as sets of addresses

The end of a region is clamped to the greatest address. This module says what the comparisons of starts
and ends mean for the addresses that a region contains, with and without an end in range: which addresses
a region contains (`contains_iff`), that regions which do not overlap have none in common
(`contains_eq_false_of_apart`), and that a shorter region overlaps nothing new (`overlaps_of_le`).
-/

namespace Footprint

namespace Region

variable {r s : Region} {a g : Addr}

theorem toNat_stop (h : r.start.toNat + r.len.toNat < UInt64.size) :
    r.stop.toNat = r.start.toNat + r.len.toNat := by
  unfold stop Addr.addClamped Addr.add?
  rw [if_pos h]
  exact Addr.toNat_add_of_fits h

/-- A region that would end behind the greatest address ends there. -/
theorem toNat_stop_eq_min (r : Region) :
    r.stop.toNat = min (r.start.toNat + r.len.toNat) Addr.top.toNat := by
  have htop : Addr.top.toNat + 1 = UInt64.size := by decide
  by_cases hfits : r.start.toNat + r.len.toNat < UInt64.size
  · rw [toNat_stop hfits]
    omega
  · have hstop : r.stop = Addr.top := by
      unfold stop Addr.addClamped Addr.add?
      rw [if_neg hfits]
      rfl
    rw [hstop]
    omega

theorem start_le_stop (r : Region) : r.start.toNat ≤ r.stop.toNat := by
  have hstart : r.start.toNat ≤ Addr.top.toNat := Nat.le_of_lt_succ r.start.toNat_lt
  rw [toNat_stop_eq_min]
  omega

/-! ## Containment -/

theorem contains_iff_lt_stop : r.contains a = true ↔ r.start.toNat ≤ a.toNat ∧ a.toNat < r.stop.toNat := by
  simp [contains, UInt64.le_iff_toNat_le, UInt64.lt_iff_toNat_lt]

/-- A region contains the addresses from its start on, up to its length. -/
theorem contains_iff (h : r.start.toNat + r.len.toNat < UInt64.size) :
    r.contains a = true ↔ r.start.toNat ≤ a.toNat ∧ a.toNat < r.start.toNat + r.len.toNat := by
  rw [contains_iff_lt_stop, toNat_stop h]

/-- A block contains the addresses that are rounded down to it. -/
theorem contains_block_iff {b : Addr} (hg : Addr.isGranule g = true) (hb : b.toNat % g.toNat = 0)
    (hfits : b.toNat + g.toNat < UInt64.size) :
    (Region.mk b g).contains a = true ↔ Addr.clearBelow a g = b := by
  rw [contains_iff hfits, Addr.clearBelow_eq_iff hg]
  simp [hb]

/-! ## Overlap -/

theorem overlaps_iff_lt_stop :
    r.overlaps s = true ↔ r.start.toNat < s.stop.toNat ∧ s.start.toNat < r.stop.toNat := by
  simp [overlaps, UInt64.lt_iff_toNat_lt]

/-- Where both ends are in range, each region starts before the length of the other one is over. -/
theorem overlaps_iff (hr : r.start.toNat + r.len.toNat < UInt64.size)
    (hs : s.start.toNat + s.len.toNat < UInt64.size) :
    r.overlaps s = true ↔ r.start.toNat < s.start.toNat + s.len.toNat ∧
      s.start.toNat < r.start.toNat + r.len.toNat := by
  rw [overlaps_iff_lt_stop, toNat_stop hr, toNat_stop hs]

theorem overlaps_comm (r s : Region) : r.overlaps s = s.overlaps r := by
  simp [overlaps, Bool.and_comm]

/-- Regions that do not overlap have no address in common. -/
theorem contains_eq_false_of_apart (h : r.overlaps s = false) (ha : s.contains a = true) :
    r.contains a = false := by
  rw [Bool.eq_false_iff]
  intro hr
  rw [contains_iff_lt_stop] at ha hr
  have hoverlaps : r.overlaps s = true := overlaps_iff_lt_stop.2 ⟨by omega, by omega⟩
  rw [h] at hoverlaps
  cases hoverlaps

/-- A shorter region overlaps nothing that the longer one does not. -/
theorem overlaps_of_le {start len len' : Addr} (hlen : len.toNat ≤ len'.toNat)
    (h : (Region.mk start len).overlaps s = true) : (Region.mk start len').overlaps s = true := by
  rw [overlaps_iff_lt_stop, toNat_stop_eq_min ⟨start, len⟩] at h
  rw [overlaps_iff_lt_stop, toNat_stop_eq_min ⟨start, len'⟩]
  exact ⟨h.1, by simp only at h ⊢; omega⟩

/-- Blocks that overlap are the same block. -/
theorem overlaps_block_iff {b c : Addr} (hg : Addr.isGranule g = true) (hb : b.toNat % g.toNat = 0)
    (hc : c.toNat % g.toNat = 0) (hbfits : b.toNat + g.toNat < UInt64.size)
    (hcfits : c.toNat + g.toNat < UInt64.size) :
    (Region.mk b g).overlaps ⟨c, g⟩ = true ↔ b = c := by
  rw [overlaps_iff hbfits hcfits]
  constructor
  · rintro ⟨hbc, hcb⟩
    rcases Nat.le_total b.toNat c.toNat with hle | hle
    · -- the upper block starts within the lower one, which is rounded down to either
      rw [← Addr.clearBelow_of_mod hg hc]
      exact ((Addr.clearBelow_eq_iff hg).2 ⟨hb, hle, hcb⟩).symm
    · rw [← Addr.clearBelow_of_mod hg hb]
      exact (Addr.clearBelow_eq_iff hg).2 ⟨hc, hle, hbc⟩
  · rintro rfl
    have hpos := Addr.granule_pos hg
    exact ⟨Nat.lt_add_of_pos_right hpos, Nat.lt_add_of_pos_right hpos⟩

/-! ## Whole granules -/

/-- A region that consists of whole granules and ends within the address space. -/
structure Whole (r : Region) (g : Addr) : Prop where
  startAligned : r.start.toNat % g.toNat = 0
  lenAligned : r.len.toNat % g.toNat = 0
  fits : r.start.toNat + r.len.toNat < UInt64.size

theorem Whole.stopAligned (h : r.Whole g) : r.stop.toNat % g.toNat = 0 := by
  rw [toNat_stop h.fits, Nat.add_mod, h.startAligned, h.lenAligned, Nat.zero_mod]

/-- A region of whole granules that overlaps a granule covers all of it. -/
theorem Whole.contains_of_overlaps (h : r.Whole g) (hg : Addr.isGranule g = true)
    (hfits : (Addr.clearBelow a g).toNat + g.toNat < UInt64.size)
    (hoverlaps : (⟨Addr.clearBelow a g, g⟩ : Region).overlaps r = true) : r.contains a = true := by
  have haligned := Addr.clearBelow_mod a hg
  have hbelow := Addr.clearBelow_le a hg
  have habove := Addr.lt_clearBelow_add a hg
  rw [overlaps_iff hfits h.fits] at hoverlaps
  dsimp only at hoverlaps
  have hstop : (r.start.toNat + r.len.toNat) % g.toNat = 0 := by
    rw [Nat.add_mod, h.startAligned, h.lenAligned, Nat.zero_mod]
  have hends := Addr.add_le_of_multiples haligned hstop hoverlaps.1
  have hstarts : r.start.toNat ≤ (Addr.clearBelow a g).toNat := by
    by_contra hlt
    have := Addr.add_le_of_multiples haligned h.startAligned (Nat.lt_of_not_le hlt)
    omega
  exact (contains_iff h.fits).2 ⟨by omega, by omega⟩

end Region

end Footprint
