import Footprint.Config
import Footprint.Proofs.Alignment

/-!
# Random locations

A random location is one of the pages that start in the random range, counted around its end by a draw.
The draws reach these pages and nothing else (`page_of_locate`, `exists_draw`).
-/

namespace Footprint

namespace Placement

/-- The number of the first page of the random range. -/
def firstPage (pageSize : Addr) : Nat :=
  randomRange.start.toNat / pageSize.toNat

/-- How many pages the random range has. -/
def pageCount (pageSize : Addr) : Nat :=
  randomRange.stop.toNat / pageSize.toNat - firstPage pageSize

variable {pageSize draw location : Addr}

theorem firstPage_add_pageCount (pageSize : Addr) :
    firstPage pageSize + pageCount pageSize = randomRange.stop.toNat / pageSize.toNat := by
  have horder : firstPage pageSize ≤ randomRange.stop.toNat / pageSize.toNat :=
    Nat.div_le_div_right (by decide)
  exact Nat.add_sub_cancel' horder

/-- A page that is counted ends within the range. -/
theorem page_lt_stop {i : Nat} (hi : i < pageCount pageSize) :
    (firstPage pageSize + i) * pageSize.toNat < randomRange.stop.toNat := by
  have hlast := firstPage_add_pageCount pageSize
  have hsize : 0 < pageSize.toNat := by
    apply Nat.pos_of_ne_zero
    intro hzero
    rw [hzero, Nat.div_zero] at hlast
    omega
  calc
    (firstPage pageSize + i) * pageSize.toNat
        < (firstPage pageSize + pageCount pageSize) * pageSize.toNat :=
          Nat.mul_lt_mul_of_pos_right (Nat.add_lt_add_left hi _) hsize
    _ = randomRange.stop.toNat / pageSize.toNat * pageSize.toNat := by rw [hlast]
    _ ≤ randomRange.stop.toNat := Nat.div_mul_le_self _ _

/-- A location is drawn as a number of pages behind the first one. -/
theorem locate_randomized_eq_ok_iff :
    randomized.locate pageSize draw = .ok location ↔ 0 < pageCount pageSize ∧
      location.toNat = (firstPage pageSize + draw.toNat % pageCount pageSize) * pageSize.toNat := by
  have hpages : (randomRange.stop / pageSize - randomRange.start / pageSize).toNat =
      pageCount pageSize := by
    rw [UInt64.toNat_sub_of_le, UInt64.toNat_div, UInt64.toNat_div]
    · rfl
    · rw [UInt64.le_iff_toNat_le, UInt64.toNat_div, UInt64.toNat_div]
      exact Nat.div_le_div_right (by decide)
  have hzero : randomRange.stop / pageSize - randomRange.start / pageSize = 0 ↔
      pageCount pageSize = 0 := by
    rw [← UInt64.toNat_inj, hpages]
    rfl
  simp only [locate, hzero]
  split
  next hnone => simp [hnone]
  next hsome =>
    have hpositive : 0 < pageCount pageSize := Nat.pos_of_ne_zero hsome
    have hpage := page_lt_stop (Nat.mod_lt draw.toNat hpositive)
    have hstop : randomRange.stop.toNat < 2 ^ 64 := UInt64.toNat_lt _
    have hindex : firstPage pageSize + draw.toNat % pageCount pageSize < 2 ^ 64 := by
      have hlast := firstPage_add_pageCount pageSize
      have hle : randomRange.stop.toNat / pageSize.toNat ≤ randomRange.stop.toNat := Nat.div_le_self _ _
      have hmod := Nat.mod_lt draw.toNat hpositive
      omega
    have hnumber : ((randomRange.start / pageSize +
        draw % (randomRange.stop / pageSize - randomRange.start / pageSize)) * pageSize).toNat =
        (firstPage pageSize + draw.toNat % pageCount pageSize) * pageSize.toNat := by
      rw [UInt64.toNat_mul, UInt64.toNat_add, UInt64.toNat_mod, hpages, UInt64.toNat_div]
      change (firstPage pageSize + _) % _ * _ % _ = _
      rw [Nat.mod_eq_of_lt hindex, Nat.mod_eq_of_lt (Nat.lt_trans hpage hstop)]
    rw [Except.ok.injEq, ← UInt64.toNat_inj, hnumber]
    constructor
    · intro heq
      exact ⟨hpositive, heq.symm⟩
    · intro hdrawn
      exact hdrawn.2.symm

/-- A random location is a page of the random range. -/
theorem page_of_locate (h : randomized.locate pageSize draw = .ok location) :
    firstPage pageSize * pageSize.toNat ≤ location.toNat ∧
      location.toNat < randomRange.stop.toNat ∧ location.toNat % pageSize.toNat = 0 := by
  rcases locate_randomized_eq_ok_iff.1 h with ⟨hpositive, hlocation⟩
  rw [hlocation]
  refine ⟨Nat.mul_le_mul_right _ (Nat.le_add_right _ _), ?_, Nat.mul_mod_left _ _⟩
  exact page_lt_stop (Nat.mod_lt _ hpositive)

/-- Every page of the random range is drawn. -/
theorem exists_draw {i : Nat} (hi : i < pageCount pageSize)
    (hlocation : location.toNat = (firstPage pageSize + i) * pageSize.toNat) :
    ∃ draw, randomized.locate pageSize draw = .ok location := by
  have hlast := firstPage_add_pageCount pageSize
  have hle : randomRange.stop.toNat / pageSize.toNat ≤ randomRange.stop.toNat := Nat.div_le_self _ _
  have hstop : randomRange.stop.toNat < 2 ^ 64 := UInt64.toNat_lt _
  have hdraw : (UInt64.ofNat i).toNat = i := UInt64.toNat_ofNat_of_lt (by simp only [UInt64.size]; omega)
  refine ⟨UInt64.ofNat i, locate_randomized_eq_ok_iff.2 ⟨by omega, ?_⟩⟩
  rw [hdraw, Nat.mod_eq_of_lt hi]
  exact hlocation

end Placement

end Footprint
