import Footprint.Proofs.Region

/-!
# What the tests on regions mean

The tests compare starts with clamped ends. For regions that are not empty, overlapping in that sense is
having an address in common, also where an end lies behind the address space: clamping takes the greatest
address out of both notions alike (`tests_exact`).
-/

namespace Footprint

namespace Region

variable {r s : Region} {a : Addr}

/-! ## Ends -/

theorem stop?_eq_none_iff : r.stop? = none ↔ UInt64.size ≤ r.start.toNat + r.len.toNat :=
  Addr.add?_eq_none_iff

/-- An end in range is the clamped end. -/
theorem stop?_eq_some_stop (h : r.start.toNat + r.len.toNat < UInt64.size) : r.stop? = some r.stop :=
  Addr.add?_eq_some_iff.2 (toNat_stop h)

theorem toNat_stop_of_wraps (h : UInt64.size ≤ r.start.toNat + r.len.toNat) :
    r.stop.toNat = Addr.top.toNat := by
  have htop : Addr.top.toNat + 1 = UInt64.size := by decide
  rw [toNat_stop_eq_min]
  omega

/-- A region that is not empty starts below its end, unless it starts at the greatest address. -/
theorem start_lt_stop_iff (hlen : 0 < r.len.toNat) :
    r.start.toNat < r.stop.toNat ↔ r.start.toNat < Addr.top.toNat := by
  rw [toNat_stop_eq_min]
  omega

/-! ## Overlap -/

/-- Where two regions that are not empty overlap, both contain the later of their starts. -/
theorem contains_max_start (hr : 0 < r.len.toNat) (hs : 0 < s.len.toNat) (h : r.overlaps s = true) :
    r.contains (max r.start s.start) = true ∧ s.contains (max r.start s.start) = true := by
  rcases overlaps_iff_lt_stop.1 h with ⟨hrs, hsr⟩
  -- a start below any end at all is not the greatest address, so the region does not clamp away
  have hsstop : s.stop.toNat ≤ Addr.top.toNat := Nat.le_of_lt_succ s.stop.toNat_lt
  have hrstop : r.stop.toNat ≤ Addr.top.toNat := Nat.le_of_lt_succ r.stop.toNat_lt
  have hrown : r.start.toNat < r.stop.toNat := (start_lt_stop_iff hr).2 (by omega)
  have hsown : s.start.toNat < s.stop.toNat := (start_lt_stop_iff hs).2 (by omega)
  rw [contains_iff_lt_stop, contains_iff_lt_stop, UInt64.toNat_max]
  omega

theorem overlaps_iff_exists_contains (hr : 0 < r.len.toNat) (hs : 0 < s.len.toNat) :
    r.overlaps s = true ↔ ∃ a, r.contains a = true ∧ s.contains a = true := by
  constructor
  · intro h
    exact ⟨max r.start s.start, contains_max_start hr hs h⟩
  · rintro ⟨a, hra, hsa⟩
    by_contra hoverlaps
    rw [Bool.not_eq_true] at hoverlaps
    rw [contains_eq_false_of_apart hoverlaps hsa] at hra
    cases hra

/-- Shorter regions overlap only if the longer ones do. -/
theorem overlaps_of_le_of_le {len len' : Addr} (hlen : len.toNat ≤ r.len.toNat)
    (hlen' : len'.toNat ≤ s.len.toNat) (h : (Region.mk r.start len).overlaps ⟨s.start, len'⟩ = true) :
    r.overlaps s = true := by
  have hfirst : r.overlaps ⟨s.start, len'⟩ = true := overlaps_of_le hlen h
  rw [overlaps_comm] at hfirst ⊢
  exact overlaps_of_le hlen' hfirst

/-- What the tests say of two regions. A region wraps if its end is `2 ^ 64` or more. -/
structure Tests (r s : Region) : Prop where
  overlaps_comm : r.overlaps s = s.overlaps r
  overlaps_iff : r.overlaps s = true ↔ ∃ a, r.contains a = true ∧ s.contains a = true
  contains_iff : r.start.toNat + r.len.toNat < UInt64.size →
    ∀ a, r.contains a = true ↔ r.start.toNat ≤ a.toNat ∧ a.toNat < r.start.toNat + r.len.toNat
  -- All that clamping costs is the greatest address.
  contains_iff_of_wraps : UInt64.size ≤ r.start.toNat + r.len.toNat →
    ∀ a, r.contains a = true ↔ r.start.toNat ≤ a.toNat ∧ a.toNat < Addr.top.toNat
  stop?_eq_none_iff : r.stop? = none ↔ UInt64.size ≤ r.start.toNat + r.len.toNat
  stop?_eq_some : r.start.toNat + r.len.toNat < UInt64.size → r.stop? = some r.stop
  shrink : r.overlaps s = false → ∀ len len' : Addr, 0 < len.toNat → len.toNat ≤ r.len.toNat →
    0 < len'.toNat → len'.toNat ≤ s.len.toNat → (Region.mk r.start len).overlaps ⟨s.start, len'⟩ = false

/-- The tests on regions that are not empty are about the addresses that the regions contain. -/
theorem tests_exact (hr : 0 < r.len.toNat) (hs : 0 < s.len.toNat) : Tests r s where
  overlaps_comm := overlaps_comm r s
  overlaps_iff := overlaps_iff_exists_contains hr hs
  contains_iff hfits a := contains_iff hfits
  contains_iff_of_wraps hwraps a := by rw [contains_iff_lt_stop, toNat_stop_of_wraps hwraps]
  stop?_eq_none_iff := stop?_eq_none_iff
  stop?_eq_some := stop?_eq_some_stop
  shrink := by
    intro hapart len len' _ hlen _ hlen'
    rw [Bool.eq_false_iff]
    intro hoverlaps
    rw [overlaps_of_le_of_le hlen hlen' hoverlaps] at hapart
    cases hapart

/-- A region that wraps meets one that ends with the last page but one, and misses the one that consists of
the greatest address. -/
theorem tests_exact_of_wrapping :
    let high : Region := ⟨0xffffffffffffe800, 0x4000⟩
    let last : Region := ⟨0xffffffffffffe000, 0x1000⟩
    let topmost : Region := ⟨Addr.top, 1⟩
    0 < high.len.toNat ∧ 0 < last.len.toNat ∧ 0 < topmost.len.toNat ∧ Tests high last ∧ Tests high topmost ∧
      (∃ a, high.contains a = true ∧ last.contains a = true) ∧
      ¬(∃ a, high.contains a = true ∧ topmost.contains a = true) ∧ high.stop? = none := by
  intro high last topmost
  have hhigh : 0 < high.len.toNat := by decide
  have hlast : 0 < last.len.toNat := by decide
  have htopmost : 0 < topmost.len.toNat := by decide
  have hmeets : Tests high last := tests_exact hhigh hlast
  have hmisses : Tests high topmost := tests_exact hhigh htopmost
  exact ⟨hhigh, hlast, htopmost, hmeets, hmisses, hmeets.overlaps_iff.1 (by decide),
    mt hmisses.overlaps_iff.2 (by decide), hmeets.stop?_eq_none_iff.2 (by decide)⟩

end Region

end Footprint
