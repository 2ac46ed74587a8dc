import Footprint.Proofs.Admission
import Footprint.Proofs.Discovery.Walk

/-!
# The memory of a walk, block by block

Every range that is made accessible during a run is a block, so the memory of a walk is determined by
the list of the blocks that were granted (`memoryOf`): it permits an access exactly if the block of its
address is in the list, and a block is free exactly if it is not. The list itself grows by the blocks
that are touched for the first time (`touchedAfter`).
-/

namespace Footprint

namespace Walk

variable {w : Walk} {granted : List Addr} {a b : Addr}

def block (w : Walk) (a : Addr) : Addr :=
  Addr.clearBelow a w.layout.blockSize

def guard (w : Walk) : Addr :=
  w.layout.guardRegion.start

/-- A block that ends far below the end of the address space. -/
structure IsBlock (w : Walk) (b : Addr) : Prop where
  aligned : b.toNat % w.layout.blockSize.toNat = 0
  low : b.toNat + w.layout.blockSize.toNat < 2 ^ 63

theorem IsBlock.fits (h : w.IsBlock b) : b.toNat + w.layout.blockSize.toNat < UInt64.size :=
  Nat.lt_trans h.low (by decide)

/-! ## Blocks of a layout that is sited -/

theorem guardRegion_eq (hw : w.layout.Sited) :
    w.layout.guardRegion = ⟨w.guard, w.layout.blockSize⟩ := by
  rw [← hw.guardLen]
  rfl

theorem isBlock_guard (hw : w.layout.Sited) : w.IsBlock w.guard where
  aligned := hw.guardAligned
  low := Nat.lt_of_le_of_lt hw.guardFits (by decide)

theorem isBlock_block (hw : w.layout.Sited) (ha : a.toNat < 2 ^ 47) : w.IsBlock (w.block a) where
  aligned := Addr.clearBelow_mod a hw.granule
  low := by
    have hle : (w.block a).toNat ≤ a.toNat := Addr.clearBelow_le a hw.granule
    have htask : taskSize.toNat < 2 ^ 47 := by decide
    have hsize := hw.guardFits
    omega

theorem IsBlock.contains_iff (hw : w.layout.Sited) (hb : w.IsBlock b) :
    (Region.mk b w.layout.blockSize).contains a = true ↔ w.block a = b :=
  Region.contains_block_iff hw.granule hb.aligned hb.fits

theorem guardRegion_contains_iff (hw : w.layout.Sited) :
    w.layout.guardRegion.contains a = true ↔ w.block a = w.guard := by
  rw [guardRegion_eq hw]
  exact (isBlock_guard hw).contains_iff hw

/-! ## The memory behind a list of grants -/

/-- The memory in which some blocks were made accessible. -/
def memoryOf (w : Walk) (granted : List Addr) : Memory where
  mapped := (granted.filter (· ≠ w.guard)).map (⟨·, w.layout.blockSize⟩)
  opened := granted.contains w.guard

@[simp]
theorem memoryOf_nil (w : Walk) : w.memoryOf [] = ⟨[], false⟩ := rfl

theorem memoryOf_concat_of_ne (hb : b ≠ w.guard) :
    w.memoryOf (granted ++ [b]) =
      { w.memoryOf granted with
        mapped := (w.memoryOf granted).mapped ++ [⟨b, w.layout.blockSize⟩] } := by
  simp [memoryOf, hb, Ne.symm hb]

theorem memoryOf_concat_guard :
    w.memoryOf (granted ++ [w.guard]) = { w.memoryOf granted with opened := true } := by
  simp [memoryOf]

/-- Exactly the addresses in granted blocks are accessible. -/
theorem permits_memoryOf (hw : w.layout.Sited) (hgranted : ∀ b ∈ granted, w.IsBlock b) :
    w.permits (w.memoryOf granted) a = true ↔ w.block a ∈ granted := by
  have hmapped : (w.memoryOf granted).mapped.any (·.contains a) = true ↔
      w.block a ∈ granted ∧ w.block a ≠ w.guard := by
    simp only [memoryOf, List.any_map, List.any_eq_true, List.mem_filter, Function.comp_apply,
      decide_eq_true_eq]
    constructor
    · rintro ⟨b, ⟨hb, hguard⟩, hcontains⟩
      have hblock : w.block a = b := ((hgranted b hb).contains_iff hw).1 hcontains
      exact ⟨hblock ▸ hb, hblock ▸ hguard⟩
    · rintro ⟨hmem, hguard⟩
      exact ⟨w.block a, ⟨hmem, hguard⟩, ((hgranted _ hmem).contains_iff hw).2 rfl⟩
  unfold permits
  rw [Bool.or_eq_true, Bool.and_eq_true, hmapped, guardRegion_contains_iff hw]
  constructor
  · rintro (⟨hmem, _⟩ | ⟨hopened, hguard⟩)
    · exact hmem
    · rw [hguard]
      simpa [memoryOf] using hopened
  · intro hmem
    by_cases hguard : w.block a = w.guard
    · exact .inr ⟨by simpa [memoryOf] using hguard ▸ hmem, hguard⟩
    · exact .inl ⟨hmem, hguard⟩

/-- A block that was not granted and is not guarded lies on nothing. -/
theorem isTaken_memoryOf (hw : w.layout.Sited) (hgranted : ∀ b ∈ granted, w.IsBlock b)
    (hb : w.IsBlock b) (hfresh : b ∉ granted) (hguard : b ≠ w.guard) :
    w.isTaken (w.memoryOf granted) ⟨b, w.layout.blockSize⟩ = false := by
  have hapart : ∀ c, w.IsBlock c → c ≠ b →
      ¬ (Region.mk c w.layout.blockSize).overlaps ⟨b, w.layout.blockSize⟩ = true := by
    intro c hc hne hoverlaps
    exact hne ((Region.overlaps_block_iff hw.granule hc.aligned hb.aligned hc.fits hb.fits).1 hoverlaps)
  rw [Bool.eq_false_iff]
  intro htaken
  unfold isTaken at htaken
  rw [List.any_cons, Bool.or_eq_true] at htaken
  rcases htaken with hon | hon
  · rw [guardRegion_eq hw] at hon
    exact hapart _ (isBlock_guard hw) (Ne.symm hguard) hon
  · simp only [memoryOf, List.any_map, List.any_eq_true, List.mem_filter, Function.comp_apply,
      decide_eq_true_eq] at hon
    rcases hon with ⟨c, ⟨hc, _⟩, hoverlaps⟩
    refine hapart c (hgranted c hc) ?_ hoverlaps
    rintro rfl
    exact hfresh hc

/-! ## The blocks that are touched first -/

/-- The granted blocks followed by the ones among others that are not granted yet, each once. -/
def touchedAfter (granted touched : List Addr) : List Addr :=
  granted ++ (touched.removeAll granted).eraseDups

@[simp]
theorem touchedAfter_nil : touchedAfter granted [] = granted := by
  simp [touchedAfter]

theorem nil_touchedAfter (touched : List Addr) : touchedAfter [] touched = touched.eraseDups := by
  simp [touchedAfter]

theorem touchedAfter_cons_of_mem {touched : List Addr} (hb : b ∈ granted) :
    touchedAfter granted (b :: touched) = touchedAfter granted touched := by
  simp [touchedAfter, List.cons_removeAll, hb]

/-- A block that is not granted yet is the next one. -/
theorem touchedAfter_cons_of_not_mem {touched : List Addr} (hb : b ∉ granted) :
    touchedAfter granted (b :: touched) = touchedAfter (granted ++ [b]) touched := by
  have hrest : ((touched.removeAll granted).filter fun c => !c == b) =
      touched.removeAll (granted ++ [b]) := by
    simp only [List.removeAll, List.filter_filter]
    refine List.filter_congr fun c _ => ?_
    by_cases hc : c = b
    · simp [hc]
    · simp [hc]
  calc
    touchedAfter granted (b :: touched)
        = granted ++ (b :: touched.removeAll granted).eraseDups := by
          simp [touchedAfter, List.cons_removeAll, hb]
    _ = granted ++ b :: (touched.removeAll (granted ++ [b])).eraseDups := by
          rw [List.eraseDups_cons, hrest]
    _ = touchedAfter (granted ++ [b]) touched := by
          simp [touchedAfter]

theorem length_le_touchedAfter (granted touched : List Addr) :
    granted.length ≤ (touchedAfter granted touched).length := by
  simp [touchedAfter]

end Walk

end Footprint
