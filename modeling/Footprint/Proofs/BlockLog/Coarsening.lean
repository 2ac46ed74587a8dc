import Footprint.Proofs.BlockLog.Sequence

/-!
# Records of coarser blocks

Every block of a coarse record is made of blocks of a finer one. A coarse record of some accesses therefore
needs no more than the fine record of them: the fine blocks, accessed in their order, leave the same coarse
record (`insertAll_coarsens`). The order of the fine blocks is enough because a coarse block is first touched
where the first of its fine blocks is.
-/

namespace Footprint

namespace BlockLog

variable {fine coarse : Addr} {touched : List Addr} {fineLog coarseLog again : BlockLog}

/-- The coarse blocks of some accesses are the coarse blocks of their fine blocks. -/
theorem Holds.coarsen (hle : fine.toNat ≤ coarse.toNat) (hfine : Holds fine touched fineLog)
    (hcoarse : Holds coarse touched coarseLog) :
    coarseLog.toList = (fineLog.toList.map (Addr.clearBelow · coarse)).eraseDups := by
  have habsorbs : ∀ a, Addr.clearBelow (Addr.clearBelow a fine) coarse = Addr.clearBelow a coarse :=
    fun a => Addr.clearBelow_clearBelow_of_le hfine.granule hcoarse.granule hle
  calc
    coarseLog.toList
        = ((touched.map (Addr.clearBelow · fine)).map (Addr.clearBelow · coarse)).eraseDups := by
          simp only [hcoarse.toList_eq, List.map_map, Function.comp_def, habsorbs]
    _ = (fineLog.toList.map (Addr.clearBelow · coarse)).eraseDups := by
          rw [hfine.toList_eq, eraseDups_map_eraseDups]

/-- A record has at most as many blocks as it was given accesses. -/
theorem Holds.size_le (h : Holds coarse touched coarseLog) : coarseLog.size ≤ touched.length := by
  rw [h.size_eq]
  simpa using List.toFinset_card_le (touched.map (blockStart coarse))

/-- The records that some accesses leave at two sizes of blocks, and the one that the blocks of the finer
record leave. -/
structure Coarsens (coarse : Addr) (touched : List Addr) (fineLog coarseLog again : BlockLog) : Prop where
  blocks : coarseLog.toList.map UInt64.toNat = (touched.map (blockStart coarse)).eraseDups
  same : again.toList = coarseLog.toList
  computed : coarseLog.toList.map UInt64.toNat = (fineLog.toList.map (blockStart coarse)).eraseDups
  size_le : coarseLog.size ≤ fineLog.size

/-- Accesses leave the same coarse blocks in the same order whether they are recorded as such or as the fine
blocks that they touch. -/
theorem insertAll_coarsens (hfine : fine.toNat.isPowerOfTwo) (hcoarse : coarse.toNat.isPowerOfTwo)
    (hle : fine.toNat ≤ coarse.toNat) (touched : List Addr) :
    ∃ atFine fineLog atCoarse coarseLog ofBlocks again,
      (empty fine).insertAll touched = .ok (atFine, fineLog) ∧
      (empty coarse).insertAll touched = .ok (atCoarse, coarseLog) ∧
      (empty coarse).insertAll fineLog.toList = .ok (ofBlocks, again) ∧
      Coarsens coarse touched fineLog coarseLog again := by
  have hempty : Holds coarse [] (empty coarse) := Holds.empty (Addr.isGranule_iff.2 hcoarse)
  rcases (Holds.empty (Addr.isGranule_iff.2 hfine)).insertAll touched with
    ⟨atFine, fineLog, hrunFine, hholdsFine⟩
  rcases hempty.insertAll touched with ⟨atCoarse, coarseLog, hrunCoarse, hholdsCoarse⟩
  rcases hempty.insertAll fineLog.toList with ⟨ofBlocks, again, hrunAgain, hholdsAgain⟩
  rw [List.nil_append] at hholdsFine hholdsCoarse hholdsAgain
  have hsame : again.toList = coarseLog.toList := by
    rw [hholdsAgain.toList_eq, Holds.coarsen hle hholdsFine hholdsCoarse]
  refine ⟨atFine, fineLog, atCoarse, coarseLog, ofBlocks, again, hrunFine, hrunCoarse, hrunAgain,
    hholdsCoarse.map_toNat, hsame, ?computed, ?size_le⟩
  case computed => rw [← hsame, hholdsAgain.map_toNat]
  case size_le =>
    rw [size_eq_length, ← hsame, ← size_eq_length, size_eq_length fineLog]
    exact hholdsAgain.size_le

/-- Four blocks of a page lie in two blocks of sixteen pages, the first of which is touched again in the
end. -/
theorem insertAll_coarsens_of_returning :
    let touched : List Addr := [0x12345, 0x24000, 0x1fff0, 0x13000]
    (0x1000 : Addr).toNat.isPowerOfTwo ∧ (0x10000 : Addr).toNat.isPowerOfTwo ∧
      (0x1000 : Addr).toNat ≤ (0x10000 : Addr).toNat ∧
      ∃ atFine fineLog atCoarse coarseLog ofBlocks again,
        (empty 0x1000).insertAll touched = .ok (atFine, fineLog) ∧
        (empty 0x10000).insertAll touched = .ok (atCoarse, coarseLog) ∧
        (empty 0x10000).insertAll fineLog.toList = .ok (ofBlocks, again) ∧
        Coarsens 0x10000 touched fineLog coarseLog again ∧
        coarseLog.toList.map UInt64.toNat = [0x10000, 0x20000] := by
  intro touched
  have hfine : (0x1000 : Addr).toNat.isPowerOfTwo := ⟨12, rfl⟩
  have hcoarse : (0x10000 : Addr).toNat.isPowerOfTwo := ⟨16, rfl⟩
  have hle : (0x1000 : Addr).toNat ≤ (0x10000 : Addr).toNat := by decide
  rcases insertAll_coarsens hfine hcoarse hle touched with
    ⟨atFine, fineLog, atCoarse, coarseLog, ofBlocks, again, hrunFine, hrunCoarse, hrunAgain, hcoarsens⟩
  have hstarts : (touched.map (blockStart 0x10000)).eraseDups = [0x10000, 0x20000] := by decide
  exact ⟨hfine, hcoarse, hle, atFine, fineLog, atCoarse, coarseLog, ofBlocks, again, hrunFine, hrunCoarse,
    hrunAgain, hcoarsens, hcoarsens.blocks.trans hstarts⟩

end BlockLog

end Footprint
