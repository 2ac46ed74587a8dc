import Footprint.BlockLog
import Footprint.Proofs.Alignment

/-!
# The record of touched blocks: what insertion does

A record keeps its blocks twice, in order and as a hash set. `Sound` ties the two views together and
says that the blocks are aligned and distinct; insertion into a sound record either finds the block
or puts it at the end (`insert_of_mem`, `insert_of_not_mem`).
-/

namespace Footprint

namespace BlockLog

variable {log : BlockLog} {a b : Addr}

/-! ## The two views of a record -/

/-- A record whose set is the set of its blocks, all of them aligned and none twice. -/
structure Sound (log : BlockLog) : Prop where
  granule : Addr.isGranule log.blockSize = true
  seen_iff : ∀ b, log.seen.contains b = true ↔ b ∈ log.toList
  aligned : ∀ b ∈ log.toList, b.toNat % log.blockSize.toNat = 0
  nodup : log.toList.Nodup

/-- The block of an address, the granularity being known to be a granule. -/
def block (log : BlockLog) (a : Addr) : Addr :=
  Addr.clearBelow a log.blockSize

@[simp]
theorem empty_blockSize (size : Addr) : (empty size).blockSize = size := rfl

@[simp]
theorem empty_toList (size : Addr) : (empty size).toList = [] := rfl

theorem size_eq_length (log : BlockLog) : log.size = log.toList.length :=
  Array.length_toList.symm

theorem Sound.empty (hg : Addr.isGranule a = true) : (empty a).Sound where
  granule := hg
  seen_iff := by
    intro b
    simp [BlockLog.empty, BlockLog.toList]
  aligned := by simp
  nodup := by simp

theorem Sound.blockOf_eq (h : log.Sound) (a : Addr) : log.blockOf a = .ok (log.block a) :=
  Addr.alignDown_eq_ok a h.granule

/-! ## Insertion -/

def push (log : BlockLog) (b : Addr) : BlockLog :=
  { log with blocks := log.blocks.push b, seen := log.seen.insert b }

@[simp]
theorem push_blockSize (log : BlockLog) (b : Addr) : (log.push b).blockSize = log.blockSize := rfl

@[simp]
theorem push_toList (log : BlockLog) (b : Addr) : (log.push b).toList = log.toList ++ [b] := by
  simp [push, toList]

@[simp]
theorem push_size (log : BlockLog) (b : Addr) : (log.push b).size = log.size + 1 := by
  simp [size_eq_length]

theorem Sound.push (h : log.Sound) (hfresh : b ∉ log.toList)
    (haligned : b.toNat % log.blockSize.toNat = 0) : (log.push b).Sound where
  granule := h.granule
  seen_iff := by
    intro c
    have hset : (log.push b).seen.contains c = (b == c || log.seen.contains c) :=
      Std.HashSet.contains_insert
    rw [hset, Bool.or_eq_true, h.seen_iff, push_toList, List.mem_append, List.mem_singleton,
      beq_iff_eq, or_comm, eq_comm (a := b)]
  aligned := by
    intro c hc
    rw [push_toList, List.mem_append, List.mem_singleton] at hc
    rcases hc with hc | rfl
    · exact h.aligned c hc
    · exact haligned
  nodup := by
    rw [push_toList, List.nodup_append]
    refine ⟨h.nodup, by simp, ?_⟩
    intro c hc d hd
    rw [List.mem_singleton] at hd
    rintro rfl
    exact hfresh (hd ▸ hc)

/-- Insertion finds the block of the address or puts it at the end. -/
theorem Sound.insert_eq (h : log.Sound) (a : Addr) :
    log.insert a =
      .ok (if log.block a ∈ log.toList then (false, log) else (true, log.push (log.block a))) := by
  unfold insert
  simp only [bind, Except.bind, h.blockOf_eq, h.seen_iff]
  split
  all_goals rfl

theorem Sound.insert_of_mem (h : log.Sound) (hmem : log.block a ∈ log.toList) :
    log.insert a = .ok (false, log) := by
  rw [h.insert_eq, if_pos hmem]

theorem Sound.insert_of_not_mem (h : log.Sound) (hmem : log.block a ∉ log.toList) :
    log.insert a = .ok (true, log.push (log.block a)) := by
  rw [h.insert_eq, if_neg hmem]

end BlockLog

end Footprint
