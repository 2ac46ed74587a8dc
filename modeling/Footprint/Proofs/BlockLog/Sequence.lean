import Mathlib.Data.Finset.Card
import Footprint.Proofs.BlockLog

/-!
# The record of touched blocks over a sequence of accesses

A record is given accesses one after the other. It then holds the blocks of all of them, each once and in
the order of their first access, and it knows exactly the blocks that were accessed:

* `insertAll` — a sequence of accesses, with the answer to each of them;
* `Holds` — what a record is after a sequence, kept by one access (`Holds.insert`) and so by any number of
  them (`Holds.insertAll`);
* `Deduplicates` — what a caller sees of it, over blocks that are counted in unbounded integers
  (`insertAll_deduplicates`).
-/

namespace Footprint

/-! ## First occurrences -/

section FirstOccurrences

variable {α β : Type} [BEq α] [LawfulBEq α] [BEq β] [LawfulBEq β] {l : List α} {a : α}

theorem eraseDups_concat_of_mem (h : a ∈ l) : (l ++ [a]).eraseDups = l.eraseDups := by
  simp [List.eraseDups_append, List.removeAll, h]

theorem eraseDups_concat_of_not_mem (h : a ∉ l) : (l ++ [a]).eraseDups = l.eraseDups ++ [a] := by
  simp [List.eraseDups_append, List.removeAll, h, List.eraseDups_cons]

theorem eraseDups_isPrefix_append (l m : List α) : l.eraseDups <+: (l ++ m).eraseDups := by
  rw [List.eraseDups_append]
  exact List.prefix_append _ _

/-- Repetitions that are dropped before a map make no difference to the first occurrences behind it. -/
theorem eraseDups_map_eraseDups (f : α → β) (l : List α) :
    (l.eraseDups.map f).eraseDups = (l.map f).eraseDups := by
  induction l using List.reverseRecOn with
  | nil => rfl
  | append_singleton l a ih =>
    by_cases ha : a ∈ l
    · have hfa : f a ∈ l.map f := List.mem_map_of_mem ha
      rw [eraseDups_concat_of_mem ha, ih, List.map_append, List.map_singleton,
        eraseDups_concat_of_mem hfa]
    · have hmem : f a ∈ l.eraseDups.map f ↔ f a ∈ l.map f := by simp
      rw [eraseDups_concat_of_not_mem ha, List.map_append, List.map_append, List.map_singleton]
      by_cases hfa : f a ∈ l.map f
      · rw [eraseDups_concat_of_mem hfa, eraseDups_concat_of_mem (hmem.2 hfa), ih]
      · rw [eraseDups_concat_of_not_mem hfa, eraseDups_concat_of_not_mem (mt hmem.1 hfa), ih]

theorem eraseDups_of_nodup (h : l.Nodup) : l.eraseDups = l := by
  induction h with
  | nil => rfl
  | cons hne _ ih =>
    rw [List.eraseDups_cons, List.filter_eq_self.2, ih]
    intro b hb
    simpa using (hne b hb).symm

end FirstOccurrences

namespace BlockLog

variable {log : BlockLog} {size a : Addr} {touched : List Addr}

/-! ## Sequences of accesses -/

/-- Records accesses one after the other and says of each whether its block was new. -/
def insertAll (log : BlockLog) : List Addr → Checked (List Bool × BlockLog)
  | [] => .ok ([], log)
  | a :: rest => do
    let (isNew, grown) ← log.insert a
    let (answers, last) ← grown.insertAll rest
    return (isNew :: answers, last)

theorem insertAll_cons_of_ok {isNew : Bool} {grown last : BlockLog} {answers : List Bool} {rest : List Addr}
    (ha : log.insert a = .ok (isNew, grown)) (hrest : grown.insertAll rest = .ok (answers, last)) :
    log.insertAll (a :: rest) = .ok (isNew :: answers, last) := by
  simp only [insertAll, ha, hrest, bind, Except.bind, pure, Except.pure]

theorem insertAll_append_of_ok {mid last : BlockLog} {front back : List Bool} {before rest : List Addr}
    (hbefore : log.insertAll before = .ok (front, mid)) (hrest : mid.insertAll rest = .ok (back, last)) :
    log.insertAll (before ++ rest) = .ok (front ++ back, last) := by
  induction before generalizing log front with
  | nil =>
    cases hbefore
    exact hrest
  | cons a before ih =>
    rcases Checked.bind_eq_ok_iff.1 hbefore with ⟨⟨isNew, grown⟩, ha, hbefore⟩
    rcases Checked.bind_eq_ok_iff.1 hbefore with ⟨⟨answers, reached⟩, hbefore, heq⟩
    cases heq
    exact insertAll_cons_of_ok ha (ih hbefore)

/-! ## Blocks over unbounded integers -/

/-- The address that the block of an address starts at. -/
def blockStart (size a : Addr) : Nat :=
  a.toNat / size.toNat * size.toNat

theorem toNat_clearBelow_eq (hsize : Addr.isGranule size = true) (a : Addr) :
    (Addr.clearBelow a size).toNat = blockStart size a :=
  Addr.toNat_clearBelow_eq_mul a hsize

theorem mem_map_clearBelow_iff (hsize : Addr.isGranule size = true) :
    Addr.clearBelow a size ∈ touched.map (Addr.clearBelow · size) ↔
      ∃ c ∈ touched, blockStart size c = blockStart size a := by
  simp only [List.mem_map, ← UInt64.toNat_inj, toNat_clearBelow_eq hsize]

/-! ## The record that a sequence leaves -/

/-- The record of the blocks of one size that a sequence of accesses touched. -/
structure Holds (size : Addr) (touched : List Addr) (log : BlockLog) : Prop where
  sound : log.Sound
  blockSize_eq : log.blockSize = size
  toList_eq : log.toList = (touched.map (Addr.clearBelow · size)).eraseDups

theorem Holds.empty (hsize : Addr.isGranule size = true) : Holds size [] (empty size) where
  sound := Sound.empty hsize
  blockSize_eq := rfl
  toList_eq := rfl

theorem Holds.granule (h : Holds size touched log) : Addr.isGranule size = true :=
  h.blockSize_eq ▸ h.sound.granule

/-- A record holds the block of an address exactly if the block was touched. -/
theorem Holds.mem_iff (h : Holds size touched log) :
    log.block a ∈ log.toList ↔ Addr.clearBelow a size ∈ touched.map (Addr.clearBelow · size) := by
  rw [h.toList_eq, List.mem_eraseDups, block, h.blockSize_eq]

/-- An access after others: whether its block is new, and the record that it leaves. -/
structure Access (size : Addr) (before : List Addr) (a : Addr) (earlier : BlockLog) (isNew : Bool)
    (later : BlockLog) : Prop where
  insert_eq : earlier.insert a = .ok (isNew, later)
  isNew_iff : isNew = true ↔ ¬ ∃ c ∈ before, blockStart size c = blockStart size a
  unchanged : isNew = false → later = earlier

/-- An access has its answer and extends the sequence that the record stands for. -/
theorem Holds.insert (h : Holds size touched log) (a : Addr) :
    ∃ isNew grown, Access size touched a log isNew grown ∧ Holds size (touched ++ [a]) grown := by
  have htouched : Addr.clearBelow a size ∈ touched.map (Addr.clearBelow · size) ↔
      ∃ c ∈ touched, blockStart size c = blockStart size a := mem_map_clearBelow_iff h.granule
  by_cases hmem : log.block a ∈ log.toList
  · have hold := h.mem_iff.1 hmem
    refine ⟨false, log, ⟨h.sound.insert_of_mem hmem, ?_, fun _ => rfl⟩, h.sound, h.blockSize_eq, ?_⟩
    · simpa using htouched.1 hold
    · rw [List.map_append, List.map_singleton, eraseDups_concat_of_mem hold, h.toList_eq]
  · have hfresh := mt h.mem_iff.2 hmem
    have haligned : (log.block a).toNat % log.blockSize.toNat = 0 := Addr.clearBelow_mod a h.sound.granule
    refine ⟨true, log.push (log.block a), ⟨h.sound.insert_of_not_mem hmem, ?_, nofun⟩,
      h.sound.push hmem haligned, h.blockSize_eq, ?_⟩
    · exact iff_of_true rfl (mt htouched.2 hfresh)
    · rw [push_toList, List.map_append, List.map_singleton, eraseDups_concat_of_not_mem hfresh,
        h.toList_eq, block, h.blockSize_eq]

/-- A sequence of accesses has its answers and extends the sequence that the record stands for. -/
theorem Holds.insertAll (h : Holds size touched log) (more : List Addr) :
    ∃ answers grown, log.insertAll more = .ok (answers, grown) ∧ Holds size (touched ++ more) grown := by
  induction more generalizing log touched with
  | nil => exact ⟨[], log, rfl, by simpa using h⟩
  | cons a rest ih =>
    rcases h.insert a with ⟨isNew, grown, haccess, hgrown⟩
    rcases ih hgrown with ⟨answers, last, hrest, hlast⟩
    exact ⟨isNew :: answers, last, insertAll_cons_of_ok haccess.insert_eq hrest, by simpa using hlast⟩

theorem Holds.toList_isPrefix {earlier : BlockLog} {more : List Addr} (hearlier : Holds size touched earlier)
    (h : Holds size (touched ++ more) log) : earlier.toList <+: log.toList := by
  rw [hearlier.toList_eq, h.toList_eq, List.map_append]
  exact eraseDups_isPrefix_append _ _

/-! ## What a caller sees -/

theorem Holds.nodup_map_toNat (h : Holds size touched log) : (log.toList.map UInt64.toNat).Nodup :=
  h.sound.nodup.map fun _ _ => UInt64.toNat_inj.1

/-- The blocks of a record start where the touched blocks do, in the order of their first accesses. -/
theorem Holds.map_toNat (h : Holds size touched log) :
    log.toList.map UInt64.toNat = (touched.map (blockStart size)).eraseDups := by
  calc
    log.toList.map UInt64.toNat
        = (log.toList.map UInt64.toNat).eraseDups := (eraseDups_of_nodup h.nodup_map_toNat).symm
    _ = ((touched.map (Addr.clearBelow · size)).map UInt64.toNat).eraseDups := by
          rw [h.toList_eq, eraseDups_map_eraseDups]
    _ = (touched.map (blockStart size)).eraseDups := by
          rw [List.map_map]
          exact congrArg List.eraseDups (List.map_congr_left fun a _ => toNat_clearBelow_eq h.granule a)

/-- A record has as many blocks as were touched. -/
theorem Holds.size_eq (h : Holds size touched log) :
    log.size = (touched.map (blockStart size)).toFinset.card := by
  have hsame : (log.toList.map UInt64.toNat).toFinset = (touched.map (blockStart size)).toFinset := by
    ext b
    rw [h.map_toNat, List.mem_toFinset, List.mem_toFinset, List.mem_eraseDups]
  rw [← hsame, List.toFinset_card_of_nodup h.nodup_map_toNat, List.length_map, size_eq_length]

/-- A record covers the addresses that share their block with an access. -/
theorem Holds.covers_eq (h : Holds size touched log) (a : Addr) :
    ∃ found, log.covers a = .ok found ∧
      (found = true ↔ ∃ c ∈ touched, blockStart size c = blockStart size a) := by
  refine ⟨log.seen.contains (log.block a), ?_, ?_⟩
  · simp only [covers, h.sound.blockOf_eq, bind, Except.bind, pure, Except.pure]
  · rw [h.sound.seen_iff, h.mem_iff, mem_map_clearBelow_iff h.granule]

/-- What a sequence of accesses makes of an empty record of blocks of one size. -/
structure Deduplicates (size : Addr) (touched : List Addr) (answers : List Bool) (log : BlockLog) :
    Prop where
  blocks : log.toList.map UInt64.toNat = (touched.map (blockStart size)).eraseDups
  nodup : log.toList.Nodup
  seen : ∀ b, b ∈ log.seen ↔ b ∈ log.toList
  count : log.size = (touched.map (blockStart size)).toFinset.card
  covers : ∀ a, ∃ found, log.covers a = .ok found ∧
    (found = true ↔ ∃ c ∈ touched, blockStart size c = blockStart size a)
  -- Each access of the sequence is answered on the record of the ones before it.
  accesses : ∀ before a rest, touched = before ++ a :: rest → ∃ front earlier isNew later back,
    (empty size).insertAll before = .ok (front, earlier) ∧ Access size before a earlier isNew later ∧
      later.insertAll rest = .ok (back, log) ∧ answers = front ++ isNew :: back
  grows : ∀ before, before <+: touched → ∃ front earlier,
    (empty size).insertAll before = .ok (front, earlier) ∧ earlier.toList <+: log.toList

/-- A record whose blocks are a power of two takes any sequence of accesses, and what it comes to is the
sequence of the touched blocks without repetition. -/
theorem insertAll_deduplicates (hsize : size.toNat.isPowerOfTwo) (touched : List Addr) :
    ∃ answers log, (empty size).insertAll touched = .ok (answers, log) ∧
      Deduplicates size touched answers log := by
  have hempty : Holds size [] (empty size) := Holds.empty (Addr.isGranule_iff.2 hsize)
  rcases hempty.insertAll touched with ⟨answers, log, hrun, hlog⟩
  refine ⟨answers, log, hrun, hlog.map_toNat, hlog.sound.nodup, ?seen, hlog.size_eq, hlog.covers_eq,
    ?accesses, ?grows⟩
  case seen =>
    intro b
    rw [← Std.HashSet.contains_iff_mem]
    exact hlog.sound.seen_iff b
  case accesses =>
    rintro before a rest rfl
    rcases hempty.insertAll before with ⟨front, earlier, hbefore, hearlier⟩
    rcases hearlier.insert a with ⟨isNew, later, haccess, hlater⟩
    rcases hlater.insertAll rest with ⟨back, last, hrest, _⟩
    have hwhole := insertAll_append_of_ok hbefore (insertAll_cons_of_ok haccess.insert_eq hrest)
    obtain ⟨rfl, rfl⟩ : answers = front ++ isNew :: back ∧ log = last := by
      simpa using hrun.symm.trans hwhole
    exact ⟨front, earlier, isNew, later, back, hbefore, haccess, hrest, rfl⟩
  case grows =>
    rintro before ⟨rest, rfl⟩
    rcases hempty.insertAll before with ⟨front, earlier, hbefore, hearlier⟩
    exact ⟨front, earlier, hbefore, hearlier.toList_isPrefix hlog⟩

/-- The third access is to the first block again, and the last one to the highest block of all. -/
theorem insertAll_deduplicates_of_returning :
    let touched : List Addr := [0x20010, 0x10000, 0x20fff, 0xffffffffffffffff]
    (0x1000 : Addr).toNat.isPowerOfTwo ∧ ∃ answers log,
      (empty 0x1000).insertAll touched = .ok (answers, log) ∧ Deduplicates 0x1000 touched answers log ∧
        log.toList.map UInt64.toNat = [0x20000, 0x10000, 0xfffffffffffff000] := by
  intro touched
  have hsize : (0x1000 : Addr).toNat.isPowerOfTwo := ⟨12, rfl⟩
  rcases insertAll_deduplicates hsize touched with ⟨answers, log, hrun, hdeduplicates⟩
  have hstarts : (touched.map (blockStart 0x1000)).eraseDups = [0x20000, 0x10000, 0xfffffffffffff000] := by
    decide
  exact ⟨hsize, answers, log, hrun, hdeduplicates, hdeduplicates.blocks.trans hstarts⟩

end BlockLog

end Footprint
