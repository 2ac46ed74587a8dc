import Footprint.Proofs.Setup.Conduct

/-!
# The descriptors that a fresh process closes

A fresh process keeps one of the descriptors that it inherited, the one that it reports to. All others are
in two ranges, one below it and one above it (`closedRanges_partition`). A kernel that cannot close ranges
refuses them, and then only their low descriptors are closed, one by one. Whatever the answers are, the
descriptor that is kept is not closed, all other low ones are, and without refusals all others at all
(`ensures_closeInherited_closes`). The rest of the setup closes nothing, so that the report is written to an
open descriptor (`ensures_program_closes`).
-/

namespace Footprint

namespace Setup

variable {keep : Int32} {d : UInt32} {t : History} {x : Exchange}

/-! ## Ranges -/

namespace DescriptorRange

variable {r : DescriptorRange}

/-- Whether a descriptor is in a range. -/
def Contains (r : DescriptorRange) (d : UInt32) : Prop :=
  r.first ≤ d ∧ d ≤ r.last

instance (r : DescriptorRange) (d : UInt32) : Decidable (r.Contains d) :=
  inferInstanceAs (Decidable (_ ∧ _))

theorem contains_iff : r.Contains d ↔ r.first.toNat ≤ d.toNat ∧ d.toNat ≤ r.last.toNat := by
  rw [Contains, UInt32.le_iff_toNat_le, UInt32.le_iff_toNat_le]

theorem isEmpty_eq_false_iff : r.isEmpty = false ↔ r.first ≤ r.last := by
  rw [isEmpty, decide_eq_false_iff_not, UInt32.not_lt]

theorem Contains.isEmpty_eq_false (h : r.Contains d) : r.isEmpty = false :=
  isEmpty_eq_false_iff.2 (UInt32.le_trans h.1 h.2)

/-- A range of all descriptors below a number and one of all above it. -/
structure Splits (n : Nat) (below above : DescriptorRange) : Prop where
  contains_below : ∀ d, below.Contains d ↔ d.toNat < n
  contains_above : ∀ d, above.Contains d ↔ n < d.toNat
  first_below : below.first.toNat ≤ 1
  first_above : above.first.toNat = n + 1

/-- There is nothing below zero. -/
theorem splits_zero : Splits 0 ⟨1, 0⟩ ⟨1, 0xffffffff⟩ := by
  refine ⟨fun d => ?_, fun d => ?_, by decide, by decide⟩
  all_goals
    have hword := d.toNat_lt
    simp only [contains_iff, UInt32.reduceToNat]
    omega

theorem splits_of_pos {n : UInt32} (hzero : 0 < n.toNat) (htop : n.toNat < 0xffffffff) :
    Splits n.toNat ⟨0, n - 1⟩ ⟨n + 1, 0xffffffff⟩ := by
  have hpred : (n - 1).toNat = n.toNat - 1 := UInt32.toNat_sub_of_le _ _ (UInt32.le_iff_toNat_le.2 hzero)
  have hsucc : (n + 1).toNat = n.toNat + 1 := by
    simp only [UInt32.toNat_add, UInt32.reduceToNat]
    omega
  refine ⟨fun d => ?_, fun d => ?_, Nat.zero_le 1, hsucc⟩
  all_goals
    have hword := d.toNat_lt
    simp only [contains_iff, hpred, hsucc, UInt32.reduceToNat]
    omega

theorem Splits.apart {n : Nat} {below above : DescriptorRange} (h : Splits n below above)
    (hbelow : below.Contains d) : ¬above.Contains d := by
  have hlt := (h.contains_below d).1 hbelow
  intro habove
  have hgt := (h.contains_above d).1 habove
  omega

/-- A number other than the one between the ranges is in one that is not empty. -/
theorem Splits.exists_contains_iff {n : Nat} {below above : DescriptorRange} (h : Splits n below above) :
    (∃ r ∈ [below, above], r.isEmpty = false ∧ r.Contains d) ↔ d.toNat ≠ n := by
  constructor
  · rintro ⟨r, hr, -, hcontains⟩
    simp only [List.mem_cons, List.not_mem_nil, or_false] at hr
    rcases hr with rfl | rfl
    · exact Nat.ne_of_lt ((h.contains_below d).1 hcontains)
    · exact Nat.ne_of_gt ((h.contains_above d).1 hcontains)
  · intro hne
    rcases Nat.lt_or_gt_of_ne hne with hlt | hgt
    · have hcontains := (h.contains_below d).2 hlt
      exact ⟨below, by simp, hcontains.isEmpty_eq_false, hcontains⟩
    · have hcontains := (h.contains_above d).2 hgt
      exact ⟨above, by simp, hcontains.isEmpty_eq_false, hcontains⟩

end DescriptorRange

open DescriptorRange

theorem toNat_toUInt32 (h : 0 ≤ keep) : (keep.toUInt32.toNat : Int) = keep.toInt := by
  rw [Int32.toNat_toUInt32_of_le h]
  exact Int.toNat_of_nonneg (Int32.le_iff_toInt_le.1 h)

theorem toNat_toUInt32_lt (h : 0 ≤ keep) : keep.toUInt32.toNat < 2 ^ 31 := by
  have hword := keep.toInt_lt
  have hsame := toNat_toUInt32 h
  omega

theorem closedRanges_of_pos (hzero : 0 < keep.toUInt32.toNat) (htop : keep.toUInt32.toNat < 0xffffffff) :
    closedRanges keep = .ok (⟨0, keep.toUInt32 - 1⟩, ⟨keep.toUInt32 + 1, 0xffffffff⟩) := by
  have hnotZero : keep.toUInt32 ≠ 0 := by
    rw [Ne, ← UInt32.toNat_inj]
    exact Nat.ne_of_gt hzero
  have hnotTop : keep.toUInt32 ≠ 0xffffffff := by
    rw [Ne, ← UInt32.toNat_inj]
    exact Nat.ne_of_lt htop
  simp only [closedRanges, hnotZero, hnotTop, if_false]

/-- The ranges around a descriptor are of all below it and of all above it. -/
theorem closedRanges_splits (h : 0 ≤ keep) :
    ∃ below above, closedRanges keep = .ok (below, above) ∧ Splits keep.toUInt32.toNat below above := by
  rcases Nat.eq_zero_or_pos keep.toUInt32.toNat with hzero | hpos
  · refine ⟨⟨1, 0⟩, ⟨1, 0xffffffff⟩, if_pos (UInt32.toNat_inj.1 hzero), ?_⟩
    rw [hzero]
    exact splits_zero
  · have htop : keep.toUInt32.toNat < 0xffffffff := by
      have hword := toNat_toUInt32_lt h
      omega
    exact ⟨_, _, closedRanges_of_pos hpos htop, splits_of_pos hpos htop⟩

/-! ## What is asked -/

/-- Descriptors that are closed one by one, from one on. -/
def closings : Int → Nat → History
  | _, 0 => []
  | first, count + 1 => ⟨.close first, ()⟩ :: closings (first + 1) count

namespace DescriptorRange

/-- How the low descriptors of a range are closed one by one. -/
def alone (r : DescriptorRange) : History :=
  let first := r.first.toInt32.toInt
  closings first (min (r.last.toNat : Int) greatestClosedAlone + 1 - first).toNat

/-- How a range is closed, given the answer to closing it as a whole. -/
def closing (r : DescriptorRange) (reply : Except Errno Unit) : History :=
  if r.isEmpty then [] else
    ⟨.closeRange r, reply⟩ :: match reply with
      | .ok () => []
      | .error _ => r.alone

end DescriptorRange

theorem mem_closings_iff {first : Int} {count : Nat} :
    x ∈ closings first count ↔ ∃ n, x = ⟨.close n, ()⟩ ∧ first ≤ n ∧ n < first + count := by
  induction count generalizing first with
  | zero =>
    simp only [closings, List.not_mem_nil, false_iff]
    rintro ⟨n, -, hfirst, hlast⟩
    omega
  | succ count ih =>
    rw [closings, List.mem_cons, ih]
    constructor
    · rintro (rfl | ⟨n, rfl, hfirst, hlast⟩)
      · exact ⟨first, rfl, by omega, by omega⟩
      · exact ⟨n, rfl, by omega, by omega⟩
    · rintro ⟨n, rfl, hfirst, hlast⟩
      by_cases hn : n = first
      · exact .inl (by rw [hn])
      · exact .inr ⟨n, rfl, by omega, by omega⟩

theorem mem_alone_iff {r : DescriptorRange} :
    x ∈ r.alone ↔ ∃ n, x = ⟨.close n, ()⟩ ∧ r.first.toInt32.toInt ≤ n ∧
      n ≤ (r.last.toNat : Int) ∧ n ≤ greatestClosedAlone := by
  rw [alone, mem_closings_iff]
  refine exists_congr fun n => and_congr_right fun _ => ?_
  omega

theorem ensures_closeEach (first : Int) (count : Nat) :
    (closeEach first count).Ensures (fun t' _ => t' = t ++ closings first count) t := by
  induction count generalizing first t with
  | zero => exact (List.append_nil t).symm
  | succ count ih =>
    refine Dialogue.ensures_call_bind.2 fun _ => (ih (first + 1)).mono fun t' _ h => ?_
    rw [h, closings, List.append_assoc]
    rfl

theorem ensures_closeAll (r : DescriptorRange) :
    (closeAll r).Ensures (fun t' _ => ∃ reply, t' = t ++ r.closing reply) t := by
  unfold closeAll closing
  by_cases hempty : r.isEmpty = true
  · simp only [hempty, if_true]
    exact ⟨.ok (), (List.append_nil t).symm⟩
  · simp only [hempty]
    refine Dialogue.ensures_call_bind.2 ?_
    rintro (errno | ⟨⟩)
    · refine (ensures_closeEach _ _).mono fun t' _ h => ⟨.error errno, ?_⟩
      rw [h, List.append_assoc]
      rfl
    · exact ⟨.ok (), rfl⟩

/-- The ranges are closed one after the other, each as its answer says. -/
theorem ensures_closeInherited_closing {below above : DescriptorRange}
    (h : closedRanges keep = .ok (below, above)) :
    (closeInherited keep).Ensures
      (fun t _ => ∃ reply reply', t = below.closing reply ++ above.closing reply') [] := by
  unfold closeInherited
  rw [h]
  refine (Dialogue.ensures_bind _ _).2 ((ensures_closeAll below).mono ?_)
  rintro t - ⟨reply, rfl⟩
  refine (ensures_closeAll above).mono ?_
  rintro t - ⟨reply', rfl⟩
  exact ⟨reply, reply', rfl⟩

/-- The ranges that a process asked to be closed. -/
def askedRanges (t : History) : List DescriptorRange :=
  t.filterMap fun x => match x.call with
    | .closeRange r => some r
    | _ => none

theorem askedRanges_alone (r : DescriptorRange) : askedRanges r.alone = [] := by
  refine List.filterMap_eq_nil_iff.2 fun x hx => ?_
  rcases mem_alone_iff.1 hx with ⟨n, rfl, -⟩
  rfl

/-- A range is asked for once, unless it is empty. -/
theorem askedRanges_closing (r : DescriptorRange) (reply : Except Errno Unit) :
    askedRanges (r.closing reply) = [r].filter fun r => !r.isEmpty := by
  have halone := askedRanges_alone r
  unfold askedRanges at halone ⊢
  unfold closing
  cases hempty : r.isEmpty with
  | true => simp [hempty]
  | false =>
    cases reply with
    | ok => simp [hempty]
    | error errno => simp [hempty, halone]

/-- The ranges that are asked for are those around the descriptor that are not empty. -/
theorem ensures_closeInherited_asked {below above : DescriptorRange}
    (h : closedRanges keep = .ok (below, above)) :
    (closeInherited keep).Ensures
      (fun t _ => askedRanges t = [below, above].filter fun r => !r.isEmpty) [] := by
  refine (ensures_closeInherited_closing h).mono ?_
  rintro t - ⟨reply, reply', rfl⟩
  calc
    askedRanges (below.closing reply ++ above.closing reply')
        = askedRanges (below.closing reply) ++ askedRanges (above.closing reply') := List.filterMap_append
    _ = ([below] ++ [above]).filter fun r => !r.isEmpty := by
          rw [askedRanges_closing, askedRanges_closing, List.filter_append]

/-- The ranges around a descriptor exist. Every number but its own is in one of them that is asked for, and
in one only. -/
theorem closedRanges_partition (h : 0 ≤ keep) :
    ∃ below above, closedRanges keep = .ok (below, above) ∧
      (∀ d : UInt32, (∃ r ∈ [below, above], r.isEmpty = false ∧ r.Contains d) ↔ (d.toNat : Int) ≠ keep.toInt) ∧
      (∀ d, below.Contains d → ¬above.Contains d) ∧
      (closeInherited keep).Ensures
        (fun t _ => askedRanges t = [below, above].filter fun r => !r.isEmpty) [] := by
  rcases closedRanges_splits h with ⟨below, above, hranges, hsplits⟩
  refine ⟨below, above, hranges, fun d => ?_, fun d => hsplits.apart, ensures_closeInherited_asked hranges⟩
  rw [hsplits.exists_contains_iff, ← toNat_toUInt32 h]
  exact not_congr Int.ofNat_inj.symm

/-- Nothing is below zero, and above the greatest descriptor only numbers that no descriptor has. -/
theorem closedRanges_partition_of_ends :
    let least : Int32 := 0
    let greatest : Int32 := 0x7fffffff
    let others : DescriptorRange := ⟨1, 0xffffffff⟩
    let below : DescriptorRange := ⟨0, 0x7ffffffe⟩
    let above : DescriptorRange := ⟨0x80000000, 0xffffffff⟩
    (0 ≤ least ∧ closedRanges least = .ok (⟨1, 0⟩, others) ∧ (∀ d, others.Contains d ↔ (d.toNat : Int) ≠ 0) ∧
        (closeInherited least).Ensures (fun t _ => askedRanges t = [others]) []) ∧
      0 ≤ greatest ∧ closedRanges greatest = .ok (below, above) ∧
        (∀ d, below.Contains d ∨ above.Contains d ↔ (d.toNat : Int) ≠ 0x7fffffff) ∧
        (closeInherited greatest).Ensures (fun t _ => askedRanges t = [below, above]) [] := by
  intro least greatest others below above
  have hleast : 0 ≤ least := by decide
  have hgreatest : 0 ≤ greatest := by decide
  have hothers : closedRanges least = .ok (⟨1, 0⟩, others) := by decide
  have haround : closedRanges greatest = .ok (below, above) := by decide
  rcases closedRanges_partition hleast with ⟨_, _, hranges, hcovers, -, hasked⟩
  rw [hothers] at hranges
  cases hranges
  rcases closedRanges_partition hgreatest with ⟨_, _, hranges, hcovers', -, hasked'⟩
  rw [haround] at hranges
  cases hranges
  refine ⟨⟨hleast, hothers, fun d => ?_, hasked⟩, hgreatest, haround, fun d => ?_, hasked'⟩
  · simpa [others, isEmpty, least] using hcovers d
  · simpa [below, above, isEmpty, greatest] using hcovers' d

/-! ## What is closed -/

/-- Whether a descriptor is among those that a call is to close. A report is written to its descriptor before
that is closed, and does not count. -/
def Call.Closes (d : UInt32) : Call → Prop
  | .closeRange r => r.Contains d
  | .close n => n = d.toNat
  | _ => False

/-- Whether a range was not closed as a whole. -/
def isRefused : Exchange → Bool
  | ⟨.closeRange _, .error _⟩ => true
  | _ => false

/-- Whether a process closed a descriptor. -/
def Closed (t : History) (d : UInt32) : Prop :=
  ∃ x ∈ t, x.call.Closes d ∧ isRefused x = false

theorem closed_append {t' : History} : Closed (t ++ t') d ↔ Closed t d ∨ Closed t' d := by
  simp only [Closed, List.mem_append, or_and_right, exists_or]

theorem toInt_toInt32_of_lt {n : UInt32} (h : n.toNat < 2 ^ 31) : n.toInt32.toInt = n.toNat :=
  BitVec.toInt_eq_toNat_of_lt (Nat.mul_lt_mul_of_pos_left h Nat.two_pos)

/-- Closing a range spares what is outside. Only a range that starts at `2 ^ 31` or above takes all low
descriptors with it if it is closed one by one, since its first descriptor reads as a negative number. -/
theorem not_closes_of_mem_closing {r : DescriptorRange} {reply : Except Errno Unit} (houtside : ¬r.Contains d)
    (hhigh : 2 ^ 31 ≤ r.first.toNat → greatestClosedAlone < d.toNat) (hx : x ∈ r.closing reply) :
    ¬x.call.Closes d := by
  intro hcloses
  have halone : x ∉ r.alone := by
    intro hx
    rcases mem_alone_iff.1 hx with ⟨n, rfl, hfirst, hlast, hlow⟩
    have hn : n = d.toNat := hcloses
    subst hn
    by_cases hword : r.first.toNat < 2 ^ 31
    · rw [toInt_toInt32_of_lt hword] at hfirst
      exact houtside (contains_iff.2 ⟨by omega, by omega⟩)
    · have hgreat := hhigh (Nat.le_of_not_lt hword)
      omega
  unfold closing at hx
  split at hx
  · cases hx
  · rcases List.mem_cons.1 hx with rfl | hx
    · exact houtside hcloses
    · cases reply with
      | ok => cases hx
      | error errno => exact halone hx

theorem closed_closing {r : DescriptorRange} {reply : Except Errno Unit} (h : r.Contains d)
    (hclosed : (d.toNat : Int) ≤ greatestClosedAlone ∨ ∀ x ∈ r.closing reply, isRefused x = false) :
    Closed (r.closing reply) d := by
  have hnonempty := h.isEmpty_eq_false
  cases reply with
  | ok => exact ⟨⟨.closeRange r, .ok ()⟩, by simp [closing, hnonempty], h, rfl⟩
  | error errno =>
    rcases hclosed with hlow | hgranted
    · have hbounds := contains_iff.1 h
      have hword : r.first.toNat < 2 ^ 31 := by
        unfold greatestClosedAlone at hlow
        omega
      have hfirst := toInt_toInt32_of_lt hword
      have halone : ⟨.close d.toNat, ()⟩ ∈ r.alone :=
        mem_alone_iff.2 ⟨d.toNat, rfl, by omega, by omega, hlow⟩
      exact ⟨⟨.close d.toNat, ()⟩, by simp [closing, hnonempty, halone], rfl, rfl⟩
    · have hrefused := hgranted ⟨.closeRange r, .error errno⟩ (by simp [closing, hnonempty])
      cases hrefused

section Splitting

variable {n : Nat} {below above : DescriptorRange} {reply reply' : Except Errno Unit}

/-- The number between two ranges is spared when they are closed. -/
theorem DescriptorRange.Splits.not_closes (h : Splits d.toNat below above)
    (hx : x ∈ below.closing reply ++ above.closing reply') : ¬x.call.Closes d := by
  have hbelow : ¬below.Contains d := mt (h.contains_below d).1 (Nat.lt_irrefl _)
  have habove : ¬above.Contains d := mt (h.contains_above d).1 (Nat.lt_irrefl _)
  have hfirstBelow := h.first_below
  have hfirstAbove := h.first_above
  rcases List.mem_append.1 hx with hx | hx
  · exact not_closes_of_mem_closing hbelow (by omega) hx
  · -- the range above starts that high only if the number itself is not low
    refine not_closes_of_mem_closing habove (fun hhigh => ?_) hx
    unfold greatestClosedAlone
    omega

theorem DescriptorRange.Splits.closed (h : Splits n below above) (hne : d.toNat ≠ n)
    (hreached : (d.toNat : Int) ≤ greatestClosedAlone ∨
      ∀ x ∈ below.closing reply ++ above.closing reply', isRefused x = false) :
    Closed (below.closing reply ++ above.closing reply') d := by
  rw [closed_append]
  rcases Nat.lt_or_gt_of_ne hne with hlt | hgt
  · refine .inl (closed_closing ((h.contains_below d).2 hlt) (hreached.imp_right fun hgranted x hx => ?_))
    exact hgranted x (List.mem_append_left _ hx)
  · refine .inr (closed_closing ((h.contains_above d).2 hgt) (hreached.imp_right fun hgranted x hx => ?_))
    exact hgranted x (List.mem_append_right _ hx)

end Splitting

/-- What closing everything but one descriptor comes to. -/
structure ClosesAllBut (keep : UInt32) (t : History) : Prop where
  kept : ∀ x ∈ t, ¬x.call.Closes keep
  -- Whatever the kernel refuses.
  low : ∀ d, d ≠ keep → (d.toNat : Int) ≤ greatestClosedAlone → Closed t d
  granted : (∀ x ∈ t, isRefused x = false) → ∀ d, Closed t d ↔ d ≠ keep

/-- Whatever the answers are, the descriptor that is kept is not closed, and the others are as far as the kernel
lets them. -/
theorem ensures_closeInherited_closes (h : 0 ≤ keep) :
    (closeInherited keep).Ensures (fun t _ => ClosesAllBut keep.toUInt32 t) [] := by
  rcases closedRanges_splits h with ⟨below, above, hranges, hsplits⟩
  refine (ensures_closeInherited_closing hranges).mono ?_
  rintro t - ⟨reply, reply', rfl⟩
  have hother : ∀ d, d ≠ keep.toUInt32 → d.toNat ≠ keep.toUInt32.toNat := fun d => mt UInt32.toNat_inj.1
  refine ⟨fun x hx => hsplits.not_closes hx, fun d hne hlow => hsplits.closed (hother d hne) (.inl hlow),
    fun hgranted d => ⟨?_, fun hne => hsplits.closed (hother d hne) (.inr hgranted)⟩⟩
  rintro ⟨x, hx, hcloses, -⟩ rfl
  exact hsplits.not_closes hx hcloses

/-! ## The whole setup -/

theorem isClosing_of_closes {c : Call} (h : c.Closes d) : isClosing c = true := by
  cases c with
  | closeRange r => rfl
  | close n => rfl
  | _ => cases h

/-- What closes nothing leaves the descriptors as they are. -/
theorem ClosesAllBut.concat {keep : UInt32} (h : ClosesAllBut keep t) (hx : isClosing x.call = false) :
    ClosesAllBut keep (t ++ [x]) := by
  have hopen : ∀ d, ¬x.call.Closes d := by
    intro d hcloses
    rw [isClosing_of_closes hcloses] at hx
    cases hx
  have hclosed : ∀ d, Closed (t ++ [x]) d ↔ Closed t d := by
    intro d
    simp [Closed, hopen, or_and_right, exists_or]
  refine ⟨fun y hy => ?_, fun d hne hlow => (hclosed d).2 (h.low d hne hlow), fun hgranted d => ?_⟩
  · rcases List.mem_append.1 hy with hy | hy
    · exact h.kept y hy
    · rw [List.mem_singleton.1 hy]
      exact hopen keep
  · rw [hclosed]
    exact h.granted (fun y hy => hgranted y (List.mem_append_left _ hy)) d

theorem ClosesAllBut.ensures {α : Type} {keep : UInt32} {program : Program α} (h : ClosesAllBut keep t)
    (hasks : program.Asks fun c => isClosing c = false) :
    program.Ensures (fun t _ => ClosesAllBut keep t) t :=
  hasks.ensures (fun _ _ hx h => h.concat hx) h

section Asking

variable {allowed : Call → Prop} {stage : Stage}

theorem asks_attempt {α : Type} {request : Program (Except Errno α)} (h : request.Asks allowed) :
    (attempt stage request).run.Asks allowed := by
  refine Dialogue.asks_run_bind (Dialogue.asks_run_lift h) ?_
  rintro (errno | a)
  all_goals trivial

theorem asks_mapExactly {start len : Addr} {perms : Perms} (hmap : allowed (.map start len perms))
    (hunmap : ∀ mapped, allowed (.unmap mapped len)) :
    (mapExactly stage start len perms).run.Asks allowed := by
  refine Dialogue.asks_run_bind (asks_attempt (Dialogue.asks_call hmap)) fun mapped => ?_
  split
  · trivial
  · exact Dialogue.asks_run_bind (Dialogue.asks_run_lift (Dialogue.asks_call (hunmap mapped))) fun _ => trivial

end Asking

/-- The steps of a setup close nothing. -/
theorem asks_mapCode (plan : Plan) : (mapCode plan).run.Asks fun c => isClosing c = false := by
  refine Dialogue.asks_run_bind (asks_mapExactly rfl fun _ => rfl) fun _ => ?_
  refine Dialogue.asks_run_bind (Dialogue.asks_run_lift (Dialogue.asks_call rfl)) fun _ => ?_
  exact asks_attempt (Dialogue.asks_call rfl)

/-- Before its report a process closes every descriptor but the one that it reports to, and none behind it. -/
theorem ensures_program_closes (plan : Plan) (h : 0 ≤ plan.reportTo) :
    (program plan).Ensures (fun t _ => ClosesAllBut plan.reportTo.toUInt32 t) [] := by
  refine (Dialogue.ensures_bind _ _).2 (Dialogue.ensures_run_bind.2 (Dialogue.ensures_run_lift.2
    ((ensures_closeInherited_closes h).mono fun t _ hclosed => ?_)))
  refine (hclosed.ensures ?_).mono ?_
  · refine Dialogue.asks_run_bind (asks_attempt (Dialogue.asks_call rfl)) fun _ => ?_
    refine Dialogue.asks_run_bind (asks_attempt (Dialogue.asks_call rfl)) fun _ => ?_
    exact Dialogue.asks_run_bind (asks_mapCode plan) fun _ => asks_mapExactly rfl fun _ => rfl
  · rintro t (⟨stage, errno⟩ | ⟨⟩) hclosed
    · exact fun _ => hclosed.concat rfl
    · exact fun _ _ => (hclosed.concat rfl).concat rfl

end Setup

end Footprint
