import Mathlib.Data.List.Nodup
import Footprint.Proofs.Discovery.Blocks
import Footprint.Proofs.Monitor.Discipline

/-!
# The guarded region is the only one that is unprotected

A grant by lifting a protection is only decided on for a block that starts in the guarded region. Blocks
are aligned and the guarded region is a block, so such a grant is for the whole of it and for nothing
else; and since no block is recorded twice, it is carried out once at most.
-/

namespace Footprint

/-- The range that a grant makes accessible. -/
def Grant.range (g : Grant) : Region :=
  ⟨g.block, g.len⟩

namespace Monitor

variable {m after last : Monitor} {op : Op} {reply : Reply} {g : Grant} {moments : List Moment}

/-- A protection is lifted only of a block that starts in the guarded region. -/
theorem contains_of_methodFor_eq_unprotect {denial : Denial} {block : Addr}
    (h : m.methodFor denial block = .ok .unprotect) : m.layout.guardRegion.contains block = true := by
  cases denial with
  | unmapped => cases h
  | forbidden =>
    simp only [methodFor] at h
    split at h
    next hcontains => exact hcontains
    next => cases h

/-- A grant that lifts a protection is for the guarded region as a whole. -/
def LiftsGuard (layout : Layout) (g : Grant) : Prop :=
  g.method = .unprotect → g.range = layout.guardRegion

/-- The block of an address in the guarded region is the guarded region. -/
theorem block_eq_guardRegion {layout : Layout} (hsited : layout.Sited) {a : Addr}
    (hcontains : layout.guardRegion.contains a = true) :
    (⟨Addr.clearBelow a layout.blockSize, layout.blockSize⟩ : Region) = layout.guardRegion := by
  have hguard : layout.guardRegion = ⟨layout.guardRegion.start, layout.blockSize⟩ := by
    rw [← hsited.guardLen]
  have htask : taskSize.toNat < UInt64.size := taskSize.toNat_lt
  have hfits := hsited.guardFits
  rw [hguard, Region.contains_block_iff hsited.granule hsited.guardAligned (by omega)] at hcontains
  rw [hcontains]
  exact hguard.symm

theorem Grants.liftsGuard {addr : Addr} {denial : Denial} (hm : m.Sound) (hsited : m.layout.Sited)
    (hg : m.Grants addr denial g) : LiftsGuard m.layout g := by
  intro hmethod
  have hallowed := hg.allowed
  rw [hmethod, ← hg.block_eq] at hallowed
  have hblock : g.block = Addr.clearBelow addr m.layout.blockSize := by
    rw [hg.block_eq, ← hm.blockSize_eq]
    rfl
  have hself : Addr.clearBelow g.block m.layout.blockSize = g.block := by
    rw [hblock, Addr.clearBelow_clearBelow hsited.granule]
  have hregion := block_eq_guardRegion hsited (contains_of_methodFor_eq_unprotect hallowed)
  rw [hself] at hregion
  unfold Grant.range
  rw [hg.len_eq]
  exact hregion

/-! ## Courses -/

/-- Whether the moment lifts a protection: a grant that does was pending and is reported as carried out.
-/
def Moment.lifts (x : Moment) : Bool :=
  match x.op, x.before.phase with
  | .granted, .granting g => g.method = .unprotect
  | _, _ => false

/-- Only the guarded region is unprotected in the moments of a run, and that once at most. -/
structure GuardOnly (layout : Layout) (moments : List Moment) : Prop where
  whole : ∀ x ∈ moments, ∀ g, x.reply = .verdict (.grant g) → LiftsGuard layout g
  once : moments.countP Moment.lifts ≤ 1

theorem Change.answer_liftsGuard (h : Change m op (.verdict (.grant g)) after) (hm : m.Sound)
    (hsited : m.layout.Sited) : LiftsGuard m.layout g := by
  cases h with
  | grant _ hjudge =>
    exact ((judge_eq_grant_iff hm.log).1 hjudge).liftsGuard hm hsited

/-- Each call keeps that a pending grant which lifts a protection is for the guarded region. -/
theorem Change.liftsGuard (h : Change m op reply after) (hm : m.Sound) (hsited : m.layout.Sited)
    (hpending : ∀ g, m.phase = .granting g → LiftsGuard m.layout g) :
    ∀ g, after.phase = .granting g → LiftsGuard m.layout g := by
  cases h with
  | grant _ hjudge =>
    rintro _ ⟨⟩
    exact ((judge_eq_grant_iff hm.log).1 hjudge).liftsGuard hm hsited
  | idle => exact hpending
  | _ =>
    intro g hphase
    cases hphase

theorem Leads.pending_liftsGuard (h : Leads m moments last) (hm : m.Sound) (hsited : m.layout.Sited)
    (hpending : ∀ g, m.phase = .granting g → LiftsGuard m.layout g) :
    ∀ g, last.phase = .granting g → LiftsGuard m.layout g := by
  induction h with
  | nil => exact hpending
  | cons hchange _ ih =>
    rw [← hchange.layout_eq] at hsited ⊢
    exact ih (hm.change hchange) hsited (hchange.layout_eq ▸ hchange.liftsGuard hm
      (hchange.layout_eq ▸ hsited) hpending)

/-- The calls on the monitor of a sited sandbox unprotect only the guarded region. -/
theorem Leads.guardOnly {layout : Layout} {limits : Limits} (h : Leads (start layout limits) moments last)
    (hsited : layout.Sited) : GuardOnly layout moments := by
  have hstart : (start layout limits).Sound := .start hsited.granule limits
  have hnone : ∀ g, (start layout limits).phase = .granting g → LiftsGuard layout g := by
    rintro g ⟨⟩
  constructor
  · intro x hx g hreply
    rcases List.append_of_mem hx with ⟨earlier, later, rfl⟩
    rcases h.split with ⟨hbefore, hchange, _⟩
    have hlayout : x.before.layout = layout := hbefore.layout_eq
    rw [hreply] at hchange
    rw [← hlayout] at hsited ⊢
    exact hchange.answer_liftsGuard (hbefore.sound hstart) hsited
  · -- each moment that lifts a protection records the block of the guarded region
    have hlifts : ∀ x ∈ moments, x.lifts = true → x.carriedOut = some layout.guardRegion.start := by
      intro x hx hlifts
      rcases List.append_of_mem hx with ⟨earlier, later, rfl⟩
      rcases h.split with ⟨hbefore, _, _⟩
      unfold Moment.lifts at hlifts
      split at hlifts
      next g hop hphase =>
        have hregion := hbefore.pending_liftsGuard hstart hsited hnone g hphase
          (of_decide_eq_true hlifts)
        have hblock : g.block = layout.guardRegion.start := congrArg Region.start hregion
        simp [Moment.carriedOut, hop, hphase, hblock]
      next => cases hlifts
    have hnodup : (moments.filterMap Moment.carriedOut).Nodup := by
      have hlast := (h.sound hstart).log.nodup
      rw [h.toList_eq hstart] at hlast
      exact (List.nodup_append.1 hlast).2.1
    calc
      moments.countP Moment.lifts
          ≤ moments.countP (fun x => x.carriedOut == some layout.guardRegion.start) :=
            List.countP_mono_left fun x hx hx' => by simpa using hlifts x hx hx'
      _ = (moments.filterMap Moment.carriedOut).count layout.guardRegion.start :=
            (List.count_filterMap).symm
      _ ≤ 1 := List.nodup_iff_count_le_one.1 hnodup _

end Monitor

end Footprint
