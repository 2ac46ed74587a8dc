import Mathlib.Order.Bounds.Defs
import Footprint.Proofs.Monitor.Caps

/-!
# What a decision rests on

A monitor decides on a denied access by its counter, its record and its layout. Told from outside, that
is six requirements on the access and on the grants that were applied before it: a grant is decided on if
all of them hold, and otherwise the first one that fails says why not (`react_justified`). Nothing else that
happened in the run has a say.
-/

namespace Footprint

namespace Monitor

/-! ## The history of a run -/

/-- The grant that was pending when it was reported as carried out. -/
def Moment.applied (x : Moment) : Option Grant :=
  match x.op, x.before.phase with
  | .granted, .granting g => some g
  | _, _ => none

theorem Moment.carriedOut_eq (x : Moment) : x.carriedOut = x.applied.map Grant.block := by
  unfold Moment.carriedOut Moment.applied
  cases x.op with
  | granted =>
    cases x.before.phase
    all_goals rfl
  | _ => rfl

/-- The grants that were applied in a course, in order. -/
def Course.applied (course : Course) : List Grant :=
  course.moments.filterMap Moment.applied

theorem Course.granted_eq (course : Course) : course.granted = course.applied.map Grant.block := by
  rw [Course.applied, List.map_filterMap]
  exact congrArg (List.filterMap · course.moments) (funext Moment.carriedOut_eq)

/-! ## Requirements -/

/-- A denied access in a run, with the grants that were applied before it. -/
structure Case where
  layout : Layout
  limits : Limits
  applied : List Grant
  addr : Addr
  denial : Denial
  pc : Addr
  elapsed : Duration

namespace Case

/-- The block of the address. -/
def block (k : Case) : Addr :=
  Addr.clearBelow k.addr k.layout.blockSize

/-- The grant that would be decided on. -/
def grant (k : Case) : Grant where
  addr := k.addr
  block := k.block
  len := k.layout.blockSize
  method := if k.denial = .forbidden then .unprotect else .map

end Case

/-- What has to hold for a grant. -/
inductive Requirement where
  | underIterations
  | inWindow
  | outsideCode
  | newBlock
  | underBlocks
  | ownMapping
deriving DecidableEq, Repr

namespace Requirement

/-- The requirements in the order in which they are looked at. -/
def all : List Requirement :=
  [underIterations, inWindow, outsideCode, newBlock, underBlocks, ownMapping]

def Holds (k : Case) : Requirement → Prop
  | underIterations => k.applied.length < k.limits.maxIterations.toNat
  | inWindow => k.limits.window.contains k.addr = true
  | outsideCode => k.layout.codeRegion.contains k.addr = false
  | newBlock => ∀ g ∈ k.applied, g.block ≠ k.block
  | underBlocks => k.applied.length < k.limits.maxBlocks.toNat
  | ownMapping => k.denial = .unmapped ∨ k.layout.guardRegion.contains k.block = true

instance (k : Case) (c : Requirement) : Decidable (c.Holds k) := by
  cases c
  all_goals
    unfold Holds
    infer_instance

/-- What is said if the requirement is the first that fails. -/
def failure (k : Case) : Requirement → Failure
  | underIterations => .timeout .faultIterations (UInt32.ofNat k.applied.length) k.elapsed
  | inWindow => .access k.addr .outsideWindow
  | outsideCode => .access k.addr .codeRegion
  | newBlock => .fault (some k.pc) (.repeatedFault k.block)
  | underBlocks => .access k.addr (.grantCap k.limits.maxBlocks)
  | ownMapping => .access k.addr .foreignMapping

/-- What looking at requirements one after the other comes to. -/
def verdict (k : Case) : List Requirement → Verdict
  | [] => .grant k.grant
  | c :: rest => if ¬ c.Holds k then .abort (c.failure k) else verdict k rest

variable {k : Case} {c : Requirement} {cs earlier later : List Requirement}

theorem verdict_cons_of_holds (hc : c.Holds k) : verdict k (c :: cs) = verdict k cs :=
  if_neg (not_not_intro hc)

theorem verdict_cons_of_not_holds (hc : ¬ c.Holds k) : verdict k (c :: cs) = .abort (c.failure k) :=
  if_pos hc

theorem verdict_of_forall (h : ∀ c ∈ cs, c.Holds k) : verdict k cs = .grant k.grant := by
  induction cs with
  | nil => rfl
  | cons c rest ih =>
    rw [List.forall_mem_cons] at h
    rw [verdict_cons_of_holds h.1]
    exact ih h.2

/-- The first requirement that fails decides. -/
theorem verdict_of_first (hearlier : ∀ c' ∈ earlier, c'.Holds k) (hc : ¬ c.Holds k) :
    verdict k (earlier ++ c :: later) = .abort (c.failure k) := by
  induction earlier with
  | nil => exact verdict_cons_of_not_holds hc
  | cons c' rest ih =>
    rw [List.forall_mem_cons] at hearlier
    rw [List.cons_append, verdict_cons_of_holds hearlier.1]
    exact ih hearlier.2

theorem verdict_eq_grant_iff : (∃ g, verdict k cs = .grant g) ↔ ∀ c ∈ cs, c.Holds k := by
  refine ⟨?_, fun h => ⟨_, verdict_of_forall h⟩⟩
  induction cs with
  | nil => simp
  | cons c rest ih =>
    rintro ⟨g, hg⟩
    by_cases hc : c.Holds k
    · rw [verdict_cons_of_holds hc] at hg
      exact List.forall_mem_cons.2 ⟨hc, ih ⟨g, hg⟩⟩
    · rw [verdict_cons_of_not_holds hc] at hg
      cases hg

theorem mem_all (c : Requirement) : c ∈ all := by
  cases c
  all_goals decide

end Requirement

/-! ## The judgement -/

/-- The monitor that meets a case. -/
structure Meets (m : Monitor) (k : Case) : Prop where
  sound : m.Sound
  layout_eq : m.layout = k.layout
  limits_eq : m.limits = k.limits
  toList_eq : m.log.toList = k.applied.map Grant.block

variable {m : Monitor} {k : Case}

theorem Meets.size_eq (h : m.Meets k) : m.log.size = k.applied.length := by
  rw [BlockLog.size_eq_length, h.toList_eq, List.length_map]

theorem Meets.block_eq (h : m.Meets k) : m.log.block k.addr = k.block := by
  rw [BlockLog.block, h.sound.blockSize_eq, h.layout_eq, Case.block]

theorem Meets.methodFor_eq (h : m.Meets k) :
    m.methodFor k.denial k.block =
      if Requirement.ownMapping.Holds k then .ok k.grant.method else .error .foreignMapping := by
  unfold methodFor
  rw [h.layout_eq]
  cases hdenial : k.denial with
  | unmapped => simp [Requirement.Holds, Case.grant, hdenial]
  | forbidden => simp [Requirement.Holds, Case.grant, hdenial]

/-- The judgement looks at the requirements one after the other. -/
theorem Meets.judge_eq (h : m.Meets k) :
    m.judge k.addr k.denial k.pc k.elapsed = .ok (Requirement.verdict k Requirement.all) := by
  have hiterations : m.iterations = UInt32.ofNat k.applied.length := by
    rw [← h.size_eq, ← h.sound.counted, UInt32.ofNat_toNat]
  have hunder : m.limits.maxIterations ≤ m.iterations ↔ ¬ Requirement.underIterations.Holds k := by
    rw [UInt32.le_iff_toNat_le, h.sound.counted, h.size_eq, h.limits_eq]
    exact Nat.not_lt.symm
  have hnew : m.log.block k.addr ∈ m.log.toList ↔ ¬ Requirement.newBlock.Holds k := by
    rw [h.block_eq, h.toList_eq, List.mem_map]
    simp [Requirement.Holds]
  have hblocks : m.limits.maxBlocks.toNat ≤ m.log.size ↔ ¬ Requirement.underBlocks.Holds k := by
    rw [h.size_eq, h.limits_eq]
    exact Nat.not_lt.symm
  rw [Monitor.judge_eq h.sound.log]
  refine congrArg Except.ok (if_congr hunder ?_ (if_congr ?_ rfl (if_congr ?_ rfl
    (if_congr hnew ?_ (if_congr hblocks ?_ ?_)))))
  · rw [timeoutFailure, hiterations]
    rfl
  · rw [h.limits_eq]
    simp [Requirement.Holds]
  · rw [h.layout_eq]
    simp [Requirement.Holds]
  · rw [h.block_eq]
    rfl
  · rw [h.limits_eq]
    rfl
  · rw [h.block_eq, h.methodFor_eq, h.layout_eq]
    by_cases hown : Requirement.ownMapping.Holds k
    · simp [Requirement.verdict, hown, Case.grant]
    · simp [Requirement.verdict, hown, Requirement.failure]

/-- The verdict that the requirements come to. -/
structure Justified (k : Case) (verdict : Verdict) : Prop where
  grant_iff : (∃ g, verdict = .grant g) ↔ ∀ c : Requirement, c.Holds k
  grant : ∀ g, verdict = .grant g → g.addr = k.addr ∧ g.block = k.block ∧ g.len = k.layout.blockSize ∧
    (g.method = .unprotect ↔ k.denial = .forbidden)
  abort : ∀ earlier c later, Requirement.all = earlier ++ c :: later → (∀ c' ∈ earlier, c'.Holds k) →
    ¬ c.Holds k → verdict = .abort (c.failure k)

theorem justified_verdict (k : Case) : Justified k (Requirement.verdict k Requirement.all) where
  grant_iff := by
    rw [Requirement.verdict_eq_grant_iff]
    exact ⟨fun h c => h c c.mem_all, fun h c _ => h c⟩
  grant := by
    intro g hg
    have hall := Requirement.verdict_eq_grant_iff.1 ⟨g, hg⟩
    rw [Requirement.verdict_of_forall hall] at hg
    cases hg
    refine ⟨rfl, rfl, rfl, ?_⟩
    simp [Case.grant]
  abort := by
    intro earlier c later hsplit hearlier hc
    rw [hsplit]
    exact Requirement.verdict_of_first hearlier hc

variable {layout : Layout} {limits : Limits} {ops : List Op}

/-- A running monitor decides on a denied access by the grants that were applied before it. -/
theorem react_justified (hpower : layout.blockSize.toNat.isPowerOfTwo)
    (hlast : ((start layout limits).course ops).last = .ok m) (hrunning : m.phase = .running)
    (addr : Addr) (denial : Denial) (pc : Addr) (elapsed : Duration) :
    let applied := ((start layout limits).course ops).applied
    let k : Case := ⟨layout, limits, applied, addr, denial, pc, elapsed⟩
    applied.length < UInt32.size ∧
      IsGreatest {n | layout.blockSize.toNat ∣ n ∧ n ≤ addr.toNat} k.block.toNat ∧
      ∃ verdict, m.react (.access addr denial pc) elapsed = (.ok verdict, m.inPhase (phaseAfter verdict)) ∧
        Justified k verdict := by
  intro applied k
  have hgranule : Addr.isGranule layout.blockSize = true := Addr.isGranule_iff.2 hpower
  have hstart : (start layout limits).Sound := .start hgranule limits
  rcases leads_of_last_eq_ok hlast with ⟨hleads, -⟩
  have hmeets : m.Meets k :=
    ⟨hleads.sound hstart, hleads.layout_eq, hleads.limits_eq,
      (hleads.toList_eq hstart).trans (Course.granted_eq _)⟩
  refine ⟨?_, ⟨⟨?_, ?_⟩, ?_⟩, _, react_eq_ok hrunning hmeets.judge_eq, justified_verdict k⟩
  · change k.applied.length < UInt32.size
    rw [← hmeets.size_eq, ← hmeets.sound.counted]
    exact m.iterations.toNat_lt
  · exact Nat.dvd_of_mod_eq_zero (Addr.clearBelow_mod _ hgranule)
  · exact Addr.clearBelow_le _ hgranule
  · rintro n ⟨hdvd, hle⟩
    exact Addr.le_clearBelow hgranule hdvd hle

/-- With the only block granted, the next access to it is a repeated fault, although no further block may
be granted either. -/
theorem react_justified_of_granted_block :
    let layout : Layout :=
      ⟨0x200000000000, 4, ⟨0x200000000000, 0x1000⟩, ⟨0x10000, 0x1000⟩, 0x1000⟩
    let limits : Limits := ⟨⟨0, 0x800000000000⟩, 1, 2⟩
    let ops : List Op := [.react (.access 0x10004 .forbidden 0x200000000000) ⟨1⟩, .granted]
    layout.blockSize.toNat.isPowerOfTwo ∧
      ∃ m, ((start layout limits).course ops).last = .ok m ∧ m.phase = .running ∧
        m.react (.access 0x10ff8 .unmapped 0x200000000002) ⟨2⟩ =
          (.ok (.abort (.fault (some 0x200000000002) (.repeatedFault 0x10000))), m.inPhase .aborted) := by
  intro layout limits ops
  have hphase : ((start layout limits).course ops).last.map Monitor.phase = .ok .running := by cbv
  have happlied : ((start layout limits).course ops).applied =
      [⟨0x10004, 0x10000, 0x1000, .unprotect⟩] := by cbv
  cases hlast : ((start layout limits).course ops).last with
  | error e =>
    rw [hlast] at hphase
    cases hphase
  | ok m =>
    have hrunning : m.phase = .running := by
      rw [hlast] at hphase
      exact Except.ok.inj hphase
    have hpower : layout.blockSize.toNat.isPowerOfTwo := ⟨12, rfl⟩
    rcases react_justified hpower hlast hrunning 0x10ff8 .unmapped 0x200000000002 ⟨2⟩ with
      ⟨-, -, verdict, hreact, hjustified⟩
    rw [happlied] at hjustified
    have hfirst := hjustified.abort [.underIterations, .inWindow, .outsideCode] .newBlock
      [.underBlocks, .ownMapping] rfl (by decide) (by decide)
    obtain rfl : verdict = .abort (.fault (some 0x200000000002) (.repeatedFault 0x10000)) :=
      hfirst.trans (by decide)
    exact ⟨hpower, m, rfl, hrunning, hreact⟩

end Monitor

end Footprint
