import Footprint.Proofs.Monitor.Judgement

/-!
# What a monitor records

The data of a monitor stays in step over every sequence of calls, also over orders that no supervisor
uses. `Sound` is the invariant; it ties the record, the counter and the pending grant together, and
each rule of `Change` keeps it. What the record holds at the end follows by induction on the chain of
moments:

* `Leads.toList_eq` — the record lists the blocks of the grants that were pending when they were
  reported as carried out;
* `Leads.witnessed` — each recorded block contains an address that was reported as denied, lies in
  the window and lies outside of the code.
-/

namespace Footprint

namespace Monitor

variable {m after last : Monitor} {op : Op} {reply : Reply} {g : Grant}
  {moments : List Moment}

/-! ## The invariant -/

/-- A grant that was decided on and can be recorded. -/
structure Pending (m : Monitor) (g : Grant) : Prop where
  block_eq : g.block = m.log.block g.addr
  fresh : g.block ∉ m.log.toList
  underIterations : m.log.size < m.limits.maxIterations.toNat
  underBlocks : m.log.size < m.limits.maxBlocks.toNat
  inWindow : m.limits.window.contains g.addr = true
  outsideCode : m.layout.codeRegion.contains g.addr = false

/-- The data of a monitor are in step. -/
structure Sound (m : Monitor) : Prop where
  log : m.log.Sound
  blockSize_eq : m.log.blockSize = m.layout.blockSize
  counted : m.iterations.toNat = m.log.size
  underIterations : m.log.size ≤ m.limits.maxIterations.toNat
  underBlocks : m.log.size ≤ m.limits.maxBlocks.toNat
  pending : ∀ g, m.phase = .granting g → m.Pending g

theorem Sound.start {layout : Layout} (hg : Addr.isGranule layout.blockSize = true)
    (limits : Limits) : (start layout limits).Sound where
  log := .empty hg
  blockSize_eq := rfl
  counted := rfl
  underIterations := Nat.zero_le _
  underBlocks := Nat.zero_le _
  pending := by
    intro g hg
    cases hg

/-- Only the data of a pending grant depends on the phase. -/
theorem Sound.inPhase {p : Phase} (h : m.Sound) (hp : ∀ g, p = .granting g → m.Pending g) :
    (m.inPhase p).Sound where
  log := h.log
  blockSize_eq := h.blockSize_eq
  counted := h.counted
  underIterations := h.underIterations
  underBlocks := h.underBlocks
  pending := by
    intro g hg
    have hpending := hp g hg
    exact ⟨hpending.block_eq, hpending.fresh, hpending.underIterations, hpending.underBlocks,
      hpending.inWindow, hpending.outsideCode⟩

theorem Grants.pending {addr : Addr} {denial : Denial} (h : m.Sound) (hg : m.Grants addr denial g) :
    m.Pending g where
  block_eq := by rw [hg.block_eq, hg.addr_eq]
  fresh := hg.block_eq ▸ hg.fresh
  underIterations := h.counted ▸ UInt32.lt_iff_toNat_lt.1 hg.underIterations
  underBlocks := hg.underBlocks
  inWindow := hg.addr_eq ▸ hg.inWindow
  outsideCode := hg.addr_eq ▸ hg.outsideCode

/-- Deciding on a grant keeps the data in step. -/
theorem Grants.sound {addr : Addr} {denial : Denial} (h : m.Sound) (hg : m.Grants addr denial g) :
    (m.inPhase (.granting g)).Sound := by
  refine h.inPhase ?_
  rintro _ ⟨⟩
  exact hg.pending h

/-- A pending block is a block, so rounding leaves it alone. -/
theorem Pending.block_block (h : m.Sound) (hg : m.Pending g) : m.log.block g.block = g.block := by
  rw [hg.block_eq]
  exact Addr.clearBelow_clearBelow h.log.granule

/-- Carrying a pending grant out puts its block at the end of the record. -/
theorem Pending.insert_eq (h : m.Sound) (hg : m.Pending g) :
    m.log.insert g.block = .ok (true, m.log.push g.block) := by
  have hfresh : m.log.block g.block ∉ m.log.toList := (hg.block_block h).symm ▸ hg.fresh
  rw [h.log.insert_of_not_mem hfresh, hg.block_block h]

theorem Pending.iterations_fit (h : m.Sound) (hg : m.Pending g) :
    m.iterations.toNat + 1 < UInt32.size := by
  have hmax : m.limits.maxIterations.toNat < UInt32.size := m.limits.maxIterations.toNat_lt
  have hcounted := h.counted
  have hunder := hg.underIterations
  omega

/-- Reporting a pending grant as carried out has an answer. -/
theorem Pending.granted_eq (h : m.Sound) (hg : m.Pending g) (hphase : m.phase = .granting g) :
    m.granted = .ok (m.recorded (m.log.push g.block)) := by
  rw [granted_of_granting hphase, hg.insert_eq h]
  exact if_pos (hg.iterations_fit h)

theorem Sound.recorded (h : m.Sound) (hg : m.Pending g) : (m.recorded (m.log.push g.block)).Sound where
  log := by
    refine h.log.push hg.fresh ?_
    rw [hg.block_eq]
    exact Addr.clearBelow_mod _ h.log.granule
  blockSize_eq := h.blockSize_eq
  counted := by
    have hsum : (m.iterations + 1).toNat = m.iterations.toNat + 1 := by
      rw [UInt32.toNat_add]
      exact Nat.mod_eq_of_lt (hg.iterations_fit h)
    change (m.iterations + 1).toNat = (m.log.push g.block).size
    rw [hsum, h.counted, BlockLog.push_size]
  underIterations := by
    change (m.log.push g.block).size ≤ m.limits.maxIterations.toNat
    rw [BlockLog.push_size]
    exact hg.underIterations
  underBlocks := by
    change (m.log.push g.block).size ≤ m.limits.maxBlocks.toNat
    rw [BlockLog.push_size]
    exact hg.underBlocks
  pending := by
    intro g hg
    cases hg

/-! ## Each call keeps the invariant -/

theorem Sound.change (h : m.Sound) (hchange : Change m op reply after) : after.Sound := by
  cases hchange with
  | grant _ hjudge =>
    exact ((judge_eq_grant_iff h.log).1 hjudge).sound h
  | finish =>
    exact h.inPhase (by simp)
  | abort =>
    exact h.inPhase (by simp)
  | record hphase hinsert _ =>
    have hpending := h.pending _ hphase
    rw [hpending.insert_eq h] at hinsert
    cases hinsert
    exact h.recorded hpending
  | idle =>
    exact h
  | close =>
    exact h.inPhase (by simp)

/-- Where the data are in step and the sentinel has an address, every call has an answer. -/
theorem Sound.perform_isOk (h : m.Sound) (hsentinel : ∃ pc, m.layout.completionPc = .ok pc)
    (op : Op) : ∃ reply after, m.perform op = .ok (reply, after) := by
  cases op with
  | react stop elapsed =>
    have hverdict : ∃ verdict, m.verdictOn stop elapsed = .ok verdict := by
      cases stop with
      | access addr denial pc =>
        exact judge_isOk h.log addr denial pc elapsed
      | breakpoint pc =>
        rcases hsentinel with ⟨completion, hcompletion⟩
        simp only [verdictOn, hcompletion, bind, Except.bind, pure, Except.pure]
        split
        all_goals exact ⟨_, rfl⟩
      | _ =>
        exact ⟨_, rfl⟩
    rcases hverdict with ⟨verdict, hok⟩
    by_cases hrunning : m.phase = .running
    · exact ⟨.verdict verdict, m.inPhase (phaseAfter verdict), by
        simp [perform, react, hrunning, hok]⟩
    · exact ⟨.verdict (.abort (.fault none (.strayStop stop m.phase))), m.inPhase .aborted, by
        simp [perform, react, hrunning]⟩
  | granted =>
    by_cases hgranting : ∃ g, m.phase = .granting g
    · rcases hgranting with ⟨g, hphase⟩
      have hgranted := (h.pending g hphase).granted_eq h hphase
      exact ⟨.nothing, m.recorded (m.log.push g.block), by simp [perform, hgranted, Except.map]⟩
    · have hphase : ∀ g, m.phase ≠ .granting g := fun g hg => hgranting ⟨g, hg⟩
      exact ⟨.nothing, m, by simp [perform, granted_of_not_granting hphase, Except.map]⟩
  | _ =>
    exact ⟨_, _, rfl⟩

theorem Sound.course_isOk (h : m.Sound) (hsentinel : ∃ pc, m.layout.completionPc = .ok pc)
    (ops : List Op) : ∃ last, (m.course ops).last = .ok last := by
  induction ops generalizing m with
  | nil =>
    exact ⟨m, rfl⟩
  | cons op rest ih =>
    rcases h.perform_isOk hsentinel op with ⟨reply, after, hop⟩
    have hchange := change_of_perform hop
    rw [course_cons_of_ok hop]
    exact ih (h.change hchange) (hchange.layout_eq ▸ hsentinel)

/-! ## What the record holds -/

/-- The block whose grant was pending when it was reported as carried out. -/
def Moment.carriedOut (x : Moment) : Option Addr :=
  match x.op, x.before.phase with
  | .granted, .granting g => some g.block
  | _, _ => none

theorem Moment.carriedOut_of_ne {x : Moment} (h : x.op ≠ .granted) : x.carriedOut = none := by
  unfold Moment.carriedOut
  split
  next g hop _ => exact absurd hop h
  next => rfl

theorem Sound.log_change (h : m.Sound) (hchange : Change m op reply after) :
    after.log.toList = m.log.toList ++ (Moment.mk m op reply after).carriedOut.toList := by
  cases hchange with
  | record hphase hinsert _ =>
    rw [(h.pending _ hphase).insert_eq h] at hinsert
    cases hinsert
    simp [Moment.carriedOut, hphase, Monitor.recorded]
  | idle hphase =>
    have hnone : (Moment.mk m .granted .nothing m).carriedOut = none := by
      unfold Moment.carriedOut
      split
      next g _ hg => exact absurd hg (hphase g)
      next => rfl
    rw [hnone]
    exact (List.append_nil _).symm
  | close hending =>
    rw [Moment.carriedOut_of_ne (by rintro rfl; cases hending)]
    exact (List.append_nil _).symm
  | _ =>
    rw [Moment.carriedOut_of_ne (by simp)]
    exact (List.append_nil _).symm

theorem Leads.sound (h : Leads m moments last) (hm : m.Sound) : last.Sound := by
  induction h with
  | nil => exact hm
  | cons hchange _ ih => exact ih (hm.change hchange)

/-- The record grows by the blocks that were pending when they were reported as carried out. -/
theorem Leads.toList_eq (h : Leads m moments last) (hm : m.Sound) :
    last.log.toList = m.log.toList ++ moments.filterMap Moment.carriedOut := by
  induction h with
  | nil =>
    exact (List.append_nil _).symm
  | @cons m after last op reply rest hchange _ ih =>
    have hstep := hm.log_change hchange
    rw [ih (hm.change hchange), hstep, List.append_assoc]
    congr 1
    cases hx : (Moment.mk m op reply after).carriedOut with
    | none => simp [hx]
    | some b => simp [hx]

/-! ## Why a block is recorded -/

/-- An access was reported as denied that is in the window, outside of the code and in the block. -/
def Witnessed (layout : Layout) (limits : Limits) (ops : List Op) (b : Addr) : Prop :=
  ∃ addr denial pc elapsed, Op.react (.access addr denial pc) elapsed ∈ ops ∧
    limits.window.contains addr = true ∧ layout.codeRegion.contains addr = false ∧
    b.toNat ≤ addr.toNat ∧ addr.toNat < b.toNat + layout.blockSize.toNat

theorem Witnessed.mono {layout : Layout} {limits : Limits} {ops ops' : List Op} {b : Addr}
    (hsub : ops ⊆ ops') (h : Witnessed layout limits ops b) : Witnessed layout limits ops' b := by
  rcases h with ⟨addr, denial, pc, elapsed, hmem, hrest⟩
  exact ⟨addr, denial, pc, elapsed, hsub hmem, hrest⟩

/-- A grant is decided on because of the access that was just reported. -/
theorem Grants.witnessed {addr pc : Addr} {denial : Denial} {elapsed : Duration} {ops : List Op}
    (h : m.Sound) (hg : m.Grants addr denial g)
    (hmem : Op.react (.access addr denial pc) elapsed ∈ ops) :
    Witnessed m.layout m.limits ops g.block := by
  have hblock : Addr.clearBelow addr m.log.blockSize = g.block := hg.block_eq.symm
  have hbounds := (Addr.clearBelow_eq_iff h.log.granule).1 hblock
  rw [h.blockSize_eq] at hbounds
  exact ⟨addr, denial, pc, elapsed, hmem, hg.inWindow, hg.outsideCode, hbounds.2.1, hbounds.2.2⟩

/-- A block is in the record at the end because it was there, was pending, or was witnessed. -/
theorem Leads.witnessed (h : Leads m moments last) (hm : m.Sound) {b : Addr}
    (hb : b ∈ last.log.toList) :
    b ∈ m.log.toList ∨ (∃ g, m.phase = .granting g ∧ g.block = b) ∨
      Witnessed m.layout m.limits (moments.map Moment.op) b := by
  -- a grant may be pending when the chain begins, so the statement has to speak of it as well
  induction h with
  | nil =>
    exact .inl hb
  | @cons m after last op reply rest hchange _ ih =>
    have hsub : rest.map Moment.op ⊆ (Moment.mk m op reply after :: rest).map Moment.op := by
      simp
    have hlater := ih (hm.change hchange) hb
    rw [hchange.layout_eq, hchange.limits_eq] at hlater
    rcases hlater with hrecorded | ⟨g, hpending, rfl⟩ | hwitnessed
    · rw [hm.log_change hchange, List.mem_append] at hrecorded
      rcases hrecorded with hbefore | hnew
      · exact .inl hbefore
      · -- a block that this call recorded was pending before it
        refine .inr (.inl ?_)
        have hcarried : (Moment.mk m op reply after).carriedOut = some b := by simpa using hnew
        unfold Moment.carriedOut at hcarried
        split at hcarried
        next g hop hphase => exact ⟨g, hphase, by simpa using hcarried⟩
        next => cases hcarried
    · -- only a decision makes a grant pending that was not
      cases hchange with
      | grant _ hjudge =>
        cases hpending
        have hgrants := (judge_eq_grant_iff hm.log).1 hjudge
        exact .inr (.inr (hgrants.witnessed hm List.mem_cons_self))
      | idle hphase =>
        exact absurd hpending (hphase g)
      | _ =>
        cases hpending
    · exact .inr (.inr (hwitnessed.mono hsub))

/-! ## The account of a course -/

/-- What a sequence of calls on a fresh monitor leaves behind. -/
structure Account (layout : Layout) (limits : Limits) (ops : List Op) (moments : List Moment)
    (m : Monitor) : Prop where
  -- Every call was made and has an answer.
  complete : moments.map Moment.op = ops
  aligned : ∀ b ∈ m.log.toList, layout.blockSize.toNat ∣ b.toNat
  distinct : m.log.toList.Nodup
  carriedOut : m.log.toList = moments.filterMap Moment.carriedOut
  counted : m.iterations.toNat = m.log.toList.length
  bounded : m.iterations.toNat ≤ min limits.maxIterations.toNat limits.maxBlocks.toNat
  witnessed : ∀ b ∈ m.log.toList, Witnessed layout limits ops b

/-- Whatever calls are made on a fresh monitor, none of them breaks off, and the record is an exact
account of them. -/
theorem course_account (layout : Layout) (limits : Limits) (ops : List Op)
    (hpower : layout.blockSize.toNat.isPowerOfTwo)
    (hsentinel : layout.codeLocation.toNat + layout.codeLen.toNat + 1 < UInt64.size) :
    ∃ m, ((start layout limits).course ops).last = .ok m ∧
      Account layout limits ops ((start layout limits).course ops).moments m := by
  have hstart : (start layout limits).Sound := .start (Addr.isGranule_iff.2 hpower) limits
  rcases hstart.course_isOk (Layout.completionPc_isOk hsentinel) ops with ⟨m, hlast⟩
  rcases leads_of_last_eq_ok hlast with ⟨hleads, hops⟩
  have hm : m.Sound := hleads.sound hstart
  have hsize : m.log.blockSize = layout.blockSize := hm.blockSize_eq.trans (by rw [hleads.layout_eq]; rfl)
  have hlimits : m.limits = limits := hleads.limits_eq
  refine ⟨m, hlast, ?_⟩
  exact {
    complete := hops
    aligned := by
      intro b hb
      exact Nat.dvd_of_mod_eq_zero (hsize ▸ hm.log.aligned b hb)
    distinct := hm.log.nodup
    carriedOut := hleads.toList_eq hstart
    counted := by rw [hm.counted, BlockLog.size_eq_length]
    bounded := by
      rw [hm.counted, ← hlimits]
      exact Nat.le_min.2 ⟨hm.underIterations, hm.underBlocks⟩
    witnessed := by
      intro b hb
      rcases hleads.witnessed hstart hb with hbefore | ⟨g, hphase, _⟩ | hwitnessed
      · cases hbefore
      · cases hphase
      · exact hops ▸ hwitnessed }

/-- A page is granted, a stop arrives while the next grant is pending, and that grant is reported as
carried out although the run was cancelled. -/
theorem course_account_of_late_report :
    let layout : Layout :=
      ⟨0x200000000000, 4, ⟨0x200000000000, 0x1000⟩, ⟨0x10000, 0x1000⟩, 0x1000⟩
    let limits : Limits := ⟨⟨0, 0x800000000000⟩, 2, 3⟩
    let ops : List Op :=
      [.react (.access 0x10004 .forbidden 0x200000000000) ⟨1⟩, .granted, .granted,
       .react (.access 0x20abc .unmapped 0x200000000002) ⟨2⟩,
       .react (.breakpoint 0x200000000005) ⟨3⟩, .cancel, .granted]
    layout.blockSize.toNat.isPowerOfTwo ∧
      layout.codeLocation.toNat + layout.codeLen.toNat + 1 < UInt64.size ∧
      ∃ m, ((start layout limits).course ops).last = .ok m ∧
        Account layout limits ops ((start layout limits).course ops).moments m := by
  refine ⟨⟨12, rfl⟩, by decide, ?_⟩
  exact course_account _ _ _ ⟨12, rfl⟩ (by decide)

end Monitor

end Footprint
