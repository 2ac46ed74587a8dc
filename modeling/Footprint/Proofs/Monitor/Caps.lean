import Footprint.Proofs.Monitor.Record

/-!
# The bounds on grants

A run is bounded by a number of blocks and by a number of grants. The two are compared with different
numbers, the length of the record and the counter, which never differ: this holds over every layout,
because over one without a proper block size nothing is ever granted (`InStep`). So the order in which
`judge` compares them decides which bound a run can reach. The smaller one is reached exactly when it is
used up, the larger one never, and of two equal ones the number of grants comes first (`course_capped`).
-/

namespace Footprint

/-- How many grants a run may carry out: as many as both bounds allow. -/
def Limits.cap (limits : Limits) : Nat :=
  min limits.maxIterations.toNat limits.maxBlocks.toNat

namespace Monitor

variable {m after last : Monitor} {op : Op} {reply : Reply} {moments : List Moment} {addr pc : Addr}
  {denial : Denial} {elapsed : Duration} {failure : Failure}

/-! ## Every layout -/

/-- Without a proper block size nothing was granted, and nothing will be. -/
structure Barren (m : Monitor) : Prop where
  noGranule : Addr.isGranule m.log.blockSize = false
  blockSize_eq : m.log.blockSize = m.layout.blockSize
  empty : m.log.toList = []
  uncounted : m.iterations = 0
  notGranting : ∀ g, m.phase ≠ .granting g

/-- The data of a monitor are in step, or there are none. -/
inductive InStep (m : Monitor) : Prop where
  | sound : m.Sound → InStep m
  | barren : m.Barren → InStep m

theorem InStep.start (layout : Layout) (limits : Limits) : (start layout limits).InStep := by
  by_cases hgranule : Addr.isGranule layout.blockSize = true
  · exact .sound (.start hgranule limits)
  · exact .barren ⟨Bool.eq_false_iff.2 hgranule, rfl, rfl, rfl, fun g h => by cases h⟩

theorem InStep.blockSize_eq (h : m.InStep) : m.log.blockSize = m.layout.blockSize := by
  cases h with
  | sound hsound => exact hsound.blockSize_eq
  | barren hbarren => exact hbarren.blockSize_eq

theorem InStep.sound_of_isGranule (h : m.InStep) (hgranule : Addr.isGranule m.log.blockSize = true) :
    m.Sound := by
  cases h with
  | sound hsound => exact hsound
  | barren hbarren =>
    rw [hbarren.noGranule] at hgranule
    cases hgranule

theorem Barren.inPhase {p : Phase} (h : m.Barren) (hp : ∀ g, p ≠ .granting g) : (m.inPhase p).Barren :=
  ⟨h.noGranule, h.blockSize_eq, h.empty, h.uncounted, hp⟩

theorem InStep.inPhase {p : Phase} (h : m.InStep) (hp : ∀ g, p ≠ .granting g) : (m.inPhase p).InStep := by
  cases h with
  | sound hsound => exact .sound (hsound.inPhase fun g hg => absurd hg (hp g))
  | barren hbarren => exact .barren (hbarren.inPhase hp)

theorem Barren.change (h : m.Barren) (hchange : Change m op reply after) :
    after.Barren ∧ (Moment.mk m op reply after).carriedOut = none := by
  have hnone : (Moment.mk m op reply after).carriedOut = none := by
    unfold Moment.carriedOut
    split
    next g _ hphase => exact absurd hphase (h.notGranting g)
    next => rfl
  refine ⟨?_, hnone⟩
  cases hchange with
  | grant _ hjudge =>
    have hgranule := isGranule_of_judge_eq_grant hjudge
    rw [h.noGranule] at hgranule
    cases hgranule
  | record hphase => exact absurd hphase (h.notGranting _)
  | idle => exact h
  | _ => exact h.inPhase (by simp)

theorem InStep.change (h : m.InStep) (hchange : Change m op reply after) : after.InStep := by
  cases h with
  | sound hsound => exact .sound (hsound.change hchange)
  | barren hbarren => exact .barren (hbarren.change hchange).1

theorem Leads.inStep (h : Leads m moments last) (hm : m.InStep) : last.InStep := by
  induction h with
  | nil => exact hm
  | cons hchange _ ih => exact ih (hm.change hchange)

/-- Over every layout the record grows by what was carried out. -/
theorem Leads.toList_eq_of_inStep (h : Leads m moments last) (hm : m.InStep) :
    last.log.toList = m.log.toList ++ moments.filterMap Moment.carriedOut := by
  cases hm with
  | sound hsound => exact h.toList_eq hsound
  | barren hbarren =>
    induction h with
    | nil => simp
    | cons hchange _ ih =>
      rcases hbarren.change hchange with ⟨hafter, hnone⟩
      rw [ih hafter, List.filterMap_cons_none hnone, hafter.empty, hbarren.empty]

/-! ## Counter and record -/

theorem InStep.counted (h : m.InStep) : m.iterations.toNat = m.log.size := by
  cases h with
  | sound hsound => exact hsound.counted
  | barren hbarren =>
    rw [hbarren.uncounted, BlockLog.size_eq_length, hbarren.empty]
    rfl

theorem InStep.size_le (h : m.InStep) : m.log.size ≤ m.limits.cap := by
  cases h with
  | sound hsound => exact Nat.le_min.2 ⟨hsound.underIterations, hsound.underBlocks⟩
  | barren hbarren =>
    rw [BlockLog.size_eq_length, hbarren.empty]
    exact Nat.zero_le _

/-- The number of grants is used up if as many blocks are recorded. -/
theorem InStep.maxIterations_le_iff (h : m.InStep) :
    m.limits.maxIterations ≤ m.iterations ↔ m.limits.maxIterations.toNat ≤ m.log.size := by
  rw [UInt32.le_iff_toNat_le, h.counted]

/-! ## What an abort says -/

/-- A run that is not aborted for a fault of its own was judged so at a denied access. -/
theorem judge_of_perform_eq_abort (hkind : failure.kind ≠ .executionFault)
    (h : m.perform op = .ok (.verdict (.abort failure), after)) :
    ∃ addr denial pc elapsed, m.judge addr denial pc elapsed = .ok (.abort failure) := by
  cases op with
  | react stop elapsed =>
    by_cases hrunning : m.phase = .running
    · cases hverdict : m.verdictOn stop elapsed with
      | error e => simp [perform, react_eq_error hrunning hverdict] at h
      | ok verdict =>
        obtain ⟨rfl, -⟩ : verdict = .abort failure ∧ m.inPhase (phaseAfter verdict) = after := by
          simpa [perform, react_eq_ok hrunning hverdict] using h
        cases stop with
        | access addr denial pc => exact ⟨addr, denial, pc, elapsed, hverdict⟩
        | breakpoint pc =>
          simp only [verdictOn, bind, Except.bind, pure, Except.pure] at hverdict
          repeat' split at hverdict
          all_goals
            cases hverdict
            try exact absurd rfl hkind
        | _ =>
          cases hverdict
          exact absurd rfl hkind
    · obtain ⟨rfl, -⟩ : .fault none (.strayStop stop m.phase) = failure ∧ m.inPhase .aborted = after := by
        simpa [perform, react_of_not_running hrunning] using h
      exact absurd rfl hkind
  | granted =>
    cases hgranted : m.granted
    all_goals simp [perform, hgranted, Except.map] at h
  | _ => simp [perform] at h

/-- Whoever is told of the bound on blocks was under the one on grants. -/
theorem of_judge_eq_grantCap {a : Addr} {limit : UInt64}
    (h : m.judge addr denial pc elapsed = .ok (.abort (.access a (.grantCap limit)))) :
    m.iterations < m.limits.maxIterations ∧ m.limits.maxBlocks.toNat ≤ m.log.size := by
  unfold judge at h
  simp only [bind, Except.bind, pure, Except.pure] at h
  repeat' split at h
  all_goals cases h
  · exact ⟨UInt32.not_le.1 ‹_›, ‹_›⟩
  next hmethod => cases (methodFor_eq_error_iff.1 hmethod).1

theorem of_judge_eq_timeout {limit : TimeLimit} {n : UInt32} {span : Duration}
    (h : m.judge addr denial pc elapsed = .ok (.abort (.timeout limit n span))) :
    m.limits.maxIterations ≤ m.iterations := by
  unfold judge at h
  simp only [bind, Except.bind, pure, Except.pure] at h
  repeat' split at h
  all_goals cases h
  assumption

/-- The bound on blocks is named only if it is the smaller one. -/
theorem InStep.maxBlocks_lt_of_judge {a : Addr} {limit : UInt64} (h : m.InStep)
    (hjudge : m.judge addr denial pc elapsed = .ok (.abort (.access a (.grantCap limit)))) :
    m.limits.maxBlocks.toNat < m.limits.maxIterations.toNat := by
  rcases of_judge_eq_grantCap hjudge with ⟨hiterations, hblocks⟩
  rw [UInt32.lt_iff_toNat_lt, h.counted] at hiterations
  exact hblocks.trans_lt hiterations

/-- The number of grants is named only if the bound on blocks is not smaller. -/
theorem InStep.maxIterations_le_of_judge {limit : TimeLimit} {n : UInt32} {span : Duration} (h : m.InStep)
    (hjudge : m.judge addr denial pc elapsed = .ok (.abort (.timeout limit n span))) :
    m.limits.maxIterations.toNat ≤ m.limits.maxBlocks.toNat :=
  calc
    m.limits.maxIterations.toNat ≤ m.log.size := h.maxIterations_le_iff.1 (of_judge_eq_timeout hjudge)
    _ ≤ m.limits.cap := h.size_le
    _ ≤ m.limits.maxBlocks.toNat := Nat.min_le_right _ _

/-! ## Used-up bounds -/

/-- The number of grants comes first, whatever the address is. -/
theorem judge_of_maxIterations_le (h : m.limits.maxIterations ≤ m.iterations) (addr : Addr)
    (denial : Denial) (pc : Addr) (elapsed : Duration) :
    m.judge addr denial pc elapsed = .ok (.abort (m.timeoutFailure .faultIterations elapsed)) := by
  simp [judge, h, pure, Except.pure]

/-- The judgement only has no answer where addresses cannot be rounded down to a block. -/
theorem of_judge_eq_error {e : ArithError} (h : m.judge addr denial pc elapsed = .error e) :
    Addr.isGranule m.log.blockSize = false ∧ e = .badGranule := by
  by_cases hgranule : Addr.isGranule m.log.blockSize = true
  · exfalso
    have hblock := Addr.alignDown_eq_ok addr hgranule
    unfold judge BlockLog.blockOf at h
    simp only [bind, Except.bind, pure, Except.pure, hblock] at h
    repeat' split at h
    all_goals cases h
  · have hblock : m.log.blockOf addr = .error .badGranule := by
      simp [BlockLog.blockOf, Addr.alignDown, hgranule]
    unfold judge at h
    simp only [bind, Except.bind, pure, Except.pure, hblock] at h
    repeat' split at h
    all_goals cases h
    exact ⟨Bool.eq_false_iff.2 hgranule, rfl⟩

theorem InStep.underCap_of_judge {g : Grant} (h : m.InStep)
    (hjudge : m.judge addr denial pc elapsed = .ok (.grant g)) : m.log.size < m.limits.cap := by
  have hsound := h.sound_of_isGranule (isGranule_of_judge_eq_grant hjudge)
  have hgrants := (judge_eq_grant_iff hsound.log).1 hjudge
  have hpending := hgrants.pending hsound
  exact Nat.lt_min.2 ⟨hpending.underIterations, hpending.underBlocks⟩

/-- How a running monitor reacts once as many grants were carried out as may be. -/
structure Exhausted (layout : Layout) (limits : Limits) (granted : List Addr) (m : Monitor) : Prop where
  -- No denied access is granted any more; where there are no blocks, none ever was.
  refuses : ∀ addr denial pc elapsed,
    (∃ failure, m.react (.access addr denial pc) elapsed = (.ok (.abort failure), m.inPhase .aborted)) ∨
      Addr.isGranule layout.blockSize = false ∧
        (m.react (.access addr denial pc) elapsed).1 = .error .badGranule
  -- Unless the bound on blocks is the smaller one, the number of grants is, whatever the address is.
  timeout : limits.maxIterations.toNat ≤ limits.maxBlocks.toNat → ∀ addr denial pc elapsed,
    m.react (.access addr denial pc) elapsed =
      (.ok (.abort (.timeout .faultIterations limits.maxIterations elapsed)), m.inPhase .aborted)
  -- Otherwise the bound on blocks is, of every new block that could be accessed.
  grantCap : limits.maxBlocks.toNat < limits.maxIterations.toNat → ∀ addr denial pc elapsed block,
    limits.window.contains addr = true → layout.codeRegion.contains addr = false →
    Addr.alignDown addr layout.blockSize = .ok block → block ∉ granted →
    m.react (.access addr denial pc) elapsed =
      (.ok (.abort (.access addr (.grantCap limits.maxBlocks))), m.inPhase .aborted)
  finishes : ∀ pc elapsed, layout.completionPc = .ok pc →
    m.react (.breakpoint pc) elapsed = (.ok .finish, m.inPhase .trapped)

theorem InStep.exhausted (h : m.InStep) (hrunning : m.phase = .running)
    (hcap : m.log.toList.length = m.limits.cap) :
    Exhausted m.layout m.limits m.log.toList m := by
  rw [← BlockLog.size_eq_length] at hcap
  constructor
  case refuses =>
    intro addr denial pc elapsed
    cases hjudge : m.judge addr denial pc elapsed with
    | error e =>
      rcases of_judge_eq_error hjudge with ⟨hgranule, rfl⟩
      have hverdict : m.verdictOn (.access addr denial pc) elapsed = .error .badGranule := hjudge
      exact .inr ⟨h.blockSize_eq ▸ hgranule, congrArg Prod.fst (react_eq_error hrunning hverdict)⟩
    | ok verdict =>
      cases verdict with
      | grant g => exact absurd (h.underCap_of_judge hjudge) (Nat.not_lt.2 hcap.ge)
      | finish => exact absurd hjudge judge_ne_finish
      | abort failure => exact .inl ⟨failure, react_eq_ok hrunning hjudge⟩
  case timeout =>
    intro hle addr denial pc elapsed
    rw [Limits.cap, Nat.min_eq_left hle] at hcap
    have hiterations : m.iterations = m.limits.maxIterations :=
      UInt32.toNat_inj.1 (h.counted.trans hcap)
    have hjudge := judge_of_maxIterations_le (UInt32.le_of_eq hiterations.symm) addr denial pc elapsed
    rw [timeoutFailure, hiterations] at hjudge
    exact react_eq_ok hrunning hjudge
  case grantCap =>
    intro hlt addr denial pc elapsed block hwindow hcode hblock hfresh
    rw [Limits.cap, Nat.min_eq_right hlt.le] at hcap
    have hgranule : Addr.isGranule m.log.blockSize = true :=
      h.blockSize_eq ▸ Addr.isGranule_of_alignDown hblock
    have hsound := h.sound_of_isGranule hgranule
    have hunder : ¬ m.limits.maxIterations ≤ m.iterations := by
      rw [h.maxIterations_le_iff]
      omega
    obtain rfl : m.log.block addr = block := by
      rw [← h.blockSize_eq, Addr.alignDown_eq_ok addr hgranule] at hblock
      exact Except.ok.inj hblock
    refine react_eq_ok hrunning ((judge_eq hsound.log addr denial pc elapsed).trans ?_)
    rw [if_neg hunder, if_neg (by simp [hwindow]), if_neg (by simp [hcode]), if_neg hfresh,
      if_pos hcap.ge]
  case finishes =>
    intro pc elapsed hpc
    refine react_eq_ok hrunning ?_
    simp [verdictOn, hpc, bind, Except.bind, pure, Except.pure]

/-! ## Whole courses -/

/-- The blocks whose grants were carried out in a course. -/
def Course.granted (course : Course) : List Addr :=
  course.moments.filterMap Moment.carriedOut

/-- What the two bounds mean for a course. -/
structure Capped (layout : Layout) (limits : Limits) (course : Course) : Prop where
  -- The bound on blocks is never reached unless it is the smaller one,
  grantCap : limits.maxIterations.toNat ≤ limits.maxBlocks.toNat → ∀ x ∈ course.moments,
    ∀ addr limit, x.reply ≠ .verdict (.abort (.access addr (.grantCap limit)))
  -- and then the number of grants is not.
  timeout : limits.maxBlocks.toNat < limits.maxIterations.toNat → ∀ x ∈ course.moments,
    ∀ n elapsed, x.reply ≠ .verdict (.abort (.timeout .faultIterations n elapsed))
  bounded : course.granted.length ≤ limits.cap
  exhausted : ∀ m, course.last = .ok m → m.phase = .running → course.granted.length = limits.cap →
    Exhausted layout limits course.granted m

variable {layout : Layout} {limits : Limits} {ops : List Op}

/-- The calls before an abort leave counter and record in step, and unless it is for a fault of the run, the
abort was judged then. -/
theorem judge_of_abort {x : Moment} (hx : x ∈ ((start layout limits).course ops).moments)
    (hkind : failure.kind ≠ .executionFault) (hreply : x.reply = .verdict (.abort failure)) :
    x.before.InStep ∧ x.before.limits = limits ∧
      ∃ addr denial pc elapsed, x.before.judge addr denial pc elapsed = .ok (.abort failure) := by
  rcases exists_leads_moments (start layout limits) ops with ⟨last, hleads⟩
  rcases List.append_of_mem hx with ⟨earlier, later, hsplit⟩
  rcases (hsplit ▸ hleads).split with ⟨hbefore, -, -⟩
  have hperform := perform_of_mem_course hx
  rw [hreply] at hperform
  exact ⟨hbefore.inStep (.start layout limits), hbefore.limits_eq, judge_of_perform_eq_abort hkind hperform⟩

/-- Whatever calls are made on a fresh monitor, they never come to the greater of its bounds, and once as
many grants were carried out as the smaller one allows, the next denied access comes to that. -/
theorem course_capped (layout : Layout) (limits : Limits) (ops : List Op) :
    Capped layout limits ((start layout limits).course ops) := by
  have hstart : (start layout limits).InStep := .start layout limits
  constructor
  case grantCap =>
    intro hle x hx addr limit hreply
    rcases judge_of_abort hx (by simp [Failure.kind]) hreply with ⟨hin, rfl, _, _, _, _, hjudge⟩
    exact Nat.not_lt.2 hle (hin.maxBlocks_lt_of_judge hjudge)
  case timeout =>
    intro hlt x hx n elapsed hreply
    rcases judge_of_abort hx (by simp [Failure.kind]) hreply with ⟨hin, rfl, _, _, _, _, hjudge⟩
    exact Nat.not_le.2 hlt (hin.maxIterations_le_of_judge hjudge)
  case bounded =>
    rcases exists_leads_moments (start layout limits) ops with ⟨last, hleads⟩
    have hlist := hleads.toList_eq_of_inStep hstart
    have hcap := (hleads.inStep hstart).size_le
    rw [BlockLog.size_eq_length, hlist, hleads.limits_eq] at hcap
    exact hcap
  case exhausted =>
    intro m hlast hrunning hcap
    have hleads := (leads_of_last_eq_ok hlast).1
    have hlist : m.log.toList = Course.granted _ := hleads.toList_eq_of_inStep hstart
    have hlayout : m.layout = layout := hleads.layout_eq
    have hlimits : m.limits = limits := hleads.limits_eq
    rw [← hlist, ← hlimits] at hcap
    rw [← hlist, ← hlayout, ← hlimits]
    exact (hleads.inStep hstart).exhausted hrunning hcap

/-- With blocks of three bytes and room for none of them, the first denied access should come to the bound
on blocks. It comes to no verdict, because its block cannot be told. -/
theorem not_aborted_of_oddBlocks :
    let layout : Layout := ⟨0x200000000000, 4, ⟨0x200000000000, 0x1000⟩, ⟨0x10000, 0x1000⟩, 3⟩
    let limits : Limits := ⟨⟨0, 0x800000000000⟩, 0, 1⟩
    let m := start layout limits
    let reaction := m.react (.access 0x30000 .unmapped 0x200000000000) ⟨1⟩
    m.phase = .running ∧ (m.course []).granted.length = limits.cap ∧
      limits.maxBlocks.toNat < limits.maxIterations.toNat ∧
      limits.window.contains 0x30000 = true ∧ layout.codeRegion.contains 0x30000 = false ∧
      reaction.1 = .error .badGranule ∧ ¬ ∃ failure, reaction.1 = .ok (.abort failure) := by
  intro layout limits m reaction
  have herror : reaction.1 = .error .badGranule := by decide
  refine ⟨rfl, rfl, by decide, by decide, by decide, herror, ?_⟩
  rintro ⟨failure, habort⟩
  rw [herror] at habort
  cases habort

/-- With room for one block, a second grant decides which bound the second block comes to. -/
example :
    let layout : Layout :=
      ⟨0x200000000000, 4, ⟨0x200000000000, 0x1000⟩, ⟨0x10000, 0x1000⟩, 0x1000⟩
    let ops : List Op :=
      [.react (.access 0x10004 .forbidden 0x200000000000) ⟨1⟩, .granted,
       .react (.access 0x20abc .unmapped 0x200000000002) ⟨2⟩]
    let replies (limits : Limits) := ((start layout limits).course ops).moments.map Moment.reply
    (replies ⟨⟨0, 0x800000000000⟩, 1, 1⟩).getLast? =
        some (.verdict (.abort (.timeout .faultIterations 1 ⟨2⟩))) ∧
      (replies ⟨⟨0, 0x800000000000⟩, 1, 2⟩).getLast? =
        some (.verdict (.abort (.access 0x20abc (.grantCap 1)))) := by
  cbv

end Monitor

end Footprint
