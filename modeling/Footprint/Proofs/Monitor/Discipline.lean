import Footprint.Proofs.Monitor.Record

/-!
# The discipline of a monitor

What calls on a monitor may be answered, and when. A phase is *closed* if no block runs in it and none
will: the trapped and the aborted phase. Closed phases are never left, and nothing is granted,
finished or recorded in them (`Change.of_isClosed`). Every moment that ends a run closes it, and no
moment leaves a judgement half done. `Disciplined` collects what follows for whole courses.
-/

namespace Footprint

/-! ## Closed phases -/

namespace Phase

/-- Whether no block runs in the phase and none will. -/
def isClosed : Phase → Bool
  | trapped | aborted => true
  | _ => false

/-- Whether a denied access is being judged in the phase. -/
def isFaulted : Phase → Bool
  | faulted .. => true
  | _ => false

end Phase

namespace Monitor

variable {m after last : Monitor} {op : Op} {reply : Reply} {moments : List Moment}

/-- Whether a reply lets the block go on or says that it is complete. -/
def Reply.isPositive : Reply → Bool
  | .verdict (.grant _) | .verdict .finish => true
  | _ => false

/-- Whether the moment ends the run: by a verdict or by a call from outside. -/
def Moment.isEnd (x : Moment) : Bool :=
  match x.reply with
  | .verdict .finish | .verdict (.abort _) => true
  | _ => x.op.isEnding

/-- A closed phase is never left, and nothing happens in it. -/
theorem Change.of_isClosed (h : Change m op reply after) (hclosed : m.phase.isClosed = true) :
    after.phase.isClosed = true ∧ reply.isPositive = false ∧ after.log = m.log ∧
      after.iterations = m.iterations := by
  cases h with
  | grant hrunning _ =>
    rw [hrunning] at hclosed
    cases hclosed
  | finish hrunning _ =>
    rw [hrunning] at hclosed
    cases hclosed
  | record hphase _ _ =>
    rw [hphase] at hclosed
    cases hclosed
  | idle =>
    exact ⟨hclosed, rfl, rfl, rfl⟩
  | _ =>
    exact ⟨rfl, rfl, rfl, rfl⟩

/-- From a closed phase on, no moment of a chain changes the record or lets the block go on. -/
theorem Leads.of_isClosed (h : Leads m moments last) (hclosed : m.phase.isClosed = true) :
    ∀ y ∈ moments, y.reply.isPositive = false ∧ y.after.log = m.log ∧
      y.after.iterations = m.iterations := by
  induction h with
  | nil =>
    intro y hy
    cases hy
  | cons hchange _ ih =>
    rcases hchange.of_isClosed hclosed with ⟨hafter, hreply, hlog, hiterations⟩
    intro y hy
    rcases List.mem_cons.1 hy with rfl | hy
    · exact ⟨hreply, hlog, hiterations⟩
    · rcases ih hafter y hy with ⟨hreply', hlog', hiterations'⟩
      exact ⟨hreply', hlog'.trans hlog, hiterations'.trans hiterations⟩

/-- A moment that ends the run closes it and leaves the record as it is. -/
theorem Change.of_isEnd (h : Change m op reply after)
    (hend : (Moment.mk m op reply after).isEnd = true) :
    after.phase.isClosed = true ∧ after.log = m.log ∧ after.iterations = m.iterations := by
  cases h with
  | grant => cases hend
  | record => cases hend
  | idle => cases hend
  | _ => exact ⟨rfl, rfl, rfl⟩

/-! ## Single moments -/

theorem Change.not_isFaulted (h : Change m op reply after) (hm : m.phase.isFaulted = false) :
    after.phase.isFaulted = false := by
  cases h with
  | idle => exact hm
  | _ => rfl

theorem Change.aborted (h : Change m op reply after) (hm : m.phase = .aborted) :
    after.phase = .aborted := by
  cases h with
  | grant hrunning _ =>
    rw [hm] at hrunning
    cases hrunning
  | finish hrunning _ =>
    rw [hm] at hrunning
    cases hrunning
  | record hphase _ _ =>
    rw [hm] at hphase
    cases hphase
  | idle => exact hm
  | _ => rfl

/-- A completed block was running and stopped behind its sentinel. -/
theorem Change.of_finish (h : Change m op (.verdict .finish) after) :
    m.phase = .running ∧ ∃ pc elapsed, op = .react (.breakpoint pc) elapsed ∧
      pc.toNat = m.layout.codeLocation.toNat + m.layout.codeLen.toNat + 1 := by
  cases h with
  | @finish pc elapsed hrunning hpc =>
    exact ⟨hrunning, pc, elapsed, rfl, Layout.completionPc_eq_ok_iff.1 hpc⟩

/-- A granted block was running and waits for exactly that grant. -/
theorem Change.of_grant {g : Grant} (h : Change m op (.verdict (.grant g)) after) :
    m.phase = .running ∧ (∃ addr denial pc elapsed, op = .react (.access addr denial pc) elapsed) ∧
      after.phase = .granting g := by
  cases h with
  | grant hrunning _ =>
    exact ⟨hrunning, ⟨_, _, _, _, rfl⟩, rfl⟩

/-- No moment of a chain that starts outside of a judgement is inside of one. -/
theorem Leads.not_isFaulted (h : Leads m moments last) (hm : m.phase.isFaulted = false) :
    ∀ x ∈ moments, x.before.phase.isFaulted = false ∧ x.after.phase.isFaulted = false := by
  induction h with
  | nil =>
    intro x hx
    cases hx
  | cons hchange _ ih =>
    have hafter := hchange.not_isFaulted hm
    intro x hx
    rcases List.mem_cons.1 hx with rfl | hx
    · exact ⟨hm, hafter⟩
    · exact ih hafter x hx

/-- Each moment of a chain is one change, of a monitor for the same layout. -/
theorem Leads.change_of_mem (h : Leads m moments last) {x : Moment} (hx : x ∈ moments) :
    Change x.before x.op x.reply x.after ∧ x.before.layout = m.layout := by
  rcases List.append_of_mem hx with ⟨earlier, later, rfl⟩
  rcases h.split with ⟨hbefore, hchange, _⟩
  exact ⟨hchange, hbefore.layout_eq⟩

/-- A run is completed at most once: the first completion closes it. -/
theorem Leads.countP_finish_le_one (h : Leads m moments last) :
    moments.countP (fun x => x.reply = .verdict .finish) ≤ 1 := by
  induction h with
  | nil => exact Nat.zero_le _
  | @cons m after last op reply rest hchange hrest ih =>
    by_cases hfinish : reply = .verdict .finish
    · have hclosed : after.phase.isClosed = true := (hchange.of_isEnd (by simp [Moment.isEnd, hfinish])).1
      have hnone : rest.countP (fun x => x.reply = .verdict .finish) = 0 := by
        rw [List.countP_eq_zero]
        intro y hy hy'
        have hreply := (hrest.of_isClosed hclosed y hy).1
        rw [of_decide_eq_true hy'] at hreply
        cases hreply
      rw [List.countP_cons, hnone]
      split
      all_goals decide
    · rw [List.countP_cons_of_neg (by simpa using hfinish)]
      exact ih

/-! ## Whole courses -/

/-- The order that the moments of a run keep. -/
structure Disciplined (layout : Layout) (moments : List Moment) : Prop where
  -- Between two calls no judgement is under way.
  settled : ∀ x ∈ moments, x.before.phase.isFaulted = false ∧ x.after.phase.isFaulted = false
  -- Completion is answered only at the sentinel of a running block.
  finish : ∀ x ∈ moments, x.reply = .verdict .finish →
    x.before.phase = .running ∧ ∃ pc elapsed, x.op = .react (.breakpoint pc) elapsed ∧
      pc.toNat = layout.codeLocation.toNat + layout.codeLen.toNat + 1
  -- A grant is answered only to a denied access of a running block, and is then pending.
  grant : ∀ x ∈ moments, ∀ g, x.reply = .verdict (.grant g) →
    x.before.phase = .running ∧
      (∃ addr denial pc elapsed, x.op = .react (.access addr denial pc) elapsed) ∧
      x.after.phase = .granting g
  finishOnce : moments.countP (fun x => x.reply = .verdict .finish) ≤ 1
  -- After the end of a run nothing is granted, completed or recorded.
  afterEnd : ∀ earlier x later, moments = earlier ++ x :: later → x.isEnd = true →
    ∀ y ∈ later, y.reply.isPositive = false ∧ y.after.log = x.before.log ∧
      y.after.iterations = x.before.iterations
  aborted : ∀ x ∈ moments, x.before.phase = .aborted → x.after.phase = .aborted

theorem Leads.disciplined (h : Leads m moments last) (hm : m.phase.isFaulted = false) :
    Disciplined m.layout moments where
  settled := h.not_isFaulted hm
  finish := by
    intro x hx hreply
    rcases h.change_of_mem hx with ⟨hchange, hlayout⟩
    rw [hreply] at hchange
    exact hlayout ▸ hchange.of_finish
  grant := by
    intro x hx g hreply
    have hchange := (h.change_of_mem hx).1
    rw [hreply] at hchange
    exact hchange.of_grant
  finishOnce := h.countP_finish_le_one
  afterEnd := by
    rintro earlier x later rfl hend y hy
    rcases h.split with ⟨_, hchange, hlater⟩
    rcases hchange.of_isEnd hend with ⟨hclosed, hlog, hiterations⟩
    rcases hlater.of_isClosed hclosed y hy with ⟨hreply, hlog', hiterations'⟩
    exact ⟨hreply, hlog'.trans hlog, hiterations'.trans hiterations⟩
  aborted := by
    intro x hx hphase
    exact (h.change_of_mem hx).1.aborted hphase

/-- Calls on the monitor of a planned sandbox keep the discipline in whatever order they are made, and
where the stub has an address none of them breaks off. -/
theorem course_disciplined {codeLen draw : Addr} {config : Config} {host : Host} {layout : Layout}
    (hplan : Layout.plan codeLen config host draw = .ok layout) (ops : List Op) :
    Disciplined layout ((start layout config.limits).course ops).moments ∧
      ((∃ stub, layout.stubAddr = .ok stub) →
        ∃ m, ((start layout config.limits).course ops).last = .ok m ∧
          ((start layout config.limits).course ops).moments.map Moment.op = ops) := by
  constructor
  · rcases exists_leads_moments (start layout config.limits) ops with ⟨last, hleads⟩
    exact hleads.disciplined rfl
  · intro hstub
    have hstart : (start layout config.limits).Sound :=
      .start (Layout.isGranule_of_plan hplan) config.limits
    -- the sentinel is one byte long, so its end has an address as well
    rw [layout.stubAddr_eq_completionPc] at hstub
    rcases hstart.course_isOk hstub ops with ⟨m, hlast⟩
    exact ⟨m, hlast, (leads_of_last_eq_ok hlast).2⟩

/-- The standard configuration plans a sandbox, and a run in it that completes at once is over. -/
theorem course_disciplined_of_standard :
    let host : Host := ⟨"x86_64", 0x1000, 0x10000⟩
    let layout : Layout :=
      ⟨0x200000000000, 4, ⟨0x200000000000, 0x1000⟩, ⟨0x10000, 0x1000⟩, 0x1000⟩
    let ops : List Op :=
      [.react (.breakpoint 0x200000000005) ⟨1⟩, .react (.access 0x10004 .forbidden 0x200000000000) ⟨2⟩,
       .granted, .react (.breakpoint 0x200000000005) ⟨3⟩, .cancel]
    Layout.plan 4 Config.standard host 0 = .ok layout ∧
      Disciplined layout ((start layout Config.standard.limits).course ops).moments ∧
      ∃ m, ((start layout Config.standard.limits).course ops).last = .ok m ∧
        ((start layout Config.standard.limits).course ops).moments.map Moment.op = ops := by
  have hplan : Layout.plan 4 Config.standard ⟨"x86_64", 0x1000, 0x10000⟩ 0 =
      .ok ⟨0x200000000000, 4, ⟨0x200000000000, 0x1000⟩, ⟨0x10000, 0x1000⟩, 0x1000⟩ := by
    rfl
  have hcourse := course_disciplined hplan
    [.react (.breakpoint 0x200000000005) ⟨1⟩, .react (.access 0x10004 .forbidden 0x200000000000) ⟨2⟩,
     .granted, .react (.breakpoint 0x200000000005) ⟨3⟩, .cancel]
  exact ⟨hplan, hcourse.1, hcourse.2 ⟨0x200000000005, rfl⟩⟩

end Monitor

end Footprint
