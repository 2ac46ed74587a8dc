import Footprint.Monitor
import Footprint.Proofs.BlockLog

/-!
# Courses of a monitor: calls in any order

A supervisor calls a monitor in one fixed pattern, but nothing in a monitor relies on that. This
module puts its five operations on one footing and runs arbitrary sequences of them:

* `Op`, `Reply` and `perform` — one call and its answer;
* `course` — a sequence of calls, kept as the list of its moments, up to its end or to the call whose
  arithmetic left its range;
* `Change` — everything that one call can do (`change_of_perform`), from which each property of
  courses is derived by one case a rule.
-/

namespace Footprint

namespace Monitor

/-! ## Calls and courses -/

/-- A call on a monitor. -/
inductive Op where
  | react (stop : Stop) (elapsed : Duration)
  | granted
  | refused (errno : Errno)
  | expire (limit : TimeLimit) (elapsed : Duration)
  | cancel
deriving DecidableEq, Repr

/-- What a call on a monitor answers. -/
inductive Reply where
  | verdict (verdict : Verdict)
  | nothing
  | failure (failure : Failure)
deriving DecidableEq, Repr

/-- Makes a call; it has no answer if arithmetic leaves its range. -/
def perform (m : Monitor) : Op → Checked (Reply × Monitor)
  | .react stop elapsed =>
    match m.react stop elapsed with
    | (.ok verdict, after) => .ok (.verdict verdict, after)
    | (.error e, _) => .error e
  | .granted => m.granted.map fun after => (.nothing, after)
  | .refused errno => .ok (.failure (m.refused errno).1, (m.refused errno).2)
  | .expire limit elapsed => .ok (.failure (m.expire limit elapsed).1, (m.expire limit elapsed).2)
  | .cancel => .ok (.failure m.cancel.1, m.cancel.2)

/-- A call that was answered, between the monitor before and the monitor after it. -/
structure Moment where
  before : Monitor
  op : Op
  reply : Reply
  after : Monitor

/-- What a sequence of calls comes to. -/
structure Course where
  -- The calls that were answered.
  moments : List Moment
  -- The monitor after all calls, unless one of them had no answer.
  last : Checked Monitor

/-- Makes calls one after the other, up to the first one that has no answer. -/
def course (m : Monitor) : List Op → Course
  | [] => ⟨[], .ok m⟩
  | op :: rest =>
    match m.perform op with
    | .ok (reply, after) =>
      ⟨⟨m, op, reply, after⟩ :: (after.course rest).moments, (after.course rest).last⟩
    | .error e => ⟨[], .error e⟩

variable {m after : Monitor} {op : Op} {reply : Reply}

@[simp]
theorem course_nil (m : Monitor) : m.course [] = ⟨[], .ok m⟩ := rfl

theorem course_cons_of_ok (h : m.perform op = .ok (reply, after)) (rest : List Op) :
    m.course (op :: rest) =
      ⟨⟨m, op, reply, after⟩ :: (after.course rest).moments, (after.course rest).last⟩ := by
  simp [course, h]

theorem course_cons_of_error {e : ArithError} (h : m.perform op = .error e) (rest : List Op) :
    m.course (op :: rest) = ⟨[], .error e⟩ := by
  simp [course, h]

/-- Each moment of a course is a call that was answered so. -/
theorem perform_of_mem_course {ops : List Op} {x : Moment} (hx : x ∈ (m.course ops).moments) :
    x.before.perform x.op = .ok (x.reply, x.after) := by
  induction ops generalizing m with
  | nil => cases hx
  | cons op rest ih =>
    cases hop : m.perform op with
    | error e =>
      rw [course_cons_of_error hop] at hx
      cases hx
    | ok answer =>
      rw [course_cons_of_ok hop] at hx
      rcases List.mem_cons.1 hx with rfl | hx
      · exact hop
      · exact ih hx

/-! ## Everything that a call can do -/

@[simp]
theorem inPhase_phase (m : Monitor) (p : Phase) : (m.inPhase p).phase = p := rfl

@[simp]
theorem inPhase_layout (m : Monitor) (p : Phase) : (m.inPhase p).layout = m.layout := rfl

@[simp]
theorem inPhase_limits (m : Monitor) (p : Phase) : (m.inPhase p).limits = m.limits := rfl

@[simp]
theorem inPhase_log (m : Monitor) (p : Phase) : (m.inPhase p).log = m.log := rfl

@[simp]
theorem inPhase_iterations (m : Monitor) (p : Phase) :
    (m.inPhase p).iterations = m.iterations := rfl

theorem react_eq_ok {stop : Stop} {elapsed : Duration} {verdict : Verdict} (hrunning : m.phase = .running)
    (h : m.verdictOn stop elapsed = .ok verdict) :
    m.react stop elapsed = (.ok verdict, m.inPhase (phaseAfter verdict)) := by
  simp [react, hrunning, h]

theorem react_eq_error {stop : Stop} {elapsed : Duration} {e : ArithError} (hrunning : m.phase = .running)
    (h : m.verdictOn stop elapsed = .error e) :
    m.react stop elapsed = (.error e, m.inPhase (m.phaseDuring stop)) := by
  simp [react, hrunning, h]

theorem react_of_not_running {stop : Stop} {elapsed : Duration} (h : m.phase ≠ .running) :
    m.react stop elapsed =
      (.ok (.abort (.fault none (.strayStop stop m.phase))), m.inPhase .aborted) := by
  simp [react, h]

/-- The calls by which a run is ended from outside. -/
def Op.isEnding : Op → Bool
  | .refused _ | .expire .. | .cancel => true
  | _ => false

def recorded (m : Monitor) (log : BlockLog) : Monitor :=
  { m with phase := .running, log, iterations := m.iterations + 1 }

@[simp]
theorem recorded_phase (m : Monitor) (log : BlockLog) : (m.recorded log).phase = .running := rfl

@[simp]
theorem recorded_log (m : Monitor) (log : BlockLog) : (m.recorded log).log = log := rfl

/-- The ways in which a call changes a monitor. -/
inductive Change (m : Monitor) : Op → Reply → Monitor → Prop where
  | grant {addr pc : Addr} {denial : Denial} {elapsed : Duration} {g : Grant} :
      m.phase = .running → m.judge addr denial pc elapsed = .ok (.grant g) →
      Change m (.react (.access addr denial pc) elapsed) (.verdict (.grant g))
        (m.inPhase (.granting g))
  | finish {pc : Addr} {elapsed : Duration} :
      m.phase = .running → m.layout.completionPc = .ok pc →
      Change m (.react (.breakpoint pc) elapsed) (.verdict .finish) (m.inPhase .trapped)
  | abort {stop : Stop} {elapsed : Duration} {failure : Failure} :
      Change m (.react stop elapsed) (.verdict (.abort failure)) (m.inPhase .aborted)
  | record {g : Grant} {isNew : Bool} {log : BlockLog} :
      m.phase = .granting g → m.log.insert g.block = .ok (isNew, log) →
      m.iterations.toNat + 1 < UInt32.size → Change m .granted .nothing (m.recorded log)
  | idle : (∀ g, m.phase ≠ .granting g) → Change m .granted .nothing m
  | close {op : Op} {failure : Failure} :
      op.isEnding = true → Change m op (.failure failure) (m.inPhase .aborted)

/-- No judgement on a denied access says that the block is complete. -/
theorem judge_ne_finish {addr pc : Addr} {denial : Denial} {elapsed : Duration} :
    m.judge addr denial pc elapsed ≠ .ok .finish := by
  intro h
  unfold judge at h
  simp only [bind, Except.bind, pure, Except.pure] at h
  repeat' split at h
  all_goals cases h

/-- What a verdict on a running block rests on. -/
theorem change_of_verdictOn {stop : Stop} {elapsed : Duration} {verdict : Verdict}
    (hrunning : m.phase = .running) (h : m.verdictOn stop elapsed = .ok verdict) :
    Change m (.react stop elapsed) (.verdict verdict) (m.inPhase (phaseAfter verdict)) := by
  cases verdict with
  | abort failure =>
    exact .abort
  | grant g =>
    cases stop with
    | access addr denial pc =>
      exact .grant hrunning h
    | breakpoint pc =>
      simp only [verdictOn, bind, Except.bind, pure, Except.pure] at h
      repeat' split at h
      all_goals cases h
    | _ =>
      cases h
  | finish =>
    cases stop with
    | access addr denial pc =>
      exact absurd h judge_ne_finish
    | breakpoint pc =>
      cases hpc : m.layout.completionPc with
      | error e =>
        simp [verdictOn, hpc, bind, Except.bind] at h
      | ok completion =>
        have heq : pc = completion := by
          by_contra hne
          simp [verdictOn, hpc, bind, Except.bind, pure, Except.pure, hne] at h
        exact .finish hrunning (heq ▸ hpc)
    | _ =>
      cases h

theorem granted_of_granting {g : Grant} (hphase : m.phase = .granting g) :
    m.granted = (m.log.insert g.block).bind fun answer =>
      if m.iterations.toNat + 1 < UInt32.size then .ok (m.recorded answer.2)
      else .error .addOverflow := by
  unfold granted
  rw [hphase]
  rfl

theorem granted_of_not_granting (hphase : ∀ g, m.phase ≠ .granting g) : m.granted = .ok m := by
  unfold granted
  split
  next g hg =>
    exact absurd hg (hphase g)
  next =>
    rfl

theorem change_of_granted (h : m.granted = .ok after) : Change m .granted .nothing after := by
  by_cases hgranting : ∃ g, m.phase = .granting g
  · rcases hgranting with ⟨g, hphase⟩
    rw [granted_of_granting hphase] at h
    cases hlog : m.log.insert g.block with
    | error e =>
      simp [hlog, Except.bind] at h
    | ok answer =>
      rcases answer with ⟨isNew, log⟩
      by_cases hfits : m.iterations.toNat + 1 < UInt32.size
      · obtain rfl : m.recorded log = after := by
          simpa [hlog, hfits, Except.bind] using h
        exact .record hphase hlog hfits
      · simp [hlog, hfits, Except.bind] at h
  · have hphase : ∀ g, m.phase ≠ .granting g := fun g hg => hgranting ⟨g, hg⟩
    rw [granted_of_not_granting hphase] at h
    cases h
    exact .idle hphase

/-- Each answered call changes the monitor in one of the listed ways. -/
theorem change_of_perform (h : m.perform op = .ok (reply, after)) : Change m op reply after := by
  cases op with
  | react stop elapsed =>
    by_cases hrunning : m.phase = .running
    · cases hv : m.verdictOn stop elapsed with
      | error e =>
        simp [perform, react_eq_error hrunning hv] at h
      | ok verdict =>
        obtain ⟨rfl, rfl⟩ : .verdict verdict = reply ∧ m.inPhase (phaseAfter verdict) = after := by
          simpa [perform, react_eq_ok hrunning hv] using h
        exact change_of_verdictOn hrunning hv
    · obtain ⟨rfl, rfl⟩ : .verdict (.abort (.fault none (.strayStop stop m.phase))) = reply ∧
          m.inPhase .aborted = after := by
        simpa [perform, react_of_not_running hrunning] using h
      exact .abort
  | granted =>
    cases hgranted : m.granted with
    | error e =>
      simp [perform, hgranted, Except.map] at h
    | ok after' =>
      obtain ⟨rfl, rfl⟩ : .nothing = reply ∧ after' = after := by
        simpa [perform, hgranted, Except.map] using h
      exact change_of_granted hgranted
  | refused errno =>
    obtain ⟨rfl, rfl⟩ : .failure (m.refused errno).1 = reply ∧ (m.refused errno).2 = after := by
      simpa [perform] using h
    exact .close rfl
  | expire limit elapsed =>
    obtain ⟨rfl, rfl⟩ : .failure (m.expire limit elapsed).1 = reply ∧
        (m.expire limit elapsed).2 = after := by
      simpa [perform] using h
    exact .close rfl
  | cancel =>
    obtain ⟨rfl, rfl⟩ : .failure m.cancel.1 = reply ∧ m.cancel.2 = after := by
      simpa [perform] using h
    exact .close rfl

/-! ## What no call changes -/

theorem Change.layout_eq (h : Change m op reply after) : after.layout = m.layout := by
  cases h <;> rfl

theorem Change.limits_eq (h : Change m op reply after) : after.limits = m.limits := by
  cases h <;> rfl

/-! ## Courses as chains of changes -/

/-- The moments lead, each by one of the ways a call changes a monitor, from one monitor to another. -/
inductive Leads : Monitor → List Moment → Monitor → Prop where
  | nil (m : Monitor) : Leads m [] m
  | cons {m after last : Monitor} {op : Op} {reply : Reply} {rest : List Moment} :
      Change m op reply after → Leads after rest last →
      Leads m (⟨m, op, reply, after⟩ :: rest) last

/-- The moments of a course form a chain, also when the course breaks off. -/
theorem exists_leads_moments (m : Monitor) (ops : List Op) :
    ∃ last, Leads m (m.course ops).moments last := by
  induction ops generalizing m with
  | nil =>
    exact ⟨m, .nil m⟩
  | cons op rest ih =>
    cases hop : m.perform op with
    | error e =>
      rw [course_cons_of_error hop]
      exact ⟨m, .nil m⟩
    | ok answer =>
      rcases answer with ⟨reply, after⟩
      rw [course_cons_of_ok hop]
      rcases ih after with ⟨last, hlast⟩
      exact ⟨last, .cons (change_of_perform hop) hlast⟩

/-- A course that does not break off makes every call and leads to its last monitor. -/
theorem leads_of_last_eq_ok {last : Monitor} {ops : List Op} (h : (m.course ops).last = .ok last) :
    Leads m (m.course ops).moments last ∧ (m.course ops).moments.map Moment.op = ops := by
  induction ops generalizing m with
  | nil =>
    obtain rfl : m = last := by simpa using h
    exact ⟨.nil m, rfl⟩
  | cons op rest ih =>
    cases hop : m.perform op with
    | error e =>
      simp [course_cons_of_error hop] at h
    | ok answer =>
      rcases answer with ⟨reply, after⟩
      rw [course_cons_of_ok hop] at h ⊢
      rcases ih h with ⟨hleads, hops⟩
      exact ⟨.cons (change_of_perform hop) hleads, by simp [hops]⟩

theorem Leads.layout_eq {last : Monitor} {moments : List Moment} (h : Leads m moments last) :
    last.layout = m.layout := by
  induction h with
  | nil => rfl
  | cons hchange _ ih => exact ih.trans hchange.layout_eq

theorem Leads.limits_eq {last : Monitor} {moments : List Moment} (h : Leads m moments last) :
    last.limits = m.limits := by
  induction h with
  | nil => rfl
  | cons hchange _ ih => exact ih.trans hchange.limits_eq

/-- A chain can be cut before any of its moments. -/
theorem Leads.split {last : Monitor} {earlier later : List Moment} {x : Moment}
    (h : Leads m (earlier ++ x :: later) last) :
    Leads m earlier x.before ∧ Change x.before x.op x.reply x.after ∧ Leads x.after later last := by
  induction earlier generalizing m with
  | nil =>
    cases h with
    | cons hchange hrest => exact ⟨.nil _, hchange, hrest⟩
  | cons y earlier ih =>
    cases h with
    | cons hchange hrest =>
      rcases ih hrest with ⟨hbefore, hx, hafter⟩
      exact ⟨.cons hchange hbefore, hx, hafter⟩

end Monitor

end Footprint
