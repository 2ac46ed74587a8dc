import Footprint.Custody
import Footprint.Proofs.Tracing

/-!
# Courses of a custody: notes and teardowns in any order

Whoever has custody of a process notes statuses that were collected elsewhere, and takes the process
down, in any order and as often as it likes. This module runs arbitrary sequences of such calls against
an arbitrary kernel:

* `Op`, `Reply` and `course` — a sequence of calls, kept as the list of its moments;
* `Takes` — everything that taking a process down can ask, with what comes of it;
* `Change` — everything that one call can do (`change_of_perform`);
* `Stage` — what the calls so far have collected, which every change keeps up (`Stage.step`).

What a caller may rely on in every course is put together in `Orderly` (`orderly_course`).
-/

namespace Footprint

open Kernel

namespace Custody

variable {σ : Type} {pid : Pid} {patience : Nat} {report : TeardownReport}

/-! ## Calls and courses -/

/-- A call on a custody. -/
inductive Op where
  | note (status : WaitStatus)
  | teardown
deriving DecidableEq, Repr

/-- What a call on a custody answers. -/
inductive Reply where
  | noted (gone : Bool)
  | tornDown (result : Except Obstacle TeardownReport)

def perform (c : Custody) (patience : Nat) : Op → Kernel.Program (Reply × Custody)
  | .note status => return (.noted (c.noteEnd status).1, (c.noteEnd status).2)
  | .teardown => do
    let (result, after) ← c.teardown patience
    return (.tornDown result, after)

/-- A call with what it asked the kernel, between custody before and custody after it. -/
structure Moment where
  before : Custody
  op : Op
  exchanges : Transcript
  reply : Reply
  after : Custody

/-- Makes calls one after the other. -/
def course (answer : (c : Call) → σ → Answer c × σ) (patience : Nat) (c : Custody) :
    List Op → σ → List Moment
  | [], _ => []
  | op :: rest, s =>
    let program := c.perform patience op
    let ((reply, after), s') := program.run answer s
    ⟨c, op, program.transcript answer s, reply, after⟩ :: after.course answer patience rest s'

/-- The call says that the process is gone, or that it was taken down. -/
def Moment.Ends (x : Moment) : Prop :=
  x.reply = .noted true ∨ ∃ report, x.reply = .tornDown (.ok report)

/-- Whether the call answers a report that names a process. -/
def Moment.names (x : Moment) : Bool :=
  match x.reply with
  | .tornDown (.ok report) => report.pid.isSome
  | _ => false

/-! ## Everything that a teardown asks -/

/-- A wait that does not settle anything: a signal interrupted it, or it reports a stop. -/
def Interim (pid : Pid) (x : Exchange) : Prop :=
  x = ⟨.wait pid, .error .interrupted⟩ ∨
    ∃ status, status.isTerminal = false ∧ x = ⟨.wait pid, .ok status⟩

/-- The wait that settles a teardown, with what comes of it. -/
inductive Settles (pid : Pid) (report : TeardownReport) :
    Exchange → Except Obstacle TeardownReport → Prop where
  | ended {status : WaitStatus} : status.isTerminal = true →
      Settles pid report ⟨.wait pid, .ok status⟩ (.ok (report.withEnd status))
  | elsewhere : Settles pid report ⟨.wait pid, .error .noChild⟩ (.ok report)
  | refused {errno : Errno} : errno ≠ .interrupted → errno ≠ .noChild →
      Settles pid report ⟨.wait pid, .error errno⟩ (.error (.refused .awaitEnd errno))

/-- The waits of a teardown, with what comes of them. -/
inductive Awaits (pid : Pid) (report : TeardownReport) (patience : Nat) :
    Transcript → Except Obstacle TeardownReport → Prop where
  | settled {waits : Transcript} {last : Exchange} {result : Except Obstacle TeardownReport} :
      (∀ x ∈ waits, Interim pid x) → waits.length < patience → Settles pid report last result →
      Awaits pid report patience (waits ++ [last]) result
  | endless {waits : Transcript} :
      (∀ x ∈ waits, Interim pid x) → waits.length = patience →
      Awaits pid report patience waits (.error .endless)

/-- The report on a process of which nothing is known yet. -/
def naming (pid : Pid) : TeardownReport :=
  { TeardownReport.nothing with pid := some pid }

/-- What a teardown asks, with what comes of it. -/
inductive Takes (pid : Pid) (patience : Nat) :
    Transcript → Except Obstacle TeardownReport → Prop where
  | killed {t : Transcript} {result : Except Obstacle TeardownReport} :
      Awaits pid { naming pid with killSent := true } patience t result →
      Takes pid patience (⟨.kill pid, .ok ()⟩ :: t) result
  | gone {t : Transcript} {result : Except Obstacle TeardownReport} :
      Awaits pid (naming pid) patience t result →
      Takes pid patience (⟨.kill pid, .error .noProcess⟩ :: t) result
  | refused {errno : Errno} : errno ≠ .noProcess →
      Takes pid patience [⟨.kill pid, .error errno⟩] (.error (.refused .kill errno))

theorem Awaits.of_settles {x : Exchange} {result : Except Obstacle TeardownReport}
    (hx : Settles pid report x result) : Awaits pid report (patience + 1) [x] result := by
  have hnone : ∀ y ∈ ([] : Transcript), Interim pid y := by simp
  exact .settled hnone (Nat.succ_pos patience) hx

theorem Awaits.again {t : Transcript} {x : Exchange} {result : Except Obstacle TeardownReport}
    (h : Awaits pid report patience t result) (hx : Interim pid x) :
    Awaits pid report (patience + 1) (x :: t) result := by
  cases h with
  | @settled waits last _ hwaits hfew hlast =>
    have hmore : ∀ y ∈ x :: waits, Interim pid y := List.forall_mem_cons.2 ⟨hx, hwaits⟩
    exact .settled hmore (Nat.succ_lt_succ hfew) hlast
  | endless hwaits hmany =>
    exact .endless (List.forall_mem_cons.2 ⟨hx, hwaits⟩) (congrArg Nat.succ hmany)

/-- Waiting goes on until a wait settles the matter or patience is at its end. -/
theorem ensures_awaits (pid : Pid) (report : TeardownReport) (patience : Nat) (t : Transcript) :
    (collect pid report patience).Ensures
      (fun t' result => ∃ u, t' = t ++ u ∧ Awaits pid report patience u result) t := by
  induction patience generalizing t with
  | zero => exact ⟨[], by simp, .endless (by simp) rfl⟩
  | succ patience ih =>
    have hagain {x : Exchange} (hx : Interim pid x) :
        (collect pid report patience).Ensures
          (fun t' result => ∃ u, t' = t ++ u ∧ Awaits pid report (patience + 1) u result) (t ++ [x]) := by
      refine (ih (t ++ [x])).mono ?_
      rintro _ result ⟨u, rfl, hu⟩
      exact ⟨x :: u, by simp, hu.again hx⟩
    have hlast {x : Exchange} {result : Except Obstacle TeardownReport}
        (hx : Settles pid report x result) :
        ∃ u, t ++ [x] = t ++ u ∧ Awaits pid report (patience + 1) u result :=
      ⟨[x], rfl, .of_settles hx⟩
    refine Dialogue.ensures_call_bind.2 ?_
    rintro (errno | status)
    · dsimp only
      split
      next hinterrupted => exact hagain (.inl (by rw [hinterrupted]))
      next hother =>
        split
        next hchildless => exact hlast (hchildless ▸ .elsewhere)
        next hnone => exact hlast (.refused hother hnone)
    · dsimp only
      split
      next hterminal => exact hlast (.ended hterminal)
      next hgoes => exact hagain (.inr ⟨status, by simpa using hgoes, rfl⟩)

theorem ensures_takes (pid : Pid) (patience : Nat) :
    (killAndCollect pid patience).Ensures (Takes pid patience) [] := by
  refine Dialogue.ensures_call_bind.2 ?_
  rintro (errno | ⟨⟩)
  · dsimp only
    split
    next hgone =>
      refine (ensures_awaits pid (naming pid) patience _).mono ?_
      rintro _ result ⟨u, rfl, hu⟩
      exact hgone ▸ .gone hu
    next hother => exact .refused hother
  · refine (ensures_awaits pid { naming pid with killSent := true } patience _).mono ?_
    rintro _ result ⟨u, rfl, hu⟩
    exact .killed hu

/-- Taking a process down starts with a signal to it. -/
theorem Takes.starts {t : Transcript} {result : Except Obstacle TeardownReport}
    (h : Takes pid patience t result) : ∃ reply rest, t = ⟨.kill pid, reply⟩ :: rest := by
  cases h with
  | killed | gone | refused => exact ⟨_, _, rfl⟩

/-! ## What reports tell -/

/-- The end that an exchange collects. -/
def endIn : Exchange → Option WaitStatus
  | ⟨.wait _, .ok status⟩ => if status.isTerminal then some status else none
  | _ => none

/-- The ends that are collected by a call: one that is noted of a process in custody, or those that a
teardown is told. -/
def Moment.collected (x : Moment) : List WaitStatus :=
  match x.op with
  | .note status => if x.before.pid.isSome && status.isTerminal then [status] else []
  | .teardown => x.exchanges.filterMap endIn

/-- The report tells the end that was collected, if one was. -/
structure Tells (report : TeardownReport) (collected : List WaitStatus) : Prop where
  atMostOne : collected.length ≤ 1
  terminal : ∀ status ∈ collected, status.isTerminal = true
  reaped_iff : report.reaped = true ↔ ∃ status, status ∈ collected
  exited : ∀ p code, .exited p code ∈ collected →
    report.exitCode = some code ∧ report.termSignal = none
  signaled : ∀ p signal core, .signaled p signal core ∈ collected →
    report.exitCode = none ∧ report.termSignal = some signal.number
  neither : collected = [] → report.exitCode = none ∧ report.termSignal = none

/-- A report that tells of no end. -/
structure Blank (report : TeardownReport) : Prop where
  reaped : report.reaped = false
  exitCode : report.exitCode = none
  termSignal : report.termSignal = none

theorem blank_naming (pid : Pid) : Blank (naming pid) := ⟨rfl, rfl, rfl⟩

theorem blank_killed (pid : Pid) : Blank { naming pid with killSent := true } := ⟨rfl, rfl, rfl⟩

theorem Blank.tells_nil (h : Blank report) : Tells report [] where
  atMostOne := by simp
  terminal := by simp
  reaped_iff := by simp [h.reaped]
  exited := by simp
  signaled := by simp
  neither _ := ⟨h.exitCode, h.termSignal⟩

theorem Blank.tells_withEnd {status : WaitStatus} (h : Blank report) (hterminal : status.isTerminal = true) :
    Tells (report.withEnd status) [status] := by
  cases status with
  | exited p code =>
    constructor
    all_goals simp [TeardownReport.withEnd, WaitStatus.isTerminal, h.termSignal]
  | signaled p signal core =>
    constructor
    all_goals simp +contextual [TeardownReport.withEnd, WaitStatus.isTerminal, h.exitCode]
  | _ => cases hterminal

theorem pid_withEnd (report : TeardownReport) (status : WaitStatus) :
    (report.withEnd status).pid = report.pid := by
  cases status
  all_goals rfl

theorem Interim.endIn_eq {x : Exchange} (h : Interim pid x) : endIn x = none := by
  rcases h with rfl | ⟨status, hgoes, rfl⟩
  · rfl
  · simp [endIn, hgoes]

theorem filterMap_endIn_of_interim {waits : Transcript} (h : ∀ x ∈ waits, Interim pid x) :
    waits.filterMap endIn = [] :=
  List.filterMap_eq_nil_iff.2 fun x hx => (h x hx).endIn_eq

/-- Waits that come to a report are told of the end that it tells. -/
theorem Awaits.tells {t : Transcript} {told : TeardownReport} (h : Awaits pid report patience t (.ok told))
    (hblank : Blank report) : told.pid = report.pid ∧ Tells told (t.filterMap endIn) := by
  cases h with
  | settled hwaits _ hlast =>
    rw [List.filterMap_append, filterMap_endIn_of_interim hwaits, List.nil_append]
    cases hlast with
    | ended hterminal =>
      exact ⟨pid_withEnd _ _, by simpa [endIn, hterminal] using hblank.tells_withEnd hterminal⟩
    | elsewhere => exact ⟨rfl, hblank.tells_nil⟩

theorem Awaits.collects_nothing {t : Transcript} {obstacle : Obstacle}
    (h : Awaits pid report patience t (.error obstacle)) : t.filterMap endIn = [] := by
  cases h with
  | settled hwaits _ hlast =>
    rw [List.filterMap_append, filterMap_endIn_of_interim hwaits, List.nil_append]
    cases hlast with
    | refused => rfl
  | endless hwaits _ => exact filterMap_endIn_of_interim hwaits

theorem Takes.tells {t : Transcript} (h : Takes pid patience t (.ok report)) :
    report.pid = some pid ∧ Tells report (t.filterMap endIn) := by
  cases h with
  | killed hwaits => exact hwaits.tells (blank_killed pid)
  | gone hwaits => exact hwaits.tells (blank_naming pid)

theorem Takes.collects_nothing {t : Transcript} {obstacle : Obstacle}
    (h : Takes pid patience t (.error obstacle)) : t.filterMap endIn = [] := by
  cases h with
  | killed hwaits => exact hwaits.collects_nothing
  | gone hwaits => exact hwaits.collects_nothing
  | refused => rfl

/-! ## Everything that a call can do -/

/-- Custody of a process whose end was noted. -/
def noted (pid : Pid) (status : WaitStatus) : Custody :=
  ⟨none, some ((naming pid).withEnd status)⟩

/-- The ways in which a call changes custody. -/
inductive Change (pid : Pid) (patience : Nat) : Moment → Prop where
  | note {status : WaitStatus} : status.isTerminal = true →
      Change pid patience ⟨.of pid, .note status, [], .noted true, .noted pid status⟩
  | goOn {status : WaitStatus} : status.isTerminal = false →
      Change pid patience ⟨.of pid, .note status, [], .noted false, .of pid⟩
  | ignore {c : Custody} {status : WaitStatus} : c.pid = none →
      Change pid patience ⟨c, .note status, [], .noted false, c⟩
  | takeDown {t : Transcript} {report : TeardownReport} : Takes pid patience t (.ok report) →
      Change pid patience ⟨.of pid, .teardown, t, .tornDown (.ok report), vacant⟩
  | keep {t : Transcript} {obstacle : Obstacle} : Takes pid patience t (.error obstacle) →
      Change pid patience ⟨.of pid, .teardown, t, .tornDown (.error obstacle), .of pid⟩
  | report {c : Custody} : c.pid = none →
      Change pid patience ⟨c, .teardown, [], .tornDown (.ok (c.ended.getD .nothing)), vacant⟩

theorem noteEnd_of_terminal {status : WaitStatus} (h : status.isTerminal = true) :
    (Custody.of pid).noteEnd status = (true, noted pid status) := by
  simp [noteEnd, Custody.of, noted, naming, h]

theorem noteEnd_of_not_terminal {status : WaitStatus} (h : status.isTerminal = false) :
    (Custody.of pid).noteEnd status = (false, .of pid) := by
  simp [noteEnd, Custody.of, h]

theorem noteEnd_of_none {c : Custody} (h : c.pid = none) (status : WaitStatus) :
    c.noteEnd status = (false, c) := by
  simp [noteEnd, h]

theorem teardown_of_none {c : Custody} (h : c.pid = none) (patience : Nat) :
    c.teardown patience = pure (.ok (c.ended.getD .nothing), vacant) := by
  simp [teardown, h]

theorem release_of_none {c : Custody} (h : c.pid = none) (patience : Nat) :
    c.release patience = pure () := by
  simp [release, h]

/-- Each call changes custody in one of the listed ways, whatever it is answered. -/
theorem change_of_perform {c : Custody} (hc : c = .of pid ∨ c.pid = none) (patience : Nat) (op : Op) :
    (c.perform patience op).Ensures (fun t answer => Change pid patience ⟨c, op, t, answer.1, answer.2⟩)
      [] := by
  cases op with
  | note status =>
    rcases hc with rfl | hnone
    · cases hterminal : status.isTerminal with
      | true => simpa [perform, noteEnd_of_terminal hterminal] using Change.note hterminal
      | false => simpa [perform, noteEnd_of_not_terminal hterminal] using Change.goOn hterminal
    · simpa [perform, noteEnd_of_none hnone] using Change.ignore hnone
  | teardown =>
    rcases hc with rfl | hnone
    · refine (Dialogue.ensures_bind _ _).2 ((Dialogue.ensures_bind _ _).2 ?_)
      refine (ensures_takes pid patience).mono ?_
      rintro t (obstacle | report) htakes
      · exact .keep htakes
      · exact .takeDown htakes
    · rw [perform, teardown_of_none hnone]
      exact .report hnone

/-- Whoever has custody of the process, or of none, does so behind every call. -/
theorem Change.after_eq_or {x : Moment} (h : Change pid patience x) :
    x.after = .of pid ∨ x.after.pid = none := by
  cases h with
  | note | takeDown | report => exact .inr rfl
  | goOn | keep => exact .inl rfl
  | ignore hnone => exact .inr hnone

/-- Custody of nothing stays so, and nothing is asked about it. -/
theorem Change.of_none {x : Moment} (h : Change pid patience x) (hbefore : x.before.pid = none) :
    x.after.pid = none ∧ x.exchanges = [] := by
  cases h with
  | note | goOn | takeDown | keep => cases hbefore
  | ignore hnone => exact ⟨hnone, rfl⟩
  | report => exact ⟨rfl, rfl⟩

/-- Nothing comes of custody whose end has been reported. -/
theorem Change.of_vacant {x : Moment} (h : Change pid patience x) (hvacant : x.before = vacant) :
    x.after = vacant ∧ ∀ result, x.reply = .tornDown result → result = .ok .nothing := by
  cases h with
  | note | goOn | takeDown | keep => cases hvacant
  | ignore => exact ⟨hvacant, fun _ h => nomatch h⟩
  | report =>
    obtain rfl := hvacant
    exact ⟨rfl, fun _ h => (Reply.tornDown.inj h).symm⟩

/-! ## Courses as chains of changes -/

/-- The moments lead, each by one of the ways a call changes custody, from one custody to another. -/
inductive Leads (pid : Pid) (patience : Nat) : Custody → List Moment → Custody → Prop where
  | nil (c : Custody) : Leads pid patience c [] c
  | cons {x : Moment} {rest : List Moment} {last : Custody} :
      Change pid patience x → Leads pid patience x.after rest last →
      Leads pid patience x.before (x :: rest) last

variable {c last : Custody} {moments earlier later : List Moment} {x : Moment}

theorem exists_leads_course {c : Custody} (hc : c = .of pid ∨ c.pid = none)
    (answer : (call : Call) → σ → Answer call × σ) (patience : Nat) (ops : List Op) (s : σ) :
    ∃ last, Leads pid patience c (c.course answer patience ops s) last := by
  induction ops generalizing c s with
  | nil => exact ⟨c, .nil c⟩
  | cons op rest ih =>
    have hchange := (change_of_perform hc patience op).of_run answer s
    rcases ih hchange.after_eq_or _ with ⟨last, hlast⟩
    exact ⟨last, .cons hchange hlast⟩

/-- Every call is answered. -/
theorem map_op_course (answer : (call : Call) → σ → Answer call × σ) (patience : Nat) (c : Custody)
    (ops : List Op) (s : σ) : (c.course answer patience ops s).map Moment.op = ops := by
  induction ops generalizing c s with
  | nil => rfl
  | cons op rest ih => exact congrArg (op :: ·) (ih _ _)

/-- A chain can be cut before any of its moments. -/
theorem Leads.split (h : Leads pid patience c (earlier ++ x :: later) last) :
    Leads pid patience c earlier x.before ∧ Change pid patience x ∧
      Leads pid patience x.after later last := by
  induction earlier generalizing c with
  | nil =>
    cases h with
    | cons hchange hrest => exact ⟨.nil _, hchange, hrest⟩
  | cons y earlier ih =>
    cases h with
    | cons hchange hrest =>
      rcases ih hrest with ⟨hbefore, hx, hafter⟩
      exact ⟨.cons hchange hbefore, hx, hafter⟩

theorem Leads.before_eq (h : Leads pid patience c (x :: later) last) : x.before = c := by
  cases h
  rfl

theorem Leads.change (h : Leads pid patience c moments last) : ∀ x ∈ moments, Change pid patience x := by
  intro x hx
  rcases List.append_of_mem hx with ⟨earlier, later, rfl⟩
  exact h.split.2.1

/-- Custody of nothing stays so in a whole course. -/
theorem Leads.of_none (h : Leads pid patience c moments last) (hnone : c.pid = none) :
    ∀ x ∈ moments, x.exchanges = [] ∧ x.after.pid = none := by
  induction h with
  | nil => simp
  | cons hchange _ ih =>
    rcases hchange.of_none hnone with ⟨hafter, hquiet⟩
    exact List.forall_mem_cons.2 ⟨⟨hquiet, hafter⟩, ih hafter⟩

/-- Nothing comes of custody whose end has been reported, in a whole course. -/
theorem Leads.of_vacant (h : Leads pid patience c moments last) (hvacant : c = vacant) :
    ∀ x ∈ moments, ∀ result, x.reply = .tornDown result → result = .ok .nothing := by
  induction h with
  | nil => simp
  | cons hchange _ ih =>
    rcases hchange.of_vacant hvacant with ⟨hafter, hreply⟩
    exact List.forall_mem_cons.2 ⟨hreply, ih hafter⟩

/-! ## What the calls so far have collected -/

/-- What custody stands for behind the moments of a course. -/
inductive Stage (pid : Pid) (earlier : List Moment) : Custody → Prop where
  | held : earlier.flatMap Moment.collected = [] → Stage pid earlier (.of pid)
  | ended {status : WaitStatus} : status.isTerminal = true →
      earlier.flatMap Moment.collected = [status] → Stage pid earlier (.noted pid status)
  | reported : (earlier.flatMap Moment.collected).length ≤ 1 →
      (∃ y ∈ earlier, ∃ report, y.reply = .tornDown (.ok report)) → Stage pid earlier vacant

theorem Stage.length_le (h : Stage pid earlier c) : (earlier.flatMap Moment.collected).length ≤ 1 := by
  cases h with
  | held hnone => simp [hnone]
  | ended _ hone => simp [hone]
  | reported hfew => exact hfew

theorem Stage.collected_of_held (h : Stage pid earlier (.of pid)) :
    earlier.flatMap Moment.collected = [] := by
  generalize hc : Custody.of pid = c at h
  cases h with
  | held hnothing => exact hnothing
  | ended | reported => cases hc

theorem Stage.of_none (h : Stage pid earlier c) (hnone : c.pid = none) :
    (∃ status, status.isTerminal = true ∧ earlier.flatMap Moment.collected = [status] ∧
      c = .noted pid status) ∨
    (c = vacant ∧ ∃ y ∈ earlier, ∃ report, y.reply = .tornDown (.ok report)) := by
  cases h with
  | held => cases hnone
  | ended hterminal hone => exact .inl ⟨_, hterminal, hone, rfl⟩
  | reported _ hreported => exact .inr ⟨rfl, hreported⟩

/-- What a report tells that is answered at a stage. -/
theorem Stage.told (h : Stage pid earlier x.before) (hx : Change pid patience x)
    (hreply : x.reply = .tornDown (.ok report)) :
    (report.pid = some pid ∧ Tells report ((earlier ++ [x]).flatMap Moment.collected)) ∨
      (report = .nothing ∧ ∃ y ∈ earlier, ∃ told, y.reply = .tornDown (.ok told)) := by
  cases hx with
  | note | goOn | ignore | keep => cases hreply
  | takeDown htakes =>
    obtain rfl := Except.ok.inj (Reply.tornDown.inj hreply)
    refine .inl ⟨htakes.tells.1, ?_⟩
    simpa [h.collected_of_held, Moment.collected] using htakes.tells.2
  | report hnone =>
    obtain rfl := Except.ok.inj (Reply.tornDown.inj hreply)
    rcases h.of_none hnone with ⟨status, hterminal, hone, rfl⟩ | ⟨rfl, hreported⟩
    · refine .inl ⟨pid_withEnd (naming pid) status, ?_⟩
      simpa [hone, Moment.collected, noted] using (blank_naming pid).tells_withEnd hterminal
    · exact .inr ⟨rfl, hreported⟩

/-- A call that collects nothing and changes nothing leaves the stage as it is. -/
theorem Stage.concat (h : Stage pid earlier c) (hx : x.collected = []) : Stage pid (earlier ++ [x]) c := by
  have hsame : (earlier ++ [x]).flatMap Moment.collected = earlier.flatMap Moment.collected := by
    simp [hx]
  cases h with
  | held hnothing => exact .held (hsame.trans hnothing)
  | ended hterminal hone => exact .ended hterminal (hsame.trans hone)
  | reported hfew hreported =>
    rcases hreported with ⟨y, hy, hreply⟩
    exact .reported (hsame ▸ hfew) ⟨y, List.mem_append_left _ hy, hreply⟩

theorem Stage.reported_concat (hfew : ((earlier ++ [x]).flatMap Moment.collected).length ≤ 1)
    (hreply : x.reply = .tornDown (.ok report)) : Stage pid (earlier ++ [x]) vacant :=
  .reported hfew ⟨x, by simp, report, hreply⟩

/-- Every call leads from stage to stage. -/
theorem Stage.step (h : Stage pid earlier x.before) (hx : Change pid patience x) :
    Stage pid (earlier ++ [x]) x.after := by
  cases hx with
  | note hterminal =>
    refine .ended hterminal ?_
    simp [h.collected_of_held, Moment.collected, Custody.of, hterminal]
  | goOn hgoes =>
    refine h.concat ?_
    simp [Moment.collected, hgoes]
  | ignore hnone =>
    refine h.concat ?_
    simp [Moment.collected, hnone]
  | takeDown htakes =>
    refine .reported_concat ?_ rfl
    simpa [h.collected_of_held, Moment.collected] using htakes.tells.2.atMostOne
  | keep htakes =>
    exact h.concat htakes.collects_nothing
  | report hnone =>
    refine .reported_concat ?_ rfl
    simpa [Moment.collected] using h.length_le

/-- A course keeps the stages up. -/
theorem Leads.stage (h : Leads pid patience c moments last) (hc : Stage pid earlier c) :
    Stage pid (earlier ++ moments) last := by
  induction h generalizing earlier with
  | nil => simpa using hc
  | cons hchange _ ih => simpa using ih (hc.step hchange)

theorem stage_of (pid : Pid) : Stage pid [] (.of pid) := .held rfl

/-! ## What single calls come to -/

theorem Change.after_of_ends (h : Change pid patience x) (hends : x.Ends) : x.after.pid = none := by
  cases h with
  | note | takeDown | report => rfl
  | ignore hnone => exact hnone
  | goOn | keep => rcases hends with hends | ⟨report, hends⟩ <;> cases hends

theorem Change.after_of_tornDown (h : Change pid patience x) (hreply : x.reply = .tornDown (.ok report)) :
    x.after = vacant := by
  cases h with
  | note | goOn | ignore | keep => cases hreply
  | takeDown | report => rfl

/-- An obstacle leaves the process in custody. -/
theorem Change.kept (h : Change pid patience x) {obstacle : Obstacle}
    (hreply : x.reply = .tornDown (.error obstacle)) : x.before = .of pid ∧ x.after = .of pid := by
  cases h with
  | note | goOn | ignore | takeDown | report => cases hreply
  | keep => exact ⟨rfl, rfl⟩

/-- A teardown of a process in custody asks for it. -/
theorem Change.takes (h : Change pid patience x) (hop : x.op = .teardown) (hpid : x.before.pid ≠ none) :
    ∃ result, x.reply = .tornDown result ∧ Takes pid patience x.exchanges result := by
  cases h with
  | note | goOn | ignore => cases hop
  | takeDown htakes | keep htakes => exact ⟨_, rfl, htakes⟩
  | report hnone => exact absurd hnone hpid

theorem Change.reply_of_note (h : Change pid patience x) {status : WaitStatus} (hop : x.op = .note status) :
    x.exchanges = [] ∧ x.reply = .noted (x.before.pid.isSome && status.isTerminal) := by
  cases h with
  | note hterminal =>
    cases hop
    simp [Custody.of, hterminal]
  | goOn hgoes =>
    cases hop
    simp [hgoes]
  | ignore hnone => simp [hnone]
  | takeDown | keep | report => cases hop

/-- A status that is no end changes nothing. -/
theorem Change.unchanged (h : Change pid patience x) {status : WaitStatus} (hop : x.op = .note status)
    (hgoes : status.isTerminal = false) : x.reply = .noted false ∧ x.after = x.before := by
  cases h with
  | note hterminal =>
    cases hop
    simp [hgoes] at hterminal
  | goOn | ignore => exact ⟨rfl, rfl⟩
  | takeDown | keep | report => cases hop

theorem Moment.names_eq_true_iff :
    x.names = true ↔ ∃ report, x.reply = .tornDown (.ok report) ∧ report.pid.isSome = true := by
  unfold Moment.names
  split
  next report hreply => simp [hreply]
  next hother => simpa using fun report hreply => absurd hreply (hother report)

/-- One report names a process at most, because the reports behind it are empty. -/
theorem Leads.countP_names (h : Leads pid patience c moments last) :
    moments.countP Moment.names ≤ 1 := by
  induction h with
  | nil => simp
  | @cons x rest last hchange hrest ih =>
    cases hnames : x.names with
    | false => simpa [hnames] using ih
    | true =>
      rcases Moment.names_eq_true_iff.1 hnames with ⟨report, hreply, -⟩
      have hquiet : ∀ y ∈ rest, ¬ y.names = true := by
        intro y hy hnamesToo
        rcases Moment.names_eq_true_iff.1 hnamesToo with ⟨again, hagain, hpid⟩
        have hempty := hrest.of_vacant (hchange.after_of_tornDown hreply) y hy _ hagain
        rw [Except.ok.inj hempty] at hpid
        cases hpid
      simp [hnames, List.countP_eq_zero.2 hquiet]

/-! ## What a caller may rely on -/

/-- What holds of a course of calls on custody of a process. -/
structure Orderly (pid : Pid) (patience : Nat) (moments : List Moment) : Prop where
  -- Once the process is gone or taken down, nothing is ever asked about it again.
  leftAlone : ∀ earlier x later, moments = earlier ++ x :: later → x.Ends →
    (∀ y ∈ later, y.exchanges = []) ∧ ∀ y ∈ x :: later, y.after.pid = none ∧
      ∀ n, (∃ report, y.after.teardown n = pure (.ok report, vacant)) ∧ y.after.release n = pure ()
  -- A report that names a process is answered once at most, and then there is nothing to report.
  namedOnce : moments.countP Moment.names ≤ 1
  nothingLeft : ∀ earlier x later, moments = earlier ++ x :: later →
    ∀ report, x.reply = .tornDown (.ok report) →
      ∀ y ∈ later, ∀ result, y.reply = .tornDown result → result = .ok .nothing
  -- A teardown that met an obstacle leaves the process in custody, and the next one tries again.
  kept : ∀ x ∈ moments, ∀ obstacle, x.reply = .tornDown (.error obstacle) →
    x.before = .of pid ∧ x.after = .of pid
  retried : ∀ earlier x y later, moments = earlier ++ x :: y :: later →
    ∀ obstacle, x.reply = .tornDown (.error obstacle) → y.op = .teardown →
      ∃ reply rest, y.exchanges = ⟨.kill pid, reply⟩ :: rest
  -- What a teardown of a process in custody asks, and what comes of it.
  takes : ∀ x ∈ moments, x.op = .teardown → x.before.pid ≠ none →
    ∃ result, x.reply = .tornDown result ∧ Takes pid patience x.exchanges result
  -- A report tells of the end that was collected, unless it is empty because another one did.
  told : ∀ earlier x later, moments = earlier ++ x :: later →
    ∀ report, x.reply = .tornDown (.ok report) →
      (report.pid = some pid ∧ Tells report ((earlier ++ [x]).flatMap Moment.collected)) ∨
        (report = .nothing ∧ ∃ y ∈ earlier, ∃ told, y.reply = .tornDown (.ok told))
  collectedOnce : (moments.flatMap Moment.collected).length ≤ 1
  -- A status is an end for custody if it is terminal; any other status changes nothing.
  noted : ∀ x ∈ moments, ∀ status, x.op = .note status →
    x.exchanges = [] ∧ x.reply = .noted (x.before.pid.isSome && status.isTerminal)
  unchanged : ∀ x ∈ moments, ∀ status, x.op = .note status → status.isTerminal = false →
    x.reply = .noted false ∧ x.after = x.before

/-- Whatever is noted and however often a process is taken down, every call is answered, and custody ends
once and for all. -/
theorem orderly_course (pid : Pid) (answer : (call : Call) → σ → Answer call × σ) (patience : Nat)
    (ops : List Op) (s : σ) :
    ((Custody.of pid).course answer patience ops s).map Moment.op = ops ∧
      Orderly pid patience ((Custody.of pid).course answer patience ops s) := by
  refine ⟨map_op_course answer patience _ ops s, ?_⟩
  rcases exists_leads_course (.inl rfl) answer patience ops s with ⟨last, hleads⟩
  generalize (Custody.of pid).course answer patience ops s = moments at hleads
  constructor
  case leftAlone =>
    rintro earlier x later rfl hends
    rcases hleads.split with ⟨-, hx, hlater⟩
    have hgone := hlater.of_none (hx.after_of_ends hends)
    refine ⟨fun y hy => (hgone y hy).1, ?_⟩
    intro y hy
    have hnone : y.after.pid = none := by
      rcases List.mem_cons.1 hy with rfl | hy
      · exact hx.after_of_ends hends
      · exact (hgone y hy).2
    exact ⟨hnone, fun n => ⟨⟨_, teardown_of_none hnone n⟩, release_of_none hnone n⟩⟩
  case namedOnce => exact hleads.countP_names
  case nothingLeft =>
    rintro earlier x later rfl report hreply
    rcases hleads.split with ⟨-, hx, hlater⟩
    exact hlater.of_vacant (hx.after_of_tornDown hreply)
  case kept => exact fun x hx obstacle => (hleads.change x hx).kept
  case retried =>
    rintro earlier x y later rfl obstacle hreply hop
    rcases hleads.split with ⟨-, hx, hrest⟩
    have hheld : y.before = .of pid := hrest.before_eq.trans (hx.kept hreply).2
    have hy : Change pid patience y := hleads.change y (by simp)
    rcases hy.takes hop (by simp [hheld, Custody.of]) with ⟨result, -, htakes⟩
    exact htakes.starts
  case takes => exact fun x hx => (hleads.change x hx).takes
  case told =>
    rintro earlier x later rfl report
    rcases hleads.split with ⟨hearlier, hx, -⟩
    exact (hearlier.stage (stage_of pid)).told hx
  case collectedOnce => exact (hleads.stage (stage_of pid)).length_le
  case noted => exact fun x hx status => (hleads.change x hx).reply_of_note
  case unchanged => exact fun x hx status => (hleads.change x hx).unchanged

end Custody

end Footprint
