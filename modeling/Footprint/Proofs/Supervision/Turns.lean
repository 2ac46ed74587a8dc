import Footprint.Proofs.Supervision.Faithful

/-!
# Every drive is faithful

The proof follows the program. `Underway` is what holds between two turns of a drive, and each part of
a turn either keeps it or ends the drive faithfully; the whole drive follows by induction on the number
of turns.
-/

namespace Footprint

namespace Drive

open Kernel Monitor

variable {layout : Layout} {rounds : List Round} {t t' : Transcript} {run : Run}
  {m m' : Monitor}

/-! ## Between two turns -/

/-- What holds of a run whose block is executing. -/
structure Underway (layout : Layout) (rounds : List Round) (t : Transcript) (m : Monitor) : Prop where
  idle : stageOf t = .idle
  events_eq : eventsOf t = rounds.flatMap Round.events
  running : m.phase = .running
  layout_eq : m.layout = layout
  blockSize_eq : m.log.blockSize = layout.blockSize
  -- Without a proper block size nothing is ever granted, and nothing else need be known.
  sound : Addr.isGranule layout.blockSize = true → m.Sound
  log_eq : m.log.toList = rounds.map Round.block
  accessible : ∀ r ∈ rounds, r.Accessible layout

theorem Underway.start (layout : Layout) (limits : Limits) :
    Underway layout [] [] (.start layout limits) where
  idle := rfl
  events_eq := rfl
  running := rfl
  layout_eq := rfl
  blockSize_eq := rfl
  sound := fun hgranule => .start hgranule limits
  log_eq := rfl
  accessible := by simp

/-- Exchanges that show nothing keep a run underway. -/
theorem Underway.quiet (h : Underway layout rounds t m) (hstage : stageOf t' = .idle)
    (hevents : eventsOf t' = eventsOf t) : Underway layout rounds t' m :=
  { h with idle := hstage, events_eq := hevents.trans h.events_eq }

/-- A failure of the tracer itself is none of the monitor's. -/
theorem Underway.halted {halt : Halt} {ending : List Event} (h : Underway layout rounds t m)
    (htracing : halt.isTracing = true) (hevents : eventsOf t' = eventsOf t ++ ending)
    (hidle : ∀ e ∈ ending, e.isIdle = true) (hlog : m'.log = m.log) (hphase : m'.phase ≠ .aborted) :
    Faithful layout t' (.error halt) m' := by
  refine .of_closing ending (h.events_eq ▸ hevents) (.halted htracing hidle) ?_ h.accessible ?_ ?_
  · rw [hlog]
    exact h.log_eq
  · intro hok
    cases hok
  · rintro _ ⟨⟩
    simp [hphase, htracing]

/-- A failure that the monitor noted leaves it aborted. -/
theorem Underway.ended {failure : Failure} {ending : List Event} (h : Underway layout rounds t m)
    (hfailure : (Halt.failed failure).isTracing = false)
    (hevents : eventsOf t' = eventsOf t ++ ending)
    (hclosing : Closing (.error (.failed failure)) ending) (hlog : m'.log = m.log)
    (hphase : m'.phase = .aborted) : Faithful layout t' (.error (.failed failure)) m' := by
  refine .of_closing ending (h.events_eq ▸ hevents) hclosing ?_ h.accessible ?_ ?_
  · rw [hlog]
    exact h.log_eq
  · intro hok
    cases hok
  · rintro _ ⟨⟩
    simp [hphase, hfailure]

/-- A whole round takes a run to where the next turn begins. -/
theorem Underway.next {r : Round} (h : Underway layout rounds t m) (hsound : m'.Sound)
    (hstage : stageOf t' = .idle) (hevents : eventsOf t' = eventsOf t ++ r.events)
    (hrunning : m'.phase = .running) (hlayout : m'.layout = m.layout)
    (hlog : m'.log.toList = m.log.toList ++ [r.block]) (hr : r.Accessible layout) :
    Underway layout (rounds ++ [r]) t' m' where
  idle := hstage
  events_eq := by simp [hevents, h.events_eq]
  running := hrunning
  layout_eq := hlayout.trans h.layout_eq
  blockSize_eq := by rw [hsound.blockSize_eq, hlayout, h.layout_eq]
  sound := fun _ => hsound
  log_eq := by simp [hlog, h.log_eq]
  accessible := by
    intro r' hr'
    rcases List.mem_append.1 hr' with hearlier | hlast
    · exact h.accessible r' hearlier
    · rwa [List.mem_singleton.1 hlast]

/-! ## What the monitor says

The monitor is taken as it is here: whether its data are in step is not known until it grants. -/

theorem isTracing_of_judge_eq_abort {addr pc : Addr} {denial : Denial} {elapsed : Duration}
    {failure : Failure} (h : m.judge addr denial pc elapsed = .ok (.abort failure)) :
    (Halt.failed failure).isTracing = false := by
  unfold Monitor.judge at h
  simp only [bind, Except.bind, pure, Except.pure] at h
  repeat' split at h
  all_goals
    cases h
    try rfl

/-- The failures of the monitor are none of the tracer's. -/
theorem isTracing_of_verdictOn_eq_abort {stop : Stop} {elapsed : Duration} {failure : Failure}
    (h : m.verdictOn stop elapsed = .ok (.abort failure)) :
    (Halt.failed failure).isTracing = false := by
  cases stop with
  | access addr denial pc =>
    exact isTracing_of_judge_eq_abort h
  | breakpoint pc =>
    simp only [Monitor.verdictOn, bind, Except.bind, pure, Except.pure] at h
    repeat' split at h
    all_goals
      cases h
      try rfl
  | _ =>
    cases h
    rfl

/-! ## The parts of a turn -/

theorem ensures_elapsed {s : Supervisor} {good : Transcript → Run → Duration → Prop}
    {bad : Transcript → Run → Halt → Prop}
    (h : ∀ now : Duration, good (t ++ [⟨.clock, now⟩]) run ⟨now.nanos - s.started.nanos⟩) :
    Supervising.Ensures good bad s.elapsed t run := by
  refine Supervising.ensures_bind.2 (Supervising.ensures_ofQuestion.2 ?_)
  exact h

/-- The time of a run is up. -/
def Late (started wallLimit now : Duration) : Prop :=
  wallLimit.nanos ≤ now.nanos - started.nanos

/-- What is asked before a status is looked for, if the caller goes on. -/
def opening (now : Duration) : Transcript :=
  [⟨.cancelled, false⟩, ⟨.clock, now⟩]

/-- The caller is asked first, and then the clock. -/
theorem ensures_checkBounds {s : Supervisor} {good : Transcript → Run → Unit → Prop}
    {bad : Transcript → Run → Halt → Prop}
    (hcancelled : bad (t ++ [⟨.cancelled, true⟩]) ⟨run.custody, run.monitor.inPhase .aborted⟩
      (.failed .cancelled))
    (hlate : ∀ now, Late s.started s.wallLimit now →
      bad (t ++ opening now) ⟨run.custody, run.monitor.inPhase .aborted⟩
        (.failed (run.monitor.timeoutFailure .wallClock ⟨now.nanos - s.started.nanos⟩)))
    (hgo : ∀ now, ¬ Late s.started s.wallLimit now → good (t ++ opening now) run ()) :
    Supervising.Ensures good bad s.checkBounds t run := by
  refine Supervising.ensures_bind.2 (Supervising.ensures_ofQuestion.2 ?_)
  rintro (_ | _)
  · -- the caller goes on, so the clock is asked next
    refine Supervising.ensures_bind.2 (ensures_elapsed fun now => ?_)
    have happend : t ++ [⟨.cancelled, false⟩] ++ [⟨.clock, now⟩] = t ++ opening now := by
      simp [opening]
    rw [happend]
    split
    next h => exact hlate now h
    next h => exact hgo now h
  · exact hcancelled

@[simp]
theorem after_opening (stage : Stage) (now : Duration) : stage.after (opening now) = stage := rfl

@[simp]
theorem shows_opening (stage : Stage) (now : Duration) : stage.shows (opening now) = [] := rfl

/-- The bounds are checked without touching the process. -/
theorem Underway.ensures_checkBounds (s : Supervisor) (h : Underway layout rounds t run.monitor) :
    Supervising.Ensures (fun t run _ => Underway layout rounds t run.monitor)
      (fun t run halt => Faithful layout t (.error halt) run.monitor) s.checkBounds t run := by
  refine Drive.ensures_checkBounds ?cancelled ?late ?go
  case cancelled => exact h.ended rfl (by simp [Stage.onExchange]) .cancelled rfl rfl
  case late =>
    intro now _
    exact h.ended rfl (by simp) .expired rfl rfl
  case go =>
    intro now _
    exact h.quiet (by simp [h.idle]) (by simp)

theorem ensures_makeAccessible {s : Supervisor} {g : Grant}
    {good : Transcript → Except Errno UInt64 → Prop} {bad : Transcript → Halt → Prop}
    (hidle : stageOf t = .idle)
    (hok : ∀ t' result calls, stageOf t' = .idle → eventsOf t' = eventsOf t ++ calls →
      Injector.Attempt g.block g.len result calls → good t' result)
    (hbad : ∀ t' halt calls, halt.isTracing → eventsOf t' = eventsOf t ++ calls →
      (∀ e ∈ calls, e.isVain = true) → bad t' halt) :
    Tracing.Ensures good bad (s.makeAccessible g) t := by
  unfold Supervisor.makeAccessible
  cases g.method with
  | map => exact Injector.ensures_mapExactly hidle hok hbad
  | unprotect => exact Injector.ensures_permitReadWrite hidle hok hbad

/-- A grant is carried out and recorded, or the drive ends. -/
theorem Underway.ensures_carryOut (s : Supervisor) {status : WaitStatus} {g : Grant} {addr pc : Addr}
    {denial : Denial} {elapsed : Duration} (h : Underway layout rounds t m)
    (hstage : stageOf t' = .idle) (hevents : eventsOf t' = eventsOf t ++ [.collected status])
    (hjudge : m.judge addr denial pc elapsed = .ok (.grant g))
    (hgranting : run.monitor = m.inPhase (.granting g)) :
    Supervising.Ensures (fun t run _ => ∃ rounds, Underway layout rounds t run.monitor)
      (fun t run halt => Faithful layout t (.error halt) run.monitor) (s.carryOut g) t' run := by
  have hsound : m.Sound := h.sound (h.blockSize_eq ▸ isGranule_of_judge_eq_grant hjudge)
  have hgrants : m.Grants addr denial g := (judge_eq_grant_iff hsound.log).1 hjudge
  have hsound' : run.monitor.Sound := by
    rw [hgranting]
    exact hgrants.sound hsound
  have hphase : run.monitor.phase = .granting g := by simp [hgranting]
  have hlog : run.monitor.log = m.log := by simp [hgranting]
  have hlayout : run.monitor.layout = m.layout := by simp [hgranting]
  have hpending : run.monitor.Pending g := hsound'.pending g hphase
  -- whatever the attempt comes to, the kernel's part is over before the monitor is told
  refine Supervising.ensures_bind.2 (Supervising.ensures_ofTracing.2
    (ensures_makeAccessible hstage ?_ ?_))
  · intro t'' result calls hstage' hevents' hattempt
    have hshown : eventsOf t'' = eventsOf t ++ (.collected status :: calls) := by
      simp [hevents', hevents]
    cases result with
    | error errno =>
      -- the monitor is told of the refusal and ends the run
      exact h.ended rfl hshown (.refused hattempt) hlog rfl
    | ok value =>
      rcases hattempt with @⟨call, after, _, hgranted, hlen⟩
      have hblock : call.rdi = g.block := Event.rdi_eq_of_granted hgranted
      -- the block is recorded before the process is resumed, whatever becomes of that
      have hnext : ∀ reply, Underway layout (rounds ++ [⟨status, call, after⟩])
          (t'' ++ [⟨.resume s.pid .untilSystemCall, reply⟩])
          (run.monitor.recorded (run.monitor.log.push g.block)) := by
        intro reply
        refine h.next (hsound'.recorded hpending) ?_ ?_ rfl hlayout ?_ ⟨?_, ?_⟩
        · simp [Stage.onExchange, hstage']
        · simp [Stage.onExchange, hshown, Round.events]
        · simp [hlog, Round.block, hblock, BlockLog.push_toList]
        · simp [Round.block, hgranted, hblock]
        · exact hlen.trans (hgrants.len_eq.trans (congrArg _ h.layout_eq))
      refine Supervising.ensures_bind.2 (Supervising.ensures_get.2 ?_)
      refine Supervising.ensures_bind.2 (Supervising.ensures_ofTracing.2 ?_)
      rw [hpending.granted_eq hsound' hphase]
      refine Supervising.ensures_bind.2 ((Supervising.ensures_set _).2 ?_)
      refine Supervising.ensures_ofTracing.2 (Tracing.ensures_resume ?_ ?_)
      · exact ⟨_, hnext (.ok ())⟩
      · intro errno
        exact (hnext (.error errno)).halted rfl (List.append_nil _).symm (by simp) rfl (by simp)
  · intro t'' halt calls htracing hevents' hvain
    have hshown : eventsOf t'' = eventsOf t ++ (.collected status :: calls) := by
      simp [hevents', hevents]
    refine h.halted htracing hshown ?_ hlog (by simp [hphase])
    intro e he
    rcases List.mem_cons.1 he with rfl | hcall
    · rfl
    · exact Event.isIdle_of_isVain (hvain e hcall)

theorem phaseDuring_ne_aborted {stop : Stop} (h : m.phase = .running) :
    m.phaseDuring stop ≠ .aborted := by
  cases stop
  all_goals simp [phaseDuring, h]

/-- A stop of a running block is judged between two exchanges. -/
theorem ensures_judge {s : Supervisor} {stop : Stop} {good : Transcript → Run → Verdict → Prop}
    {bad : Transcript → Run → Halt → Prop} (hrunning : run.monitor.phase = .running)
    (hok : ∀ now elapsed verdict, run.monitor.verdictOn stop elapsed = .ok verdict →
      good (t ++ [⟨.clock, now⟩]) ⟨run.custody, run.monitor.inPhase (phaseAfter verdict)⟩ verdict)
    (hbad : ∀ now e, bad (t ++ [⟨.clock, now⟩])
      ⟨run.custody, run.monitor.inPhase (run.monitor.phaseDuring stop)⟩ (.arithmetic e)) :
    Supervising.Ensures good bad (s.judge stop) t run := by
  refine Supervising.ensures_bind.2 (ensures_elapsed fun now => ?_)
  generalize (⟨now.nanos - s.started.nanos⟩ : Duration) = elapsed
  refine Supervising.ensures_bind.2 (Supervising.ensures_get.2 ?_)
  cases hverdict : run.monitor.verdictOn stop elapsed with
  | ok verdict =>
    rw [react_eq_ok hrunning hverdict]
    exact hok now elapsed verdict hverdict
  | error e =>
    rw [react_eq_error hrunning hverdict]
    exact hbad now e

/-- What a turn comes to once a stop was collected. -/
def Outcome (layout : Layout) (t : Transcript) (m : Monitor) (isComplete : Bool) : Prop :=
  if isComplete then Faithful layout t (.ok ()) m else ∃ rounds, Underway layout rounds t m

/-- A status that was collected completes the run, ends it or leads to the next turn. -/
theorem Underway.ensures_handle (s : Supervisor) (status : WaitStatus)
    (h : Underway layout rounds t run.monitor) (hstage : stageOf t' = .idle)
    (hevents : eventsOf t' = eventsOf t ++ [.collected status])
    (hlast : ∃ before, t' = before ++ [⟨.poll s.pid, .ok status⟩]) :
    Supervising.Ensures (fun t run => Outcome layout t run.monitor)
      (fun t run halt => Faithful layout t (.error halt) run.monitor) (s.handle status) t' run := by
  refine Supervising.ensures_bind.2 ((Supervising.ensures_modify _).2 ?_)
  refine Supervising.ensures_bind.2 (Supervising.ensures_ofTracing.2
    (Tracing.ensures_classify status hstage ?_ ?_))
  · intro t₁ stop hstage₁ hevents₁ hbreakpoint
    have hshown : eventsOf t₁ = eventsOf t ++ [.collected status] := hevents₁.trans hevents
    refine Supervising.ensures_bind.2 (ensures_judge h.running ?_ ?_)
    · intro now elapsed verdict hverdict
      have hclock : eventsOf (t₁ ++ [⟨.clock, now⟩]) = eventsOf t ++ [.collected status] := by
        simp [Stage.onExchange, hshown]
      have hchange := change_of_verdictOn h.running hverdict
      cases verdict with
      | finish =>
        cases hchange with
        | finish _ hpc =>
          rcases hbreakpoint _ rfl with ⟨stopped, registers, info, rfl, rfl, rfl⟩
          rcases hlast with ⟨before, rfl⟩
          refine .of_closing _ (h.events_eq ▸ hclock) .completed h.log_eq h.accessible ?_ ?_
          · intro _
            refine ⟨rfl, before, s.pid, stopped, registers, info, now, ?_, h.layout_eq ▸ hpc⟩
            simp
          · intro halt herror
            cases herror
      | abort failure =>
        have hmonitor : (Halt.failed failure).isTracing = false :=
          isTracing_of_verdictOn_eq_abort hverdict
        exact h.ended hmonitor hclock (.aborted hmonitor) rfl rfl
      | grant g =>
        cases hchange with
        | grant _ hjudge =>
          have hstage₂ : stageOf (t₁ ++ [⟨.clock, now⟩]) = .idle := by
            simp [Stage.onExchange, hstage₁]
          refine Supervising.ensures_bind.2
            ((h.ensures_carryOut s hstage₂ hclock hjudge rfl).mono ?_ fun _ _ _ hbad => hbad)
          exact fun _ _ _ hgood => hgood
    · intro now e
      have hclock : eventsOf (t₁ ++ [⟨.clock, now⟩]) = eventsOf t ++ [.collected status] := by
        simp [Stage.onExchange, hshown]
      exact h.halted rfl hclock (by simp) rfl (phaseDuring_ne_aborted h.running)
  · intro t₁ halt htracing hevents₁
    exact h.halted htracing (hevents₁.trans hevents) (by simp) rfl (by simp [h.running])

/-- Whatever the kernel answers, the turns of a drive that is underway end faithfully. -/
theorem Underway.ensures_drive (s : Supervisor) (turns : Nat)
    (h : Underway layout rounds t run.monitor) :
    Supervising.Ensures (fun t run _ => Faithful layout t (.ok ()) run.monitor)
      (fun t run halt => Faithful layout t (.error halt) run.monitor) (s.drive turns) t run := by
  induction turns generalizing rounds t run with
  | zero =>
    -- the turns are used up, which is none of the monitor's failures
    exact h.halted rfl (List.append_nil _).symm (by simp) rfl (by simp [h.running])
  | succ turns ih =>
    refine Supervising.ensures_bind.2 ((h.ensures_checkBounds s).mono ?_ fun _ _ _ hbad => hbad)
    intro t run _ h
    refine Supervising.ensures_bind.2 (Supervising.ensures_ofTracing.2 (Tracing.ensures_poll
      (fun t => Underway layout rounds t run.monitor) s.patience h ?again ?none ?some ?refused
      ?impatient))
    case again =>
      intro t h
      exact h.quiet (by simp [Stage.onExchange, h.idle]) (by simp [Stage.onExchange])
    case none =>
      intro t h
      exact ih (h.quiet (by simp [Stage.onExchange, h.idle]) (by simp [Stage.onExchange]))
    case some =>
      intro t status h hnew
      have hcollected : eventsOf (t ++ [⟨.poll s.pid, .ok status⟩]) =
          eventsOf t ++ [.collected status] := by
        simp [Stage.onExchange, hnew]
      have hstage : stageOf (t ++ [⟨.poll s.pid, .ok status⟩]) = .idle := by
        simp [Stage.onExchange, h.idle]
      refine Supervising.ensures_bind.2
        ((h.ensures_handle s status hstage hcollected ⟨t, rfl⟩).mono ?_ fun _ _ _ hbad => hbad)
      rintro t run (_ | _) houtcome
      · rcases houtcome with ⟨rounds, hunderway⟩
        exact ih hunderway
      · exact houtcome
    case refused =>
      intro t errno h
      have hsame : eventsOf (t ++ [⟨.poll s.pid, .error errno⟩]) = eventsOf t ++ [] := by
        simp [Stage.onExchange]
      exact h.halted rfl hsame (by simp) rfl (by simp [h.running])
    case impatient =>
      intro t h
      exact h.halted rfl (List.append_nil _).symm (by simp) rfl (by simp [h.running])

/-! ## Whole drives -/

/-- A supervisor is made without asking anything. -/
theorem ensures_supervisor_eq {s : Sandbox .launched} {started wallLimit : Duration} {patience : Nat}
    {good : Transcript → Supervisor → Prop} {bad : Transcript → Halt → Prop}
    (hok : ∀ pid stub, good t ⟨pid, ⟨pid, stub, patience⟩, started, wallLimit, patience⟩)
    (hbad : ∀ halt, halt.isTracing → halt ≠ .impatient → bad t halt) :
    Tracing.Ensures good bad (s.supervisor started wallLimit patience) t := by
  refine Tracing.ensures_bind.2 ?_
  unfold Sandbox.process
  cases s.custody.pid with
  | none =>
    exact hbad _ rfl (by simp)
  | some pid =>
    refine Tracing.ensures_bind.2 (Tracing.ensures_bind.2 (Tracing.ensures_ofChecked ?_ ?_))
    · intro stub _
      exact hok pid stub
    · intro e _
      exact hbad _ rfl (by simp)

theorem ensures_supervisor {s : Sandbox .launched} {started wallLimit : Duration} {patience : Nat}
    {good : Transcript → Supervisor → Prop} {bad : Transcript → Halt → Prop}
    (hok : ∀ supervisor, good t supervisor) (hbad : ∀ halt, halt.isTracing → bad t halt) :
    Tracing.Ensures good bad (s.supervisor started wallLimit patience) t :=
  ensures_supervisor_eq (fun _ _ => hok _) fun halt htracing _ => hbad halt htracing

/-- Whatever the kernel and the caller answer and however the time passes, a drive of a launched sandbox
is faithful. -/
theorem drive_faithful {σ : Type} (s : Sandbox .launched) (limits : Limits)
    (started wallLimit : Duration) (turns : Nat) (answer : (c : Call) → σ → Answer c × σ) (k : σ) :
    let drive := s.drive (.start s.layout limits) started wallLimit turns
    Faithful s.layout (drive.transcript answer k) (drive.run answer k).1.1
      (drive.run answer k).1.2.monitor := by
  intro drive
  have hstart : Underway s.layout [] [] (.start s.layout limits) := .start s.layout limits
  have hdrive : drive.Ensures (fun t result => Faithful s.layout t result.1 result.2.monitor) [] := by
    have hturns : Supervising.Ensures (fun t run _ => Faithful s.layout t (.ok ()) run.monitor)
        (fun t run halt => Faithful s.layout t (.error halt) run.monitor)
        (do
          let supervisor ← Supervising.ofTracing (s.supervisor started wallLimit turns)
          supervisor.drive turns) [] ⟨s.custody, .start s.layout limits⟩ := by
      refine Supervising.ensures_bind.2 (Supervising.ensures_ofTracing.2 (ensures_supervisor ?_ ?_))
      · intro supervisor
        exact hstart.ensures_drive supervisor turns
      · intro halt htracing
        exact hstart.halted htracing rfl (by simp) rfl (by simp [hstart.running])
    refine Dialogue.Ensures.mono hturns ?_
    rintro t ⟨halt | _, run⟩ h
    · exact h
    · exact h
  exact hdrive.of_run answer k

end Drive

end Footprint
