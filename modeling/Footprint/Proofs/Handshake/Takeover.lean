import Footprint.Proofs.Handshake.Takedown

/-!
# Taking a fresh process over

A tracer reads the setup report of the process that it forked, waits until the process stopped, and sets
its options. As long as nobody disturbs the process, the report that is read is the one that the process
made, and behind the report that all steps succeeded there is nothing to wait for but the stop. So the
tracer comes to hold the process where it stopped, or the process is gone, and the tracer halts by the
failure that was reported or by the refusal of its options (`safe_awaitStop`).
-/

namespace Footprint

namespace Handshake

open Kernel

variable {α : Type} {plan : Setup.Plan} {pid : Pid} {patience : Nat} {s s' : Scene}
  {layout : Layout} {phase : SandboxPhase}

/-! ## Before and after the stop was told -/

/-- Nobody has signalled the process, and no stop of it was told. -/
structure Undisturbed (plan : Setup.Plan) (pid : Pid) (patience : Nat) (s : Scene) : Prop
    extends Fair plan pid patience s where
  spared : s.child.doomed = false
  untold : s.child.life ≠ .stopped true

/-- The process stopped, and its tracer was told. -/
structure Held (plan : Setup.Plan) (pid : Pid) (patience : Nat) (s : Scene) : Prop
    extends Fair plan pid patience s where
  spared : s.child.doomed = false
  held : s.child.life = .stopped true

theorem stable_undisturbed : Stable pid (Undisturbed plan pid patience) := by
  intro s s' h hgoes
  have hfair := persistent_fair.stable s s' h.toFair hgoes
  rcases s with ⟨⟨t, life, doomed⟩, n⟩
  rcases hgoes with ⟨child, hstep, rfl⟩
  cases hstep with
  | dieRunning => cases h.spared
  | dieStopped => cases h.spared
  | _ => exact ⟨hfair, h.spared, by rintro ⟨⟩⟩

theorem stable_held : Stable pid (Held plan pid patience) := by
  intro s s' h hgoes
  rcases s with ⟨⟨t, life, doomed⟩, n⟩
  rcases hgoes with ⟨child, hstep, rfl⟩
  obtain rfl : life = .stopped true := h.held
  cases hstep with
  | dieStopped => cases h.spared

theorem Held.stopped (h : Held plan pid patience s) : ⟨.stop, ()⟩ ∈ s.child.history := by
  have hfits := h.sound.fits
  rw [h.held] at hfits
  cases hfits with
  | stopped hstop => exact hstop

theorem Held.settled (h : Held plan pid patience s) : Settled plan pid patience s where
  toFair := h.toFair
  told := by
    rw [h.held]
    rintro ⟨⟩
  cause := .inl h.stopped

/-- A process that reported a failure has told everything. -/
theorem Undisturbed.settled {r : Setup.Report} (h : Undisturbed plan pid patience s)
    (hr : ⟨.report r, ()⟩ ∈ s.child.history) (hstage : r.stage ≠ Setup.Stage.ready.number) :
    Settled plan pid patience s where
  toFair := h.toFair
  told := by
    intro hlife
    have hfits := h.sound.fits
    rw [hlife] at hfits
    cases hfits with
    | stopped hstop => exact h.sound.not_stop hr hstage hstop
  cause := .inr ⟨r, hr, hstage⟩

/-! ## The report -/

/-- A process that ended reported before. -/
theorem Undisturbed.exists_report (h : Undisturbed plan pid patience s)
    (hover : ∃ status, s.child.life = .ended status ∨ s.child.life = .reaped status) :
    ∃ r, ⟨.report r, ()⟩ ∈ s.child.history := by
  have hfits := h.sound.fits
  rw [h.spared] at hfits
  rcases hover with ⟨status, hended | hreaped⟩
  · rw [hended] at hfits
    cases hfits with
    | ended hended =>
      rcases hended.exists_report with ⟨r, hr, _⟩
      exact ⟨r, hr⟩
  · rw [hreaped] at hfits
    cases hfits with
    | reaped hended =>
      rcases hended.exists_report with ⟨r, hr, _⟩
      exact ⟨r, hr⟩

/-- What can be read is a report as a whole. -/
theorem Undisturbed.report_of_answers {bytes : List UInt8} (h : Undisturbed plan pid patience s)
    (hanswer : Answers pid s (.readReport pid) bytes s') :
    s' = s ∧ ∃ r, ⟨.report r, ()⟩ ∈ s.child.history ∧ bytes = r.encode := by
  cases hanswer with
  | readReport hready =>
    have hreport : ∃ r, ⟨.report r, ()⟩ ∈ s.child.history := by
      rcases hready with hlength | hreported | hover
      · by_contra hnone
        have hnothing : s.child.sent = [] :=
          Setup.Child.flatMap_bytesOf_eq_nil fun r hr => hnone ⟨r, hr⟩
        rw [hnothing] at hlength
        cases hlength
      · exact hreported
      · exact h.exists_report hover
    rcases hreport with ⟨r, hr⟩
    refine ⟨rfl, r, hr, ?_⟩
    rw [h.sound.sent_eq hr, ← r.length_encode, List.take_length]

theorem Undisturbed.serves_readReport (h : Undisturbed plan pid patience s) :
    s.Serves pid (.readReport pid) := by
  have hread : s.child.IsSilent → s.Serves pid (.readReport pid) :=
    fun hsilent => .inr ⟨_, _, .readReport (.inr hsilent)⟩
  rcases s with ⟨⟨t, life, doomed⟩, n⟩
  cases life with
  | running rest =>
    rcases Setup.Child.exists_step_of_running pid t rest doomed with ⟨child, hstep⟩
    exact .inl ⟨_, child, hstep, rfl⟩
  | stopped told =>
    have hstop : (⟨.stop, ()⟩ : Setup.Exchange) ∈ t := by
      cases h.sound.fits
      assumption
    exact hread (.inl ⟨_, h.sound.ready_of_stop hstop⟩)
  | ended status => exact hread (.inr ⟨status, .inl rfl⟩)
  | reaped status => exact hread (.inr ⟨status, .inr rfl⟩)

/-- The halt by a failure that was reported. -/
def haltOf (r : Setup.Report) : Halt :=
  .failed (.setup (.stepFailed r.stage ⟨r.errno.toInt⟩))

/-- Why a tracer halts: the process reported a failure, or it stopped and options could not be set. -/
inductive Explains (s : Scene) : Halt → Prop where
  | reported {r : Setup.Report} (hr : ⟨.report r, ()⟩ ∈ s.child.history)
      (hstage : r.stage ≠ Setup.Stage.ready.number) : Explains s (haltOf r)
  | refused (errno : Errno) (hstop : ⟨.stop, ()⟩ ∈ s.child.history) :
      Explains s (.failed (.setup (.refused .traceOptions errno)))

theorem Explains.of_subset {halt : Halt} (h : Explains s halt)
    (hsubset : s.child.history ⊆ s'.child.history) : Explains s' halt := by
  cases h with
  | reported hr hstage => exact .reported (hsubset hr) hstage
  | refused errno hstop => exact .refused errno (hsubset hstop)

theorem persistent_explains (halt : Halt) : Persistent pid fun s => Explains s halt where
  stable := by
    rintro s _ h ⟨child, hstep, rfl⟩
    exact h.of_subset hstep.subset
  answer := by
    intro s c reply s' h hanswer
    exact h.of_subset (hanswer.history_eq ▸ List.Subset.refl _)

/-- The process has told everything, and why the tracer halts. -/
def Failing (plan : Setup.Plan) (pid : Pid) (patience : Nat) (halt : Halt) (s : Scene) : Prop :=
  Settled plan pid patience s ∧ Explains s halt

theorem stable_failing (halt : Halt) : Stable pid (Failing plan pid patience halt) :=
  stable_settled.and (persistent_explains halt).stable

/-- The process is left alone and made the report. -/
def Reporting (plan : Setup.Plan) (pid : Pid) (patience : Nat) (r : Setup.Report) (s : Scene) : Prop :=
  Undisturbed plan pid patience s ∧ ⟨.report r, ()⟩ ∈ s.child.history

theorem stable_reporting (r : Setup.Report) : Stable pid (Reporting plan pid patience r) :=
  stable_undisturbed.and (persistent_mem _).stable

/-- A report is read as the process made it. -/
theorem safe_readReport (h : Undisturbed plan pid patience s) :
    Safe pid (Outcome (Reporting plan pid patience) fun _ _ => False) (Tracing.readReport pid).run
      s := by
  refine safe_run_ask stable_undisturbed h (fun s h => h.serves_readReport) ?_
  intro s bytes s' h hanswer
  rcases h.report_of_answers hanswer with ⟨rfl, r, hr, rfl⟩
  have hwhole : ¬ r.encode.length < Setup.Report.len := by
    rw [r.length_encode]
    exact Nat.lt_irrefl _
  rw [if_neg hwhole, r.decode_encode]
  exact safe_pure (stable_reporting r) ⟨h, hr⟩

/-- A tracer goes on only behind the report that all steps succeeded. -/
theorem safe_readReady (h : Undisturbed plan pid patience s) :
    Safe pid (Outcome
      (fun r s => r = .ready plan.codeLocation ∧ Reporting plan pid patience r s)
      (Failing plan pid patience)) (Sandbox.readReady pid).run s := by
  refine safe_run_bind stable_failing (safe_readReport h).of_unhalting ?_
  rintro r s ⟨h, hr⟩
  split
  next hready =>
    exact safe_pure ((stable_const _).and (stable_reporting r)) ⟨h.sound.eq_ready hr hready, h, hr⟩
  next hfailed => exact safe_pure (stable_failing _) ⟨h.settled hr hfailed, .reported hr hfailed⟩

/-! ## The stop -/

/-- A process that reported that it is ready runs still, or stopped. -/
theorem Reporting.serves_wait (h : Reporting plan pid patience (.ready plan.codeLocation) s) :
    s.Serves pid (.wait pid) := by
  rcases s with ⟨⟨t, life, doomed⟩, n⟩
  cases life with
  | running rest =>
    rcases Setup.Child.exists_step_of_running pid t rest doomed with ⟨child, hstep⟩
    exact .inl ⟨_, child, hstep, rfl⟩
  | stopped told =>
    cases told with
    | false => exact .inr ⟨_, _, .tellStop⟩
    | true => exact absurd rfl h.1.untold
  | ended status => exact .inr ⟨_, _, .reap⟩
  | reaped status => exact .inr ⟨_, _, .noChild⟩

/-- A process that reported that it is ready has not ended. -/
theorem Reporting.not_ended {status : WaitStatus}
    (h : Reporting plan pid patience (.ready plan.codeLocation) s)
    (hended : Setup.Child.EndedBy plan pid s.child.history s.child.doomed status) : False := by
  rcases h with ⟨h, hready⟩
  rw [h.spared] at hended
  rcases hended.exists_report with ⟨r, hr, hstage⟩
  rw [h.sound.report_unique hr hready] at hstage
  exact hstage rfl

/-- What is waited for is the stop. -/
theorem safe_wait {n : Nat} (hle : n ≤ patience)
    (h : Reporting plan pid n (.ready plan.codeLocation) s) :
    Safe pid (Outcome (fun status s => status = .stopped pid .stop ∧ Held plan pid patience s)
      fun _ _ => False) (Tracing.wait pid n).run s := by
  have huninterrupted : Safe pid (Outcome (fun (reply : Except Errno WaitStatus) s =>
      reply = .ok (.stopped pid .stop) ∧ Held plan pid patience s) fun (_ : Halt) _ => False)
      (Tracing.uninterrupted (ask (.wait pid)) n).run s := by
    induction n generalizing s with
    | zero => exact absurd h.1.patient (Nat.not_lt_zero _)
    | succ n ih =>
      refine safe_run_ask (stable_reporting _) h (fun s h => h.serves_wait) ?_
      intro s reply s' h hanswer
      have hsound := hanswer.sound h.1.sound
      cases hanswer with
      | interrupt =>
        exact ih (Nat.le_of_succ_le hle)
          ⟨⟨⟨hsound, Nat.lt_of_succ_lt_succ h.1.patient⟩, h.1.spared, h.1.untold⟩, h.2⟩
      | tellStop =>
        exact safe_pure ((stable_const _).and stable_held)
          ⟨rfl, ⟨hsound, Nat.lt_of_lt_of_le h.1.patient hle⟩, h.1.spared, rfl⟩
      | reap =>
        have hfits := h.1.sound.fits
        cases hfits with
        | ended hended => exact (h.not_ended hended).elim
      | noChild =>
        have hfits := h.1.sound.fits
        cases hfits with
        | reaped hended => exact (h.not_ended hended).elim
  refine safe_run_bind (fun _ => stable_const _) huninterrupted ?_
  rintro _ s ⟨rfl, hheld⟩
  exact safe_pure ((stable_const _).and stable_held) ⟨rfl, hheld⟩

theorem safe_setOptions (h : Held plan pid patience s) :
    Safe pid (Outcome (fun _ s => Held plan pid patience s) (Failing plan pid patience))
      (Tracing.setOptions pid).run s := by
  refine safe_run_ask stable_held h (fun s _ => .inr ⟨.ok (), s, .traceOptions _⟩) ?_
  intro s reply s' h hanswer
  cases hanswer with
  | traceOptions =>
    rcases reply with errno | ⟨⟩
    · exact safe_pure (stable_failing _) ⟨h.settled, .refused errno h.stopped⟩
    · exact safe_pure stable_held h

/-- What a tracer has in its hands at last. -/
def Brought (plan : Setup.Plan) (pid : Pid) (patience : Nat) (layout : Layout)
    (sandbox : Sandbox .stopped) (s : Scene) : Prop :=
  sandbox = ⟨.of pid, layout⟩ ∧ Held plan pid patience s

theorem stable_brought (sandbox : Sandbox .stopped) :
    Stable pid (Brought plan pid patience layout sandbox) :=
  (stable_const _).and stable_held

/-- A process that stopped is taken over, unless options cannot be set. -/
theorem safe_takeOver {r : Setup.Report} (hr : r.codeAddr = layout.codeLocation)
    (h : Held plan pid patience s) :
    Safe pid (Outcome (Brought plan pid patience layout) (Failing plan pid patience))
      ((Sandbox.mk (.of pid) layout : Sandbox .forked).takeOver pid r).run s := by
  refine safe_run_bind stable_failing (safe_setOptions h) fun _ s h => ?_
  rw [if_pos hr]
  exact safe_pure (stable_brought _) ⟨rfl, h⟩

/-! ## The sandbox -/

/-- The process is gone, and why the tracer halts. -/
def Failed (plan : Setup.Plan) (pid : Pid) (halt : Halt) (s : Scene) : Prop :=
  Reaped plan pid s ∧ Explains s halt

theorem stable_failed (halt : Halt) : Stable pid (Failed plan pid halt) :=
  stable_reaped.and (persistent_explains halt).stable

/-- A step of a sandbox that halts leaves no process behind. -/
theorem safe_orRelease {program : Tracing α} {good : α → Scene → Prop} (hgood : ∀ a, Stable pid (good a))
    (h : Safe pid (Outcome good (Failing plan pid patience)) program.run s) :
    Safe pid (Outcome good (Failed plan pid))
      ((Sandbox.mk (.of pid) layout : Sandbox phase).orRelease patience program).run s := by
  refine safe_run_bind stable_failed (safe_run_lift (stable_outcome hgood stable_failing) h) ?_
  rintro (halt | a) s h
  · rcases h with ⟨hsettled, hexplains⟩
    have hrelease := (safe_release hsettled).and_persistent (persistent_explains halt) hexplains
    refine safe_run_bind stable_failed (safe_run_lift (fun _ => stable_failed halt) hrelease) ?_
    exact fun _ s h => safe_pure (stable_failed halt) h
  · exact safe_pure (hgood a) h

/-- A tracer comes to hold the process, or the process is gone and it is said why. -/
theorem safe_awaitStop (hplace : plan.codeLocation = layout.codeLocation)
    (h : Undisturbed plan pid patience s) :
    Safe pid (Outcome (Brought plan pid patience layout) (Failed plan pid))
      ((Sandbox.mk (.of pid) layout : Sandbox .forked).awaitStop patience).run s := by
  have hprocess : Safe pid
      (Outcome (fun process s => process = pid ∧ Undisturbed plan pid patience s) (Failed plan pid))
      (Sandbox.mk (.of pid) layout : Sandbox .forked).process.run s :=
    safe_pure ((stable_const _).and stable_undisturbed) ⟨rfl, h⟩
  refine safe_run_bind stable_failed hprocess ?_
  rintro _ s ⟨rfl, h⟩
  refine safe_run_bind stable_failed
    (safe_orRelease (fun _ => (stable_const _).and (stable_reporting _)) (safe_readReady h)) ?_
  rintro _ s ⟨rfl, h⟩
  refine safe_run_bind stable_failed
    (safe_orRelease (fun _ => (stable_const _).and stable_held)
      (safe_wait (Nat.le_refl patience) h).of_unhalting) ?_
  rintro _ s ⟨rfl, h⟩
  exact safe_orRelease stable_brought (safe_takeOver hplace h)

end Handshake

end Footprint
