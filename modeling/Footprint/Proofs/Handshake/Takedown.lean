import Footprint.Proofs.Handshake.System
import Footprint.Sandbox

/-!
# Taking a fresh process down

Whatever becomes of the tracer and the process, the process stays sound and the tracer is patient enough
for the interruptions that are left (`Fair`). Giving up custody of a process that has told everything it
had to tell kills it, unless it ended before, and goes on until its end is collected (`safe_release`).
-/

namespace Footprint

namespace Handshake

open Kernel

variable {plan : Setup.Plan} {pid : Pid} {patience : Nat} {s s' : Scene}

/-! ## What stays -/

/-- The process is sound, and a wait is interrupted less often than the tracer bears. -/
structure Fair (plan : Setup.Plan) (pid : Pid) (patience : Nat) (s : Scene) : Prop where
  sound : s.child.Sound plan pid
  patient : s.interruptions < patience

/-- What the tracer does to the process keeps it sound. -/
theorem Answers.sound {c : Call} {reply : Answer c} (h : Answers pid s c reply s')
    (hs : s.child.Sound plan pid) : s'.child.Sound plan pid := by
  cases h with
  | readReport => exact hs
  | interrupt => exact hs
  | tellStop =>
    rcases hs with ⟨hconforms, hpossible, hfits⟩
    cases hfits with
    | stopped hstop => exact ⟨hconforms, hpossible, .stopped hstop⟩
  | reap =>
    rcases hs with ⟨hconforms, hpossible, hfits⟩
    cases hfits with
    | ended hended => exact ⟨hconforms, hpossible, .reaped hended⟩
  | noChild => exact hs
  | kill => exact hs.doom
  | noProcess => exact hs
  | traceOptions => exact hs

theorem Answers.interruptions_le {c : Call} {reply : Answer c} (h : Answers pid s c reply s') :
    s'.interruptions ≤ s.interruptions := by
  cases h
  case interrupt => exact Nat.le_succ _
  all_goals exact Nat.le_refl _

theorem Answers.history_eq {c : Call} {reply : Answer c} (h : Answers pid s c reply s') :
    s'.child.history = s.child.history := by
  cases h
  all_goals rfl

theorem persistent_fair : Persistent pid (Fair plan pid patience) where
  stable := by
    rintro s _ ⟨hsound, hpatient⟩ ⟨child, hstep, rfl⟩
    exact ⟨hsound.step hstep, hpatient⟩
  answer := by
    rintro s c reply s' ⟨hsound, hpatient⟩ hanswer
    exact ⟨hanswer.sound hsound, Nat.lt_of_le_of_lt hanswer.interruptions_le hpatient⟩

/-- What a process did is not undone. -/
theorem persistent_mem (x : Setup.Exchange) : Persistent pid fun s => x ∈ s.child.history where
  stable := by
    rintro s _ hx ⟨child, hstep, rfl⟩
    exact hstep.subset hx
  answer := by
    intro s c reply s' hx hanswer
    rwa [hanswer.history_eq]

/-! ## Processes that have told everything -/

/-- The process stopped and that was told, or it reported a failure. -/
structure Settled (plan : Setup.Plan) (pid : Pid) (patience : Nat) (s : Scene) : Prop
    extends Fair plan pid patience s where
  told : s.child.life ≠ .stopped false
  cause : ⟨.stop, ()⟩ ∈ s.child.history ∨
    ∃ r, ⟨.report r, ()⟩ ∈ s.child.history ∧ r.stage ≠ Setup.Stage.ready.number

/-- The process is dying, or gone already. -/
structure Condemned (plan : Setup.Plan) (pid : Pid) (patience : Nat) (s : Scene) : Prop
    extends Settled plan pid patience s where
  condemned : s.child.doomed = true ∨ ∃ status, s.child.life = .reaped status

/-- The end of the process was collected. -/
structure Reaped (plan : Setup.Plan) (pid : Pid) (s : Scene) : Prop where
  sound : s.child.Sound plan pid
  reaped : ∃ status, s.child.life = .reaped status

theorem stable_settled : Stable pid (Settled plan pid patience) := by
  intro s s' h hgoes
  have hfair := persistent_fair.stable s s' h.toFair hgoes
  have hcause : ⟨.stop, ()⟩ ∈ s'.child.history ∨
      ∃ r, ⟨.report r, ()⟩ ∈ s'.child.history ∧ r.stage ≠ Setup.Stage.ready.number := by
    rcases h.cause with hstop | ⟨r, hr, hstage⟩
    · exact .inl ((persistent_mem _).stable s s' hstop hgoes)
    · exact .inr ⟨r, (persistent_mem _).stable s s' hr hgoes, hstage⟩
  refine ⟨hfair, ?_, hcause⟩
  -- a process that stops now has not stopped before, and has not reported a failure either
  intro hlife
  rcases s with ⟨⟨t, life, doomed⟩, n⟩
  rcases hgoes with ⟨child, hstep, rfl⟩
  cases hstep with
  | stop =>
    have hstop : (⟨.stop, ()⟩ : Setup.Exchange) ∈ t ++ [⟨.stop, ()⟩] := by simp
    rcases h.cause with hstopped | ⟨r, hr, hstage⟩
    · rcases h.sound.fits with ⟨_, hrunning⟩
      exact hrunning hstopped
    · exact hfair.sound.not_stop (List.mem_append_left _ hr) hstage hstop
  | answer => cases hlife
  | exit => cases hlife
  | dieRunning => cases hlife
  | dieStopped => cases hlife
  | forget => cases hlife

theorem stable_condemned : Stable pid (Condemned plan pid patience) := by
  intro s s' h hgoes
  refine ⟨stable_settled s s' h.toSettled hgoes, ?_⟩
  rcases s with ⟨⟨t, life, doomed⟩, n⟩
  rcases hgoes with ⟨child, hstep, rfl⟩
  rcases h.condemned with hdoomed | ⟨status, hreaped⟩
  · refine .inl ?_
    change doomed = true at hdoomed
    subst hdoomed
    cases hstep
    all_goals rfl
  · change life = .reaped status at hreaped
    subst hreaped
    cases hstep

theorem stable_reaped : Stable pid (Reaped plan pid) := by
  rintro ⟨⟨t, life, doomed⟩, n⟩ _ ⟨_, status, hreaped⟩ ⟨child, hstep, rfl⟩
  change life = .reaped status at hreaped
  subst hreaped
  cases hstep

/-! ## Collecting the end -/

theorem Condemned.serves_wait (h : Condemned plan pid patience s) : s.Serves pid (.wait pid) := by
  rcases s with ⟨⟨t, life, doomed⟩, n⟩
  cases life with
  | running rest =>
    rcases Setup.Child.exists_step_of_running pid t rest doomed with ⟨child, hstep⟩
    exact .inl ⟨_, child, hstep, rfl⟩
  | stopped told =>
    rcases h.condemned with hdoomed | ⟨status, hreaped⟩
    · change doomed = true at hdoomed
      subst hdoomed
      exact .inl ⟨_, _, .dieStopped false, rfl⟩
    · cases hreaped
  | ended status => exact .inr ⟨_, _, .reap⟩
  | reaped status => exact .inr ⟨_, _, .noChild⟩

theorem safe_collect (report : TeardownReport) (h : Condemned plan pid patience s) :
    Safe pid (fun _ s => Reaped plan pid s) (Custody.collect pid report patience) s := by
  induction patience generalizing s with
  | zero => exact absurd h.patient (Nat.not_lt_zero _)
  | succ patience ih =>
    refine safe_ask stable_condemned h (fun s h => h.serves_wait) ?_
    intro s reply s' h hanswer
    have hsound := hanswer.sound h.sound
    cases hanswer with
    | interrupt =>
      exact ih ⟨⟨⟨hsound, Nat.lt_of_succ_lt_succ h.patient⟩, h.told, h.cause⟩, h.condemned⟩
    | tellStop => exact absurd rfl h.told
    | reap =>
      rcases h.sound.fits with _ | _ | hended
      simp only [hended.isTerminal, if_true]
      exact safe_pure stable_reaped ⟨hsound, _, rfl⟩
    | noChild => exact safe_pure stable_reaped ⟨hsound, _, rfl⟩

/-- A signal is answered at once. -/
theorem Scene.serves_kill (s : Scene) : s.Serves pid (.kill pid) := by
  rcases s with ⟨⟨t, life, doomed⟩, n⟩
  cases life with
  | reaped status => exact .inr ⟨_, _, .noProcess⟩
  | running rest => exact .inr ⟨_, _, .kill (by rintro _ ⟨⟩)⟩
  | stopped told => exact .inr ⟨_, _, .kill (by rintro _ ⟨⟩)⟩
  | ended status => exact .inr ⟨_, _, .kill (by rintro _ ⟨⟩)⟩

theorem safe_killAndCollect (h : Settled plan pid patience s) :
    Safe pid (fun _ s => Reaped plan pid s) (Custody.killAndCollect pid patience) s := by
  refine safe_ask stable_settled h (fun s _ => s.serves_kill) ?_
  intro s reply s' h hanswer
  have hsound := hanswer.sound h.sound
  cases hanswer with
  | kill => exact safe_collect _ ⟨⟨⟨hsound, h.patient⟩, h.told, h.cause⟩, .inl rfl⟩
  | noProcess => exact safe_collect _ ⟨h, .inr ⟨_, rfl⟩⟩

/-- Giving custody up leaves no process behind. -/
theorem safe_release (h : Settled plan pid patience s) :
    Safe pid (fun _ s => Reaped plan pid s) ((Custody.of pid).release patience) s := by
  have hteardown : Safe pid (fun _ s => Reaped plan pid s) ((Custody.of pid).teardown patience) s := by
    refine safe_bind ((safe_killAndCollect h).mono ?_)
    rintro (obstacle | report) s hreaped
    all_goals exact safe_pure stable_reaped hreaped
  exact safe_bind (hteardown.mono fun _ s hreaped => safe_pure stable_reaped hreaped)

end Handshake

end Footprint
