import Footprint.Proofs.Custody.Reaping
import Footprint.Proofs.Discovery.Conduct
import Footprint.Proofs.Layout
import Footprint.Proofs.Supervision.Soundness

/-!
# What the outcome of a discovery tells

An outcome says which process there was, whether its block was started, how many grants were carried out
and what taking the process down came to. All of it shows in what was asked and answered
(`Outcome.Attests`): the process is the one that was forked, the block was started if it was resumed up to
its next system call, and an end is missing from the report if the killed process turned out to be nobody's
child.
-/

namespace Footprint

open Kernel

namespace Kernel

/-- A process was killed and then waited for, and there was no such child. -/
def LosesEnd (t : Transcript) : Prop :=
  ∃ pid reply, [⟨.kill pid, reply⟩, ⟨.wait pid, .error .noChild⟩].Sublist t

variable {t : Transcript} {x : Exchange}

theorem losesEnd_concat_iff : LosesEnd (t ++ [x]) ↔
    LosesEnd t ∨ ∃ pid reply, ⟨.kill pid, reply⟩ ∈ t ∧ x = ⟨.wait pid, .error .noChild⟩ := by
  constructor
  · rintro ⟨pid, reply, h⟩
    rcases List.sublist_append_iff.1 h with ⟨before, last, heq, hbefore, hlast⟩
    have hends : last = [] ∨ last = [x] := by
      cases hlast with
      | cons _ hnil => exact .inl (List.sublist_nil.1 hnil)
      | cons_cons _ hnil => exact .inr (congrArg _ (List.sublist_nil.1 hnil))
    rcases hends with rfl | rfl
    · rw [List.append_nil] at heq
      exact .inl ⟨pid, reply, heq ▸ hbefore⟩
    · have hsplit : [⟨.kill pid, reply⟩] ++ [⟨.wait pid, .error .noChild⟩] = before ++ [x] := heq
      rcases List.append_inj' hsplit rfl with ⟨rfl, hx⟩
      exact .inr ⟨pid, reply, List.singleton_sublist.1 hbefore, (List.singleton_inj.1 hx).symm⟩
  · rintro (⟨pid, reply, h⟩ | ⟨pid, reply, hmem, rfl⟩)
    · exact ⟨pid, reply, h.trans (List.sublist_append_left _ _)⟩
    · exact ⟨pid, reply, (List.singleton_sublist.2 hmem).append (List.Sublist.refl _)⟩

theorem Unkilled.not_losesEnd (h : Unkilled t) : ¬ LosesEnd t := by
  rintro ⟨pid, reply, hsub⟩
  have hkill := h ⟨.kill pid, reply⟩ (hsub.subset List.mem_cons_self)
  cases hkill

end Kernel

variable {t : Transcript} {pid : Pid} {layout : Layout} {run : Run}

/-! ## Taking the process down -/

/-- The process is not known to have ended: there was one, and no end of it was collected. -/
def TeardownReport.isUnreaped (report : TeardownReport) : Bool :=
  report.pid.isSome && !report.reaped

namespace Custody

/-- A report without an end is one for an end that was lost. -/
def Reports (t : Transcript) (teardown : Option TeardownReport) : Prop :=
  teardown.any (·.isUnreaped) = true ↔ LosesEnd t

theorem Reports.of_kept {teardown : Option TeardownReport} (h : teardown.any (·.isUnreaped) = false)
    (hkept : ¬ LosesEnd t) : Reports t teardown := by
  simp [Reports, h, hkept]

/-- Until the end of a killed process is collected, it is lost by the answer that there is no child. -/
theorem ensures_collect_reports {report : TeardownReport} {reply : Except Errno Unit} (patience : Nat)
    (hunreaped : report.isUnreaped = true) (hkilled : ⟨.kill pid, reply⟩ ∈ t) (h : ¬ LosesEnd t) :
    (collect pid report patience).Ensures (fun t answer => Reports t answer.toOption) t := by
  induction patience generalizing t with
  | zero => exact .of_kept rfl h
  | succ patience ih =>
    have hstill (answer : Except Errno WaitStatus) (hother : answer ≠ .error .noChild) :
        ¬ LosesEnd (t ++ [⟨.wait pid, answer⟩]) := by
      rintro hloses
      rcases losesEnd_concat_iff.1 hloses with hearlier | ⟨pid', reply, _, heq⟩
      · exact h hearlier
      · cases heq
        exact hother rfl
    refine Dialogue.ensures_call_bind.2 ?_
    rintro (errno | status)
    · dsimp only
      split
      next hagain =>
        subst hagain
        exact ih (List.mem_append_left _ hkilled) (hstill _ (by decide))
      split
      next hlost =>
        subst hlost
        exact ⟨fun _ => losesEnd_concat_iff.2 (.inr ⟨pid, reply, hkilled, rfl⟩),
          fun _ => by simpa [Except.toOption] using hunreaped⟩
      next hother =>
        refine .of_kept rfl (hstill _ ?_)
        rintro ⟨⟩
        exact hother rfl
    · dsimp only
      split
      next hterminal =>
        refine .of_kept ?_ (hstill _ (by simp))
        simp [Except.toOption, TeardownReport.isUnreaped, reaped_withEnd hterminal]
      next => exact ih (List.mem_append_left _ hkilled) (hstill _ (by simp))

theorem ensures_teardown_reports {c : Custody} (patience : Nat) (hunkilled : Unkilled t)
    (h : InCustody t c) :
    (c.teardown patience).Ensures (fun t answer => Reports t answer.1.toOption) t := by
  cases h with
  | held hheld =>
    rename_i pid
    have hkill : (killAndCollect pid patience).Ensures (fun t answer => Reports t answer.toOption) t := by
      refine Dialogue.ensures_call_bind.2 fun reply => ?_
      have hquiet : ¬ LosesEnd (t ++ [⟨.kill pid, reply⟩]) := by
        intro hloses
        rcases losesEnd_concat_iff.1 hloses with hearlier | ⟨_, _, _, heq⟩
        · exact hunkilled.not_losesEnd hearlier
        · cases heq
      have hkilled : ⟨.kill pid, reply⟩ ∈ t ++ [⟨.kill pid, reply⟩] := by simp
      rcases reply with errno | ⟨⟩
      · dsimp only
        split
        · exact ensures_collect_reports patience rfl hkilled hquiet
        · exact .of_kept rfl hquiet
      · exact ensures_collect_reports patience rfl hkilled hquiet
    refine (Dialogue.ensures_bind _ _).2 (hkill.mono ?_)
    rintro t (obstacle | report) h
    · exact h
    · exact h
  | noted hsettled hreaped =>
    refine .of_kept ?_ hunkilled.not_losesEnd
    simp [Except.toOption, TeardownReport.isUnreaped, hreaped]

end Custody

/-! ## Whole discoveries -/

/-- The outcome says what the transcript shows. -/
structure Outcome.Attests (o : Outcome) (t : Transcript) : Prop where
  pid_eq : o.pid = forkedIn t
  launched_eq : o.launched = isLaunched t
  -- Every grant that was carried out made one more block accessible.
  counted : o.iterations.toNat = o.blocks
  reports : o.launched = true → Custody.Reports t o.teardown

/-- Nothing but the process can be told of a discovery whose block was not started. -/
theorem Outcome.attests_beforeLaunch {process : Option Pid} (failure : Failure)
    (hforked : forkedIn t = process) (hlaunched : isLaunched t = false) :
    (Outcome.beforeLaunch failure process).Attests t where
  pid_eq := hforked.symm
  launched_eq := hlaunched.symm
  counted := rfl
  reports := by
    rintro ⟨⟩

namespace Discovery

open Tracing Custody

variable {code : Code} {config : Config} {host : Host}

/-- Summing a run up tells what its monitor counted and what teardown reports. -/
theorem attests_sumUp (ended : Except Failure Unit) (patience : Nat) (hgoing : Going pid t)
    (hcustody : InCustody t run.custody) (hsound : run.monitor.Sound) :
    Tracing.Ensures (fun t outcome => outcome.Attests t) (fun _ _ => True)
      ((Sandbox.mk (.of pid) layout : Sandbox .launched).sumUp run ended patience) t := by
  have hgone : (run.custody.teardown patience).Ensures
      (fun t _ => forkedIn t = some pid ∧ isLaunched t = true) t :=
    Dialogue.ensures_of_persistent
      (fun t x h => ⟨forkedIn_concat_of_some h.1, by simp [h.2]⟩) _ ⟨hgoing.forked, hgoing.launched⟩
  refine ensures_bind.2 ((ensures_lift _).2 ((Dialogue.ensures_bind _ _).2
    (((ensures_teardown_reports patience hgoing.unkilled hcustody).and hgone).mono ?_)))
  rintro t ⟨(_ | _) | report, custody⟩ ⟨hreports, hforked, hlaunched⟩
  · exact ⟨hforked.symm, hlaunched.symm, hsound.counted, fun _ => hreports⟩
  · trivial
  · exact ⟨hforked.symm, hlaunched.symm, hsound.counted, fun _ => hreports⟩

theorem ensures_drive_run (config : Config) (bound : Nat) (started : Duration) (hgoing : Going pid t)
    (hliving : Living t) (hgranule : Addr.isGranule layout.blockSize = true) :
    ((Sandbox.mk (.of pid) layout : Sandbox .launched).drive (.start layout config.limits) started
      config.wallLimit bound).Ensures
      (fun t result => Going pid t ∧ InCustody t result.2.custody ∧ result.2.monitor.Sound) t := by
  have hsound : (Monitor.start layout config.limits).Sound := .start hgranule config.limits
  have hheld : InCustody t (.of pid) := .held (.inl hliving)
  let program : Supervising Unit := do
    let supervisor ← Supervising.ofTracing
      ((Sandbox.mk (.of pid) layout : Sandbox .launched).supervisor started config.wallLimit bound)
    supervisor.drive bound
  have hstub (allowed : Call → Prop) : Tracing.Asks allowed
      ((Sandbox.mk (.of pid) layout : Sandbox .launched).supervisor started config.wallLimit bound) :=
    (Tracing.asks_pure pid).bind fun _ => Tracing.Asks.bind
      ((Tracing.asks_ofChecked _).bind fun _ => Tracing.asks_pure _) fun _ => Tracing.asks_pure _
  have hquiet : Supervising.Asks (isKill · = false) program :=
    (Supervising.asks_ofTracing (hstub _)).bind fun _ => Supervisor.asks_drive bound
  have hkept : Supervising.Preserves Supervisor.MonitorSound program :=
    (Supervising.preserves_ofTracing _).bind fun _ => Supervisor.sound_drive bound
  have hcustody : Supervising.Ensures (fun t run _ => InCustody t run.custody)
      (fun t run _ => InCustody t run.custody) program t ⟨.of pid, .start layout config.limits⟩ := by
    refine Supervising.ensures_bind.2 (Supervising.ensures_ofTracing.2 ?_)
    refine ensures_bind.2 ((ensures_pure pid).2 (ensures_bind.2 (ensures_bind.2
      (ensures_ofChecked (fun stub _ => ?_) fun _ _ => hheld))))
    exact Supervisor.ensures_drive_custody rfl rfl bound hliving rfl
  have hgoes := (hquiet ⟨.of pid, .start layout config.limits⟩).ensures
    (fun _ _ hx h => Going.concat h hx) hgoing
  refine ((hgoes.and hcustody).and (hkept t ⟨.of pid, .start layout config.limits⟩ hsound)).mono ?_
  rintro t ⟨halt | _, run⟩ ⟨⟨hgoing, hcustody⟩, hsound⟩
  all_goals exact ⟨hgoing, hcustody, hsound⟩

theorem attests_finish (config : Config) (bound : Nat) (hgoing : Going pid t) (hliving : Living t)
    (hgranule : Addr.isGranule layout.blockSize = true) :
    Tracing.Ensures (fun t outcome => outcome.Attests t) (fun _ _ => True)
      ((Sandbox.mk (.of pid) layout : Sandbox .launched).finish config bound) t := by
  refine ensures_bind.2 ((ensures_lift (Kernel.ask .clock)).2 fun started => ?_)
  refine ensures_bind.2 ((ensures_lift _).2 ((ensures_drive_run config bound started (hgoing.concat rfl)
    (hliving.concat rfl) hgranule).mono ?_))
  rintro t ⟨halt | _, run⟩ ⟨hgoing, hcustody, hsound⟩
  · cases halt with
    | failed failure => exact attests_sumUp _ bound hgoing hcustody hsound
    | _ =>
      refine ensures_bind.2 ((ensures_lift _).2 ?_)
      exact Dialogue.ensures_of_persistent (fun _ _ _ => trivial) _ trivial
  · exact attests_sumUp _ bound hgoing hcustody hsound

/-- Whatever the kernel and the caller answer, the outcome of a discovery says what was asked and
answered. -/
theorem attests_perform (code : Code) (config : Config) (host : Host) :
    Tracing.Ensures (fun t outcome => outcome.Attests t) (fun _ _ => True) (perform code config host)
      [] := by
  refine ensures_bind.2 ((ensures_lift (Kernel.ask .cancelled)).2 fun cancelled => ?_)
  have hunforked : Unforked ([] ++ [⟨.cancelled, cancelled⟩]) :=
    ⟨rfl, rfl, by simp [Unkilled, isKill]⟩
  have hliving : Living ([] ++ [⟨.cancelled, cancelled⟩]) := living_nil.concat rfl
  cases cancelled with
  | true => exact Outcome.attests_beforeLaunch _ rfl rfl
  | false =>
    have hspawn := (Sandbox.ensures_spawn_coming code config host hunforked).and
      (Sandbox.ensures_spawn code config host hliving (fun t draw h => h.concat rfl)
        (fun t reply h => h.concat rfl) fun t layout reportTo reply _ h => h.concat rfl)
    refine ensures_bind.2 (ensures_catchFailure (hspawn.mono ?_ ?_))
    · rintro t ⟨_, layout⟩ ⟨⟨pid, hcoming, ⟨⟩⟩, hliving, hstarted, -⟩
      rcases hstarted.planned with ⟨draw, hplan⟩
      refine ensures_bind.2 (ensures_catchFailure
        (((Sandbox.ensures_launch config config.turns hcoming).and
          (Sandbox.brings_launch config config.turns t hliving)).mono ?_ ?_))
      · rintro t _ ⟨⟨hgoing, rfl⟩, hliving, -⟩
        exact attests_finish config config.turns hgoing hliving (Layout.isGranule_of_plan hplan)
      · rintro t halt ⟨hunlaunched, -⟩
        exact ⟨fun failure _ =>
          Outcome.attests_beforeLaunch failure hunlaunched.forked hunlaunched.unlaunched, trivial⟩
    · rintro t halt ⟨hunforked, -⟩
      exact ⟨fun failure _ =>
        Outcome.attests_beforeLaunch failure hunforked.unforked hunforked.unlaunched, trivial⟩

/-- The same of one run. -/
theorem attests_of_perform {σ : Type} {kernel : (c : Call) → σ → Answer c × σ} {k : σ} {o : Outcome}
    (h : ((perform code config host).run.run kernel k).1 = .ok o) :
    o.Attests ((perform code config host).run.transcript kernel k) := by
  have hall := Dialogue.Ensures.of_run (attests_perform code config host) kernel k
  rw [h] at hall
  exact hall

end Discovery

end Footprint
