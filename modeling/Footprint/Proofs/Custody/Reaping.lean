import Footprint.Discovery
import Footprint.Machine.World
import Footprint.Proofs.Admission
import Footprint.Proofs.Custody.Launch
import Footprint.Proofs.Supervision.Rules

/-!
# Ended processes are left alone

Over a whole discovery a process is left alone once its end was collected, and the report on taking it
down tells that end, unless the end was collected by the wait for a system call that the process was
made to run: custody does not learn of that one, so the process is killed and waited for again
(`performWithin_leftAlone_iff`). Everywhere else an end is collected, custody is told.
-/

namespace Footprint

open Kernel

variable {pid : Pid} {t : Transcript} {run : Run}

/-! ## Drives -/

namespace Supervising

variable {α β : Type}

/-- Whatever the kernel answers, the process is living and in custody behind the program, or the program
halts and custody knows all there is to know but for an end in a call. -/
def Careful (pid : Pid) (program : Supervising α) : Prop :=
  ∀ t run, Living t → run.custody = .of pid →
    Ensures (fun t run _ => Living t ∧ run.custody = .of pid) (fun t run _ => InCustody t run.custody)
      program t run

theorem careful_pure (a : α) : Careful pid (pure a : Supervising α) :=
  fun _ _ h hcustody => ⟨h, hcustody⟩

theorem careful_throw (halt : Halt) : Careful pid (throw halt : Supervising α) := by
  intro t run h hcustody
  refine (ensures_throw halt).2 ?_
  rw [hcustody]
  exact .held (.inl h)

theorem Careful.bind {program : Supervising α} {f : α → Supervising β} (h : Careful pid program)
    (hf : ∀ a, Careful pid (f a)) : Careful pid (program >>= f) := by
  intro t run hliving hcustody
  exact ensures_bind.2 ((h t run hliving hcustody).mono (fun t run a h => hf a t run h.1 h.2)
    fun _ _ _ h => h)

theorem careful_ofTracing {program : Tracing α} (h : Tracing.Careful (Unheard pid) program) :
    Careful pid (ofTracing program) := by
  intro t run hliving hcustody
  refine ensures_ofTracing.2 ((h t hliving).mono (fun _ _ h => ⟨h, hcustody⟩) ?_)
  intro t _ hheld
  rw [hcustody]
  exact .held hheld

theorem careful_ask (c : Call) (hc : ∀ reply, endOf ⟨c, reply⟩ = none) :
    Careful pid (ofQuestion (ask c)) := by
  intro t run h hcustody
  exact ensures_ofQuestion.2 fun reply => ⟨h.concat (hc reply), hcustody⟩

/-- What is set goes back to what was got, so custody stays. -/
theorem Careful.get_bind {f : Run → Supervising β}
    (hf : ∀ run, run.custody = .of pid → Careful pid (f run)) : Careful pid (get >>= f) :=
  fun t run h hcustody => hf run hcustody t run h hcustody

theorem careful_set {run : Run} (hcustody : run.custody = .of pid) : Careful pid (set run) :=
  fun _ _ h _ => ⟨h, hcustody⟩

theorem careful_endWith (change : Monitor → Failure × Monitor) :
    Careful pid (endWith change : Supervising α) := by
  intro t run h hcustody
  refine (ensures_endWith change).2 ?_
  rw [hcustody]
  exact .held (.inl h)

end Supervising

namespace Supervisor

open Supervising

variable {s : Supervisor}

theorem careful_elapsed : Careful pid s.elapsed :=
  (careful_ask .clock fun _ => rfl).bind fun _ => careful_pure _

theorem careful_checkBounds : Careful pid s.checkBounds := by
  have htime : Careful pid (do
      let elapsed ← s.elapsed
      if s.wallLimit.nanos ≤ elapsed.nanos then
        endWith (·.expire .wallClock elapsed)) := by
    refine careful_elapsed.bind fun elapsed => ?_
    split
    · exact careful_endWith _
    · exact careful_pure _
  refine (careful_ask .cancelled fun _ => rfl).bind ?_
  rintro (_ | _)
  · exact htime
  · exact (careful_endWith (α := PUnit) Monitor.cancel).bind fun _ => htime

theorem careful_makeAccessible (hs : s.injector.pid = pid) (g : Grant) :
    Tracing.Careful (Unheard pid) (s.makeAccessible g) := by
  subst hs
  unfold makeAccessible
  split
  · exact Injector.careful_mapExactly _ _
  · exact Injector.careful_invoke _ _

theorem careful_carryOut (hs : s.pid = pid) (hi : s.injector.pid = pid) (g : Grant) :
    Careful pid (s.carryOut g) := by
  refine (careful_ofTracing (careful_makeAccessible hi g)).bind ?_
  rintro (errno | _)
  · exact careful_endWith _
  · refine Careful.get_bind fun run hcustody => ?_
    refine (careful_ofTracing (Tracing.careful_ofChecked _)).bind fun monitor => ?_
    have hset : Careful pid (set { run with monitor }) := careful_set hcustody
    exact hset.bind fun _ => careful_ofTracing (hs ▸ Tracing.careful_resume _)

theorem careful_judge (stop : Stop) : Careful pid (s.judge stop) := by
  refine careful_elapsed.bind fun elapsed => Careful.get_bind fun run hcustody => ?_
  have hset : Careful pid (set { run with monitor := (run.monitor.react stop elapsed).2 }) :=
    careful_set hcustody
  exact hset.bind fun _ => careful_ofTracing (Tracing.careful_ofChecked _)

theorem careful_classify (status : WaitStatus) :
    Tracing.Careful (Unheard pid) (Tracing.classify pid status) := by
  cases status with
  | stopped =>
    exact Tracing.careful_readRegisters.bind fun _ => Tracing.careful_readSignal.bind fun _ =>
      Tracing.careful_pure _
  | systemCall => exact Tracing.careful_readRegisters.bind fun _ => Tracing.careful_pure _
  | exited => exact Tracing.careful_pure _
  | signaled => exact Tracing.careful_pure _
  | _ => exact Tracing.careful_throw _

/-- A status that is no end leaves the process living. -/
theorem careful_handle (hs : s.pid = pid) (hi : s.injector.pid = pid) {status : WaitStatus}
    (hgoes : status.isTerminal = false) : Careful pid (s.handle status) := by
  have hnoted : Careful pid
      (modify fun run => { run with custody := (run.custody.noteEnd status).2 } : Supervising PUnit) := by
    intro t run h hcustody
    refine (ensures_modify _).2 ⟨h, ?_⟩
    rw [hcustody]
    simp [Custody.noteEnd, Custody.of, hgoes]
  refine hnoted.bind fun _ => (careful_ofTracing (hs ▸ careful_classify status)).bind fun stop => ?_
  refine (careful_judge stop).bind ?_
  rintro (g | _ | failure)
  · exact (careful_carryOut hs hi g).bind fun _ => careful_pure false
  · exact careful_pure true
  · exact careful_throw _

/-- The end of the process ends the run, whatever the monitor was doing. -/
theorem exists_abort_of_react {m : Monitor} {stop : Stop} {elapsed : Duration}
    {verdict : Verdict} (hend : (∃ code, stop = .exited code) ∨ ∃ signal, stop = .killed signal)
    (h : (m.react stop elapsed).1 = .ok verdict) : ∃ failure, verdict = .abort failure := by
  rcases hend with ⟨code, rfl⟩ | ⟨signal, rfl⟩
  all_goals
    unfold Monitor.react at h
    split at h
    all_goals
      cases h
      exact ⟨_, rfl⟩

/-- Behind an end that custody noted, a run asks for nothing but the time and halts. -/
theorem ensures_handle_of_end {status : WaitStatus} {report : TeardownReport} (hsettled : Settled t)
    (hend : status.isTerminal = true) (hreaped : report.reaped = true)
    (hnoted : (run.custody.noteEnd status).2 = ⟨none, some report⟩) :
    Supervising.Ensures (fun _ _ _ => False) (fun t run _ => InCustody t run.custody)
      (s.handle status) t run := by
  have hstop : ∃ stop, Tracing.classify s.pid status = pure stop ∧
      ((∃ code, stop = .exited code) ∨ ∃ signal, stop = .killed signal) := by
    cases status with
    | exited p code => exact ⟨.exited code, rfl, .inl ⟨code, rfl⟩⟩
    | signaled p signal core => exact ⟨.killed signal, rfl, .inr ⟨signal, rfl⟩⟩
    | _ => cases hend
  rcases hstop with ⟨stop, hclassified, hstop⟩
  refine Supervising.ensures_bind.2 ((ensures_modify _).2 ?_)
  rw [hnoted, hclassified]
  refine Supervising.ensures_bind.2 (ensures_ofTracing.2 ((Tracing.ensures_pure stop).2 ?_))
  refine Supervising.ensures_bind.2 (Supervising.ensures_bind.2 (Supervising.ensures_bind.2
    (ensures_ofQuestion.2 fun now => ?_)))
  have hcustody : InCustody (t ++ [⟨.clock, now⟩]) ⟨none, some report⟩ :=
    .noted (hsettled.concat rfl) hreaped
  refine Supervising.ensures_bind.2 (ensures_get.2 (Supervising.ensures_bind.2 ((ensures_set _).2
    (ensures_ofTracing.2 (Tracing.ensures_ofChecked ?_ ?_)))))
  · intro verdict hverdict
    rcases exists_abort_of_react hstop hverdict with ⟨failure, rfl⟩
    exact hcustody
  · intro e _
    exact hcustody

/-- Whatever the kernel answers, custody knows all there is to know at the end of a drive. -/
theorem ensures_drive_custody (hs : s.pid = pid) (hi : s.injector.pid = pid) (turns : Nat)
    (h : Living t) (hcustody : run.custody = .of pid) :
    Supervising.Ensures (fun t run _ => InCustody t run.custody) (fun t run _ => InCustody t run.custody)
      (s.drive turns) t run := by
  induction turns generalizing t run with
  | zero =>
    refine (Supervising.ensures_throw _).2 ?_
    rw [hcustody]
    exact .held (.inl h)
  | succ turns ih =>
    refine Supervising.ensures_bind.2 ((careful_checkBounds t run h hcustody).mono ?_ fun _ _ _ h => h)
    rintro t run ⟨⟩ ⟨h, hcustody⟩
    have hheld : ∀ t, Living t → InCustody t run.custody := by
      intro t h
      rw [hcustody]
      exact .held (.inl h)
    refine Supervising.ensures_bind.2 (ensures_ofTracing.2 (Tracing.ensures_poll Living s.patience h
      (fun t h => h.concat rfl) (fun t h => ih (h.concat rfl) hcustody) ?_
      (fun t errno h => hheld _ (h.concat rfl)) hheld))
    intro t status h _
    refine Supervising.ensures_bind.2 ?_
    cases hend : status.isTerminal with
    | true =>
      have hheard : ¬ EndsInCall (t ++ [⟨.poll s.pid, .ok status⟩]) := by
        rw [endsInCall_concat_iff]
        rintro (hearlier | ⟨_, _, _, hwait, _⟩)
        · exact h.not_endsInCall hearlier
        · cases hwait
      have hnoted : ∃ report, (run.custody.noteEnd status).2 = ⟨none, some report⟩ ∧
          report.reaped = true := by
        rw [hcustody]
        simp [Custody.noteEnd, Custody.of, hend, reaped_withEnd hend]
      rcases hnoted with ⟨report, hnoted, hreaped⟩
      exact (ensures_handle_of_end (h.settled hheard) hend hreaped hnoted).mono
        (fun _ _ _ h => h.elim) fun _ _ _ h => h
    | false =>
      have hliving : Living (t ++ [⟨.poll s.pid, .ok status⟩]) := h.concat (by simp [endOf, hend])
      refine (careful_handle hs hi hend _ run hliving hcustody).mono ?_ fun _ _ _ h => h
      rintro t run isComplete ⟨h, hcustody⟩
      cases isComplete with
      | true =>
        refine (Supervising.ensures_pure _).2 ?_
        rw [hcustody]
        exact .held (.inl h)
      | false => exact ih h hcustody

end Supervisor

/-! ## Whole discoveries -/

namespace Discovery

open Tracing Custody

variable {code : Code} {config : Config} {host : Host} {layout : Layout}

/-- One discovery whose turns and repeated waits have a bound of their own. -/
def performWithin (bound : Nat) (code : Code) (config : Config) (host : Host) : Tracing Outcome := do
  let cancelled : Bool ← Kernel.ask .cancelled
  if cancelled then
    return .beforeLaunch .cancelled none
  match ← catchFailure (Sandbox.spawn code config host) with
  | .error failure => return .beforeLaunch failure none
  | .ok forked =>
    match ← catchFailure (forked.launch config bound) with
    | .error failure => return .beforeLaunch failure forked.custody.pid
    | .ok launched => launched.finish config bound

theorem perform_eq_performWithin :
    perform code config host = performWithin config.turns code config host := rfl

/-- The report on taking the process of a started run down tells its end. -/
def TellsEnd (t : Transcript) (result : Except Halt Outcome) : Prop :=
  ∀ outcome, result = .ok outcome → outcome.launched = true → (∃ x ∈ t, (endOf x).isSome) →
    ∃ report, outcome.teardown = some report ∧ report.reaped = true

/-- The process was left alone and its end told, or its end was collected in a call. -/
def Accounted (t : Transcript) (result : Except Halt Outcome) : Prop :=
  LeftAlone t ∧ TellsEnd t result ↔ ¬ EndsInCall t

theorem TellsEnd.of_living {result : Except Halt Outcome} (h : Living t) : TellsEnd t result := by
  rintro outcome _ _ ⟨x, hx, hend⟩
  rw [h x hx] at hend
  cases hend

theorem accounted_of_disturbed {result : Except Halt Outcome} (h : Disturbed t) :
    Accounted t result :=
  ⟨fun hkept => absurd hkept.1 h.notLeftAlone, fun hheard => absurd h.inCall hheard⟩

theorem accounted_of_living {result : Except Halt Outcome} (h : Living t) : Accounted t result :=
  ⟨fun _ => h.not_endsInCall, fun _ => ⟨h.leftAlone, .of_living h⟩⟩

theorem accounted_of_settled {result : Except Halt Outcome} (h : Settled t)
    (htells : TellsEnd t result) : Accounted t result :=
  ⟨fun _ => h.heard, fun _ => ⟨h.leftAlone, htells⟩⟩

/-- Where no run was started there is no report to tell an end. -/
theorem accounted_of_released {result : Except Halt Outcome} (h : Released t)
    (hbefore : ∀ outcome, result = .ok outcome → outcome.launched = false) : Accounted t result := by
  rcases h with hdisturbed | hliving | hsettled
  · exact accounted_of_disturbed hdisturbed
  · exact accounted_of_living hliving
  · refine accounted_of_settled hsettled ?_
    intro outcome hresult hlaunched
    rw [hbefore outcome hresult] at hlaunched
    cases hlaunched

/-- Summing a run up tells the end that taking its process down collected or was told. -/
theorem ensures_sumUp (s : Sandbox .launched) (ended : Except Failure Unit) (patience : Nat)
    (h : InCustody t run.custody) :
    Tracing.Ensures (fun t outcome => Accounted t (.ok outcome))
      (fun t halt => Accounted t (.error halt)) (s.sumUp run ended patience) t := by
  refine ensures_bind.2 ((ensures_lift _).2 ((Dialogue.ensures_bind _ _).2
    ((ensures_teardown patience h).mono ?_)))
  rintro t ⟨(_ | _) | report, custody⟩ (hdisturbed | hrest)
  · exact accounted_of_disturbed hdisturbed
  · exact accounted_of_living hrest
  · exact accounted_of_disturbed hdisturbed
  · exact accounted_of_living hrest
  · exact accounted_of_disturbed hdisturbed
  · rcases hrest with hliving | ⟨hsettled, hreaped⟩
    · exact accounted_of_living hliving
    · refine accounted_of_settled hsettled ?_
      rintro _ ⟨⟩ _ _
      exact ⟨report, rfl, hreaped⟩

theorem ensures_finish (bound : Nat) (h : Living t) :
    Tracing.Ensures (fun t outcome => Accounted t (.ok outcome))
      (fun t halt => Accounted t (.error halt))
      ((Sandbox.mk (.of pid) layout : Sandbox .launched).finish config bound) t := by
  refine ensures_bind.2 ((ensures_lift (Kernel.ask .clock)).2 fun started => ?_)
  have hliving : Living (t ++ [⟨.clock, started⟩]) := h.concat rfl
  have hheld : InCustody (t ++ [⟨.clock, started⟩]) (.of pid) := .held (.inl hliving)
  have hdrive : Supervising.Ensures (fun t run _ => InCustody t run.custody)
      (fun t run _ => InCustody t run.custody)
      (do
        let supervisor ← Supervising.ofTracing
          ((Sandbox.mk (.of pid) layout : Sandbox .launched).supervisor started config.wallLimit bound)
        supervisor.drive bound) (t ++ [⟨.clock, started⟩])
      ⟨.of pid, .start layout config.limits⟩ := by
    refine Supervising.ensures_bind.2 (Supervising.ensures_ofTracing.2 ?_)
    refine ensures_bind.2 ((ensures_pure pid).2 (ensures_bind.2 (ensures_bind.2
      (ensures_ofChecked (fun stub _ => ?_) fun _ _ => hheld))))
    exact Supervisor.ensures_drive_custody rfl rfl bound hliving rfl
  refine ensures_bind.2 ((ensures_lift _).2 (Dialogue.Ensures.mono hdrive ?_))
  rintro t ⟨halt | _, run⟩ h
  · cases halt with
    | failed failure => exact ensures_sumUp _ _ bound h
    | _ =>
      refine ensures_bind.2 ((ensures_lift _).2 ((ensures_release bound h).mono ?_))
      intro t _ hreleased
      exact accounted_of_released hreleased (by simp)
  · exact ensures_sumUp _ _ bound h

/-- A failure that is caught is a result. -/
theorem ensures_catchFailure {α : Type} {program : Tracing α}
    {good : Transcript → Except Failure α → Prop} {bad : Transcript → Halt → Prop}
    (h : Tracing.Ensures (fun t a => good t (.ok a))
      (fun t halt => (∀ failure, halt = .failed failure → good t (.error failure)) ∧ bad t halt)
      program t) :
    Tracing.Ensures good bad (catchFailure program) t := by
  refine ensures_bind.2 ((ensures_lift _).2 (Dialogue.Ensures.mono h ?_))
  rintro t (halt | a) h
  · cases halt with
    | failed failure => exact h.1 failure rfl
    | _ => exact h.2
  · exact h

theorem ensures_performWithin (bound : Nat) (code : Code) (config : Config) (host : Host) :
    Tracing.Ensures (fun t outcome => Accounted t (.ok outcome))
      (fun t halt => Accounted t (.error halt)) (performWithin bound code config host) [] := by
  refine ensures_bind.2 ((ensures_lift (Kernel.ask .cancelled)).2 fun cancelled => ?_)
  have hliving : Living ([] ++ [⟨.cancelled, cancelled⟩]) := living_nil.concat rfl
  cases cancelled with
  | true => exact accounted_of_living hliving
  | false =>
    -- nothing is waited for until there is a process, so there is none to lose
    have hspawn := Sandbox.ensures_spawn code config host hliving (fun t draw h => h.concat rfl)
      (fun t reply h => h.concat rfl) fun t layout reportTo reply _ h => h.concat rfl
    refine ensures_bind.2 (ensures_catchFailure (hspawn.mono ?_ ?_))
    · rintro t ⟨_, layout⟩ ⟨hliving, _, pid, ⟨⟩⟩
      refine ensures_bind.2 (ensures_catchFailure
        ((Sandbox.brings_launch config bound t hliving).mono ?_ ?_))
      · rintro t _ ⟨hliving, rfl⟩
        exact ensures_finish bound hliving
      · intro t halt hreleased
        refine ⟨fun failure _ => accounted_of_released hreleased ?_,
          accounted_of_released hreleased (by simp)⟩
        rintro _ ⟨⟩
        rfl
    · intro t halt hliving
      exact ⟨fun failure _ => accounted_of_living hliving, accounted_of_living hliving⟩

/-- The simulated kernel, on a machine where somebody kills the process as soon as it is made to run a
system call. -/
def killedInCall : (c : Call) → Machine.World → Answer c × Machine.World
  | .resume pid .freely, w =>
    let (reply, w) := Machine.World.answer (.resume pid .freely) w
    (reply, (Machine.World.answer (.kill pid) w).2)
  | c, w => Machine.World.answer c w

end Discovery

end Footprint
