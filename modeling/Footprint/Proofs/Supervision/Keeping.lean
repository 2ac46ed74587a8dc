import Footprint.Proofs.Supervision.Turns

/-!
# What a drive keeps

Between two system calls that it makes the process run, a drive only asks plain questions: of the caller
and the clock, for a status, for registers and signals, and to resume the process. So a property of the
transcript holds throughout a drive if plain exchanges keep it and each grant that is carried out keeps
it (`Keeps`, `Keeps.of_drive`). What a grant rests on is at hand then: the stop that the kernel told of
(`Told`) and the judgement of the monitor on it. A property that being told of a signal may end
distinguishes what holds throughout from what holds at the end.
-/

namespace Footprint

namespace Supervising

open Kernel

variable {α : Type} {t : Transcript} {run : Run}

theorem Ensures.and {good good' : Transcript → Run → α → Prop}
    {bad bad' : Transcript → Run → Halt → Prop} {program : Supervising α}
    (h : Ensures good bad program t run) (h' : Ensures good' bad' program t run) :
    Ensures (fun t run a => good t run a ∧ good' t run a)
      (fun t run halt => bad t run halt ∧ bad' t run halt) program t run := by
  refine (Dialogue.Ensures.and h h').mono ?_
  rintro t ⟨halt | a, run⟩ h
  all_goals exact h

end Supervising

namespace Drive

open Kernel Monitor

/-! ## What the kernel tells of a stop -/

/-- The calls of a drive besides the system calls that it makes the process run. -/
def isPlain : Call → Bool
  | .cancelled | .clock | .poll _ | .readRegisters _ | .readSignal _ => true
  | .resume _ how => how = .untilSystemCall
  | _ => false

/-- Whether the kernel says which signal stopped a process. -/
def tellsSignal : Exchange → Bool
  | ⟨.readSignal _, .ok _⟩ => true
  | _ => false

/-- The exchanges by which the kernel tells of a stop by a signal. -/
def telling (pid q : Pid) (signal : Signal) (registers : Registers) (info : SignalInfo) : Transcript :=
  [⟨.poll pid, .ok (.stopped q signal)⟩, ⟨.readRegisters pid, .ok registers⟩,
   ⟨.readSignal pid, .ok info⟩]

/-- The kernel told of a denied access, which was the last that happened. -/
inductive Told (pid : Pid) (before : Transcript) (addr : Addr) (denial : Denial) (pc : Addr) :
    Transcript → Prop where
  | intro {q : Pid} {registers : Registers} {info : SignalInfo} :
      Stop.ofSignal .segv info.code info.addr registers.rip = .access addr denial pc →
      Told pid before addr denial pc (before ++ telling pid q .segv registers info)

theorem Told.grows {pid : Pid} {before t : Transcript} {addr pc : Addr} {denial : Denial}
    (h : Told pid before addr denial pc t) : before <+: t := by
  cases h
  exact List.prefix_append _ _

/-- Only a segmentation fault is taken for a denied access. -/
theorem eq_segv_of_ofSignal_eq_access {signal : Signal} {code : Int} {a pc addr pc' : Addr}
    {denial : Denial} (h : Stop.ofSignal signal code a pc = .access addr denial pc') :
    signal = .segv := by
  unfold Stop.ofSignal at h
  split at h
  · rfl
  · cases h
  · cases h

variable {layout : Layout} {limits : Limits} {rounds : List Round} {t : Transcript} {run : Run}
  {m : Monitor} {J : Transcript → Prop}

/-- A grant that a drive decided on, before it is carried out. -/
structure Decided (layout : Layout) (limits : Limits) (pid : Pid) (before t : Transcript) (m : Monitor)
    (g : Grant) : Prop where
  underway : ∃ rounds, Underway layout rounds before m
  limits_eq : m.limits = limits
  judged : ∃ addr denial pc elapsed told now, m.judge addr denial pc elapsed = .ok (.grant g) ∧
    Told pid before addr denial pc told ∧ t = told ++ [⟨.clock, now⟩]

theorem Told.idle {pid : Pid} {addr pc : Addr} {denial : Denial} {before : Transcript}
    (h : Told pid before addr denial pc t) (hidle : stageOf before = .idle) : stageOf t = .idle := by
  cases h
  simp [telling, Stage.onExchange, Stage.onRead, hidle]

theorem Decided.idle {pid : Pid} {before : Transcript} {g : Grant}
    (h : Decided layout limits pid before t m g) : stageOf t = .idle := by
  rcases h.underway with ⟨rounds, hunderway⟩
  rcases h.judged with ⟨addr, denial, pc, elapsed, told, now, _, htold, rfl⟩
  simp [Stage.onExchange, htold.idle hunderway.idle]

/-! ## What holds throughout -/

/-- A property `J` of transcripts that holds throughout a drive, and a property `K` of transcripts and
results that holds at its end. -/
structure Keeps (layout : Layout) (limits : Limits) (J : Transcript → Prop)
    (K : Transcript → Except Halt Unit → Prop) : Prop where
  ends : ∀ t result, J t → K t result
  plain : ∀ t x, isPlain x.call = true → tellsSignal x = false → J t → J (t ++ [x])
  -- A signal that was told of leads on unless the monitor aborts the run; otherwise the run ends.
  told : ∀ before m pid q signal registers info now, J before →
    (∃ rounds, Underway layout rounds before m) → m.limits = limits →
    (∀ halt, K (before ++ telling pid q signal registers info ++ [⟨.clock, now⟩]) (.error halt)) ∧
      ∀ elapsed verdict, m.verdictOn (.ofSignal signal info.code info.addr registers.rip) elapsed =
        .ok verdict → (∀ failure, verdict ≠ .abort failure) →
        J (before ++ telling pid q signal registers info ++ [⟨.clock, now⟩])
  grants : ∀ s before t m g, J before → J t → Decided layout limits s.pid before t m g →
    Tracing.Ensures (fun t _ => J t) (fun t _ => J t) (Supervisor.makeAccessible s g) t

/-- What all plain exchanges and all grants keep holds throughout and at the end. -/
theorem Keeps.of_plain (hplain : ∀ t x, isPlain x.call = true → J t → J (t ++ [x]))
    (hgrants : ∀ s before t m g, J before → J t → Decided layout limits s.pid before t m g →
      Tracing.Ensures (fun t _ => J t) (fun t _ => J t) (Supervisor.makeAccessible s g) t) :
    Keeps layout limits J (fun t _ => J t) where
  ends := fun _ _ h => h
  plain := fun t x hx _ => hplain t x hx
  told := by
    intro before m pid q signal registers info now h _ _
    have hpolled := hplain _ ⟨.poll pid, .ok (.stopped q signal)⟩ rfl h
    have hread := hplain _ ⟨.readRegisters pid, .ok registers⟩ rfl hpolled
    have htold := hplain _ ⟨.clock, now⟩ rfl (hplain _ ⟨.readSignal pid, .ok info⟩ rfl hread)
    have hend : J (before ++ telling pid q signal registers info ++ [⟨.clock, now⟩]) := by
      simpa [telling] using htold
    exact ⟨fun _ => hend, fun _ _ _ _ => hend⟩
  grants := hgrants

variable {K : Transcript → Except Halt Unit → Prop}

/-! ## Parts of a turn -/

theorem Keeps.ensures_checkBounds (hkeeps : Keeps layout limits J K) (s : Supervisor) (hJ : J t)
    (hlimits : run.monitor.limits = limits) :
    Supervising.Ensures (fun t run _ => J t ∧ run.monitor.limits = limits)
      (fun t _ halt => K t (.error halt)) s.checkBounds t run := by
  have hopened (now : Duration) : J (t ++ opening now) := by
    have hasked := hkeeps.plain _ ⟨.cancelled, false⟩ rfl rfl hJ
    simpa [opening] using hkeeps.plain _ ⟨.clock, now⟩ rfl rfl hasked
  refine Drive.ensures_checkBounds ?cancelled ?late ?go
  case cancelled => exact hkeeps.ends _ _ (hkeeps.plain _ _ rfl rfl hJ)
  case late => exact fun now _ => hkeeps.ends _ _ (hopened now)
  case go => exact fun now _ => ⟨hopened now, hlimits⟩

/-- Carrying a grant out keeps what making its block accessible keeps. -/
theorem Keeps.ensures_carryOut (hkeeps : Keeps layout limits J K) (s : Supervisor) {g : Grant}
    (hgrant : Tracing.Ensures (fun t _ => J t) (fun t _ => J t) (s.makeAccessible g) t)
    (hlimits : run.monitor.limits = limits) :
    Supervising.Ensures (fun t run _ => J t ∧ run.monitor.limits = limits)
      (fun t _ halt => K t (.error halt)) (s.carryOut g) t run := by
  refine Supervising.ensures_bind.2 (Supervising.ensures_ofTracing.2
    (hgrant.mono ?_ fun _ _ h => hkeeps.ends _ _ h))
  rintro t (errno | value) hJ
  · exact hkeeps.ends _ _ hJ
  · refine Supervising.ensures_bind.2 (Supervising.ensures_get.2 (Supervising.ensures_bind.2
      (Supervising.ensures_ofTracing.2 (Tracing.ensures_ofChecked (fun monitor hgranted => ?_)
        fun _ _ => hkeeps.ends _ _ hJ))))
    refine Supervising.ensures_bind.2 ((Supervising.ensures_set _).2 (Supervising.ensures_ofTracing.2
      (Tracing.ensures_resume ?_ fun errno => ?_)))
    · exact ⟨hkeeps.plain _ _ rfl rfl hJ,
        (change_of_granted hgranted).limits_eq.trans hlimits⟩
    · exact hkeeps.ends _ _ (hkeeps.plain _ _ rfl rfl hJ)

/-- What a collected status means: a signal that was told of, or nothing that is an access. -/
def Classified (J : Transcript → Prop) (pid : Pid) (before t : Transcript) (stop : Stop) : Prop :=
  (∃ q signal registers info, t = before ++ telling pid q signal registers info ∧
    stop = .ofSignal signal info.code info.addr registers.rip) ∨
  (J t ∧ ∀ addr denial pc, stop ≠ .access addr denial pc)

theorem Keeps.ensures_classify (hkeeps : Keeps layout limits J K) {pid : Pid} (status : WaitStatus)
    (hJ : J t) :
    Tracing.Ensures (Classified J pid t) (fun t _ => J t) (Tracing.classify pid status)
      (t ++ [⟨.poll pid, .ok status⟩]) := by
  have hpolled := hkeeps.plain _ ⟨.poll pid, .ok status⟩ rfl rfl hJ
  cases status with
  | stopped q signal =>
    refine Tracing.ensures_bind.2 (Tracing.ensures_readRegisters (fun registers => ?_)
      fun errno => hkeeps.plain _ _ rfl rfl hpolled)
    have hread := hkeeps.plain _ ⟨.readRegisters pid, .ok registers⟩ rfl rfl hpolled
    refine Tracing.ensures_bind.2 (Tracing.ensures_readSignal (fun info => ?_)
      fun errno => hkeeps.plain _ _ rfl rfl hread)
    exact .inl ⟨q, signal, registers, info, by simp [telling], rfl⟩
  | systemCall q =>
    refine Tracing.ensures_bind.2 (Tracing.ensures_readRegisters (fun registers => ?_)
      fun errno => hkeeps.plain _ _ rfl rfl hpolled)
    exact .inr ⟨hkeeps.plain _ _ rfl rfl hpolled, by simp⟩
  | exited q code => exact .inr ⟨hpolled, by simp⟩
  | signaled q signal core => exact .inr ⟨hpolled, by simp⟩
  | _ => exact hpolled

variable {pid : Pid} {told : Transcript} {stop : Stop} {elapsed : Duration}

/-- A stop leads on unless the monitor aborts the run; otherwise the drive ends. -/
theorem Keeps.of_classified (hkeeps : Keeps layout limits J K) (h : Underway layout rounds t m)
    (hlimits : m.limits = limits) (hJ : J t) (hstop : Classified J pid t told stop) (now : Duration) :
    (∀ halt, K (told ++ [⟨.clock, now⟩]) (.error halt)) ∧
      ∀ elapsed verdict, m.verdictOn stop elapsed = .ok verdict →
        (∀ failure, verdict ≠ .abort failure) → J (told ++ [⟨.clock, now⟩]) := by
  rcases hstop with ⟨q, signal, registers, info, rfl, rfl⟩ | ⟨hother, _⟩
  · exact hkeeps.told t m pid q signal registers info now hJ ⟨rounds, h⟩ hlimits
  · have hclock := hkeeps.plain _ ⟨.clock, now⟩ rfl rfl hother
    exact ⟨fun _ => hkeeps.ends _ _ hclock, fun _ _ _ _ => hclock⟩

/-- Only a denied access that was told of is answered by a grant. -/
theorem Classified.decided (hstop : Classified J pid t told stop) (h : Underway layout rounds t m)
    (hlimits : m.limits = limits) {g : Grant} (hverdict : m.verdictOn stop elapsed = .ok (.grant g))
    (now : Duration) : Decided layout limits pid t (told ++ [⟨.clock, now⟩]) m g := by
  cases change_of_verdictOn h.running hverdict with
  | grant _ hjudge =>
    rcases hstop with ⟨q, signal, registers, info, rfl, hsignal⟩ | ⟨_, hnone⟩
    · obtain rfl := eq_segv_of_ofSignal_eq_access hsignal.symm
      exact ⟨⟨rounds, h⟩, hlimits, _, _, _, _, _, now, hjudge, .intro hsignal.symm, rfl⟩
    · exact absurd rfl (hnone _ _ _)

/-- Handling a stop keeps what each grant that may be decided on then keeps. -/
theorem Keeps.ensures_handle (hkeeps : Keeps layout limits J K) (s : Supervisor) (status : WaitStatus)
    (h : Underway layout rounds t run.monitor) (hJ : J t) (hlimits : run.monitor.limits = limits) :
    Supervising.Ensures (fun t run _ => J t ∧ run.monitor.limits = limits)
      (fun t _ halt => K t (.error halt)) (s.handle status) (t ++ [⟨.poll s.pid, .ok status⟩]) run := by
  refine Supervising.ensures_bind.2 ((Supervising.ensures_modify _).2 ?_)
  refine Supervising.ensures_bind.2 (Supervising.ensures_ofTracing.2
    ((hkeeps.ensures_classify status hJ).mono ?_ fun _ _ h => hkeeps.ends _ _ h))
  intro told stop hstop
  have hjudged := hkeeps.of_classified h hlimits hJ hstop
  refine Supervising.ensures_bind.2 (Drive.ensures_judge h.running ?_ fun now _ => (hjudged now).1 _)
  intro now elapsed verdict hverdict
  cases verdict with
  | finish => exact ⟨(hjudged now).2 elapsed _ hverdict (by simp), hlimits⟩
  | abort failure => exact (hjudged now).1 _
  | grant g =>
    have hclock := (hjudged now).2 elapsed _ hverdict (by simp)
    have hmade := hkeeps.grants s _ _ _ _ hJ hclock (hstop.decided h hlimits hverdict now)
    refine Supervising.ensures_bind.2 (Supervising.Ensures.mono
      (hkeeps.ensures_carryOut s hmade ?_) ?_ fun _ _ _ h => h)
    · exact hlimits
    · exact fun _ _ _ h => h

/-! ## Whole drives -/

/-- What holds when the turns of a drive begin holds throughout them. -/
theorem Keeps.ensures_turns (hkeeps : Keeps layout limits J K) (s : Supervisor) (turns : Nat)
    (h : Underway layout rounds t run.monitor) (hJ : J t) (hlimits : run.monitor.limits = limits) :
    Supervising.Ensures (fun t _ _ => K t (.ok ())) (fun t _ halt => K t (.error halt)) (s.drive turns)
      t run := by
  induction turns generalizing rounds t run with
  | zero => exact hkeeps.ends _ _ hJ
  | succ turns ih =>
    refine Supervising.ensures_bind.2 (((h.ensures_checkBounds s).and
      (hkeeps.ensures_checkBounds s hJ hlimits)).mono ?_ fun _ _ _ h => h.2)
    rintro t run ⟨⟩ ⟨h, hJ, hlimits⟩
    refine Supervising.ensures_bind.2 (Supervising.ensures_ofTracing.2 (Tracing.ensures_poll
      (fun t => Underway layout rounds t run.monitor ∧ J t) s.patience ⟨h, hJ⟩ ?again ?none ?some
      (fun _ _ h => hkeeps.ends _ _ (hkeeps.plain _ _ rfl rfl h.2)) fun _ h => hkeeps.ends _ _ h.2))
    case again =>
      rintro t ⟨h, hJ⟩
      exact ⟨h.quiet (by simp [Stage.onExchange, h.idle]) (by simp [Stage.onExchange]),
        hkeeps.plain _ _ rfl rfl hJ⟩
    case none =>
      rintro t ⟨h, hJ⟩
      exact ih (h.quiet (by simp [Stage.onExchange, h.idle]) (by simp [Stage.onExchange]))
        (hkeeps.plain _ _ rfl rfl hJ) hlimits
    case some =>
      rintro t status ⟨h, hJ⟩ hnew
      have hcollected : eventsOf (t ++ [⟨.poll s.pid, .ok status⟩]) =
          eventsOf t ++ [.collected status] := by
        simp [Stage.onExchange, hnew]
      have hstage : stageOf (t ++ [⟨.poll s.pid, .ok status⟩]) = .idle := by
        simp [Stage.onExchange, h.idle]
      refine Supervising.ensures_bind.2
        (((h.ensures_handle s status hstage hcollected ⟨t, rfl⟩).and
          (hkeeps.ensures_handle s status h hJ hlimits)).mono ?_ fun _ _ _ h => h.2)
      rintro t run (_ | _) ⟨houtcome, hJ, hlimits⟩
      · rcases houtcome with ⟨rounds, hunderway⟩
        exact ih hunderway hJ hlimits
      · exact hkeeps.ends _ _ hJ

/-- What a drive keeps holds at its end, whatever the kernel answers. -/
theorem Keeps.of_drive {σ : Type} {s : Sandbox .launched} (hkeeps : Keeps s.layout limits J K)
    (hJ : J []) (started wallLimit : Duration) (turns : Nat) (answer : (c : Call) → σ → Answer c × σ)
    (k : σ) :
    let drive := s.drive (.start s.layout limits) started wallLimit turns
    K (drive.transcript answer k) (drive.run answer k).1.1 := by
  intro drive
  have hturns : Supervising.Ensures (fun t _ _ => K t (.ok ())) (fun t _ halt => K t (.error halt))
      (do
        let supervisor ← Supervising.ofTracing (s.supervisor started wallLimit turns)
        supervisor.drive turns) [] ⟨s.custody, .start s.layout limits⟩ := by
    refine Supervising.ensures_bind.2 (Supervising.ensures_ofTracing.2 (ensures_supervisor ?_ ?_))
    · intro supervisor
      exact hkeeps.ensures_turns supervisor turns (.start s.layout limits) hJ rfl
    · intro _ _
      exact hkeeps.ends _ _ hJ
  have hdrive : drive.Ensures (fun t result => K t result.1) [] := by
    refine Dialogue.Ensures.mono hturns ?_
    rintro t ⟨halt | _, run⟩ h
    all_goals exact h
  exact hdrive.of_run answer k

end Drive

/-! ## Injected calls -/

namespace Injector

open Kernel Tracing Drive

variable {J : Transcript → Prop} {i : Injector} {t : Transcript}

/-- Until an injected call comes back, its process is waited for and its registers are read. -/
theorem ensures_awaitStub_keeps (hwait : ∀ t reply, J t → J (t ++ [⟨.wait i.pid, reply⟩]))
    (hread : ∀ t reply, J t → J (t ++ [⟨.readRegisters i.pid, reply⟩])) (number : UInt64) (h : J t) :
    Ensures (fun t _ => J t) (fun t _ => J t) (i.awaitStub number) t := by
  refine ensures_bind.2 (ensures_wait J i.patience h (fun t => hwait t _) ?_
    (fun t errno => hwait t _) fun _ h => h)
  intro t status h
  have hwaited := hwait t (.ok status) h
  split
  · refine ensures_bind.2 (ensures_readRegisters (fun after => ?_) fun errno => hread _ _ hwaited)
    have hafter := hread _ (.ok after) hwaited
    refine ensures_bind.2 (ensures_ofChecked (fun expected _ => ?_) fun _ _ => hafter)
    split
    · exact hafter
    · exact hafter
  · exact hwaited

/-- An injected call asks for no signal. -/
theorem ensures_invoke_keeps (hJ : ∀ t x, tellsSignal x = false → J t → J (t ++ [x])) (number : UInt64)
    (args : Registers.Arguments) (h : J t) :
    Ensures (fun t _ => J t) (fun t _ => J t) (i.invoke number args) t := by
  have hstub : ∀ t, J t → Ensures (fun t _ => J t) (fun t _ => J t) (i.awaitStub number) t := fun t =>
    ensures_awaitStub_keeps (fun t reply => hJ t _ rfl) (fun t reply => hJ t _ rfl) number
  refine ensures_bind.2 (ensures_readRegisters (fun saved => ?_) fun errno => hJ _ _ rfl h)
  have hread := hJ _ ⟨.readRegisters i.pid, .ok saved⟩ rfl h
  refine ensures_bind.2 (ensures_writeRegisters ?_ fun errno => hJ _ _ rfl hread)
  refine ensures_bind.2 (ensures_resume ?_ fun errno => hJ _ _ rfl (hJ _ _ rfl hread))
  refine ensures_bind.2 ((hstub _ (hJ _ _ rfl (hJ _ _ rfl hread))).mono ?_ fun _ _ h => h)
  intro t after h
  exact ensures_bind.2 (ensures_writeRegisters (hJ _ _ rfl h) fun errno => hJ _ _ rfl h)

theorem ensures_mapExactly_keeps (hJ : ∀ t x, tellsSignal x = false → J t → J (t ++ [x]))
    (start len : Addr) (h : J t) :
    Ensures (fun t _ => J t) (fun t _ => J t) (i.mapExactly start len) t := by
  refine ensures_bind.2 ((ensures_invoke_keeps hJ _ _ h).mono ?_ fun _ _ h => h)
  rintro t (errno | address) h
  · exact h
  · dsimp only
    split
    · exact h
    · exact ensures_bind.2 ((ensures_invoke_keeps hJ _ _ h).mono (fun _ _ h => h) fun _ _ h => h)

end Injector

/-- Neither does making a block accessible. -/
theorem Supervisor.ensures_makeAccessible_keeps {J : Kernel.Transcript → Prop} {t : Kernel.Transcript}
    (hJ : ∀ t x, Drive.tellsSignal x = false → J t → J (t ++ [x])) (s : Supervisor) (g : Grant)
    (h : J t) :
    Tracing.Ensures (fun t _ => J t) (fun t _ => J t) (s.makeAccessible g) t := by
  unfold Supervisor.makeAccessible
  cases g.method with
  | map => exact Injector.ensures_mapExactly_keeps hJ _ _ h
  | unprotect => exact Injector.ensures_invoke_keeps hJ _ _ h

end Footprint
