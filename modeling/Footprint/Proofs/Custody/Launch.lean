import Footprint.Proofs.Custody.Teardown

/-!
# Custody while a sandbox is brought up

A program is careful if it collects no end, but for one that it may lose in a system call that it makes
the process run. Everything that a step of a sandbox asks for is careful, and what a step does when it
fails is taking the process down.
-/

namespace Footprint

open Kernel

namespace Tracing

variable {α β : Type} {pid : Pid} {lost : Transcript → Prop}

/-- Whatever the kernel answers, the process is living behind the program, unless it was lost and the
program halts. -/
def Careful (lost : Transcript → Prop) (program : Tracing α) : Prop :=
  ∀ t, Living t → Ensures (fun t _ => Living t) (fun t _ => Living t ∨ lost t) program t

theorem careful_pure (a : α) : Careful lost (pure a : Tracing α) :=
  fun _ h => h

theorem careful_throw (halt : Halt) : Careful lost (throw halt : Tracing α) :=
  fun _ h => .inl h

theorem Careful.bind {program : Tracing α} {f : α → Tracing β} (h : Careful lost program)
    (hf : ∀ a, Careful lost (f a)) : Careful lost (program >>= f) := by
  intro t hliving
  exact ensures_bind.2 ((h t hliving).mono (fun t a h => hf a t h) fun _ _ h => h)

theorem careful_ofChecked (value : Checked α) : Careful lost (ofChecked value) := by
  cases value with
  | ok a => exact careful_pure a
  | error e => exact careful_throw _

/-- A question that is no wait. -/
theorem careful_ask (c : Call) (hc : ∀ reply, endOf ⟨c, reply⟩ = none) :
    Careful lost (ExceptT.lift (ask c)) := by
  intro t h
  refine (ensures_lift _).2 ?_
  exact fun reply => h.concat (hc reply)

theorem careful_attempt {request : Request} {program : Kernel.Program (Except Errno α)}
    (h : Careful lost (ExceptT.lift program)) : Careful lost (attempt request program) := by
  refine h.bind ?_
  rintro (errno | a)
  · exact careful_throw _
  · exact careful_pure a

theorem careful_readRegisters : Careful lost (readRegisters pid) :=
  careful_attempt (careful_ask _ fun _ => rfl)

theorem careful_writeRegisters (registers : Registers) : Careful lost (writeRegisters pid registers) :=
  careful_attempt (careful_ask _ fun _ => rfl)

theorem careful_readSignal : Careful lost (readSignal pid) :=
  careful_attempt (careful_ask _ fun _ => rfl)

theorem careful_setOptions : Careful lost (setOptions pid) :=
  careful_attempt (careful_ask _ fun _ => rfl)

theorem careful_resume (how : Resumption) : Careful lost (resume pid how) :=
  careful_attempt (careful_ask _ fun _ => rfl)

theorem careful_readRseq : Careful lost (readRseq pid) := by
  refine (careful_ask (.readRseq pid) fun _ => rfl).bind ?_
  rintro (errno | rseq)
  · dsimp only
    split
    · exact careful_pure none
    · exact careful_throw _
  · exact careful_pure (some rseq)

theorem careful_readMaps : Careful lost (readMaps pid) := by
  refine (careful_ask (.readMaps pid) fun _ => rfl).bind ?_
  rintro (errno | text)
  · exact careful_throw _
  · exact careful_pure _

end Tracing

/-! ## Injected calls -/

namespace Injector

open Tracing

variable {i : Injector}

/-- What follows the resumption of an injected call: only its wait can collect an end. -/
theorem ensures_awaitStub_careful {t : Transcript} (number : UInt64) (h : Living t)
    (hcalling : isCalling t = true) :
    Tracing.Ensures (fun t _ => Living t) (fun t _ => Held i.pid t) (i.awaitStub number) t := by
  refine ensures_bind.2 (ensures_wait (fun t => Living t ∧ isCalling t = true) i.patience
    ⟨h, hcalling⟩ ?again ?status ?refused ?impatient)
  case again =>
    rintro t ⟨h, hcalling⟩
    exact ⟨h.concat rfl, by simp [isCallingAfter, hcalling]⟩
  case refused =>
    rintro t errno ⟨h, _⟩
    exact .inl (h.concat rfl)
  case impatient =>
    rintro t ⟨h, _⟩
    exact .inl h
  case status =>
    rintro t status ⟨h, hcalling⟩
    split
    next q =>
      -- the process has not ended, and what is left asks for nothing but registers
      have hliving : Living (t ++ [⟨.wait i.pid, .ok (.stopped q .trap)⟩]) := h.concat rfl
      refine Careful.bind careful_readRegisters (fun after => ?_) _ hliving
      refine (careful_ofChecked _).bind fun expected => ?_
      split
      · exact careful_pure after
      · exact careful_throw _
    next =>
      cases hterminal : status.isTerminal with
      | true =>
        exact .inr (.of_wait hcalling hterminal)
      | false =>
        refine .inl (h.concat ?_)
        simp [endOf, hterminal]

theorem careful_invoke (number : UInt64) (args : Registers.Arguments) :
    Careful (Unheard i.pid) (i.invoke number args) := by
  refine careful_readRegisters.bind fun saved => (careful_writeRegisters _).bind fun _ => ?_
  intro t h
  refine ensures_bind.2 (ensures_resume ?_ fun errno => .inl (h.concat rfl))
  refine ensures_bind.2 ((ensures_awaitStub_careful number (h.concat rfl) ?_).mono ?_ fun _ _ h => h)
  · simp [isCallingAfter]
  · intro t after hliving
    exact (careful_writeRegisters saved).bind (fun _ => careful_pure _) t hliving

theorem careful_mapExactly (start len : Addr) : Careful (Unheard i.pid) (i.mapExactly start len) := by
  refine (careful_invoke _ _).bind ?_
  rintro (errno | address)
  · exact careful_pure _
  · dsimp only
    split
    · exact careful_pure _
    · exact (careful_invoke _ _).bind fun _ => careful_pure _

end Injector

/-! ## The steps of a sandbox -/

namespace Sandbox

open Tracing Custody

variable {α : Type} {phase next : SandboxPhase} {pid : Pid} {t : Transcript} {layout : Layout}

/-- A step that fails gives custody up. -/
theorem ensures_orRelease {program : Tracing α} (patience : Nat)
    {good : Transcript → α → Prop} {bad : Transcript → Halt → Prop}
    (h : Tracing.Ensures good (fun t _ => Held pid t) program t)
    (hreleased : ∀ t halt, Released t → bad t halt) :
    Tracing.Ensures good bad ((Sandbox.mk (.of pid) layout : Sandbox phase).orRelease patience program)
      t := by
  refine ensures_bind.2 ((ensures_lift _).2 (Dialogue.Ensures.mono h ?_))
  rintro t (halt | a) h
  · refine ensures_bind.2 ((ensures_lift _).2 ((ensures_release patience (.held h)).mono ?_))
    intro t _ hreleased'
    exact hreleased t halt hreleased'
  · exact h

/-- What a step of a sandbox leaves behind: the process living and in custody, or given up. -/
def Brings (pid : Pid) (layout : Layout) (step : Tracing (Sandbox next)) : Prop :=
  ∀ t, Living t → Tracing.Ensures (fun t s => Living t ∧ s = ⟨.of pid, layout⟩)
    (fun t _ => Released t) step t

theorem Brings.bind {next' : SandboxPhase} {step : Tracing (Sandbox next)}
    {f : Sandbox next → Tracing (Sandbox next')} (h : Brings pid layout step)
    (hf : Brings pid layout (f ⟨.of pid, layout⟩)) : Brings pid layout (step >>= f) := by
  intro t hliving
  refine ensures_bind.2 ((h t hliving).mono ?_ fun _ _ h => h)
  rintro t _ ⟨hliving, rfl⟩
  exact hf t hliving

/-- Careful requests about the process keep it in custody. -/
theorem brings_orRelease {program : Tracing Unit} (patience : Nat) (h : Careful (Unheard pid) program) :
    Brings pid layout (do
      (Sandbox.mk (.of pid) layout : Sandbox phase).orRelease patience program
      return (Sandbox.mk (.of pid) layout : Sandbox phase).entering next : Tracing (Sandbox next)) := by
  intro t hliving
  refine ensures_bind.2 ((ensures_orRelease patience (h t hliving) fun _ _ h => h).mono ?_
    fun _ _ h => h)
  intro t _ hliving
  exact ⟨hliving, rfl⟩

theorem careful_dropRseq (i : Injector) (maps : List MapEntry) :
    Careful (Unheard i.pid) (dropRseq i maps) := by
  refine careful_readRseq.bind ?_
  rintro (_ | rseq)
  · exact careful_readRegisters.bind fun _ => careful_pure _
  · dsimp only
    split
    · refine (Injector.careful_invoke _ _).bind ?_
      rintro (errno | _)
      · exact careful_throw _
      · exact careful_pure _
    · exact careful_pure _

theorem careful_unmapAll (i : Injector) (gaps : List Region) :
    Careful (Unheard i.pid) (unmapAll i gaps) := by
  induction gaps with
  | nil => exact careful_pure ()
  | cons gap rest ih =>
    refine (Injector.careful_invoke _ _).bind ?_
    rintro (errno | _)
    · exact careful_throw _
    · exact ih

theorem careful_removeInherited (s : Sandbox .stopped) (patience : Nat) :
    Careful (Unheard pid) (s.removeInherited pid patience) := by
  refine careful_readMaps.bind fun maps => ?_
  intro t h
  refine ensures_bind.2 (ensures_bind.2 (ensures_ofChecked (fun stub _ => ?_) fun _ _ => .inl h))
  let i : Injector := ⟨pid, stub, patience⟩
  exact (careful_dropRseq i maps).bind (fun kept => (careful_ofChecked _).bind
    fun gaps => careful_unmapAll i gaps) t h

theorem brings_scrub (wanted : Bool) (patience : Nat) :
    Brings pid layout ((Sandbox.mk (.of pid) layout : Sandbox .stopped).scrub wanted patience) := by
  cases wanted with
  | false => exact fun t h => ⟨h, rfl⟩
  | true => exact brings_orRelease patience (careful_removeInherited _ patience)

theorem brings_prime (priming : Priming) (patience : Nat) :
    Brings pid layout ((Sandbox.mk (.of pid) layout : Sandbox .scrubbed).prime priming patience) :=
  brings_orRelease patience (careful_readRegisters.bind fun _ => careful_writeRegisters _)

theorem brings_start (patience : Nat) :
    Brings pid layout ((Sandbox.mk (.of pid) layout : Sandbox .primed).start patience) :=
  brings_orRelease patience (careful_resume _)

/-- A report is read by one request. -/
theorem ensures_readReady (h : Living t) :
    Tracing.Ensures (fun t _ => Living t ∧ isCalling t = false) (fun t _ => Living t)
      (readReady pid) t := by
  have hread : Tracing.Ensures (fun t _ => Living t ∧ isCalling t = false) (fun t _ => Living t)
      (readReport pid) t := by
    refine ensures_bind.2 ((ensures_lift (ask (.readReport pid))).2 fun bytes => ?_)
    have hliving : Living (t ++ [⟨.readReport pid, bytes⟩]) := h.concat rfl
    by_cases hmissing : List.length (α := UInt8) bytes < Setup.Report.len
    · simpa [Dialogue.Ensures, hmissing, failSetup, fail] using hliving
    · simpa [Dialogue.Ensures, hmissing] using ⟨hliving, rfl⟩
  refine ensures_bind.2 (hread.mono ?_ fun _ _ h => h)
  rintro t report ⟨hliving, hcalling⟩
  split
  · exact ⟨hliving, hcalling⟩
  · exact hliving

/-- The first wait is not one for a call, so an end that it collects is heard of. -/
theorem brings_awaitStop (patience : Nat) :
    Brings pid layout ((Sandbox.mk (.of pid) layout : Sandbox .forked).awaitStop patience) := by
  intro t h
  refine ensures_bind.2 ((ensures_pure pid).2 (ensures_bind.2 ((ensures_orRelease patience
    ((ensures_readReady h).mono (fun _ _ h => h) fun _ _ h => .inl h) fun _ _ h => h).mono ?_
    fun _ _ h => h)))
  rintro t report ⟨h, hcalling⟩
  -- the status that was waited for is an end that custody notes, or none
  have hwait : Tracing.Ensures
      (fun t status => InCustody t ((Custody.of pid).noteEnd status).2 ∧
        (status.isTerminal = false → Living t))
      (fun t _ => Held pid t) (wait pid patience) t := by
    refine ensures_wait (fun t => Living t ∧ isCalling t = false) patience ⟨h, hcalling⟩
      ?again ?status ?refused ?impatient
    case again =>
      rintro t ⟨h, hcalling⟩
      exact ⟨h.concat rfl, by simp [isCallingAfter, hcalling]⟩
    case status =>
      rintro t status ⟨h, hcalling⟩
      have hgoes : status.isTerminal = false → endOf ⟨.wait pid, .ok status⟩ = none := by
        intro hgoes
        simp [endOf, hgoes]
      exact ⟨.noteEnd h (h.heard_of_not_isCalling hcalling) hgoes, fun h' => h.concat (hgoes h')⟩
    case refused =>
      rintro t errno ⟨h, _⟩
      exact .inl (h.concat rfl)
    case impatient =>
      rintro t ⟨h, _⟩
      exact .inl h
  refine ensures_bind.2 ((ensures_orRelease patience hwait fun _ _ h => h).mono ?_ fun _ _ h => h)
  rintro t status ⟨hcustody, hliving⟩
  dsimp only
  split
  next q =>
    refine ensures_orRelease patience ?_ fun _ _ h => h
    refine ensures_bind.2 ((careful_setOptions t (hliving rfl)).mono ?_ fun _ _ h => h)
    intro t _ hliving
    split
    · exact ⟨hliving, rfl⟩
    · exact .inl hliving
  next =>
    refine ensures_bind.2 ((ensures_lift _).2 ((ensures_release patience hcustody).mono ?_))
    exact fun _ _ h => h

theorem brings_launch (config : Config) (patience : Nat) :
    Brings pid layout ((Sandbox.mk (.of pid) layout : Sandbox .forked).launch config patience) :=
  (brings_awaitStop patience).bind ((brings_scrub config.scrub patience).bind
    ((brings_prime config.priming patience).bind (brings_start patience)))

end Sandbox

end Footprint
