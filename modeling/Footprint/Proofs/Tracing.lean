import Footprint.Tracing
import Footprint.Proofs.Dialogue.Transcript

/-!
# What tracing requests ensure

Rules for programs of a tracer, whatever the kernel answers. `Ensures` has two postconditions, one
for results and one for halts, so that a sequence passes the second one on unchanged
(`ensures_bind`). The requests follow, each with the exchange that it adds to the transcript.
-/

namespace Footprint

namespace Kernel

abbrev Exchange := Dialogue.Exchange Call Answer

/-- What a tracer asked and was answered, in order. -/
abbrev Transcript := List Exchange

end Kernel

/-- Whether a halt is the tracer's own: a request that failed, a status that is none, arithmetic that
left its range, or patience that ran out. -/
def Halt.isTracing : Halt → Bool
  | .failed (.setup _) => true
  | .failed (.fault _ (.unexpectedStatus _)) => true
  | .failed _ => false
  | .arithmetic _ => true
  | .impatient => true

namespace Tracing

open Kernel

variable {α β : Type} {t : Transcript} {pid : Pid}

/-- Whatever the kernel answers, the program ends in a result of which `good` holds or halts in a way
of which `bad` holds. -/
def Ensures (good : Transcript → α → Prop) (bad : Transcript → Halt → Prop) (program : Tracing α)
    (t : Transcript) : Prop :=
  program.run.Ensures
    (fun t result => match result with
      | .ok a => good t a
      | .error halt => bad t halt) t

variable {good : Transcript → α → Prop} {bad : Transcript → Halt → Prop}

@[simp]
theorem ensures_pure (a : α) : Ensures good bad (pure a) t ↔ good t a := Iff.rfl

@[simp]
theorem ensures_throw (halt : Halt) : Ensures good bad (throw halt) t ↔ bad t halt := Iff.rfl

theorem ensures_bind {good : Transcript → β → Prop} {program : Tracing α} {f : α → Tracing β} :
    Ensures good bad (program >>= f) t ↔
      Ensures (fun t a => Ensures good bad (f a) t) bad program t := by
  unfold Ensures
  rw [Dialogue.ensures_run_bind]
  constructor
  all_goals
    intro h
    refine h.mono ?_
    rintro t (halt | a) h
    all_goals exact h

theorem ensures_lift (program : Kernel.Program α) :
    Ensures good bad (ExceptT.lift program) t ↔ program.Ensures good t := by
  unfold Ensures
  exact Dialogue.ensures_run_lift

theorem Ensures.mono {good' : Transcript → α → Prop} {bad' : Transcript → Halt → Prop}
    {program : Tracing α} (h : Ensures good bad program t) (hgood : ∀ t a, good t a → good' t a)
    (hbad : ∀ t halt, bad t halt → bad' t halt) : Ensures good' bad' program t := by
  refine Dialogue.Ensures.mono h ?_
  rintro t (halt | a) h
  · exact hbad t halt h
  · exact hgood t a h

theorem Ensures.and {good' : Transcript → α → Prop} {bad' : Transcript → Halt → Prop}
    {program : Tracing α} (h : Ensures good bad program t) (h' : Ensures good' bad' program t) :
    Ensures (fun t a => good t a ∧ good' t a) (fun t halt => bad t halt ∧ bad' t halt) program t := by
  refine (Dialogue.Ensures.and h h').mono ?_
  rintro t (halt | a) h
  all_goals exact h

theorem ensures_ofChecked {value : Checked α} (hok : ∀ a, value = .ok a → good t a)
    (herror : ∀ e, value = .error e → bad t (.arithmetic e)) :
    Ensures good bad (ofChecked value) t := by
  cases value with
  | ok a => exact hok a rfl
  | error e => exact herror e rfl

/-! ## Requests -/

theorem ensures_attempt {request : Request} {program : Kernel.Program (Except Errno α)}
    (h : program.Ensures
      (fun t reply => match reply with
        | .ok a => good t a
        | .error errno => bad t (.failed (.setup (.refused request errno)))) t) :
    Ensures good bad (attempt request program) t := by
  change Ensures good bad (ExceptT.lift program >>= _) t
  rw [ensures_bind, ensures_lift]
  refine h.mono ?_
  rintro t (errno | a) h
  · exact h
  · exact h

theorem ensures_readRegisters {good : Transcript → Registers → Prop}
    (hok : ∀ registers, good (t ++ [⟨.readRegisters pid, .ok registers⟩]) registers)
    (herror : ∀ errno, bad (t ++ [⟨.readRegisters pid, .error errno⟩])
      (.failed (.setup (.refused .readRegisters errno)))) :
    Ensures good bad (readRegisters pid) t := by
  apply ensures_attempt
  rintro (errno | registers)
  · exact herror errno
  · exact hok registers

theorem ensures_writeRegisters {registers : Registers} {good : Transcript → Unit → Prop}
    (hok : good (t ++ [⟨.writeRegisters pid registers, .ok ()⟩]) ())
    (herror : ∀ errno, bad (t ++ [⟨.writeRegisters pid registers, .error errno⟩])
      (.failed (.setup (.refused .writeRegisters errno)))) :
    Ensures good bad (writeRegisters pid registers) t := by
  apply ensures_attempt
  rintro (errno | ⟨⟩)
  · exact herror errno
  · exact hok

theorem ensures_readSignal {good : Transcript → SignalInfo → Prop}
    (hok : ∀ info, good (t ++ [⟨.readSignal pid, .ok info⟩]) info)
    (herror : ∀ errno, bad (t ++ [⟨.readSignal pid, .error errno⟩])
      (.failed (.setup (.refused .readSignal errno)))) :
    Ensures good bad (readSignal pid) t := by
  apply ensures_attempt
  rintro (errno | info)
  · exact herror errno
  · exact hok info

theorem ensures_resume {how : Resumption} {good : Transcript → Unit → Prop}
    (hok : good (t ++ [⟨.resume pid how, .ok ()⟩]) ())
    (herror : ∀ errno, bad (t ++ [⟨.resume pid how, .error errno⟩])
      (.failed (.setup (.refused (resumptionRequest how) errno)))) :
    Ensures good bad (resume pid how) t := by
  apply ensures_attempt
  rintro (errno | ⟨⟩)
  · exact herror errno
  · exact hok

/-! ## Waiting

Every interruption adds an exchange, so what is known of the transcript before the answer that counts
is an invariant `inv` of interruptions. -/

variable {inv : Transcript → Prop}

theorem ensures_uninterrupted {good : Transcript → Except Errno α → Prop}
    {program : Kernel.Program (Except Errno α)}
    (hask : ∀ t, inv t → program.Ensures
      (fun t reply => match reply with
        | .ok _ => good t reply
        | .error errno => if errno = .interrupted then inv t else good t reply) t)
    (himpatient : ∀ t, inv t → bad t .impatient) (patience : Nat) (hinv : inv t) :
    Ensures good bad (uninterrupted program patience) t := by
  induction patience generalizing t with
  | zero => exact himpatient t hinv
  | succ patience ih =>
    change Ensures good bad (ExceptT.lift program >>= _) t
    rw [ensures_bind, ensures_lift]
    refine (hask t hinv).mono ?_
    rintro t (errno | a) hreply
    · by_cases hinterrupted : errno = .interrupted
      · subst hinterrupted
        exact ih (by simpa using hreply)
      · simpa [hinterrupted] using hreply
    · exact hreply

theorem ensures_awaiting {program : Kernel.Program (Except Errno α)}
    (hask : ∀ t, inv t → program.Ensures
      (fun t reply => match reply with
        | .ok a => good t a
        | .error errno =>
          if errno = .interrupted then inv t
          else bad t (.failed (.setup (.refused .awaitStop errno)))) t)
    (himpatient : ∀ t, inv t → bad t .impatient) (patience : Nat) (hinv : inv t) :
    Ensures good bad (awaiting program patience) t := by
  refine ensures_bind.2 (ensures_uninterrupted (fun t hinv => ?_) himpatient patience hinv)
  refine (hask t hinv).mono ?_
  rintro t (errno | a) hreply
  · by_cases hinterrupted : errno = .interrupted
    · simpa [hinterrupted] using hreply
    · simpa [hinterrupted, failSetup, fail] using hreply
  · simpa using hreply

theorem ensures_wait {good : Transcript → WaitStatus → Prop} (inv : Transcript → Prop)
    (patience : Nat) (hinv : inv t)
    (hagain : ∀ t, inv t → inv (t ++ [⟨.wait pid, .error .interrupted⟩]))
    (hok : ∀ t status, inv t → good (t ++ [⟨.wait pid, .ok status⟩]) status)
    (herror : ∀ t errno, inv t → bad (t ++ [⟨.wait pid, .error errno⟩])
      (.failed (.setup (.refused .awaitStop errno))))
    (himpatient : ∀ t, inv t → bad t .impatient) :
    Ensures good bad (wait pid patience) t := by
  refine ensures_awaiting (fun t hinv => ?_) himpatient patience hinv
  rintro (errno | status)
  · by_cases hinterrupted : errno = .interrupted
    · subst hinterrupted
      exact hagain t hinv
    · simpa [Dialogue.Ensures, hinterrupted] using herror t errno hinv
  · exact hok t status hinv

theorem ensures_poll {good : Transcript → Option WaitStatus → Prop} (inv : Transcript → Prop)
    (patience : Nat) (hinv : inv t)
    (hagain : ∀ t, inv t → inv (t ++ [⟨.poll pid, .error .interrupted⟩]))
    (hnone : ∀ t, inv t → good (t ++ [⟨.poll pid, .ok .stillAlive⟩]) none)
    (hsome : ∀ t status, inv t → status ≠ .stillAlive →
      good (t ++ [⟨.poll pid, .ok status⟩]) (some status))
    (herror : ∀ t errno, inv t → bad (t ++ [⟨.poll pid, .error errno⟩])
      (.failed (.setup (.refused .awaitStop errno))))
    (himpatient : ∀ t, inv t → bad t .impatient) :
    Ensures good bad (poll pid patience) t := by
  refine ensures_bind.2 (ensures_awaiting (fun t hinv => ?_) himpatient patience hinv)
  rintro (errno | status)
  · by_cases hinterrupted : errno = .interrupted
    · subst hinterrupted
      exact hagain t hinv
    · simpa [Dialogue.Ensures, hinterrupted] using herror t errno hinv
  · by_cases halive : status = .stillAlive
    · subst halive
      exact hnone t hinv
    · simpa [Dialogue.Ensures, halive] using hsome t status hinv halive

end Tracing

end Footprint
