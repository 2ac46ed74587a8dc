import Footprint.Proofs.Injection
import Footprint.Supervision

/-!
# What programs of a drive ensure

The rules of `Tracing.Ensures`, extended to programs that change a run. Both postconditions also speak
about the run that is left behind, which a halt keeps.
-/

namespace Footprint

namespace Supervising

open Kernel

variable {α β : Type} {t : Transcript} {run : Run}

/-- Whatever the kernel answers, the program ends in a result of which `good` holds or halts in a way
of which `bad` holds. -/
def Ensures (good : Transcript → Run → α → Prop) (bad : Transcript → Run → Halt → Prop)
    (program : Supervising α) (t : Transcript) (run : Run) : Prop :=
  (program.run.run run).Ensures
    (fun t result => match result with
      | (.ok a, run) => good t run a
      | (.error halt, run) => bad t run halt) t

variable {good : Transcript → Run → α → Prop} {bad : Transcript → Run → Halt → Prop}

@[simp]
theorem ensures_pure (a : α) : Ensures good bad (pure a) t run ↔ good t run a := Iff.rfl

@[simp]
theorem ensures_throw (halt : Halt) :
    Ensures good bad (throw halt : Supervising α) t run ↔ bad t run halt := Iff.rfl

theorem ensures_bind {good : Transcript → Run → β → Prop} {program : Supervising α}
    {f : α → Supervising β} :
    Ensures good bad (program >>= f) t run ↔
      Ensures (fun t run a => Ensures good bad (f a) t run) bad program t run := by
  unfold Ensures
  change Dialogue.Ensures _ (program.run.run run >>= _) t ↔ _
  rw [Dialogue.ensures_bind]
  constructor
  all_goals
    intro h
    refine h.mono ?_
    rintro t ⟨halt | a, run⟩ h
    all_goals exact h

theorem Ensures.mono {good' : Transcript → Run → α → Prop} {bad' : Transcript → Run → Halt → Prop}
    {program : Supervising α} (h : Ensures good bad program t run)
    (hgood : ∀ t run a, good t run a → good' t run a)
    (hbad : ∀ t run halt, bad t run halt → bad' t run halt) : Ensures good' bad' program t run := by
  refine Dialogue.Ensures.mono h ?_
  rintro t ⟨halt | a, run⟩ h
  · exact hbad t run halt h
  · exact hgood t run a h

@[simp]
theorem ensures_get {good : Transcript → Run → Run → Prop} :
    Ensures good bad get t run ↔ good t run run := Iff.rfl

@[simp]
theorem ensures_set {good : Transcript → Run → PUnit → Prop} (run' : Run) :
    Ensures good bad (set run') t run ↔ good t run' ⟨⟩ := Iff.rfl

@[simp]
theorem ensures_modify {good : Transcript → Run → PUnit → Prop} (f : Run → Run) :
    Ensures good bad (modify f) t run ↔ good t (f run) ⟨⟩ := Iff.rfl

/-- A tracing program leaves the run as it is. -/
theorem ensures_ofTracing {program : Tracing α} :
    Ensures good bad (ofTracing program) t run ↔
      Tracing.Ensures (fun t a => good t run a) (fun t halt => bad t run halt) program t := by
  unfold Ensures Tracing.Ensures
  change Dialogue.Ensures _ (program.run >>= fun result => pure (result, run)) t ↔ _
  rw [Dialogue.ensures_bind]
  constructor
  all_goals
    intro h
    refine h.mono ?_
    rintro t (halt | a) h
    all_goals exact h

/-- A question leaves the run as it is. -/
theorem ensures_ofQuestion {program : Kernel.Program α} :
    Ensures good bad (ofQuestion program) t run ↔ program.Ensures (fun t a => good t run a) t := by
  unfold Ensures
  change Dialogue.Ensures _ ((program >>= fun a => pure (a, run)) >>= fun (a, run) =>
    pure (Except.ok a, run)) t ↔ _
  rw [Dialogue.ensures_bind, Dialogue.ensures_bind]
  exact Iff.rfl

@[simp]
theorem ensures_endWith (change : Monitor → Failure × Monitor) :
    Ensures good bad (endWith change : Supervising α) t run ↔
      bad t { run with monitor := (change run.monitor).2 } (.failed (change run.monitor).1) := Iff.rfl

end Supervising

end Footprint
