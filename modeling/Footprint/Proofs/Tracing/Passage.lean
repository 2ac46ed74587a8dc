import Footprint.Proofs.Dialogue.Passage
import Footprint.Proofs.Tracing

/-!
# Tracing requests against a kernel

Rules for programs of a tracer that run against one kernel: behind every call an invariant of the kernel's
state holds, and if the program has a result, so does a postcondition, unless a closing call was made. Of
programs that halt only the invariant is claimed.
-/

namespace Footprint

namespace Tracing

open Kernel

variable {α β σ : Type} {kernel : (c : Call) → σ → Answer c × σ} {closing : Call → Prop} {inv : σ → Prop}
  {k : σ} {pid : Pid}

/-- Behind every call of the program `inv` holds, and `good` of its result, if it has one; a call that
is `closing` ends what is claimed. -/
def Passes (kernel : (c : Call) → σ → Answer c × σ) (closing : Call → Prop) (inv : σ → Prop)
    (good : α → σ → Prop) (program : Tracing α) (k : σ) : Prop :=
  program.run.Passes kernel closing inv
    (fun result k => match result with
      | .ok a => good a k
      | .error _ => True) k

variable {good : α → σ → Prop}

@[simp]
theorem passes_pure (a : α) : Passes kernel closing inv good (pure a) k ↔ good a k := Iff.rfl

@[simp]
theorem passes_throw (halt : Halt) : Passes kernel closing inv good (throw halt) k ↔ True := Iff.rfl

theorem passes_bind {good : β → σ → Prop} {program : Tracing α} {f : α → Tracing β} :
    Passes kernel closing inv good (program >>= f) k ↔
      Passes kernel closing inv (fun a k => Passes kernel closing inv good (f a) k) program k := by
  unfold Passes
  change Dialogue.Passes _ _ _ _ (program.run >>= _) k ↔ _
  rw [Dialogue.passes_bind]
  constructor
  all_goals
    intro h
    refine h.mono (fun _ h => h) ?_
    intro result k h
    cases result with
    | error halt => exact h
    | ok a => exact h

theorem Passes.weaken {inv' : σ → Prop} {good' : α → σ → Prop} {program : Tracing α}
    (h : Passes kernel closing inv good program k) (hinv : ∀ k, inv k → inv' k)
    (hgood : ∀ a k, good a k → good' a k) : Passes kernel closing inv' good' program k := by
  refine Dialogue.Passes.mono h hinv ?_
  intro result k h
  cases result with
  | error halt => trivial
  | ok a => exact hgood a k h

theorem Passes.mono {good' : α → σ → Prop} {program : Tracing α}
    (h : Passes kernel closing inv good program k) (hgood : ∀ a k, good a k → good' a k) :
    Passes kernel closing inv good' program k :=
  h.weaken (fun _ h => h) hgood

theorem passes_ofChecked {value : Checked α} (hok : ∀ a, value = .ok a → good a k) :
    Passes kernel closing inv good (ofChecked value) k := by
  cases value with
  | error e => trivial
  | ok a => exact hok a rfl

theorem passes_lift (program : Kernel.Program α) :
    Passes kernel closing inv good (ExceptT.lift program) k ↔ program.Passes kernel closing inv good k := by
  change Dialogue.Passes _ _ _ _ (program >>= fun a => pure (Except.ok a)) k ↔ _
  rw [Dialogue.passes_bind]
  exact Iff.rfl

/-- A request that is granted goes on with its answer. -/
theorem passes_attempt {request : Request} {program : Kernel.Program (Except Errno α)}
    (h : program.Passes kernel closing inv (fun reply k => ∀ a, reply = .ok a → good a k) k) :
    Passes kernel closing inv good (attempt request program) k := by
  change Passes kernel closing inv good (ExceptT.lift program >>= _) k
  rw [passes_bind, passes_lift]
  refine h.mono (fun _ h => h) ?_
  intro reply k h
  cases reply with
  | error errno => trivial
  | ok a => exact h a rfl

/-- A program goes on with the result of its first part. -/
theorem run_bind_ok {program : Tracing α} {f : α → Tracing β} {a : α} {k' : σ}
    (h : program.run.run kernel k = (.ok a, k')) :
    (program >>= f).run.run kernel k = (f a).run.run kernel k' := by
  change Dialogue.run kernel (program.run >>= _) k = _
  rw [Dialogue.run_bind, h]
  rfl

/-! ## Requests -/

theorem passes_readRegisters {good : Registers → σ → Prop} (hinv : inv (kernel (.readRegisters pid) k).2)
    (hgood : ∀ registers, (kernel (.readRegisters pid) k).1 = .ok registers →
      good registers (kernel (.readRegisters pid) k).2) :
    Passes kernel closing inv good (readRegisters pid) k :=
  passes_attempt (.inr ⟨hinv, hgood⟩)

theorem passes_writeRegisters {registers : Registers} {good : Unit → σ → Prop}
    (hinv : inv (kernel (.writeRegisters pid registers) k).2)
    (hgood : (kernel (.writeRegisters pid registers) k).1 = .ok () →
      good () (kernel (.writeRegisters pid registers) k).2) :
    Passes kernel closing inv good (writeRegisters pid registers) k :=
  passes_attempt (.inr ⟨hinv, fun _ hok => hgood hok⟩)

theorem passes_resume {how : Resumption} {good : Unit → σ → Prop}
    (hinv : inv (kernel (.resume pid how) k).2)
    (hgood : (kernel (.resume pid how) k).1 = .ok () → good () (kernel (.resume pid how) k).2) :
    Passes kernel closing inv good (resume pid how) k :=
  passes_attempt (.inr ⟨hinv, fun _ hok => hgood hok⟩)

theorem passes_readMaps {good : List MapEntry → σ → Prop} (hinv : inv (kernel (.readMaps pid) k).2)
    (hgood : ∀ text, (kernel (.readMaps pid) k).1 = .ok text →
      good (Maps.entries text) (kernel (.readMaps pid) k).2) :
    Passes kernel closing inv good (readMaps pid) k := by
  refine passes_bind.2 ((passes_lift _).2 (Dialogue.passes_call.2 (.inr ⟨hinv, ?_⟩)))
  cases hreply : (kernel (.readMaps pid) k).1 with
  | error errno => trivial
  | ok text => exact hgood text hreply

theorem passes_readRseq {good : Option Rseq → σ → Prop} (hinv : inv (kernel (.readRseq pid) k).2)
    (hsome : ∀ rseq, (kernel (.readRseq pid) k).1 = .ok rseq →
      good (some rseq) (kernel (.readRseq pid) k).2)
    (hnone : ∀ errno, (kernel (.readRseq pid) k).1 = .error errno →
      good none (kernel (.readRseq pid) k).2) :
    Passes kernel closing inv good (readRseq pid) k := by
  refine passes_bind.2 ((passes_lift _).2 (Dialogue.passes_call.2 (.inr ⟨hinv, ?_⟩)))
  cases hreply : (kernel (.readRseq pid) k).1 with
  | ok rseq => exact hsome rseq hreply
  | error errno =>
    dsimp only
    split
    · exact hnone errno hreply
    · trivial

/-! ## Waiting -/

/-- However often a wait is interrupted, what every wait keeps holds behind it. -/
theorem passes_uninterrupted {P : σ → Prop} {good : Except Errno α → σ → Prop}
    {program : Kernel.Program (Except Errno α)}
    (hask : ∀ k, P k → program.Passes kernel closing inv (fun _ k => P k) k)
    (hgood : ∀ reply k, P k → good reply k) (patience : Nat) (hP : P k) :
    Passes kernel closing inv good (uninterrupted program patience) k := by
  induction patience generalizing k with
  | zero => trivial
  | succ patience ih =>
    change Passes kernel closing inv good (ExceptT.lift program >>= _) k
    rw [passes_bind, passes_lift]
    refine (hask k hP).mono (fun _ h => h) ?_
    intro reply k hP
    cases reply with
    | ok a => exact hgood _ k hP
    | error errno =>
      by_cases hinterrupted : errno = .interrupted
      · simpa [hinterrupted] using ih hP
      · simpa [hinterrupted] using hgood _ k hP

theorem passes_wait {P : σ → Prop} {good : WaitStatus → σ → Prop}
    (hask : ∀ k, P k → inv (kernel (.wait pid) k).2 ∧ P (kernel (.wait pid) k).2)
    (hgood : ∀ status k, P k → good status k) (patience : Nat) (hP : P k) :
    Passes kernel closing inv good (wait pid patience) k := by
  have hwait : ∀ k, P k → (ask (.wait pid)).Passes kernel closing inv (fun _ k => P k) k := by
    intro k hP
    exact Dialogue.passes_call.2 (.inr (hask k hP))
  change Passes kernel closing inv good (uninterrupted (ask (.wait pid)) patience >>= _) k
  refine passes_bind.2 (passes_uninterrupted hwait ?_ patience hP)
  intro reply k hP
  cases reply with
  | error errno => trivial
  | ok status => exact hgood status k hP

end Tracing

end Footprint
