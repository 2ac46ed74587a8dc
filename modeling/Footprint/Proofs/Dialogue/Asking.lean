import Footprint.Proofs.Supervision.Rules

/-!
# What a program may ask

`Asks` says that a program makes calls of some kind only, whatever it is answered. It is checked call by
call, without looking at answers, so it passes through sequences and branches alike. A property of
transcripts that calls of the kind keep holds behind such a program, be it that it has a result or halts
(`Asks.ensures`).
-/

namespace Footprint

namespace Dialogue

variable {Call : Type} {Answer : Call → Type} {α β : Type} {allowed : Call → Prop}

/-- Whatever the answers are, only calls that are `allowed` are made. -/
def Asks (allowed : Call → Prop) : Dialogue Call Answer α → Prop
  | done _ => True
  | ask c next => allowed c ∧ ∀ reply, (next reply).Asks allowed

@[simp]
theorem asks_pure (a : α) : (pure a : Dialogue Call Answer α).Asks allowed := trivial

theorem asks_call {c : Call} (h : allowed c) : (call c : Dialogue Call Answer (Answer c)).Asks allowed :=
  ⟨h, fun _ => trivial⟩

theorem Asks.bind {d : Dialogue Call Answer α} {f : α → Dialogue Call Answer β} (h : d.Asks allowed)
    (hf : ∀ a, (f a).Asks allowed) : (d >>= f).Asks allowed := by
  induction d with
  | done a => exact hf a
  | ask c next ih => exact ⟨h.1, fun reply => ih reply (h.2 reply)⟩

theorem Asks.mono {allowed' : Call → Prop} {d : Dialogue Call Answer α} (h : d.Asks allowed)
    (himp : ∀ c, allowed c → allowed' c) : d.Asks allowed' := by
  induction d with
  | done a => trivial
  | ask c next ih => exact ⟨himp c h.1, fun reply => ih reply (h.2 reply)⟩

/-- What the allowed calls keep holds behind the program. -/
theorem Asks.ensures {J : List (Exchange Call Answer) → Prop} {d : Dialogue Call Answer α}
    {t : List (Exchange Call Answer)} (h : d.Asks allowed)
    (hJ : ∀ t x, allowed x.call → J t → J (t ++ [x])) (ht : J t) : d.Ensures (fun t _ => J t) t := by
  induction d generalizing t with
  | done a => exact ht
  | ask c next ih => exact fun reply => ih reply (h.2 reply) (hJ t ⟨c, reply⟩ h.1 ht)

/-! ## Programs that may fail -/

section

variable {ε : Type}

theorem asks_run_bind {program : ExceptT ε (Dialogue Call Answer) α}
    {f : α → ExceptT ε (Dialogue Call Answer) β} (h : program.run.Asks allowed)
    (hf : ∀ a, (f a).run.Asks allowed) : (program >>= f).run.Asks allowed := by
  refine Asks.bind h ?_
  rintro (e | a)
  · trivial
  · exact hf a

theorem asks_run_lift {d : Dialogue Call Answer α} (h : d.Asks allowed) :
    (ExceptT.lift d : ExceptT ε (Dialogue Call Answer) α).run.Asks allowed :=
  Asks.bind h fun _ => trivial

end

end Dialogue

open Kernel

variable {α β : Type} {allowed allowed' : Call → Prop} {J : Transcript → Prop} {t : Transcript}

/-! ## Programs of a tracer -/

namespace Tracing

def Asks (allowed : Call → Prop) (program : Tracing α) : Prop :=
  program.run.Asks allowed

theorem asks_pure (a : α) : Asks allowed (pure a : Tracing α) := trivial

theorem Asks.bind {program : Tracing α} {f : α → Tracing β} (h : Asks allowed program)
    (hf : ∀ a, Asks allowed (f a)) : Asks allowed (program >>= f) :=
  Dialogue.asks_run_bind h hf

theorem Asks.mono {program : Tracing α} (h : Asks allowed program) (himp : ∀ c, allowed c → allowed' c) :
    Asks allowed' program :=
  Dialogue.Asks.mono h himp

theorem Asks.ensures {program : Tracing α} (h : Asks allowed program)
    (hJ : ∀ t x, allowed x.call → J t → J (t ++ [x])) (ht : J t) :
    Ensures (fun t _ => J t) (fun t _ => J t) program t := by
  refine (Dialogue.Asks.ensures h hJ ht).mono ?_
  rintro t (halt | a) h
  all_goals exact h

theorem asks_lift {program : Kernel.Program α} (h : program.Asks allowed) :
    Asks allowed (ExceptT.lift program) :=
  Dialogue.asks_run_lift h

theorem asks_ofChecked (value : Checked α) : Asks allowed (ofChecked value) := by
  cases value
  all_goals trivial

theorem asks_attempt {request : Request} {program : Kernel.Program (Except Errno α)}
    (h : program.Asks allowed) : Asks allowed (attempt request program) := by
  refine (asks_lift h).bind ?_
  rintro (errno | a)
  all_goals trivial

theorem asks_awaiting {program : Kernel.Program (Except Errno α)} (h : program.Asks allowed)
    (patience : Nat) : Asks allowed (awaiting program patience) := by
  have huninterrupted : Asks allowed (uninterrupted program patience) := by
    induction patience with
    | zero => trivial
    | succ patience ih =>
      refine (asks_lift h).bind ?_
      rintro (errno | a)
      · dsimp only
        split
        · exact ih
        · trivial
      · trivial
  refine huninterrupted.bind ?_
  rintro (errno | a)
  all_goals trivial

end Tracing

namespace Supervising

/-- A program of a drive makes calls of the kind only, whatever run it is on. -/
def Asks (allowed : Call → Prop) (program : Supervising α) : Prop :=
  ∀ run, (program.run.run run).Asks allowed

theorem asks_pure (a : α) : Asks allowed (pure a : Supervising α) := fun _ => trivial

theorem asks_throw (halt : Halt) : Asks allowed (throw halt : Supervising α) := fun _ => trivial

theorem asks_get : Asks allowed (get : Supervising Run) := fun _ => trivial

theorem asks_set (run : Run) : Asks allowed (set run : Supervising PUnit) := fun _ => trivial

theorem asks_modify (f : Run → Run) : Asks allowed (modify f : Supervising PUnit) := fun _ => trivial

theorem asks_endWith (change : Monitor → Failure × Monitor) :
    Asks allowed (endWith change : Supervising α) := fun _ => trivial

theorem Asks.bind {program : Supervising α} {f : α → Supervising β} (h : Asks allowed program)
    (hf : ∀ a, Asks allowed (f a)) : Asks allowed (program >>= f) := by
  intro run
  refine Dialogue.Asks.bind (h run) ?_
  rintro ⟨halt | a, run⟩
  · trivial
  · exact hf a run

theorem Asks.mono {program : Supervising α} (h : Asks allowed program)
    (himp : ∀ c, allowed c → allowed' c) : Asks allowed' program :=
  fun run => Dialogue.Asks.mono (h run) himp

theorem Asks.ensures {program : Supervising α} (h : Asks allowed program)
    (hJ : ∀ t x, allowed x.call → J t → J (t ++ [x])) (ht : J t) (run : Run) :
    Ensures (fun t _ _ => J t) (fun t _ _ => J t) program t run := by
  refine (Dialogue.Asks.ensures (h run) hJ ht).mono ?_
  rintro t ⟨halt | a, run⟩ h
  all_goals exact h

theorem asks_ofTracing {program : Tracing α} (h : Tracing.Asks allowed program) :
    Asks allowed (ofTracing program) := fun _ => Dialogue.Asks.bind h fun _ => trivial

theorem asks_ofQuestion {program : Kernel.Program α} (h : program.Asks allowed) :
    Asks allowed (ofQuestion program) :=
  fun _ => Dialogue.Asks.bind (Dialogue.Asks.bind h fun _ => trivial) fun _ => trivial

end Supervising

end Footprint
