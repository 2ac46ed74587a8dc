import Footprint.Proofs.Supervision.Rules

/-!
# When a tracer loses patience

A wait that signals interrupt is asked again, and how often is bounded. So a program whose waits all have
the same patience gives up only behind as many interruptions in a row (`Patient`). What else a program does
has no part in that, and the judgement passes through it.
-/

namespace Footprint

namespace Kernel

/-- Whether a signal interrupted a wait. -/
def isInterruption : Exchange → Bool
  | ⟨.poll _, .error errno⟩ => errno = .interrupted
  | ⟨.wait _, .error errno⟩ => errno = .interrupted
  | _ => false

/-- The last exchanges, so many of them, were all interrupted. -/
def Weary (patience : Nat) (t : Transcript) : Prop :=
  ∃ before burst, t = before ++ burst ∧ burst.length = patience ∧ ∀ x ∈ burst, isInterruption x = true

variable {patience : Nat} {t : Transcript} {x : Exchange}

theorem weary_zero (t : Transcript) : Weary 0 t := ⟨t, [], by simp⟩

theorem Weary.concat (h : Weary patience t) (hx : isInterruption x = true) :
    Weary (patience + 1) (t ++ [x]) := by
  rcases h with ⟨before, burst, rfl, hlength, hburst⟩
  refine ⟨before, burst ++ [x], by simp, by simp [hlength], ?_⟩
  intro y hy
  rcases List.mem_append.1 hy with hearlier | hlast
  · exact hburst y hearlier
  · rwa [List.mem_singleton.1 hlast]

end Kernel

open Kernel

variable {α β : Type} {patience : Nat} {t : Transcript}

/-! ## Programs of a tracer -/

namespace Tracing

/-- The program gives up only if it was interrupted as often as it has patience. -/
def Patient (patience : Nat) (program : Tracing α) : Prop :=
  ∀ t, Ensures (fun _ _ => True) (fun t halt => halt = .impatient → Weary patience t) program t

theorem patient_pure (a : α) : Patient patience (pure a : Tracing α) := fun _ => trivial

theorem patient_failed (failure : Failure) : Patient patience (throw (.failed failure) : Tracing α) :=
  fun _ h => nomatch h

theorem Patient.bind {program : Tracing α} {f : α → Tracing β} (h : Patient patience program)
    (hf : ∀ a, Patient patience (f a)) : Patient patience (program >>= f) :=
  fun t => ensures_bind.2 ((h t).mono (fun t a _ => hf a t) fun _ _ h => h)

theorem patient_ofChecked (value : Checked α) : Patient patience (ofChecked value) :=
  fun _ => ensures_ofChecked (fun _ _ => trivial) fun _ _ h => nomatch h

theorem patient_attempt (request : Request) (program : Kernel.Program (Except Errno α)) :
    Patient patience (attempt request program) := by
  intro t
  have hsome : program.Ensures (fun _ _ => True) t :=
    Dialogue.ensures_of_persistent (fun _ _ h => h) program trivial
  refine ensures_attempt (hsome.mono ?_)
  rintro t (errno | a) _
  · exact fun h => nomatch h
  · trivial

/-- A wait is asked again because it was interrupted. -/
theorem patient_awaiting {program : Kernel.Program (Except Errno α)}
    (hask : ∀ t, program.Ensures (fun t' reply => reply = .error .interrupted →
      ∃ x, isInterruption x = true ∧ t' = t ++ [x]) t) (patience : Nat) :
    Patient patience (awaiting program patience) := by
  -- some interruptions may have come before, so the statement has to count them as well
  have hagain (left : Nat) : ∀ n t, Weary n t → Ensures (fun _ _ => True)
      (fun t halt => halt = .impatient → Weary (n + left) t) (uninterrupted program left) t := by
    induction left with
    | zero => exact fun n t hweary _ => hweary
    | succ left ih =>
      intro n t hweary
      change Ensures _ _ (ExceptT.lift program >>= _) t
      rw [ensures_bind, ensures_lift]
      refine (hask t).mono ?_
      rintro t' (errno | a) hreply
      · by_cases hinterrupted : errno = .interrupted
        · subst hinterrupted
          rcases hreply rfl with ⟨x, hx, rfl⟩
          have hnext := ih (n + 1) _ (hweary.concat hx)
          rw [Nat.add_assoc, Nat.add_comm 1] at hnext
          simpa using hnext
        · simp [hinterrupted]
      · trivial
  have huninterrupted : Patient patience (uninterrupted program patience) := fun t => by
    simpa using hagain patience 0 t (weary_zero t)
  refine huninterrupted.bind ?_
  rintro (errno | a)
  · exact patient_failed _
  · exact patient_pure a

theorem patient_wait (pid : Pid) (patience : Nat) : Patient patience (wait pid patience) := by
  have hask (t : Transcript) : (ask (.wait pid)).Ensures (fun t' reply =>
      reply = .error .interrupted → ∃ x, isInterruption x = true ∧ t' = t ++ [x]) t :=
    fun reply hreply => ⟨⟨.wait pid, reply⟩, by rw [hreply]; rfl, rfl⟩
  exact patient_awaiting hask patience

theorem patient_poll (pid : Pid) (patience : Nat) : Patient patience (poll pid patience) := by
  have hask (t : Transcript) : (ask (.poll pid)).Ensures (fun t' reply =>
      reply = .error .interrupted → ∃ x, isInterruption x = true ∧ t' = t ++ [x]) t :=
    fun reply hreply => ⟨⟨.poll pid, reply⟩, by rw [hreply]; rfl, rfl⟩
  exact (patient_awaiting hask patience).bind fun _ => patient_pure _

theorem patient_classify (pid : Pid) (status : WaitStatus) : Patient patience (classify pid status) := by
  cases status with
  | stopped =>
    exact (patient_attempt _ _).bind fun _ => (patient_attempt _ _).bind fun _ => patient_pure _
  | systemCall => exact (patient_attempt _ _).bind fun _ => patient_pure _
  | exited | signaled => exact patient_pure _
  | _ => exact patient_failed _

end Tracing

namespace Injector

open Tracing

variable (i : Injector)

theorem patient_invoke (number : UInt64) (args : Registers.Arguments) :
    Patient i.patience (i.invoke number args) := by
  have hstub : Patient i.patience (i.awaitStub number) := by
    refine (patient_wait _ _).bind fun status => ?_
    split
    · refine (patient_attempt _ _).bind fun after => (patient_ofChecked _).bind fun expected => ?_
      split
      · exact patient_pure _
      · exact patient_failed _
    · exact patient_failed _
  refine (patient_attempt _ _).bind fun _ => (patient_attempt _ _).bind fun _ => ?_
  refine (patient_attempt _ _).bind fun _ => hstub.bind fun _ => ?_
  exact (patient_attempt _ _).bind fun _ => patient_pure _

theorem patient_mapExactly (start len : Addr) : Patient i.patience (i.mapExactly start len) := by
  refine (i.patient_invoke _ _).bind ?_
  rintro (errno | address)
  · exact patient_pure _
  · dsimp only
    split
    · exact patient_pure _
    · exact (i.patient_invoke _ _).bind fun _ => patient_pure _

end Injector

/-! ## Programs of a drive -/

namespace Supervising

def Patient (patience : Nat) (program : Supervising α) : Prop :=
  ∀ t run, Ensures (fun _ _ _ => True) (fun t _ halt => halt = .impatient → Weary patience t) program t run

theorem patient_pure (a : α) : Patient patience (pure a : Supervising α) := fun _ _ => trivial

theorem patient_failed (failure : Failure) :
    Patient patience (throw (.failed failure) : Supervising α) := fun _ _ h => nomatch h

theorem patient_get : Patient patience (get : Supervising Run) := fun _ _ => trivial

theorem patient_set (run : Run) : Patient patience (set run : Supervising PUnit) := fun _ _ => trivial

theorem patient_modify (f : Run → Run) : Patient patience (modify f : Supervising PUnit) :=
  fun _ _ => trivial

theorem patient_endWith (change : Monitor → Failure × Monitor) :
    Patient patience (endWith change : Supervising α) := fun _ _ h => nomatch h

theorem Patient.bind {program : Supervising α} {f : α → Supervising β} (h : Patient patience program)
    (hf : ∀ a, Patient patience (f a)) : Patient patience (program >>= f) :=
  fun t run => ensures_bind.2 ((h t run).mono (fun t run a _ => hf a t run) fun _ _ _ h => h)

theorem patient_ofTracing {program : Tracing α} (h : Tracing.Patient patience program) :
    Patient patience (ofTracing program) := fun t _ => ensures_ofTracing.2 (h t)

theorem patient_ofQuestion (program : Kernel.Program α) : Patient patience (ofQuestion program) :=
  fun _ _ => ensures_ofQuestion.2 (Dialogue.ensures_of_persistent (fun _ _ h => h) program trivial)

end Supervising

namespace Supervisor

open Supervising

variable {s : Supervisor}

theorem patient_makeAccessible (g : Grant) :
    Tracing.Patient s.injector.patience (s.makeAccessible g) := by
  unfold makeAccessible
  split
  · exact s.injector.patient_mapExactly _ _
  · exact s.injector.patient_invoke _ _

theorem patient_carryOut (g : Grant) : Patient s.injector.patience (s.carryOut g) := by
  refine (patient_ofTracing (patient_makeAccessible g)).bind ?_
  rintro (errno | _)
  · exact patient_endWith _
  · refine patient_get.bind fun run => (patient_ofTracing (Tracing.patient_ofChecked _)).bind fun _ => ?_
    exact (patient_set _).bind fun _ => patient_ofTracing (Tracing.patient_attempt _ _)

theorem patient_judge (stop : Stop) : Patient patience (s.judge stop) := by
  have helapsed : Patient patience s.elapsed := (patient_ofQuestion _).bind fun _ => patient_pure _
  refine helapsed.bind fun elapsed => patient_get.bind fun run => (patient_set _).bind fun _ => ?_
  exact patient_ofTracing (Tracing.patient_ofChecked _)

theorem patient_handle (status : WaitStatus) : Patient s.injector.patience (s.handle status) := by
  refine (patient_modify _).bind fun _ => (patient_ofTracing (Tracing.patient_classify _ _)).bind ?_
  refine fun stop => (patient_judge stop).bind ?_
  rintro (g | _ | failure)
  · exact (patient_carryOut g).bind fun _ => patient_pure _
  · exact patient_pure _
  · exact patient_failed _

end Supervisor

end Footprint
