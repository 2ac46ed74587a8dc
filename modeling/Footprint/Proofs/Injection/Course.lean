import Footprint.Injection
import Footprint.Proofs.Alignment
import Footprint.Proofs.Tracing

/-!
# Courses of an injected system call

Running a system call in a process takes four steps, each of which may fail: its registers are saved and
replaced, it is resumed at the stub, its stop is awaited and looked at, and the registers are put back.
`Invokes` lists all exchanges that this can come to, with the result of each; it is put together from
`AwaitsStub`, the wait for the stub, and `Restores`, the end. Every run is one of them
(`ensures_invokes`).
-/

namespace Footprint

open Kernel

namespace Injector

open Tracing

variable {i : Injector} {number : UInt64} {args : Registers.Arguments} {t : Transcript}

/-! ## The wait for the stub -/

/-- The failure of a refused request. -/
def refusal (request : Request) (errno : Errno) : Halt :=
  .failed (.setup (.refused request errno))

/-- A wait that a signal interrupted. -/
def Interrupted (pid : Pid) (x : Exchange) : Prop :=
  x = ⟨.wait pid, .error .interrupted⟩

/-- Whether a stop of the stub is the one behind its system call. -/
def Reached (i : Injector) (stopped : Registers) : Prop :=
  stopped.rip.toNat = i.stub.toNat + stubLen.toNat

/-- What is made of a trap elsewhere. -/
inductive Strays (i : Injector) (number : UInt64) (pc : UInt64) : Halt → Prop where
  | stray {expected : Addr} : expected.toNat = i.stub.toNat + stubLen.toNat →
      Strays i number pc (.failed (.setup (.stubStray number pc expected)))
  -- there is no address behind the stub
  | outside : UInt64.size ≤ i.stub.toNat + stubLen.toNat →
      Strays i number pc (.arithmetic .addOverflow)

/-- The look at a process that trapped, with what comes of it. -/
inductive LooksAt (i : Injector) (number : UInt64) : Exchange → Except Halt Registers → Prop where
  | unread {errno : Errno} :
      LooksAt i number ⟨.readRegisters i.pid, .error errno⟩ (.error (refusal .readRegisters errno))
  | stray {stopped : Registers} {halt : Halt} : ¬ i.Reached stopped → Strays i number stopped.rip halt →
      LooksAt i number ⟨.readRegisters i.pid, .ok stopped⟩ (.error halt)
  | reached {stopped : Registers} : i.Reached stopped →
      LooksAt i number ⟨.readRegisters i.pid, .ok stopped⟩ (.ok stopped)

/-- The wait for a process that runs its stub, with what comes of it. -/
inductive AwaitsStub (i : Injector) (number : UInt64) : Transcript → Except Halt Registers → Prop where
  | impatient {waits : Transcript} : (∀ x ∈ waits, Interrupted i.pid x) →
      AwaitsStub i number waits (.error .impatient)
  | refused {waits : Transcript} {errno : Errno} : (∀ x ∈ waits, Interrupted i.pid x) →
      AwaitsStub i number (waits ++ [⟨.wait i.pid, .error errno⟩]) (.error (refusal .awaitStop errno))
  | silent {waits : Transcript} {status : WaitStatus} : (∀ x ∈ waits, Interrupted i.pid x) →
      (∀ p, status ≠ .stopped p .trap) →
      AwaitsStub i number (waits ++ [⟨.wait i.pid, .ok status⟩])
        (.error (.failed (.setup (.stubSilent number status))))
  | trapped {waits : Transcript} {p : Pid} {look : Exchange} {awaited : Except Halt Registers} :
      (∀ x ∈ waits, Interrupted i.pid x) → LooksAt i number look awaited →
      AwaitsStub i number (waits ++ [⟨.wait i.pid, .ok (.stopped p .trap)⟩, look]) awaited

/-! ## The whole call -/

/-- How a system call is started in a process that stopped with the registers `saved`. -/
def starting (i : Injector) (number : UInt64) (args : Registers.Arguments) (saved : Registers)
    (reply : Except Errno Unit) : Transcript :=
  [⟨.readRegisters i.pid, .ok saved⟩,
    ⟨.writeRegisters i.pid (saved.forSystemCall i.stub number args), .ok ()⟩,
    ⟨.resume i.pid .freely, reply⟩]

/-- The end of a system call, which puts the process back if its stub was reached, with what comes of
it. -/
inductive Restores (i : Injector) (saved : Registers) :
    Except Halt Registers → Transcript → Except Halt (Except Errno UInt64) → Prop where
  | lost {halt : Halt} : Restores i saved (.error halt) [] (.error halt)
  | refused {stopped : Registers} {errno : Errno} :
      Restores i saved (.ok stopped) [⟨.writeRegisters i.pid saved, .error errno⟩]
        (.error (refusal .writeRegisters errno))
  | restored {stopped : Registers} :
      Restores i saved (.ok stopped) [⟨.writeRegisters i.pid saved, .ok ()⟩]
        (.ok (SystemCall.outcome stopped.rax))

/-- A system call that is run in a process, with what comes of it. -/
inductive Invokes (i : Injector) (number : UInt64) (args : Registers.Arguments) :
    Transcript → Except Halt (Except Errno UInt64) → Prop where
  | unread {errno : Errno} :
      Invokes i number args [⟨.readRegisters i.pid, .error errno⟩] (.error (refusal .readRegisters errno))
  | unloaded {saved : Registers} {errno : Errno} :
      Invokes i number args
        [⟨.readRegisters i.pid, .ok saved⟩,
          ⟨.writeRegisters i.pid (saved.forSystemCall i.stub number args), .error errno⟩]
        (.error (refusal .writeRegisters errno))
  | unresumed {saved : Registers} {errno : Errno} :
      Invokes i number args (i.starting number args saved (.error errno))
        (.error (refusal .resumeFreely errno))
  | ran {saved : Registers} {waiting closing : Transcript} {awaited : Except Halt Registers}
      {result : Except Halt (Except Errno UInt64)} :
      AwaitsStub i number waiting awaited → Restores i saved awaited closing result →
      Invokes i number args (i.starting number args saved (.ok ()) ++ (waiting ++ closing)) result

/-! ## Every run is a course -/

/-- The wait may be interrupted any number of times. -/
theorem ensures_awaitsStub (i : Injector) (number : UInt64) (t : Transcript) :
    Ensures (fun t' stopped => ∃ u, t' = t ++ u ∧ AwaitsStub i number u (.ok stopped))
      (fun t' halt => ∃ u, t' = t ++ u ∧ AwaitsStub i number u (.error halt)) (i.awaitStub number) t := by
  refine ensures_bind.2 (ensures_wait
    (fun t' => ∃ waits, t' = t ++ waits ∧ ∀ x ∈ waits, Interrupted i.pid x)
    i.patience ⟨[], by simp⟩ ?again ?stopped ?refused ?impatient)
  case again =>
    rintro _ ⟨waits, rfl, hwaits⟩
    refine ⟨waits ++ [_], List.append_assoc .., ?_⟩
    simpa [or_imp, forall_and, Interrupted] using hwaits
  case refused =>
    rintro _ errno ⟨waits, rfl, hwaits⟩
    exact ⟨_, List.append_assoc .., .refused hwaits⟩
  case impatient =>
    rintro _ ⟨waits, rfl, hwaits⟩
    exact ⟨_, rfl, .impatient hwaits⟩
  case stopped =>
    rintro _ status ⟨waits, rfl, hwaits⟩
    split
    next p =>
      have hbehind (x : Exchange) : t ++ waits ++ [⟨.wait i.pid, .ok (.stopped p .trap)⟩] ++ [x] =
          t ++ (waits ++ [⟨.wait i.pid, .ok (.stopped p .trap)⟩, x]) := by simp
      refine ensures_bind.2 (ensures_readRegisters ?read fun errno =>
        ⟨_, hbehind _, .trapped hwaits .unread⟩)
      case read =>
        intro stopped
        refine ensures_bind.2 (ensures_ofChecked ?expected ?outside)
        case outside =>
          intro e hoverflow
          rcases Addr.add_eq_error_iff.1 hoverflow with ⟨rfl, houtside⟩
          have hnever : ¬ i.Reached stopped := by
            intro hreached
            have hword : stopped.rip.toNat < UInt64.size := stopped.rip.toNat_lt
            exact Nat.not_lt.2 houtside (hreached ▸ hword)
          exact ⟨_, hbehind _, .trapped hwaits (.stray hnever (.outside houtside))⟩
        case expected =>
          intro expected hexpected
          have hsum := Addr.add_eq_ok_iff.1 hexpected
          split
          next hrip =>
            have hreached : i.Reached stopped := (congrArg UInt64.toNat hrip).trans hsum
            exact ⟨_, hbehind _, .trapped hwaits (.reached hreached)⟩
          next hrip =>
            have haway : ¬ i.Reached stopped := fun h => hrip (UInt64.toNat_inj.1 (h.trans hsum.symm))
            exact ⟨_, hbehind _, .trapped hwaits (.stray haway (.stray hsum))⟩
    next hother =>
      exact ⟨_, List.append_assoc .., .silent hwaits hother⟩

theorem ensures_invokes (i : Injector) (number : UInt64) (args : Registers.Arguments) :
    (i.invoke number args).run.Ensures (Invokes i number args) [] := by
  have hinvokes : Ensures (fun t outcome => Invokes i number args t (.ok outcome))
      (fun t halt => Invokes i number args t (.error halt)) (i.invoke number args) [] := by
    refine ensures_bind.2 (ensures_readRegisters (fun saved => ?_) fun errno => .unread)
    refine ensures_bind.2 (ensures_writeRegisters ?_ fun errno => .unloaded)
    refine ensures_bind.2 (ensures_resume ?_ fun errno => .unresumed)
    refine ensures_bind.2 ((ensures_awaitsStub i number _).mono ?_ ?_)
    · rintro _ stopped ⟨u, rfl, hu⟩
      refine ensures_bind.2 (ensures_writeRegisters ?_ fun errno => ?_)
      · simpa [starting] using Invokes.ran hu .restored
      · simpa [starting, refusal] using Invokes.ran hu .refused
    · rintro _ halt ⟨u, rfl, hu⟩
      simpa [starting] using Invokes.ran hu .lost
  refine Dialogue.Ensures.mono hinvokes ?_
  rintro t (halt | outcome) h
  all_goals exact h

end Injector

end Footprint
