import Footprint.Proofs.Dialogue.Asking

/-!
# What is asked while a stop is handled

Making a system call in a process takes four kinds of calls, and handling a stop three more. The caller is
not asked then, and no new status is looked for: both happen only between two stops.
-/

namespace Footprint

open Kernel

namespace Kernel

/-- The calls by which a system call is made in a process. -/
def isInjecting : Call → Bool
  | .readRegisters _ | .writeRegisters .. | .wait _ => true
  | .resume _ how => how = .freely
  | _ => false

/-- The calls by which a stop is handled once it was collected. -/
def isHandling : Call → Bool
  | .clock | .readSignal _ | .resume .. => true
  | c => isInjecting c

theorem isHandling_of_isInjecting {c : Call} (h : isInjecting c = true) : isHandling c = true := by
  cases c with
  | readRegisters | writeRegisters | wait | resume => rfl
  | _ => cases h

end Kernel

namespace Injector

open Tracing

variable {i : Injector}

theorem asks_invoke (number : UInt64) (args : Registers.Arguments) :
    Asks (isInjecting · = true) (i.invoke number args) := by
  have hstub : Asks (isInjecting · = true) (i.awaitStub number) := by
    refine (asks_awaiting (Dialogue.asks_call (by rfl)) _).bind fun status => ?_
    split
    · refine (asks_attempt (Dialogue.asks_call (by rfl))).bind fun after => ?_
      refine (asks_ofChecked _).bind fun expected => ?_
      split
      all_goals trivial
    · trivial
  refine (asks_attempt (Dialogue.asks_call (by rfl))).bind fun saved => ?_
  refine (asks_attempt (Dialogue.asks_call (by rfl))).bind fun _ => ?_
  refine (asks_attempt (Dialogue.asks_call (by rfl))).bind fun _ => hstub.bind fun after => ?_
  exact (asks_attempt (Dialogue.asks_call (by rfl))).bind fun _ => trivial

theorem asks_mapExactly (start len : Addr) : Asks (isInjecting · = true) (i.mapExactly start len) := by
  refine (asks_invoke _ _).bind ?_
  rintro (errno | address)
  · trivial
  · dsimp only
    split
    · trivial
    · exact (asks_invoke _ _).bind fun _ => trivial

end Injector

namespace Supervisor

open Supervising

variable {s : Supervisor}

theorem asks_makeAccessible (g : Grant) : Tracing.Asks (isInjecting · = true) (s.makeAccessible g) := by
  unfold makeAccessible
  split
  · exact s.injector.asks_mapExactly _ _
  · exact s.injector.asks_invoke _ _

theorem asks_elapsed {allowed : Call → Prop} (h : allowed .clock) : Asks allowed s.elapsed :=
  (asks_ofQuestion (Dialogue.asks_call h)).bind fun _ => asks_pure _

theorem asks_carryOut (g : Grant) : Asks (isHandling · = true) (s.carryOut g) := by
  have hmade : Tracing.Asks (isHandling · = true) (s.makeAccessible g) :=
    (asks_makeAccessible g).mono fun _ => isHandling_of_isInjecting
  refine (asks_ofTracing hmade).bind ?_
  rintro (errno | _)
  · exact asks_endWith _
  · refine asks_get.bind fun run => (asks_ofTracing (Tracing.asks_ofChecked _)).bind fun monitor => ?_
    have hresume : Tracing.Asks (isHandling · = true) (Tracing.resume s.pid .untilSystemCall) :=
      Tracing.asks_attempt (Dialogue.asks_call (by rfl))
    exact (asks_set _).bind fun _ => asks_ofTracing hresume

theorem asks_classify (pid : Pid) (status : WaitStatus) :
    Tracing.Asks (isHandling · = true) (Tracing.classify pid status) := by
  have hregisters : Tracing.Asks (isHandling · = true) (Tracing.readRegisters pid) :=
    Tracing.asks_attempt (Dialogue.asks_call (by rfl))
  have hsignal : Tracing.Asks (isHandling · = true) (Tracing.readSignal pid) :=
    Tracing.asks_attempt (Dialogue.asks_call (by rfl))
  cases status with
  | stopped => exact hregisters.bind fun _ => hsignal.bind fun _ => trivial
  | systemCall => exact hregisters.bind fun _ => trivial
  | _ => trivial

theorem asks_handle (status : WaitStatus) : Asks (isHandling · = true) (s.handle status) := by
  refine (asks_modify _).bind fun _ => (asks_ofTracing (asks_classify s.pid status)).bind fun stop => ?_
  have hjudge : Asks (isHandling · = true) (s.judge stop) := by
    refine (asks_elapsed (by rfl)).bind fun elapsed => asks_get.bind fun run => (asks_set _).bind fun _ => ?_
    exact asks_ofTracing (Tracing.asks_ofChecked _)
  refine hjudge.bind ?_
  rintro (g | _ | failure)
  · exact (asks_carryOut g).bind fun _ => asks_pure false
  · exact asks_pure true
  · exact asks_throw _

end Supervisor

end Footprint
