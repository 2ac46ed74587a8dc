import Footprint.Proofs.Monitor.Record
import Footprint.Proofs.Supervision.Rules

/-!
# What a drive keeps of its monitor

A property of the run that every program part keeps, be it that the part has a result or halts, holds at
the end of a drive (`Preserves`). Of its monitor a drive keeps what reactions, carried out grants and being
aborted keep (`Lasting`). Soundness is one such property: what was counted agrees with what was recorded,
also where the drive is broken off.
-/

namespace Footprint

namespace Monitor

/-- A property of monitors that no operation of a drive ends. -/
structure Lasting (P : Monitor → Prop) : Prop where
  react : ∀ m stop elapsed, P m → P (m.react stop elapsed).2
  granted : ∀ m after, P m → m.granted = .ok after → P after
  aborted : ∀ m, P m → P (m.inPhase .aborted)

/-- What every change of a monitor and every judgement that breaks off keep lasts. -/
theorem lasting_of_change {P : Monitor → Prop}
    (hchange : ∀ m op reply after, P m → Change m op reply after → P after)
    (hbreak : ∀ m stop, P m → m.phase = .running → P (m.inPhase (m.phaseDuring stop))) : Lasting P where
  react := by
    intro m stop elapsed h
    by_cases hrunning : m.phase = .running
    · cases hverdict : m.verdictOn stop elapsed with
      | ok verdict =>
        rw [react_eq_ok hrunning hverdict]
        exact hchange _ _ _ _ h (change_of_verdictOn hrunning hverdict)
      | error e =>
        rw [react_eq_error hrunning hverdict]
        exact hbreak m stop h hrunning
    · rw [react_of_not_running hrunning]
      exact hchange m (.react stop elapsed) (.verdict (.abort .cancelled)) _ h .abort
  granted := fun _ _ h hgranted => hchange _ _ _ _ h (change_of_granted hgranted)
  aborted := fun m h => hchange m .cancel (.failure .cancelled) _ h (.close rfl)

theorem phaseDuring_ne_granting {m : Monitor} {stop : Stop} (h : m.phase = .running) (g : Grant) :
    m.phaseDuring stop ≠ .granting g := by
  cases stop
  all_goals simp [phaseDuring, h]

theorem lasting_sound : Lasting Sound :=
  lasting_of_change (fun _ _ _ _ h hchange => h.change hchange) fun _ _ h hrunning =>
    h.inPhase fun g hphase => absurd hphase (phaseDuring_ne_granting hrunning g)

end Monitor

namespace Supervising

open Kernel

variable {α β : Type} {inv : Run → Prop}

/-- Whatever the kernel answers, the program keeps a property of the run. -/
def Preserves (inv : Run → Prop) (program : Supervising α) : Prop :=
  ∀ t run, inv run → Ensures (fun _ run _ => inv run) (fun _ run _ => inv run) program t run

theorem preserves_pure (a : α) : Preserves inv (pure a : Supervising α) := fun _ _ h => h

theorem preserves_throw (halt : Halt) : Preserves inv (throw halt : Supervising α) := fun _ _ h => h

theorem Preserves.bind {program : Supervising α} {f : α → Supervising β} (h : Preserves inv program)
    (hf : ∀ a, Preserves inv (f a)) : Preserves inv (program >>= f) := fun t run hinv =>
  ensures_bind.2 ((h t run hinv).mono (fun t run a h => hf a t run h) fun _ _ _ h => h)

/-- Requests to the kernel do not touch the run. -/
theorem preserves_ofTracing (program : Tracing α) : Preserves inv (ofTracing program) := by
  intro t run h
  have hkept : program.run.Ensures (fun _ _ => inv run) t :=
    Dialogue.ensures_of_persistent (fun _ _ h => h) program.run h
  refine ensures_ofTracing.2 (Dialogue.Ensures.mono hkept ?_)
  rintro t (halt | a) h
  all_goals exact h

theorem preserves_ofQuestion (program : Kernel.Program α) : Preserves inv (ofQuestion program) :=
  fun _ _ h => ensures_ofQuestion.2 (Dialogue.ensures_of_persistent (fun _ _ h => h) program h)

theorem Preserves.get_bind {f : Run → Supervising β} (hf : ∀ run, inv run → Preserves inv (f run)) :
    Preserves inv (get >>= f) := fun t run h => hf run h t run h

theorem preserves_set {run : Run} (h : inv run) : Preserves inv (set run) := fun _ _ _ => h

theorem preserves_modify {f : Run → Run} (hf : ∀ run, inv run → inv (f run)) :
    Preserves inv (modify f : Supervising PUnit) := fun _ run h => hf run h

theorem preserves_endWith {change : Monitor → Failure × Monitor}
    (hchange : ∀ run, inv run → inv { run with monitor := (change run.monitor).2 }) :
    Preserves inv (endWith change : Supervising α) :=
  fun _ run h => (ensures_endWith change).2 (hchange run h)

end Supervising

namespace Supervisor

open Supervising

variable {s : Supervisor}

theorem preserves_elapsed {inv : Run → Prop} : Preserves inv s.elapsed :=
  (preserves_ofQuestion _).bind fun _ => preserves_pure _

section

variable {P : Monitor → Prop} (hP : Monitor.Lasting P)

include hP

theorem lasting_checkBounds : Preserves (fun run => P run.monitor) s.checkBounds := by
  have htime : Preserves (fun run => P run.monitor) (do
      let elapsed ← s.elapsed
      if s.wallLimit.nanos ≤ elapsed.nanos then
        endWith (·.expire .wallClock elapsed)) := by
    refine preserves_elapsed.bind fun elapsed => ?_
    split
    · exact preserves_endWith fun run => hP.aborted run.monitor
    · exact preserves_pure _
  refine (preserves_ofQuestion _).bind ?_
  rintro (_ | _)
  · exact htime
  · have hcancel : Preserves (fun run => P run.monitor) (endWith Monitor.cancel : Supervising PUnit) :=
      preserves_endWith fun run => hP.aborted run.monitor
    exact hcancel.bind fun _ => htime

theorem lasting_carryOut (g : Grant) : Preserves (fun run => P run.monitor) (s.carryOut g) := by
  refine (preserves_ofTracing _).bind ?_
  rintro (errno | _)
  · exact preserves_endWith fun run => hP.aborted run.monitor
  · refine Preserves.get_bind fun run h => ?_
    intro t run' h'
    refine Supervising.ensures_bind.2 (ensures_ofTracing.2 (Tracing.ensures_ofChecked
      (fun monitor hgranted => ?_) fun _ _ => h'))
    have hset : Preserves (fun run => P run.monitor) (set { run with monitor }) :=
      preserves_set (hP.granted _ _ h hgranted)
    exact hset.bind (fun _ => preserves_ofTracing _) t run' h'

theorem lasting_judge (stop : Stop) : Preserves (fun run => P run.monitor) (s.judge stop) := by
  refine preserves_elapsed.bind fun elapsed => Preserves.get_bind fun run h => ?_
  have hset : Preserves (fun run => P run.monitor)
      (set { run with monitor := (run.monitor.react stop elapsed).2 }) :=
    preserves_set (hP.react _ stop elapsed h)
  exact hset.bind fun _ => preserves_ofTracing _

theorem lasting_handle (status : WaitStatus) : Preserves (fun run => P run.monitor) (s.handle status) := by
  have hnoted : Preserves (fun run => P run.monitor)
      (modify fun run => { run with custody := (run.custody.noteEnd status).2 } : Supervising PUnit) :=
    preserves_modify fun _ h => h
  refine hnoted.bind fun _ => (preserves_ofTracing _).bind fun stop => (lasting_judge hP stop).bind ?_
  rintro (g | _ | failure)
  · exact (lasting_carryOut hP g).bind fun _ => preserves_pure false
  · exact preserves_pure true
  · exact preserves_throw _

/-- A drive keeps what lasts of its monitor, however it ends. -/
theorem lasting_drive (turns : Nat) : Preserves (fun run => P run.monitor) (s.drive turns) := by
  induction turns with
  | zero => exact preserves_throw _
  | succ turns ih =>
    refine (lasting_checkBounds hP).bind fun _ => (preserves_ofTracing _).bind ?_
    rintro (_ | status)
    · exact ih
    · refine (lasting_handle hP status).bind ?_
      rintro (_ | _)
      · exact ih
      · exact preserves_pure _

end

/-- The monitor of a run is sound. -/
def MonitorSound (run : Run) : Prop := run.monitor.Sound

/-- A drive keeps its monitor sound, however it ends. -/
theorem sound_drive (turns : Nat) : Preserves MonitorSound (s.drive turns) :=
  lasting_drive Monitor.lasting_sound turns

end Supervisor

end Footprint
