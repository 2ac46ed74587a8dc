import Footprint.Proofs.Alignment
import Footprint.Proofs.Watch

/-!
# What injected system calls show

One rule for each operation of an injector, in terms of the events that somebody who watches the
exchanges notes. A call that comes back shows exactly one event (`ensures_invoke`); a tracing request
that fails on the way shows none, and neither is a block made accessible then.
-/

namespace Footprint

namespace Injector

open Kernel Tracing

variable {t : Transcript} {number : UInt64} {args : Registers.Arguments} {start len : Addr}
  {bad : Transcript → Halt → Prop}

/-- The stub's breakpoint is awaited while the call runs; nothing is noted until it is reached. -/
theorem ensures_awaitStub {i : Injector} {good : Transcript → Registers → Prop} (call : Registers)
    (hrunning : stageOf t = .running call) (hstub : call.rip = i.stub)
    (hok : ∀ t' after, stageOf t' = .returned call after → eventsOf t' = eventsOf t → good t' after)
    (hbad : ∀ t' halt, halt.isTracing → eventsOf t' = eventsOf t → bad t' halt) :
    Ensures good bad (i.awaitStub number) t := by
  -- interruptions of the wait change neither the stage nor the events
  refine ensures_bind.2 (ensures_wait
    (fun t' => stageOf t' = .running call ∧ eventsOf t' = eventsOf t)
    i.patience ⟨hrunning, rfl⟩ ?again ?stopped ?refused ?impatient)
  case again =>
    rintro t' ⟨hstage, hevents⟩
    simp [Stage.onExchange, Stage.onWait, hstage, hevents]
  case refused =>
    rintro t' errno ⟨_, hevents⟩
    exact hbad _ _ rfl (by simp [Stage.onExchange, hevents])
  case impatient =>
    rintro t' ⟨_, hevents⟩
    exact hbad _ _ rfl hevents
  case stopped =>
    rintro t' status ⟨hstage, hevents⟩
    split
    next pid =>
      refine ensures_bind.2 (ensures_readRegisters ?read ?refused)
      case refused =>
        intro errno
        exact hbad _ _ rfl (by simp [Stage.onExchange, hevents])
      case read =>
        intro after
        refine ensures_bind.2 (ensures_ofChecked ?expected ?overflow)
        case overflow =>
          intro e _
          exact hbad _ _ rfl (by simp [Stage.onExchange, hevents])
        case expected =>
          intro expected hexpected
          have hbehind : expected = call.rip + stubLen := by
            rw [hstub]
            exact Addr.eq_add_of_add_eq_ok hexpected
          split
          next hreached =>
            refine hok _ _ ?_ ?_
            · simp [Stage.onExchange, Stage.onWait, Stage.onRead, hstage, hreached, hbehind]
            · simp [Stage.onExchange, hevents]
          next =>
            exact hbad _ _ rfl (by simp [Stage.onExchange, hevents])
    next =>
      exact hbad _ _ rfl (by simp [Stage.onExchange, hevents])

/-- A call that comes back is the only event. -/
theorem ensures_invoke {i : Injector} {good : Transcript → Except Errno UInt64 → Prop}
    (hidle : stageOf t = .idle)
    (hok : ∀ t' (saved after : Registers), stageOf t' = .idle →
      eventsOf t' = eventsOf t ++ [.called (saved.forSystemCall i.stub number args) after] →
      good t' (SystemCall.outcome after.rax))
    (hbad : ∀ t' halt, halt.isTracing → eventsOf t' = eventsOf t → bad t' halt) :
    Ensures good bad (i.invoke number args) t := by
  refine ensures_bind.2 (ensures_readRegisters ?_ fun errno => hbad _ _ rfl ?_)
  · intro saved
    refine ensures_bind.2 (ensures_writeRegisters ?_ fun errno => hbad _ _ rfl ?_)
    · refine ensures_bind.2 (ensures_resume ?_ fun errno => hbad _ _ rfl ?_)
      · refine ensures_bind.2 (ensures_awaitStub (saved.forSystemCall i.stub number args)
          ?_ rfl ?_ ?_)
        · simp [Stage.onExchange, Stage.onRead, Stage.onWrite, Stage.onResume, hidle]
        · intro t' after hreturned hsame
          have hevents : eventsOf t' = eventsOf t := by
            simpa [Stage.onExchange, Stage.onRead, Stage.onWrite, hidle] using hsame
          -- only the write that puts the process back makes the call an event
          refine ensures_bind.2 (ensures_writeRegisters ?_ fun errno => hbad _ _ rfl ?_)
          · refine hok _ saved after ?_ ?_
            · simp [Stage.onExchange, Stage.onWrite, hreturned]
            · simp [Stage.onExchange, Stage.onWrite, hreturned, hevents]
          · simp [Stage.onExchange, hevents]
        · intro t' halt htracing hsame
          refine hbad t' halt htracing ?_
          simpa [Stage.onExchange, Stage.onRead, Stage.onWrite, hidle] using hsame
      · simp [Stage.onExchange, Stage.onRead, Stage.onWrite, hidle]
    · simp [Stage.onExchange, Stage.onRead, hidle]
  · simp [Stage.onExchange]

/-! ## Making memory accessible -/

/-- What an attempt to make a range accessible shows, by its outcome. A mapping that came to lie
elsewhere is undone and counts as refused. -/
inductive Attempt (start len : Addr) : Except Errno UInt64 → List Event → Prop where
  | granted {call after : Registers} {value : UInt64} :
      (Event.called call after).granted = some start → call.rsi = len →
      Attempt start len (.ok value) [.called call after]
  | refused {call after : Registers} {errno : Errno} :
      SystemCall.outcome after.rax = .error errno →
      Attempt start len (.error errno) [.called call after]
  | displaced {call after undo afterUndo : Registers} {address : Addr} :
      SystemCall.outcome after.rax = .ok address → call.rax = SystemCall.map → call.rdi = start →
      address ≠ start → undo.rax = SystemCall.unmap → undo.rdi = address →
      Attempt start len (.error .alreadyExists) [.called call after, .called undo afterUndo]

theorem isVain_of_refused {call after : Registers} {errno : Errno}
    (h : SystemCall.outcome after.rax = .error errno) : (Event.called call after).isVain = true := by
  simp [Event.isVain, Event.granted, h]

/-- A mapping that lies elsewhere makes nothing accessible that was wanted. -/
theorem isVain_of_displaced {call after : Registers} {address : Addr}
    (hok : SystemCall.outcome after.rax = .ok address) (hmap : call.rax = SystemCall.map)
    (haway : address ≠ call.rdi) : (Event.called call after).isVain = true := by
  simp [Event.isVain, Event.granted, hok, hmap, haway, SystemCall.map, SystemCall.protect]

theorem isVain_of_unmap {call after : Registers} (hunmap : call.rax = SystemCall.unmap) :
    (Event.called call after).isVain = true := by
  cases houtcome : SystemCall.outcome after.rax
  all_goals
    simp [Event.isVain, Event.granted, houtcome, hunmap, SystemCall.unmap, SystemCall.map,
      SystemCall.protect]

/-- An attempt that is refused is in vain throughout. -/
theorem Attempt.isVain {errno : Errno} {calls : List Event}
    (h : Attempt start len (.error errno) calls) : ∀ e ∈ calls, e.isVain = true := by
  cases h with
  | refused hrefused =>
    simpa using isVain_of_refused hrefused
  | displaced hok hmap hstart haway hunmap _ =>
    simpa using ⟨isVain_of_displaced hok hmap (hstart ▸ haway), isVain_of_unmap hunmap⟩

theorem ensures_permitReadWrite {i : Injector} {good : Transcript → Except Errno UInt64 → Prop}
    (hidle : stageOf t = .idle)
    (hok : ∀ t' result calls, stageOf t' = .idle → eventsOf t' = eventsOf t ++ calls →
      Attempt start len result calls → good t' result)
    (hbad : ∀ t' halt calls, halt.isTracing → eventsOf t' = eventsOf t ++ calls →
      (∀ e ∈ calls, e.isVain = true) → bad t' halt) :
    Ensures good bad (i.permitReadWrite start len) t := by
  refine ensures_invoke hidle ?_ ?_
  · intro t' saved after hstage hevents
    refine hok t' _ _ hstage hevents ?_
    cases houtcome : SystemCall.outcome after.rax with
    | error errno =>
      exact .refused houtcome
    | ok value =>
      refine .granted ?_ rfl
      simp [Event.granted, houtcome, Registers.forSystemCall]
  · intro t' halt htracing hsame
    exact hbad t' halt [] htracing (by simpa using hsame) (by simp)

theorem ensures_mapExactly {i : Injector} {good : Transcript → Except Errno UInt64 → Prop}
    (hidle : stageOf t = .idle)
    (hok : ∀ t' result calls, stageOf t' = .idle → eventsOf t' = eventsOf t ++ calls →
      Attempt start len result calls → good t' result)
    (hbad : ∀ t' halt calls, halt.isTracing → eventsOf t' = eventsOf t ++ calls →
      (∀ e ∈ calls, e.isVain = true) → bad t' halt) :
    Ensures good bad (i.mapExactly start len) t := by
  refine ensures_bind.2 (ensures_invoke hidle ?_ ?_)
  · intro t' saved after hstage hevents
    cases houtcome : SystemCall.outcome after.rax with
    | error errno =>
      exact hok t' _ _ hstage hevents (.refused houtcome)
    | ok address =>
      by_cases hthere : address = start
      · have hgood : good t' (.ok address) := by
          refine hok t' _ _ hstage hevents (.granted ?_ rfl)
          simp [Event.granted, houtcome, Registers.forSystemCall, hthere]
        simpa [hthere] using hgood
      · -- the misplaced mapping is undone; what that returns does not matter
        simp only [hthere, if_false]
        refine ensures_bind.2 (ensures_invoke hstage ?_ ?_)
        · intro t'' saved' after' hstage' hevents'
          rw [hevents, List.append_assoc] at hevents'
          exact hok t'' _ _ hstage' hevents' (.displaced houtcome rfl rfl hthere rfl rfl)
        · intro t'' halt htracing hsame
          refine hbad t'' halt _ htracing (hsame.trans hevents) ?_
          simpa using isVain_of_displaced houtcome rfl hthere
  · intro t' halt htracing hsame
    exact hbad t' halt [] htracing (by simpa using hsame) (by simp)

end Injector

end Footprint
