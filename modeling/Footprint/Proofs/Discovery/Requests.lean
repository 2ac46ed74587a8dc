import Footprint.Proofs.Alignment
import Footprint.Proofs.Discovery.Walk

/-!
# What requests do to a walk

A walk answers deterministically, so what a program does to it is an equation. `Gives` is that
equation for programs that have a result; it composes over `bind`, and each request of a tracer has
its own rule, up to whole injected system calls (`gives_invoke`).
-/

namespace Footprint

namespace Walk

open Kernel

variable {α β : Type} {w : Walk} {p p' p'' : Process} {info : SignalInfo}

theorem run_bind_of_eq {program : Kernel.Program α} {f : α → Kernel.Program β} {a : α}
    (h : Dialogue.run w.answer program p = (a, p')) :
    Dialogue.run w.answer (program >>= f) p = Dialogue.run w.answer (f a) p' := by
  rw [Dialogue.run_bind, h]

/-- The program has a result against a walk and leaves the process in a state. -/
def Gives (w : Walk) (program : Tracing α) (p : Process) (a : α) (p' : Process) : Prop :=
  w.runs program p = (.ok a, p')

theorem gives_pure (a : α) : w.Gives (pure a) p a p := rfl

theorem Gives.bind {program : Tracing α} {f : α → Tracing β} {a : α} {b : β}
    (h : w.Gives program p a p') (hf : w.Gives (f a) p' b p'') :
    w.Gives (program >>= f) p b p'' :=
  (run_bind_of_eq h).trans hf

theorem gives_lift {program : Kernel.Program α} {a : α}
    (h : Dialogue.run w.answer program p = (a, p')) : w.Gives (ExceptT.lift program) p a p' :=
  run_bind_of_eq h

theorem gives_ofChecked {value : Checked α} {a : α} (h : value = .ok a) :
    w.Gives (Tracing.ofChecked value) p a p := by
  subst h
  rfl

/-! ## Single requests -/

theorem gives_attempt {request : Request} {program : Kernel.Program (Except Errno α)} {a : α}
    (h : Dialogue.run w.answer program p = (.ok a, p')) :
    w.Gives (Tracing.attempt request program) p a p' := by
  exact Gives.bind (gives_lift h) (gives_pure a)

theorem ask_of_stopped {request : SignalInfo → α × Process} (h : p.activity = .stopped info) :
    w.ask w.pid p request = (.ok (request info).1, (request info).2) := by
  simp [ask, h]

theorem gives_readRegisters (h : p.activity = .stopped info) :
    w.Gives (Tracing.readRegisters w.pid) p p.registers p :=
  gives_attempt (ask_of_stopped h)

theorem gives_writeRegisters (registers : Registers) (h : p.activity = .stopped info) :
    w.Gives (Tracing.writeRegisters w.pid registers) p () { p with registers } :=
  gives_attempt (ask_of_stopped h)

theorem gives_readSignal (h : p.activity = .stopped info) :
    w.Gives (Tracing.readSignal w.pid) p info p :=
  gives_attempt (ask_of_stopped h)

theorem gives_resume (how : Resumption) (h : p.activity = .stopped info) :
    w.Gives (Tracing.resume w.pid how) p () (w.resume p how) :=
  gives_attempt (ask_of_stopped h)

/-! ## Waiting -/

theorem gives_awaiting {program : Kernel.Program (Except Errno α)} {a : α} {patience : Nat}
    (h : Dialogue.run w.answer program p = (.ok a, p')) (hpatience : 0 < patience) :
    w.Gives (Tracing.awaiting program patience) p a p' := by
  cases patience with
  | zero =>
    cases hpatience
  | succ patience =>
    have hanswered : w.Gives (Tracing.uninterrupted program (patience + 1)) p (.ok a) p' :=
      Gives.bind (gives_lift h) (gives_pure (Except.ok a))
    exact Gives.bind hanswered (gives_pure a)

theorem answer_wait (w : Walk) (p : Process) : w.answer (.wait w.pid) p = w.wait p :=
  if_pos rfl

theorem answer_poll (w : Walk) (p : Process) : w.answer (.poll w.pid) p = poll p :=
  if_pos rfl

theorem gives_wait {quiet patience : Nat} {status : WaitStatus}
    (h : p.activity = .running quiet status info) (hpatience : 0 < patience) :
    w.Gives (Tracing.wait w.pid patience) p status { p with activity := .stopped info } := by
  have hwaited : w.wait p = (.ok status, { p with activity := .stopped info }) := by
    simp [wait, h]
  exact gives_awaiting ((answer_wait w p).trans hwaited) hpatience

theorem gives_poll_quiet {quiet patience : Nat} {status : WaitStatus}
    (h : p.activity = .running (quiet + 1) status info) (hpatience : 0 < patience) :
    w.Gives (Tracing.poll w.pid patience) p none
      { p with activity := .running quiet status info } := by
  have hpolled : poll p = (.ok .stillAlive, { p with activity := .running quiet status info }) := by
    simp [poll, h]
  exact Gives.bind (gives_awaiting ((answer_poll w p).trans hpolled) hpatience) (gives_pure none)

theorem gives_poll {patience : Nat} {status : WaitStatus}
    (h : p.activity = .running 0 status info) (hpatience : 0 < patience)
    (hnew : status ≠ .stillAlive) :
    w.Gives (Tracing.poll w.pid patience) p (some status) { p with activity := .stopped info } := by
  have hpolled : poll p = (.ok status, { p with activity := .stopped info }) := by
    simp [poll, h]
  refine Gives.bind (gives_awaiting ((answer_poll w p).trans hpolled) hpatience) ?_
  simpa [hnew] using gives_pure (some status)

/-! ## Injected system calls -/

/-- An injector that reaches the process of a walk. -/
structure Reaches (w : Walk) (i : Injector) : Prop where
  pid_eq : i.pid = w.pid
  stub_eq : i.stub = w.stub
  breakpoint : ∃ pc, Addr.add w.stub stubLen = .ok pc
  patient : 0 < i.patience

/-- The registers behind the stub, once a call was answered. -/
def behindStub (w : Walk) (call : Registers) (reply : Except Errno UInt64) : Registers :=
  { w.scratch call with rax := SystemCall.returned reply, rip := call.rip + stubLen }

theorem runStub_eq {reply : Except Errno UInt64} {memory : Memory}
    (h : w.systemCall p.memory p.registers = (reply, memory)) :
    w.runStub p =
      { p with
        memory, registers := w.behindStub p.registers reply
        activity := .running 0 (.stopped w.pid .trap) w.trap } := by
  simp [runStub, behindStub, h]

theorem gives_awaitStub {i : Injector} (hi : w.Reaches i) (number : UInt64)
    (h : p.activity = .running 0 (.stopped w.pid .trap) w.trap)
    (hbehind : p.registers.rip = w.stub + stubLen) :
    w.Gives (i.awaitStub number) p p.registers { p with activity := .stopped w.trap } := by
  rcases hi with ⟨hpid, hstub, ⟨pc, hpc⟩, hpatient⟩
  have hreached : p.registers.rip = pc := hbehind.trans (Addr.eq_add_of_add_eq_ok hpc).symm
  unfold Injector.awaitStub
  rw [hpid, hstub]
  refine Gives.bind (gives_wait h hpatient) ?_
  refine Gives.bind (gives_readRegisters rfl) (Gives.bind (gives_ofChecked hpc) ?_)
  simp only [hreached, if_true]
  exact gives_pure p.registers

/-- The process runs the call and is back where it was, but for what the call did to its memory. -/
theorem gives_invoke {i : Injector} (hi : w.Reaches i) {number : UInt64} {args : Registers.Arguments}
    (h : p.activity = .stopped info) {reply : Except Errno UInt64} {memory : Memory}
    (hcall : w.systemCall p.memory (p.registers.forSystemCall w.stub number args) = (reply, memory)) :
    w.Gives (i.invoke number args) p (SystemCall.outcome (SystemCall.returned reply))
      { p with memory, activity := .stopped w.trap } := by
  have hrip : (p.registers.forSystemCall w.stub number args).rip = w.stub := rfl
  unfold Injector.invoke
  rw [hi.pid_eq, hi.stub_eq]
  refine Gives.bind (gives_readRegisters h) ?_
  generalize p.registers.forSystemCall w.stub number args = call at hcall hrip ⊢
  -- the call is loaded, and the process is resumed at the stub
  refine Gives.bind (gives_writeRegisters call h) ?_
  refine Gives.bind (gives_resume .freely h) ?_
  have hran : w.resume { p with registers := call } .freely =
      { p with
        memory, registers := w.behindStub call reply
        activity := .running 0 (.stopped w.pid .trap) w.trap } := by
    simp only [resume, hrip, if_true]
    exact runStub_eq hcall
  rw [hran]
  -- its breakpoint is reached, and the registers are put back
  have hbehind : (w.behindStub call reply).rip = w.stub + stubLen := by rw [← hrip]; rfl
  refine Gives.bind (gives_awaitStub hi number rfl hbehind) ?_
  exact Gives.bind (gives_writeRegisters p.registers rfl) (gives_pure _)

theorem outcome_returned {value : UInt64} (h : value.toNat < 2 ^ 63) :
    SystemCall.outcome (SystemCall.returned (.ok value)) = .ok value := by
  have hsmall : ¬ 0xfffffffffffff001 ≤ value := by
    rw [UInt64.le_iff_toNat_le]
    have hlimit : (0xfffffffffffff001 : UInt64).toNat = 0xfffffffffffff001 := rfl
    omega
  simp [SystemCall.outcome, SystemCall.returned, hsmall]

/-- A range that nothing lies on is mapped. -/
theorem gives_mapExactly {i : Injector} (hi : w.Reaches i) {start len : Addr}
    (h : p.activity = .stopped info) (hfree : w.isTaken p.memory ⟨start, len⟩ = false)
    (hlow : start.toNat < 2 ^ 63) :
    w.Gives (i.mapExactly start len) p (.ok start)
      { p with
        memory := { p.memory with mapped := p.memory.mapped ++ [⟨start, len⟩] }
        activity := .stopped w.trap } := by
  have hcall : w.systemCall p.memory (p.registers.forSystemCall w.stub SystemCall.map
      ⟨start, len, Perms.readWrite.bits, SystemCall.exactMapping, SystemCall.noFile, 0⟩) =
      (.ok start, { p.memory with mapped := p.memory.mapped ++ [⟨start, len⟩] }) := by
    simp [systemCall, Registers.forSystemCall, hfree]
  have hinvoked := gives_invoke hi h hcall
  rw [outcome_returned hlow] at hinvoked
  refine Gives.bind hinvoked ?_
  simp only [if_true]
  exact gives_pure _

/-- The protection of the guarded region is lifted. -/
theorem gives_permitReadWrite {i : Injector} (hi : w.Reaches i) {start len : Addr}
    (h : p.activity = .stopped info) (hguard : w.layout.guardRegion = ⟨start, len⟩) :
    w.Gives (i.permitReadWrite start len) p (.ok 0)
      { p with memory := { p.memory with opened := true }, activity := .stopped w.trap } := by
  have hcall : w.systemCall p.memory (p.registers.forSystemCall w.stub SystemCall.protect
      ⟨start, len, Perms.readWrite.bits, 0, 0, 0⟩) = (.ok 0, { p.memory with opened := true }) := by
    simp [systemCall, Registers.forSystemCall, SystemCall.protect, SystemCall.map, hguard]
  exact gives_invoke hi h hcall

end Walk

end Footprint
