import Footprint.Proofs.Maps.Recovery
import Footprint.Proofs.Region.Gaps
import Footprint.Proofs.Scrub.Hosting
import Footprint.Sandbox

/-!
# A kernel whose process stands still

The least kernel that a process can be scrubbed on: one process, which is stopped whenever it is asked
about, and which when it is resumed at its stub runs one system call to the end of the stub. Unmapping cuts
the range out of every mapping. It hosts the process (`Still.hosts`).
-/

namespace Footprint

open Kernel

/-- A kernel with one process that stands still. -/
structure Still where
  windows : List Window
  registers : Registers
  rseq : Except Errno Rseq

namespace Window

variable {w : Window} {r : Region} {a : Addr}

/-- The parts of a window before and behind a region, as far as there are any. -/
def without (w : Window) (r : Region) : List Window :=
  [⟨w.start, min w.stop r.start⟩, ⟨max w.start r.stop, w.stop⟩].filter fun w => w.start < w.stop

theorem contains_iff : w.contains a = true ↔ w.start.toNat ≤ a.toNat ∧ a.toNat < w.stop.toNat := by
  simp [contains, UInt64.le_iff_toNat_le, UInt64.lt_iff_toNat_lt]

/-- Windows that are empty may be left out. -/
theorem exists_filter_iff (ws : List Window) :
    (∃ w ∈ ws.filter fun w => w.start < w.stop, w.contains a = true) ↔ ∃ w ∈ ws, w.contains a = true := by
  constructor
  · intro h
    rcases h with ⟨w, hw, ha⟩
    exact ⟨w, (List.mem_filter.1 hw).1, ha⟩
  · intro h
    rcases h with ⟨w, hw, ha⟩
    have hbounds := contains_iff.1 ha
    have hnonempty : w.start < w.stop := UInt64.lt_iff_toNat_lt.2 (by omega)
    exact ⟨w, List.mem_filter.2 ⟨hw, decide_eq_true hnonempty⟩, ha⟩

theorem exists_without_iff :
    (∃ w' ∈ w.without r, w'.contains a = true) ↔ w.contains a = true ∧ r.contains a = false := by
  rw [without, exists_filter_iff, Region.contains_eq_false_iff]
  simp only [List.mem_cons, List.not_mem_nil, or_false, or_and_right, exists_or, exists_eq_left,
    contains_iff, UInt64.toNat_min, UInt64.toNat_max]
  omega

end Window

namespace Still

def view : View Still where
  mappings p := p.windows
  registers p := p.registers
  rseq p := p.rseq

/-- How a mapping is listed. -/
def row (w : Window) : Maps.Row where
  start := w.start
  stop := w.stop
  perms := ['r', 'w', '-', 'p']
  offset := ['0']
  device := ['0', '0', ':', '0', '0']
  inode := ['0']
  path := []

/-- What the system call that the registers name does to the mappings. -/
def windowsAfter (p : Still) : List Window :=
  if p.registers.rax = SystemCall.unmap then
    p.windows.flatMap fun w => w.without ⟨p.registers.rdi, p.registers.rsi⟩
  else p.windows

/-- The process at its next stop. -/
def step (stub : Addr) (p : Still) : Still :=
  if p.registers.rip = stub then
    { p with windows := p.windowsAfter, registers := { p.registers with rip := stub + stubLen, rax := 0 } }
  else p

def answer (stub : Addr) : (c : Call) → Still → Answer c × Still
  | .readRegisters _, p => (.ok p.registers, p)
  | .writeRegisters _ registers, p => (.ok (), { p with registers })
  | .readRseq _, p => (p.rseq, p)
  | .readMaps _, p => (.ok (Maps.listing (p.windows.map row)), p)
  | .resume _ _, p => (.ok (), p.step stub)
  | .wait pid, p => (.ok (.stopped pid .trap), p)
  | .poll pid, p => (.ok (.stopped pid .trap), p)
  | .readSignal _, p => (.ok ⟨0, 0⟩, p)
  | .traceOptions _, p => (.ok (), p)
  | .kill _, p => (.ok (), { p with windows := [] })
  | .readReport _, p => ([], p)
  | .fork _, p => (.error .invalidArgument, p)
  | .openReport, p => (.error .invalidArgument, p)
  | .draw, p => ((0 : Addr), p)
  | .clock, p => (⟨0⟩, p)
  | .cancelled, p => (false, p)

variable {p p' : Still} {pid : Pid} {stub page : Addr}

theorem row_wellFormed (w : Window) : (row w).WellFormed := by
  have hperms : Text.IsWord ['r', 'w', '-', 'p'] := ⟨by decide, by simp [Text.isBlank, Text.blankRanges]⟩
  have hdevice : Text.IsWord ['0', '0', ':', '0', '0'] :=
    ⟨by decide, by simp [Text.isBlank, Text.blankRanges]⟩
  have hzero : Text.IsWord ['0'] := ⟨by decide, by simp [Text.isBlank, Text.blankRanges]⟩
  exact ⟨hperms, hzero, hdevice, hzero, List.not_mem_nil⟩

/-- Waiting for the process changes nothing, since it has stopped by the time. -/
theorem eq_step_of_awaited (h : Awaited (answer stub) pid p p') : p' = p.step stub := by
  induction h with
  | resumed => rfl
  | waited _ ih => exact ih

theorem step_of_atStub (hrip : p.registers.rip = stub) :
    p.step stub =
      { p with windows := p.windowsAfter, registers := { p.registers with rip := stub + stubLen, rax := 0 } } :=
  if_pos hrip

/-- Cutting a range out of every mapping removes its addresses and no others. -/
theorem mapped_step_of_unmap (hrip : p.registers.rip = stub) (hrax : p.registers.rax = SystemCall.unmap) :
    view.mapped (p.step stub) = view.mapped p \ (view.range p).addresses := by
  have hwindows : view.mappings (p.step stub) = p.windows.flatMap fun w => w.without (view.range p) := by
    change (p.step stub).windows = _
    rw [step_of_atStub hrip, windowsAfter, if_pos hrax]
    rfl
  ext a
  calc
    a ∈ view.mapped (p.step stub)
        ↔ ∃ w ∈ p.windows, ∃ w' ∈ w.without (view.range p), w'.contains a = true := by
          simp only [View.mapped, hwindows, Set.mem_ofPred_eq, List.mem_flatMap]
          grind
    _ ↔ a ∈ view.mapped p ∧ (view.range p).contains a = false := by
          simp only [Window.exists_without_iff, View.mapped, Set.mem_ofPred_eq]
          grind [Still.view]
    _ ↔ a ∈ view.mapped p \ (view.range p).addresses := by simp [Region.addresses]

/-- The kernel does with the process what a tracer relies on. -/
theorem hosts (pid : Pid) (stub page : Addr) : view.Hosts (answer stub) pid stub page := by
  constructor
  case quiet =>
    intro c p hquestion
    rcases hquestion with rfl | rfl | rfl
    all_goals exact ⟨rfl, rfl, rfl⟩
  case reads =>
    intro p registers h
    exact (Except.ok.inj h).symm
  case tells => exact fun _ => rfl
  case lists =>
    intro p text h
    refine ⟨p.windows.map row, ?_, (Except.ok.inj h).symm, ?_⟩
    · intro r hr
      rcases List.mem_map.1 hr with ⟨w, -, rfl⟩
      exact row_wellFormed w
    · rw [List.map_map]
      exact List.map_id _
  case writesOnly => exact fun _ _ => rfl
  case writes => exact fun _ _ _ => rfl
  case unmaps =>
    intro p p' hatStub hrax _ _ _ hawaited
    obtain rfl := eq_step_of_awaited hawaited
    exact .inl (mapped_step_of_unmap hatStub.rip hrax)
  case unregisters =>
    intro p p' hatStub hrax hawaited
    obtain rfl := eq_step_of_awaited hawaited
    apply View.mapped_eq_of_mappings
    change (p.step stub).windows = p.windows
    rw [step_of_atStub hatStub.rip, windowsAfter, if_neg]
    intro hunmap
    exact absurd (hrax.symm.trans hunmap) (by decide)

/-! ## Scrubbing the process -/

theorem run_readMaps : (Tracing.readMaps pid).run.run (answer stub) p = (.ok (p.windows.map fun w => (row w).entry), p) := by
  have hrows : ∀ r ∈ p.windows.map row, r.WellFormed := by
    intro r hr
    rcases List.mem_map.1 hr with ⟨w, -, rfl⟩
    exact row_wellFormed w
  have hread := Maps.entries_listing hrows
  rw [List.map_map] at hread
  change (Except.ok (Maps.entries (Maps.listing (p.windows.map row))), p) = _
  rw [hread]
  rfl

theorem run_awaitStub {i : Injector} (hpatience : 0 < i.patience)
    (hfits : i.stub.toNat + stubLen.toNat < UInt64.size) (hrip : p.registers.rip = i.stub + stubLen)
    (number : UInt64) : (i.awaitStub number).run.run (answer stub) p = (.ok p.registers, p) := by
  rcases Addr.add_isOk hfits with ⟨behind, hbehind⟩
  obtain rfl := Addr.eq_add_of_add_eq_ok hbehind
  rcases Nat.exists_eq_add_one_of_ne_zero (Nat.ne_of_gt hpatience) with ⟨patience, hsucc⟩
  have hwait : (Tracing.wait i.pid (patience + 1)).run.run (answer stub) p =
      (.ok (.stopped i.pid .trap), p) := rfl
  unfold Injector.awaitStub
  rw [hsucc, hbehind, Tracing.run_bind_ok hwait]
  change Dialogue.run _ (if p.registers.rip = i.stub + stubLen then _ else _ : Tracing _).run p = _
  rw [if_pos hrip]
  rfl

/-- Every system call is granted. -/
theorem run_invoke {i : Injector} (hpatience : 0 < i.patience)
    (hfits : i.stub.toNat + stubLen.toNat < UInt64.size) (number : UInt64) (args : Registers.Arguments) :
    ∃ p', (i.invoke number args).run.run (answer i.stub) p = (.ok (.ok 0), p') := by
  let called : Still := { p with registers := p.registers.forSystemCall i.stub number args }
  have hcalled : called.registers.rip = i.stub := rfl
  have hstep := step_of_atStub hcalled
  have hran : (i.awaitStub number).run.run (answer i.stub) (called.step i.stub) =
      (.ok (called.step i.stub).registers, called.step i.stub) :=
    run_awaitStub hpatience hfits (by rw [hstep]) number
  have hread : (Tracing.readRegisters i.pid).run.run (answer i.stub) p = (.ok p.registers, p) := rfl
  have hwrite : (Tracing.writeRegisters i.pid called.registers).run.run (answer i.stub) p =
      (.ok (), called) := rfl
  have hresume : (Tracing.resume i.pid .freely).run.run (answer i.stub) called =
      (.ok (), called.step i.stub) := rfl
  unfold Injector.invoke
  rw [Tracing.run_bind_ok hread, Tracing.run_bind_ok hwrite, Tracing.run_bind_ok hresume,
    Tracing.run_bind_ok hran, hstep]
  exact ⟨_, rfl⟩

/-- Nothing is refused, so that every gap is unmapped. -/
theorem run_unmapAll {i : Injector} (hpatience : 0 < i.patience)
    (hfits : i.stub.toNat + stubLen.toNat < UInt64.size) (gaps : List Region) :
    ∃ p', (Sandbox.unmapAll i gaps).run.run (answer i.stub) p = (.ok (), p') := by
  induction gaps generalizing p with
  | nil => exact ⟨p, rfl⟩
  | cons gap rest ih =>
    rcases run_invoke (p := p) hpatience hfits SystemCall.unmap ⟨gap.start, gap.len, 0, 0, 0, 0⟩
      with ⟨p₁, hunmap⟩
    have hunmap : (i.unmap gap.start gap.len).run.run (answer i.stub) p = (.ok (.ok 0), p₁) := hunmap
    unfold Sandbox.unmapAll
    rw [Tracing.run_bind_ok hunmap]
    exact ih

theorem run_dropRseq {i : Injector} (hpatience : 0 < i.patience)
    (hfits : i.stub.toNat + stubLen.toNat < UInt64.size)
    (htold : ∀ errno, p.rseq = .error errno → errno ∈ Tracing.rseqUnknown) (maps : List MapEntry) :
    ∃ kept p', (Sandbox.dropRseq i maps).run.run (answer i.stub) p = (.ok kept, p') := by
  rcases p with ⟨windows, registers, told⟩
  unfold Sandbox.dropRseq
  cases told with
  | ok rseq =>
    have hread : (Tracing.readRseq i.pid).run.run (answer i.stub) ⟨windows, registers, .ok rseq⟩ =
        (.ok (some rseq), ⟨windows, registers, .ok rseq⟩) := rfl
    rw [Tracing.run_bind_ok hread]
    dsimp only
    split
    · rcases run_invoke (p := ⟨windows, registers, .ok rseq⟩) hpatience hfits SystemCall.rseq
        ⟨rseq.pointer, rseq.size.toUInt64, SystemCall.unregister, rseq.signature.toUInt64, 0, 0⟩
        with ⟨p', hdrop⟩
      change (i.dropRseq rseq).run.run _ _ = _ at hdrop
      rw [Tracing.run_bind_ok hdrop]
      exact ⟨_, _, rfl⟩
    · exact ⟨_, _, rfl⟩
  | error errno =>
    have hread : (Tracing.readRseq i.pid).run.run (answer i.stub) ⟨windows, registers, .error errno⟩ =
        (.ok none, ⟨windows, registers, .error errno⟩) := by
      change Dialogue.run _ (if errno ∈ Tracing.rseqUnknown then pure none else _ : Tracing _).run _ = _
      rw [if_pos (htold errno rfl)]
      rfl
    rw [Tracing.run_bind_ok hread]
    exact ⟨_, _, rfl⟩

theorem run_orRelease {α : Type} {phase : SandboxPhase} {s : Sandbox phase} {program : Tracing α} {a : α}
    (patience : Nat) (h : program.run.run (answer stub) p = (.ok a, p')) :
    (s.orRelease patience program).run.run (answer stub) p = (.ok a, p') := by
  have hlifted : (ExceptT.lift program.run : Tracing (Except Halt α)).run.run (answer stub) p =
      (.ok (.ok a), p') := by
    change Dialogue.run _ (program.run >>= _) p = _
    rw [Dialogue.run_bind, h]
    rfl
  unfold Sandbox.orRelease
  rw [Tracing.run_bind_ok hlifted]
  rfl

/-- Nothing that scrubbing asks for is refused, whatever is mapped. -/
theorem run_scrub {s : Sandbox .stopped} (hheld : s.custody.pid = some pid)
    (hstub : s.layout.stubAddr = .ok stub) (hfits : stub.toNat + stubLen.toNat < UInt64.size)
    (htold : ∀ errno, p.rseq = .error errno → errno ∈ Tracing.rseqUnknown) {patience : Nat}
    (hpatience : 0 < patience) :
    ((s.scrub true patience).run.run (answer stub) p).1 = .ok (s.entering .scrubbed) := by
  have hprocess : s.process = pure pid := by
    unfold Sandbox.process
    rw [hheld]
  have hinjector : s.injector pid patience = pure { pid, stub, patience } := by
    unfold Sandbox.injector
    rw [hstub]
    rfl
  have hpos : 0 < taskSize.toNat := by decide
  rcases run_dropRseq (i := { pid, stub, patience }) hpatience hfits htold
    (p.windows.map fun w => (row w).entry) with ⟨kept, p₁, hdrop⟩
  rcases Region.gaps_complement (s.ownRegions ++ kept) hpos with ⟨gaps, hgaps, -⟩
  rcases run_unmapAll (p := p₁) (i := { pid, stub, patience }) hpatience hfits gaps with ⟨p₂, hgone⟩
  have hremoved : (s.removeInherited pid patience).run.run (answer stub) p = (.ok (), p₂) := by
    unfold Sandbox.removeInherited
    rw [Tracing.run_bind_ok run_readMaps, hinjector]
    change Dialogue.run _ (Sandbox.dropRseq _ _ >>= _ : Tracing Unit).run p = _
    rw [Tracing.run_bind_ok hdrop, hgaps]
    exact hgone
  unfold Sandbox.scrub
  rw [if_pos rfl, hprocess]
  change ((s.orRelease _ _ >>= fun _ => pure (s.entering .scrubbed) : Tracing _).run.run _ p).1 = _
  rw [Tracing.run_bind_ok (run_orRelease _ hremoved)]
  rfl

end Still

end Footprint
