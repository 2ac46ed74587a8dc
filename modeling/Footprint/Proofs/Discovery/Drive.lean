import Footprint.Proofs.Discovery.Blocks
import Footprint.Proofs.Discovery.Requests
import Footprint.Proofs.Monitor.Record

/-!
# The turns of a drive against a walk

What one turn of a drive does when its process walks: a block that is still running is looked for
again, a denied access has its block granted and is resumed, and the sentinel completes the run.
-/

namespace Footprint

namespace Walk

open Kernel

variable {α β : Type} {w : Walk} {p p' p'' : Process} {run run' run'' : Run} {info : SignalInfo}
  {s : Supervisor}

/-- The program of a drive has a result against a walk, and leaves a process and a run behind. -/
def Drives (w : Walk) (program : Supervising α) (p : Process) (run : Run) (a : α) (p' : Process)
    (run' : Run) : Prop :=
  Dialogue.run w.answer (program.run.run run) p = ((.ok a, run'), p')

theorem drives_pure (a : α) : w.Drives (pure a) p run a p run := rfl

theorem Drives.bind {program : Supervising α} {f : α → Supervising β} {a : α} {b : β}
    (h : w.Drives program p run a p' run') (hf : w.Drives (f a) p' run' b p'' run'') :
    w.Drives (program >>= f) p run b p'' run'' :=
  (run_bind_of_eq h).trans hf

theorem Gives.drives {program : Tracing α} {a : α} (h : w.Gives program p a p') :
    w.Drives (Supervising.ofTracing program) p run a p' run :=
  run_bind_of_eq h

theorem drives_get : w.Drives get p run run p run := rfl

theorem drives_set (run' : Run) : w.Drives (set run') p run ⟨⟩ p run' := rfl

theorem drives_modify (f : Run → Run) : w.Drives (modify f) p run ⟨⟩ p (f run) := rfl

/-! ## The clock -/

/-- A supervisor of a walk, whose time is never up. -/
structure Supervises (w : Walk) (s : Supervisor) : Prop where
  pid_eq : s.pid = w.pid
  reaches : w.Reaches s.injector
  patient : 0 < s.patience
  inTime : ∀ n, (w.clock n).nanos - s.started.nanos < s.wallLimit.nanos

theorem drives_elapsed :
    w.Drives s.elapsed p run ⟨(w.clock p.readings).nanos - s.started.nanos⟩
      { p with readings := p.readings + 1 } run := rfl

theorem drives_checkBounds (hs : w.Supervises s) :
    w.Drives s.checkBounds p run () { p with readings := p.readings + 1 } run := by
  have hnever : w.Drives (Supervising.ofQuestion (Kernel.ask .cancelled)) p run false p run := rfl
  have hearly : ¬ s.wallLimit.nanos ≤ (w.clock p.readings).nanos - s.started.nanos :=
    Nat.not_le.2 (hs.inTime p.readings)
  refine Drives.bind hnever (Drives.bind drives_elapsed ?_)
  simp only [hearly, if_false]
  exact drives_pure ()

/-! ## Looking for a status -/

/-- While the block is found running, turns go by. -/
theorem drives_quiet (hs : w.Supervises s) {status : WaitStatus} {turns : Nat} (quiet : Nat)
    (h : p.activity = .running quiet status info)
    (hrest : w.Drives (s.drive turns)
      { p with activity := .running 0 status info, readings := p.readings + quiet } run () p' run') :
    w.Drives (s.drive (quiet + turns)) p run () p' run' := by
  induction quiet generalizing p with
  | zero =>
    have hsame : { p with activity := .running 0 status info, readings := p.readings + 0 } = p := by
      rw [← h]
      rfl
    rw [hsame] at hrest
    rwa [Nat.zero_add]
  | succ quiet ih =>
    have hturn : quiet + 1 + turns = quiet + turns + 1 := by omega
    rw [hturn]
    refine Drives.bind (drives_checkBounds hs) ?_
    rw [hs.pid_eq]
    have hagain : p.readings + (quiet + 1) = p.readings + 1 + quiet := by omega
    rw [hagain] at hrest
    have hlook : w.Gives (Tracing.poll w.pid s.patience) { p with readings := p.readings + 1 } none
        { p with activity := .running quiet status info, readings := p.readings + 1 } :=
      gives_poll_quiet h hs.patient
    refine Drives.bind hlook.drives ?_
    exact ih rfl hrest

/-- A turn that finds a status handles it. -/
theorem drives_drive_of_handle (hs : w.Supervises s) {status : WaitStatus} {turns : Nat}
    {isComplete : Bool} (h : p.activity = .running 0 status info) (hnew : status ≠ .stillAlive)
    (hhandle : w.Drives (s.handle status)
      { p with activity := .stopped info, readings := p.readings + 1 } run isComplete p' run')
    (hrest : w.Drives (if isComplete then pure () else s.drive turns) p' run' () p'' run'') :
    w.Drives (s.drive (turns + 1)) p run () p'' run'' := by
  refine Drives.bind (drives_checkBounds hs) ?_
  rw [hs.pid_eq]
  have hlook : w.Gives (Tracing.poll w.pid s.patience) { p with readings := p.readings + 1 }
      (some status) { p with activity := .stopped info, readings := p.readings + 1 } :=
    gives_poll h hs.patient hnew
  refine Drives.bind hlook.drives ?_
  exact Drives.bind hhandle hrest

/-! ## Handling a stop -/

/-- A stop does not end custody of the process. -/
theorem noteEnd_stopped (c : Custody) (pid : Pid) (signal : Signal) :
    (c.noteEnd (.stopped pid signal)).2 = c := by
  unfold Custody.noteEnd
  cases c.pid
  all_goals rfl

/-- Why an access is denied. -/
def denial (w : Walk) (a : Addr) : Denial :=
  if w.layout.guardRegion.contains a then .forbidden else .unmapped

theorem gives_classify_access {a : Addr} (q : Pid)
    (h : p.activity = .stopped ⟨w.denialCode a, a⟩) :
    w.Gives (Tracing.classify w.pid (.stopped q .segv)) p (.access a (w.denial a) p.registers.rip)
      p := by
  have hstop : Stop.ofSignal .segv (w.denialCode a) a p.registers.rip =
      .access a (w.denial a) p.registers.rip := by
    unfold denialCode denial
    split
    all_goals rfl
  refine Gives.bind (gives_readRegisters h) (Gives.bind (gives_readSignal h) ?_)
  rw [hstop]
  exact gives_pure _

theorem gives_classify_breakpoint (q : Pid) (h : p.activity = .stopped info) :
    w.Gives (Tracing.classify w.pid (.stopped q .trap)) p (.breakpoint p.registers.rip) p :=
  Gives.bind (gives_readRegisters h) (Gives.bind (gives_readSignal h) (gives_pure _))

/-- A stop is judged by the monitor as it stands. -/
theorem drives_judge {stop : Stop} {verdict : Verdict} (hrunning : run.monitor.phase = .running)
    (hverdict : ∀ elapsed, run.monitor.verdictOn stop elapsed = .ok verdict) :
    w.Drives (s.judge stop) p run verdict { p with readings := p.readings + 1 }
      { run with monitor := run.monitor.inPhase (Monitor.phaseAfter verdict) } := by
  have hreact : ∀ elapsed, run.monitor.react stop elapsed =
      (.ok verdict, run.monitor.inPhase (Monitor.phaseAfter verdict)) := by
    intro elapsed
    simp [Monitor.react, hrunning, hverdict]
  refine Drives.bind drives_elapsed (Drives.bind drives_get ?_)
  rw [hreact]
  exact Drives.bind (drives_set _) (gives_ofChecked rfl).drives

/-! ## Granting the block of an access -/

def method (w : Walk) (b : Addr) : GrantMethod :=
  if b = w.guard then .unprotect else .map

def grantFor (w : Walk) (a : Addr) : Grant :=
  ⟨a, w.block a, w.layout.blockSize, w.method (w.block a)⟩

/-- What holds of a run whose block is about to go on after some blocks were granted. -/
structure Walking (w : Walk) (limits : Limits) (granted : List Addr) (p : Process) (run : Run) :
    Prop where
  memory_eq : p.memory = w.memoryOf granted
  blocks : ∀ b ∈ granted, w.IsBlock b
  running : run.monitor.phase = .running
  layout_eq : run.monitor.layout = w.layout
  limits_eq : run.monitor.limits = limits
  sound : run.monitor.Sound
  log_eq : run.monitor.log.toList = granted
  custody_eq : run.custody = .of w.pid

variable {limits : Limits} {granted : List Addr} {a : Addr}

theorem Walking.block_eq (h : w.Walking limits granted p run) (a : Addr) :
    run.monitor.log.block a = w.block a := by
  unfold BlockLog.block block
  rw [h.sound.blockSize_eq, h.layout_eq]

/-- An access that is denied is one that the monitor has a method for: the guarded region is the only
memory that is there and denies accesses. -/
theorem methodFor_denial (hw : w.layout.Sited) {m : Monitor} (hlayout : m.layout = w.layout) (a : Addr) :
    m.methodFor (w.denial a) (w.block a) = .ok (w.method (w.block a)) := by
  by_cases hguard : w.block a = w.guard
  · have hcontains : w.layout.guardRegion.contains a = true := (guardRegion_contains_iff hw).2 hguard
    have hblock : w.layout.guardRegion.contains w.guard = true := by
      refine (guardRegion_contains_iff hw).2 ?_
      exact Addr.clearBelow_of_mod hw.granule hw.guardAligned
    simp [Monitor.methodFor, denial, method, hguard, hcontains, hlayout, hblock]
  · have hcontains : ¬ w.layout.guardRegion.contains a = true := fun h =>
      hguard ((guardRegion_contains_iff hw).1 h)
    simp [Monitor.methodFor, denial, method, hguard, hcontains]

theorem Walking.grants (h : w.Walking limits granted p run) (hw : w.layout.Sited)
    (hwindow : limits.window.contains a = true) (hcode : w.layout.codeRegion.contains a = false)
    (hfresh : w.block a ∉ granted)
    (hroom : granted.length < min limits.maxIterations.toNat limits.maxBlocks.toNat) :
    run.monitor.Grants a (w.denial a) (w.grantFor a) where
  underIterations := by
    rw [UInt32.lt_iff_toNat_lt, h.sound.counted, BlockLog.size_eq_length, h.log_eq, h.limits_eq]
    exact (Nat.lt_min.1 hroom).1
  inWindow := h.limits_eq ▸ hwindow
  outsideCode := h.layout_eq ▸ hcode
  fresh := by
    rw [h.block_eq, h.log_eq]
    exact hfresh
  underBlocks := by
    rw [BlockLog.size_eq_length, h.log_eq, h.limits_eq]
    exact (Nat.lt_min.1 hroom).2
  allowed := by
    rw [h.block_eq]
    exact methodFor_denial hw h.layout_eq a
  addr_eq := rfl
  block_eq := (h.block_eq a).symm
  len_eq := by
    rw [h.layout_eq]
    rfl

/-- A block that was not granted yet is made accessible by its method. -/
theorem gives_makeAccessible (hw : w.layout.Sited) (hs : w.Supervises s)
    (hstopped : p.activity = .stopped info) (hmemory : p.memory = w.memoryOf granted)
    (hgranted : ∀ b ∈ granted, w.IsBlock b) (hblock : w.IsBlock (w.block a))
    (hfresh : w.block a ∉ granted) :
    ∃ value, w.Gives (s.makeAccessible (w.grantFor a)) p (.ok value)
      { p with memory := w.memoryOf (granted ++ [w.block a]), activity := .stopped w.trap } := by
  by_cases hguard : w.block a = w.guard
  · refine ⟨0, ?_⟩
    have hunprotect : s.makeAccessible (w.grantFor a) =
        s.injector.permitReadWrite w.guard w.layout.blockSize := by
      simp [Supervisor.makeAccessible, grantFor, method, hguard]
    rw [hunprotect, hguard, memoryOf_concat_guard, ← hmemory]
    exact gives_permitReadWrite hs.reaches hstopped (guardRegion_eq hw)
  · refine ⟨w.block a, ?_⟩
    have hmap : s.makeAccessible (w.grantFor a) =
        s.injector.mapExactly (w.block a) w.layout.blockSize := by
      simp [Supervisor.makeAccessible, grantFor, method, hguard]
    have hfree := isTaken_memoryOf hw hgranted hblock hfresh hguard
    rw [hmap, memoryOf_concat_of_ne hguard, ← hmemory]
    rw [← hmemory] at hfree
    exact gives_mapExactly hs.reaches hstopped hfree (Nat.lt_of_le_of_lt (Nat.le_add_right _ _) hblock.low)

end Walk

end Footprint
