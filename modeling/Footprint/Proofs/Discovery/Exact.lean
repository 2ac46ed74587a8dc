import Footprint.Machine.World
import Footprint.Proofs.Discovery.Drive

/-!
# Discoveries are exact

A drive against a walk ends with exactly the blocks of the touched addresses, each once and in the order
of the first touch. `Walking` is the invariant: the granted blocks are those of the addresses touched so
far, the memory permits exactly those, and the monitor's record lists them. The proof is an induction on
what the block has still to touch: a touch in a granted block passes without a stop, and any other costs
one turn that grants its block.
-/

namespace Footprint

namespace Walk

open Kernel

variable {w : Walk} {p p' : Process} {run run' : Run} {info : SignalInfo} {s : Supervisor}
  {limits : Limits} {granted : List Addr} {a : Addr}

/-! ## One stop -/

/-- The block of a denied access is granted, recorded and permitted, and the block goes on. -/
theorem Walking.drives_carryOut (h : w.Walking limits granted p run) (hw : w.layout.Sited)
    (hs : w.Supervises s) {denial : Denial}
    (hgrants : run.monitor.Grants a denial (w.grantFor a)) (hstopped : p.activity = .stopped info)
    (hhome : p.registers = p.home) (hblock : w.IsBlock (w.block a)) (hfresh : w.block a ∉ granted) :
    ∃ p₁ run₁, w.Drives (s.carryOut (w.grantFor a)) p
        { run with monitor := run.monitor.inPhase (.granting (w.grantFor a)) } ()
        (w.goOn p.ahead p₁) run₁ ∧
      w.Walking limits (granted ++ [w.block a]) p₁ run₁ ∧ p₁.stops = p.stops := by
  have hsound : (run.monitor.inPhase (.granting (w.grantFor a))).Sound := hgrants.sound h.sound
  have hpending := hsound.pending (w.grantFor a) rfl
  rcases gives_makeAccessible hw hs hstopped h.memory_eq h.blocks hblock hfresh with ⟨value, hmade⟩
  generalize hm : run.monitor.inPhase (.granting (w.grantFor a)) = m at hsound hpending ⊢
  have hphase : m.phase = .granting (w.grantFor a) := by simp [← hm]
  have hlog : m.log.toList = granted := by simpa [← hm] using h.log_eq
  have hlayout : m.layout = w.layout := by simpa [← hm] using h.layout_eq
  have hlimits : m.limits = limits := by simpa [← hm] using h.limits_eq
  let m₁ := m.recorded (m.log.push (w.grantFor a).block)
  let p₁ : Process :=
    { p with memory := w.memoryOf (granted ++ [w.block a]), activity := .stopped w.trap }
  refine ⟨p₁, { run with monitor := m₁ }, ?_, ?_, rfl⟩
  · have hrecorded : m.granted = .ok m₁ := hpending.granted_eq hsound hphase
    have hresume : w.Gives (Tracing.resume s.pid .untilSystemCall) p₁ () (w.goOn p.ahead p₁) := by
      rw [hs.pid_eq]
      have hback : w.resume p₁ .untilSystemCall = w.goOn p.ahead p₁ := by
        simp [resume, p₁, hhome]
      exact hback ▸ gives_resume .untilSystemCall rfl
    refine Drives.bind hmade.drives (Drives.bind drives_get ?_)
    exact Drives.bind (gives_ofChecked hrecorded).drives (Drives.bind (drives_set _) hresume.drives)
  · exact {
      memory_eq := rfl
      blocks := by
        intro b hb
        rcases List.mem_append.1 hb with hearlier | hnew
        · exact h.blocks b hearlier
        · exact List.mem_singleton.1 hnew ▸ hblock
      running := rfl
      layout_eq := hlayout
      limits_eq := hlimits
      sound := hsound.recorded hpending
      log_eq := by simp [m₁, hlog, grantFor]
      custody_eq := h.custody_eq }

/-- What the block does next is settled by the touches ahead and the memory. -/
theorem goOn_cons_of_mem (hw : w.layout.Sited) (h : w.Walking limits granted p run) {x : Touch}
    {rest : List Touch} (hx : w.block x.addr ∈ granted) : w.goOn (x :: rest) p = w.goOn rest p := by
  have hpermitted : w.permits p.memory x.addr = true := by
    rw [h.memory_eq]
    exact (permits_memoryOf hw h.blocks).2 hx
  simp [goOn, hpermitted]

theorem goOn_cons_of_not_mem (hw : w.layout.Sited) (h : w.Walking limits granted p run) {x : Touch}
    {rest : List Touch} (hx : w.block x.addr ∉ granted) :
    w.goOn (x :: rest) p =
      w.stopping p (x :: rest) x.registers .segv ⟨w.denialCode x.addr, x.addr⟩ := by
  have hdenied : ¬ w.permits p.memory x.addr = true := by
    rw [h.memory_eq]
    exact fun hpermitted => hx ((permits_memoryOf hw h.blocks).1 hpermitted)
  simp [goOn, hdenied]

/-- Of the process, only the memory matters. -/
theorem Walking.of_memory (h : w.Walking limits granted p run) (hmemory : p'.memory = p.memory) :
    w.Walking limits granted p' run :=
  { h with memory_eq := hmemory.trans h.memory_eq }

/-- What may be touched: an address in the window and outside of the code. -/
structure MayTouch (w : Walk) (limits : Limits) (a : Addr) : Prop where
  inWindow : limits.window.contains a = true
  outsideCode : w.layout.codeRegion.contains a = false

instance : Decidable (w.MayTouch limits a) :=
  decidable_of_iff
    (limits.window.contains a = true ∧ w.layout.codeRegion.contains a = false)
    ⟨fun h => ⟨h.1, h.2⟩, fun h => ⟨h.1, h.2⟩⟩

theorem MayTouch.low (h : w.MayTouch limits a)
    (hlimits : limits.window.stop.toNat ≤ userAddressLimit.toNat) : a.toNat < 2 ^ 47 := by
  have hbelow : a.toNat < limits.window.stop.toNat := by
    have hcontains := h.inWindow
    simp only [Window.contains, Bool.and_eq_true, decide_eq_true_eq] at hcontains
    exact UInt64.lt_iff_toNat_lt.1 hcontains.2
  have huser : userAddressLimit.toNat = 2 ^ 47 := by decide
  omega

/-- Handling a stop starts with a status that ends nothing. -/
theorem drives_noteEnd (signal : Signal) :
    w.Drives (modify fun run => { run with custody := (run.custody.noteEnd (.stopped w.pid signal)).2 })
      p run ⟨⟩ p run := by
  have hsame : { run with custody := (run.custody.noteEnd (.stopped w.pid signal)).2 } = run := by
    rw [noteEnd_stopped]
  have hmodified : w.Drives
      (modify fun run => { run with custody := (run.custody.noteEnd (.stopped w.pid signal)).2 })
      p run ⟨⟩ p { run with custody := (run.custody.noteEnd (.stopped w.pid signal)).2 } :=
    drives_modify _
  rwa [hsame] at hmodified

/-- A denied access costs one turn, after which the block goes on with the access. -/
theorem Walking.drives_access (h : w.Walking limits granted p run) (hw : w.layout.Sited)
    (hs : w.Supervises s) {x : Touch} (rest : List Touch) (hx : w.MayTouch limits x.addr)
    (hblock : w.IsBlock (w.block x.addr)) (hfresh : w.block x.addr ∉ granted)
    (hroom : granted.length < min limits.maxIterations.toNat limits.maxBlocks.toNat) (readings : Nat) :
    let p₀ := { w.stopping p (x :: rest) x.registers .segv ⟨w.denialCode x.addr, x.addr⟩ with
      activity := .stopped ⟨w.denialCode x.addr, x.addr⟩, readings }
    ∃ p₁ run₁, w.Drives (s.handle (.stopped w.pid .segv)) p₀ run false (w.goOn (x :: rest) p₁) run₁ ∧
      w.Walking limits (granted ++ [w.block x.addr]) p₁ run₁ ∧ p₁.stops = p.stops + 1 := by
  intro p₀
  have h₀ : w.Walking limits granted { p₀ with readings := readings + 1 } run := h.of_memory rfl
  have hgrants := h₀.grants hw hx.inWindow hx.outsideCode hfresh hroom
  have hverdict : ∀ elapsed, run.monitor.verdictOn (.access x.addr (w.denial x.addr) x.registers.rip)
      elapsed = .ok (.grant (w.grantFor x.addr)) :=
    fun _ => (Monitor.judge_eq_grant_iff h.sound.log).2 hgrants
  rcases h₀.drives_carryOut hw hs hgrants rfl rfl hblock hfresh with ⟨p₁, run₁, hcarried, hafter, hstops⟩
  refine ⟨p₁, run₁, ?_, hafter, hstops⟩
  refine Drives.bind (drives_noteEnd .segv) ?_
  rw [hs.pid_eq]
  refine Drives.bind (gives_classify_access w.pid rfl).drives ?_
  refine Drives.bind (drives_judge h.running hverdict) ?_
  exact Drives.bind hcarried (drives_pure false)

/-- What holds once the block ran into its sentinel. -/
structure Ended (w : Walk) (granted : List Addr) (p : Process) (run : Run) : Prop where
  stopped : p.activity = .stopped w.trap
  sound : run.monitor.Sound
  log_eq : run.monitor.log.toList = granted
  custody_eq : run.custody = .of w.pid

theorem toNat_stub (hw : w.layout.Sited) :
    w.stub.toNat = w.layout.codeLocation.toNat + w.layout.codeLen.toNat + 1 := by
  have hfits := hw.imageFits
  have hone : (1 : UInt64).toNat = 1 := rfl
  simp only [UInt64.size] at hfits
  simp only [stub, UInt64.toNat_add, hone]
  omega

/-- The sentinel completes the run. -/
theorem Walking.drives_sentinel (h : w.Walking limits granted p run) (hw : w.layout.Sited)
    (hs : w.Supervises s) (readings : Nat) :
    let p₀ := { w.stopping p [] { w.last with rip := w.stub } .trap w.trap with
      activity := .stopped w.trap, readings }
    ∃ p₁ run₁, w.Drives (s.handle (.stopped w.pid .trap)) p₀ run true p₁ run₁ ∧
      w.Ended granted p₁ run₁ := by
  intro p₀
  have hcompletion : run.monitor.layout.completionPc = .ok w.stub := by
    rw [h.layout_eq]
    exact Layout.completionPc_eq_ok_iff.2 (toNat_stub hw)
  have hverdict : ∀ elapsed, run.monitor.verdictOn (.breakpoint w.stub) elapsed = .ok .finish := by
    intro elapsed
    simp [Monitor.verdictOn, hcompletion, bind, Except.bind, pure, Except.pure]
  have hsound : (run.monitor.inPhase (Monitor.phaseAfter .finish)).Sound := h.sound.inPhase (by
    rintro _ ⟨⟩)
  refine ⟨{ p₀ with readings := readings + 1 },
    { run with monitor := run.monitor.inPhase (Monitor.phaseAfter .finish) }, ?_,
    ⟨rfl, hsound, h.log_eq, h.custody_eq⟩⟩
  refine Drives.bind (drives_noteEnd .trap) ?_
  rw [hs.pid_eq]
  refine Drives.bind (gives_classify_breakpoint w.pid rfl).drives ?_
  exact Drives.bind (drives_judge h.running hverdict) (drives_pure true)

/-! ## Whole drives -/

/-- Enough turns let the block touch what it has still to touch. How many that is depends on how often
the block is found running, so it is not bounded by the number of touches. -/
theorem exists_turns (hw : w.layout.Sited)
    (hlimits : limits.window.stop.toNat ≤ userAddressLimit.toNat) (touches : List Touch)
    (htouches : ∀ x ∈ touches, w.MayTouch limits x.addr) (granted : List Addr) (stops : Nat)
    (hcaps : (touchedAfter granted (touches.map fun x => w.block x.addr)).length ≤
      min limits.maxIterations.toNat limits.maxBlocks.toNat) :
    ∃ enough, ∀ s p run turns, w.Supervises s → w.Walking limits granted p run →
      p.stops = stops → enough ≤ turns → ∃ p' run',
        w.Drives (s.drive turns) (w.goOn touches p) run () p' run' ∧
          w.Ended (touchedAfter granted (touches.map fun x => w.block x.addr)) p' run' := by
  -- on the touches still ahead; the counts of granted blocks and of stops grow with every turn
  induction touches generalizing granted stops with
  | nil =>
    refine ⟨w.quiet stops + 1, ?_⟩
    intro s p run turns hs h hstops henough
    subst hstops
    rcases h.drives_sentinel hw hs (p.readings + w.quiet p.stops + 1) with
      ⟨p₁, run₁, hhandled, hended⟩
    refine ⟨p₁, run₁, ?_, by simpa using hended⟩
    rcases Nat.exists_eq_add_of_le henough with ⟨more, rfl⟩
    have hturns : w.quiet p.stops + 1 + more = w.quiet p.stops + (more + 1) := by omega
    rw [hturns]
    refine drives_quiet hs (w.quiet p.stops) rfl ?_
    exact drives_drive_of_handle hs rfl (by simp) hhandled (drives_pure ())
  | cons x rest ih =>
    have hx := htouches x List.mem_cons_self
    have hrest : ∀ y ∈ rest, w.MayTouch limits y.addr :=
      fun y hy => htouches y (List.mem_cons_of_mem _ hy)
    simp only [List.map_cons] at hcaps ⊢
    by_cases hmem : w.block x.addr ∈ granted
    · -- the block goes on without a stop
      rw [touchedAfter_cons_of_mem hmem] at hcaps ⊢
      rcases ih hrest granted stops hcaps with ⟨enough, hih⟩
      refine ⟨enough, ?_⟩
      intro s p run turns hs h hstops henough
      rw [goOn_cons_of_mem hw h hmem]
      exact hih s p run turns hs h hstops henough
    · -- one turn grants the block, and the same touch is tried again
      rw [touchedAfter_cons_of_not_mem hmem] at hcaps ⊢
      rcases ih hrest (granted ++ [w.block x.addr]) (stops + 1) hcaps with ⟨enough, hih⟩
      refine ⟨w.quiet stops + (enough + 1), ?_⟩
      intro s p run turns hs h hstops henough
      subst hstops
      have hroom : granted.length < min limits.maxIterations.toNat limits.maxBlocks.toNat := by
        refine Nat.lt_of_lt_of_le ?_ hcaps
        have hlength := length_le_touchedAfter (granted ++ [w.block x.addr])
          (rest.map fun y => w.block y.addr)
        rw [List.length_append, List.length_singleton] at hlength
        exact hlength
      have hblock := isBlock_block hw (hx.low hlimits)
      rcases h.drives_access hw hs rest hx hblock hmem hroom
        (p.readings + w.quiet p.stops + 1) with ⟨p₁, run₁, hhandled, hafter, hstops⟩
      rcases Nat.exists_eq_add_of_le henough with ⟨more, rfl⟩
      have hturns : w.quiet p.stops + (enough + 1) + more =
          w.quiet p.stops + (enough + more + 1) := by omega
      rcases hih s p₁ run₁ (enough + more) hs hafter hstops (Nat.le_add_right _ _) with
        ⟨p', run', hdriven, hended⟩
      refine ⟨p', run', ?_, hended⟩
      have hgranted : w.block x.addr ∈ granted ++ [w.block x.addr] := by simp
      rw [goOn_cons_of_mem hw hafter hgranted] at hhandled
      rw [hturns, goOn_cons_of_not_mem hw h hmem]
      refine drives_quiet hs (w.quiet p.stops) rfl ?_
      exact drives_drive_of_handle hs rfl (by simp) hhandled hdriven

/-! ## Whole runs -/

/-- Reading the clock does not matter to what the block does next. -/
theorem run_clock_goOn (touches : List Touch) (p : Process) :
    Dialogue.run w.answer (Kernel.ask .clock) (w.goOn touches p) =
      (w.clock p.readings, w.goOn touches { p with readings := p.readings + 1 }) := by
  induction touches with
  | nil => rfl
  | cons x rest ih =>
    by_cases hpermitted : w.permits p.memory x.addr = true
    · simpa [goOn, hpermitted] using ih
    · simp only [goOn, hpermitted]
      rfl

theorem gives_supervisor (hw : w.layout.Sited) (started wallLimit : Duration) (patience : Nat) :
    w.Gives ((Sandbox.mk (.of w.pid) w.layout : Sandbox .launched).supervisor started wallLimit patience)
      p ⟨w.pid, ⟨w.pid, w.stub, patience⟩, started, wallLimit, patience⟩ p := by
  have hstub : w.layout.stubAddr = .ok w.stub := Layout.stubAddr_eq_ok_iff.2 (toNat_stub hw)
  exact Gives.bind (gives_pure w.pid) (Gives.bind (Gives.bind (gives_ofChecked hstub) (gives_pure _))
    (gives_pure _))

theorem exists_breakpoint (hw : w.layout.Sited) : ∃ pc, Addr.add w.stub stubLen = .ok pc := by
  have hfits := hw.imageFits
  have hstub := toNat_stub hw
  have hlen : stubLen.toNat = 3 := rfl
  exact Addr.add_isOk (by omega)

/-- A killed process is collected. -/
theorem run_teardown {patience : Nat} (hpatience : 0 < patience) :
    Dialogue.run w.answer ((Custody.of w.pid).teardown patience) p =
      ((.ok ⟨some w.pid, true, true, none, some 9⟩, ⟨none, none⟩),
        { p with activity := .collected }) := by
  cases patience with
  | zero =>
    cases hpatience
  | succ patience =>
    have hkill : Dialogue.run w.answer (Kernel.ask (.kill w.pid)) p =
        (.ok (), { p with activity := .killed }) := if_pos rfl
    have hend : Dialogue.run w.answer (Kernel.ask (.wait w.pid)) { p with activity := .killed } =
        (.ok (.signaled w.pid .kill false), { p with activity := .collected }) := if_pos rfl
    have hcollected : ∀ report, Dialogue.run w.answer (Custody.collect w.pid report (patience + 1))
        { p with activity := .killed } =
          (.ok (report.withEnd (.signaled w.pid .kill false)), { p with activity := .collected }) := by
      intro report
      exact run_bind_of_eq hend
    have hkilled : Dialogue.run w.answer (Custody.killAndCollect w.pid (patience + 1)) p =
        (.ok ⟨some w.pid, true, true, none, some 9⟩, { p with activity := .collected }) :=
      (run_bind_of_eq hkill).trans (hcollected _)
    exact run_bind_of_eq hkilled

/-- The sandbox of a walk, whose block was started. -/
def sandbox (w : Walk) : Sandbox .launched :=
  ⟨.of w.pid, w.layout⟩

/-- What a completed run comes to. -/
def outcomeOf (w : Walk) (run : Run) : Outcome where
  result := .ok ⟨w.layout.codeLocation, w.layout.blockSize, run.monitor.log.toList⟩
  teardown := some ⟨some w.pid, true, true, none, some 9⟩
  launched := true
  iterations := run.monitor.iterations
  blocks := run.monitor.log.size
  pid := some w.pid

theorem gives_sumUp {patience : Nat} (hpatience : 0 < patience) (hcustody : run.custody = .of w.pid) :
    w.Gives (w.sandbox.sumUp run (.ok ()) patience) p (w.outcomeOf run)
      { p with activity := .collected } := by
  have hconclude : Dialogue.run w.answer
      (run.custody.conclude (w.sandbox.touched run.monitor) (.ok ()) patience) p =
        ((.ok ⟨.ok (w.sandbox.touched run.monitor), some ⟨some w.pid, true, true, none, some 9⟩⟩,
          ⟨none, none⟩), { p with activity := .collected }) := by
    rw [hcustody]
    exact run_bind_of_eq (run_teardown hpatience)
  exact Gives.bind (gives_lift hconclude) (Gives.bind (gives_pure _) (gives_pure _))

/-- What an exact discovery answers: every block that was touched, once and in order of the first touch,
and counts that agree with it, the process having been taken down. -/
structure Exact (w : Walk) (touches : List Touch) (outcome : Outcome) : Prop where
  result_eq : outcome.result = .ok
    { codeLocation := w.layout.codeLocation
      blockSize := w.layout.blockSize
      blocks := (touches.map fun x => w.block x.addr).eraseDups }
  launched : outcome.launched = true
  iterations_eq : outcome.iterations.toNat =
    (touches.map fun x => w.block x.addr).eraseDups.length
  blocks_eq : outcome.blocks = (touches.map fun x => w.block x.addr).eraseDups.length
  tornDown : ∃ report, outcome.teardown = some report ∧ report.killSent = true ∧
    report.reaped = true

theorem Ended.exact {touches : List Touch}
    (h : w.Ended (touches.map fun x => w.block x.addr).eraseDups p run) :
    w.Exact touches (w.outcomeOf run) where
  result_eq := by
    rw [← h.log_eq]
    rfl
  launched := rfl
  iterations_eq := by
    rw [← h.log_eq, ← BlockLog.size_eq_length]
    exact h.sound.counted
  blocks_eq := by
    rw [← h.log_eq]
    exact BlockLog.size_eq_length _
  tornDown := ⟨_, rfl, rfl, rfl⟩

/-- Against any walk in an admitted sandbox that touches only what it may, and no more blocks than may be
granted, a discovery ends and is exact, provided that its time is not up before. The length of the code
is one that memory can hold, see `Sandbox.Started.sited`. -/
theorem finish_exact {σ : Type} (kernel : (c : Call) → σ → Answer c × σ) (k : σ) {code : Code}
    {config : Config} {host : Host} {findings : Findings} {w : Walk} (touches : List Touch)
    (hvalidated : config.validate host = .ok findings) (hvalid : findings.isValid = true)
    (hspawned : (Dialogue.run kernel (Sandbox.spawn code config host).run k).1 =
      .ok ⟨.of w.pid, w.layout⟩)
    (hlength : code.length < 2 ^ 63)
    (htouches : ∀ x ∈ touches, w.MayTouch config.limits x.addr)
    (hcaps : (touches.map fun x => w.block x.addr).eraseDups.length ≤
      min config.maxIterations.toNat config.maxBlocks.toNat)
    (htime : ∀ n, (w.clock n).nanos - (w.clock 0).nanos < config.wallLimit.nanos) :
    ∃ enough, ∀ turns, enough ≤ turns → ∃ outcome,
      (w.runs (w.sandbox.finish config turns) (w.start touches)).1 = .ok outcome ∧
        w.Exact touches outcome := by
  have husable := Config.usable_of_validate hvalidated hvalid
  have hw : w.layout.Sited := (Sandbox.started_of_spawn kernel k hspawned).sited husable hlength
  have hstart : w.Walking config.limits [] { w.fresh touches with readings := 1 }
      ⟨.of w.pid, .start w.layout config.limits⟩ := by
    exact {
      memory_eq := rfl
      blocks := by simp
      running := rfl
      layout_eq := rfl
      limits_eq := rfl
      sound := .start hw.granule config.limits
      log_eq := rfl
      custody_eq := rfl }
  have hcaps' : (touchedAfter [] (touches.map fun x => w.block x.addr)).length ≤
      min config.limits.maxIterations.toNat config.limits.maxBlocks.toNat := by
    rw [nil_touchedAfter]
    exact hcaps
  rcases exists_turns hw husable.windowFits touches htouches [] 0 hcaps' with ⟨enough, henough⟩
  -- the number of turns is also how often a wait may be interrupted, so it must not be zero
  refine ⟨enough + 1, ?_⟩
  intro turns hturns
  have hs : w.Supervises ⟨w.pid, ⟨w.pid, w.stub, turns⟩, w.clock 0, config.wallLimit, turns⟩ := by
    have hpatient : 0 < turns := by omega
    exact ⟨rfl, ⟨rfl, rfl, exists_breakpoint hw, hpatient⟩, hpatient, htime⟩
  rcases henough _ _ _ turns hs hstart rfl (by omega) with ⟨p', run', hdriven, hended⟩
  rw [nil_touchedAfter] at hended
  refine ⟨w.outcomeOf run', ?_, hended.exact⟩
  have hclock : w.Gives (ExceptT.lift (Kernel.ask .clock)) (w.start touches) (w.clock 0)
      (w.goOn touches { w.fresh touches with readings := 1 }) :=
    gives_lift (run_clock_goOn touches (w.fresh touches))
  have hdrive : Dialogue.run w.answer
      (w.sandbox.drive (.start w.layout config.limits) (w.clock 0) config.wallLimit turns)
      (w.goOn touches { w.fresh touches with readings := 1 }) = ((.ok (), run'), p') :=
    Drives.bind (gives_supervisor hw (w.clock 0) config.wallLimit turns).drives hdriven
  have hfinish : w.Gives (w.sandbox.finish config turns) (w.start touches) (w.outcomeOf run')
      { p' with activity := .collected } := by
    refine Gives.bind hclock (Gives.bind (gives_lift hdrive) ?_)
    exact gives_sumUp hs.patient hended.custody_eq
  exact congrArg Prod.fst hfinish

/-- A block touches the guarded region, then fresh memory, and either of them again. -/
theorem finish_exact_of_mixed_touches :
    let layout : Layout := ⟨0x200000000000, 1, ⟨0x200000000000, 0x1000⟩, ⟨0x10000, 0x1000⟩, 0x1000⟩
    let w : Walk := ⟨1, layout, fun n => ⟨min n 1000⟩, id, id, default, default⟩
    let touches : List Touch :=
      [⟨0x10010, default⟩, ⟨0x20008, default⟩, ⟨0x10018, default⟩, ⟨0x20ff8, default⟩]
    ∃ enough, ∀ turns, enough ≤ turns → ∃ outcome,
      (w.runs (w.sandbox.finish .standard turns) (w.start touches)).1 = .ok outcome ∧
        outcome.result = .ok ⟨0x200000000000, 0x1000, [0x10000, 0x20000]⟩ := by
  intro layout w touches
  have hvalidated : Config.standard.validate ⟨"x86_64", 0x1000, 0x10000⟩ =
      .ok ⟨[], [.moreBlocksThanIterations 512 256]⟩ := by
    rfl
  have hspawned : (Dialogue.run Machine.World.answer
      (Sandbox.spawn [0x90] .standard ⟨"x86_64", 0x1000, 0x10000⟩).run Machine.World.idle).1 =
        .ok ⟨.of 1, ⟨0x200000000000, 1, ⟨0x200000000000, 0x1000⟩, ⟨0x10000, 0x1000⟩, 0x1000⟩⟩ := by
    rfl
  have htouches : ∀ x ∈ touches, w.MayTouch Config.standard.limits x.addr := by decide
  have hblocks : (touches.map fun x => w.block x.addr).eraseDups = [0x10000, 0x20000] := by decide
  have hcaps : (touches.map fun x => w.block x.addr).eraseDups.length ≤
      min Config.standard.maxIterations.toNat Config.standard.maxBlocks.toNat := by
    rw [hblocks]
    decide
  have htime : ∀ n, (w.clock n).nanos - (w.clock 0).nanos < Config.standard.wallLimit.nanos := by
    intro n
    change min n 1000 - 0 < 2000 * 1000000
    omega
  rcases finish_exact Machine.World.answer .idle touches hvalidated rfl hspawned (by decide) htouches
    hcaps htime with ⟨enough, henough⟩
  refine ⟨enough, fun turns hturns => ?_⟩
  rcases henough turns hturns with ⟨outcome, hfinished, hexact⟩
  exact ⟨outcome, hfinished, hblocks ▸ hexact.result_eq⟩

end Walk

end Footprint
