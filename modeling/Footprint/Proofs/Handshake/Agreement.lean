import Footprint.Proofs.Handshake.Takeover
import Footprint.Proofs.Layout
import Footprint.Proofs.Setup.Memory

/-!
# What a tracer and a fresh process agree on

Right behind its fork a process sets itself up while its tracer waits for it. Whatever the kernel answers
to the setup, and however the two run side by side, they come to an end and agree (`Agreed`): the tracer
has a sandbox in its hands only if every step succeeded, in which case the memory of the process is as
planned and the process stands where it stopped by itself; and if a step failed, the tracer halts by the
stage and the error number of that step, which was the last one, and the process is gone.
-/

namespace Footprint

namespace Handshake

open Setup (Child History Stage failureOf stageOf bodyOf)

variable {plan : Setup.Plan} {pid : Pid} {patience : Nat} {layout : Layout} {s : Scene}

/-- A tracer right behind its fork, and the process right at its start. -/
def start (pid : Pid) (code : Code) (layout : Layout) (reportTo : Int32) (patience interruptions : Nat) :
    State (Except Halt (Sandbox .stopped)) where
  tracer := ((Sandbox.mk (.of pid) layout : Sandbox .forked).awaitStop patience).run
  scene := ⟨.fresh (Sandbox.setupPlan code layout reportTo), interruptions⟩

/-- What holds of the result of a tracer and of the process that it forked, whose memory was as given. -/
structure Agreed (plan : Setup.Plan) (pid : Pid) (layout : Layout) (memory : Setup.Memory) (child : Child)
    (result : Except Halt (Sandbox .stopped)) : Prop where
  -- A sandbox is in the tracer's hands only if all steps succeeded.
  succeeded : ∀ sandbox, result = .ok sandbox →
    sandbox = ⟨.of pid, layout⟩ ∧ child.life = .stopped true ∧
      bodyOf child.history =
        plan.steps ++ [⟨.report (.ready plan.codeLocation), ()⟩, ⟨.stop, ()⟩] ∧
      plan.Built memory (memory.afterAll child.history)
  -- The step that failed is the first one, no step follows it, and the failure names it.
  failed : ∀ before x after stage errno, child.history = before ++ x :: after →
    failureOf x = some (stage, errno) →
      (∀ y ∈ before, failureOf y = none) ∧ (∀ y ∈ after, stageOf y.call = none) ∧
      result = .error (.failed (.setup (.stepFailed stage.number errno))) ∧
      (SetupCause.stepFailed stage.number errno).text =
        "isolated context failed at " ++ stage.label ++ ": " ++ errno.text ∧
      (child.life = .reaped (.exited pid stage.number.toNat) ∨
        ∃ core, child.life = .reaped (.signaled pid .kill core))
  -- Nothing but a refusal to set options stands between success and a sandbox.
  unfailed : (∀ x ∈ child.history, failureOf x = none) →
    (∃ sandbox, result = .ok sandbox) ∨
      ∃ errno, result = .error (.failed (.setup (.refused .traceOptions errno)))
  gone : ∀ halt, result = .error halt → ∃ status, child.life = .reaped status

/-- The memory of a process that stopped is as planned. -/
theorem Held.built (h : Held plan pid patience s) (hroom : plan.image.length ≤ plan.regionLen.toNat)
    (hapart : plan.codeRegion.overlaps plan.guardRegion = false) (memory : Setup.Memory) :
    plan.Built memory (memory.afterAll s.child.history) := by
  have hbody := h.sound.conforms.stopped h.stopped
  have hmapped : ⟨.map plan.codeLocation plan.regionLen .readWrite, .ok plan.codeLocation⟩ ∈
      s.child.history := by
    rw [← Setup.mem_bodyOf_iff rfl, hbody]
    simp [Setup.Plan.steps]
  have hfits : plan.codeLocation.toNat + plan.regionLen.toNat < UInt64.size :=
    h.sound.possible _ hmapped
  rw [← Setup.Memory.afterAll_bodyOf, hbody, Setup.Memory.afterAll_append]
  exact Setup.Plan.built_afterAll hroom hfits hapart

/-- A process is gone by its exit behind the step that failed, or it was killed. -/
theorem Reaped.life_of_failure {x : Setup.Exchange} {stage : Stage} {errno : Errno}
    (h : Reaped plan pid s) (hx : x ∈ s.child.history) (hfailure : failureOf x = some (stage, errno)) :
    s.child.life = .reaped (.exited pid stage.number.toNat) ∨
      ∃ core, s.child.life = .reaped (.signaled pid .kill core) := by
  rcases h with ⟨hsound, status, hlife⟩
  have hfits := hsound.fits
  rw [hlife] at hfits ⊢
  cases hfits with
  | reaped hended =>
    cases hended with
    | kill core => exact .inr ⟨core, rfl⟩
    | exit hends =>
      rcases hends with ⟨done, r, tail, hconcludes, hbody⟩
      have hopen : Setup.isClosing x.call = false :=
        Setup.isClosing_of_failureOf (by rw [hfailure]; exact Option.some_ne_none _)
      rw [← Setup.mem_bodyOf_iff hopen, hbody] at hx
      rcases hconcludes.of_failure hx hfailure with ⟨_, _, _, rfl⟩
      refine .inl ?_
      cases stage
      all_goals rfl

theorem agreed_of_brought {sandbox : Sandbox .stopped} (h : Brought plan pid patience layout sandbox s)
    (hroom : plan.image.length ≤ plan.regionLen.toNat)
    (hapart : plan.codeRegion.overlaps plan.guardRegion = false) (memory : Setup.Memory) :
    Agreed plan pid layout memory s.child (.ok sandbox) := by
  rcases h with ⟨rfl, h⟩
  have hconforms := h.sound.conforms
  exact {
    succeeded := by
      rintro _ ⟨⟩
      exact ⟨rfl, h.held, hconforms.stopped h.stopped, h.built hroom hapart memory⟩
    failed := by
      intro before x after stage errno hsplit hfailure
      rw [hconforms.failureOf_of_stop h.stopped (by simp [hsplit])] at hfailure
      cases hfailure
    unfailed := fun _ => .inl ⟨_, rfl⟩
    gone := by rintro _ ⟨⟩ }

theorem agreed_of_failed {halt : Halt} (h : Failed plan pid halt s) (memory : Setup.Memory) :
    Agreed plan pid layout memory s.child (.error halt) := by
  rcases h with ⟨hreaped, hexplains⟩
  have hconforms := hreaped.sound.conforms
  exact {
    succeeded := by rintro _ ⟨⟩
    failed := by
      intro before x after stage errno hsplit hfailure
      have hx : x ∈ s.child.history := by simp [hsplit]
      have hwhole := hconforms
      rw [hsplit] at hwhole
      rcases hwhole.failed hfailure with ⟨hbefore, hafter, hreport⟩
      refine ⟨hbefore, hafter, ?_, SetupCause.text_stepFailed stage errno,
        hreaped.life_of_failure hx hfailure⟩
      cases hexplains with
      | reported hr hstage =>
        rw [hsplit] at hr
        have hword : errno.IsWord := Setup.isWord_of_failureOf (hreaped.sound.possible x hx) hfailure
        rw [hreport _ hr, haltOf, Setup.Report.failed, hword.toInt_ofInt]
      | refused _ hstop =>
        rw [hconforms.failureOf_of_stop hstop hx] at hfailure
        cases hfailure
    unfailed := by
      intro hnone
      cases hexplains with
      | reported hr hstage =>
        rcases hconforms.exists_failure hr hstage with ⟨x, hx, hfailure⟩
        exact absurd (hnone x hx) hfailure
      | refused errno => exact .inr ⟨errno, rfl⟩
    gone := fun _ _ => hreaped.reaped }

/-- Whatever the kernel answers to the setup of a process, and however the process and its tracer run side
by side, no run goes on for ever, none is stuck before the tracer is done, and when the tracer is done,
both agree. -/
theorem awaitStop_agrees {code : Code} {config : Config} {host : Host} {draw : Addr} {reportTo : Int32}
    {interruptions : Nat} (hcode : code.length < UInt64.size)
    (hplan : Layout.plan (UInt64.ofNat code.length) config host draw = .ok layout)
    (hapart : layout.codeRegion.overlaps layout.guardRegion = false)
    (hpatience : interruptions < patience) :
    Acc (fun h' h => Step pid h h') (start pid code layout reportTo patience interruptions) ∧
      ∀ h, Reaches pid (start pid code layout reportTo patience interruptions) h →
        ((∃ result, h.tracer = .done result) ∨ ∃ h', Step pid h h') ∧
        ∀ result, h.tracer = .done result → ∀ memory,
          Agreed (Sandbox.setupPlan code layout reportTo) pid layout memory h.scene.child result := by
  let plan := Sandbox.setupPlan code layout reportTo
  have hroom : plan.image.length ≤ plan.regionLen.toNat := by
    have hlen := (Layout.plan_eq_ok_iff.1 hplan).2.2.1
    rw [UInt64.toNat_ofNat_of_lt' hcode] at hlen
    simpa [plan, Sandbox.setupPlan, Code.image, Code.sentinel, Code.stub, Nat.add_assoc] using hlen
  have hregion : plan.codeRegion = layout.codeRegion := by
    have hstart := (Layout.codePages_of_plan hplan).start_eq
    change Region.mk layout.codeLocation layout.codeRegion.len = layout.codeRegion
    rw [← hstart]
  rw [← hregion] at hapart
  have hundisturbed : Undisturbed plan pid patience
      (start pid code layout reportTo patience interruptions).scene :=
    ⟨⟨Setup.Child.sound_fresh plan pid, hpatience⟩, rfl, by rintro ⟨⟩⟩
  refine ⟨acc_step pid _ _, fun h hreaches => ?_⟩
  have hsafe : Safe pid (Outcome (Brought plan pid patience layout) (Failed plan pid)) h.tracer
      h.scene := Safe.of_reaches (safe_awaitStop rfl hundisturbed) hreaches
  refine ⟨hsafe.isDone_or_step, fun result hdone memory => ?_⟩
  have houtcome := hsafe.of_done hdone
  cases result with
  | ok sandbox => exact agreed_of_brought houtcome hroom hapart memory
  | error halt => exact agreed_of_failed houtcome memory

/-! A kernel that takes addresses for hints puts the guarded region elsewhere. -/

/-- A block of one byte and its guarded region. -/
def smallLayout : Layout :=
  ⟨0x200000000000, 1, ⟨0x200000000000, 0x1000⟩, ⟨0x10000, 0x1000⟩, 0x1000⟩

/-- Grants everything, but maps memory that permits nothing always at one address. -/
def misplacing : (c : Setup.Call) → Unit → Setup.Answer c × Unit
  | .closeRange _, k => (.ok (), k)
  | .close _, k => ((), k)
  | .dieWithParent, k => (.ok (), k)
  | .traceMe, k => (.ok (), k)
  | .map start _ perms, k => (.ok (if perms = .none then 0x20000 else start), k)
  | .unmap .., k => ((), k)
  | .copy .., k => ((), k)
  | .protect .., k => (.ok (), k)
  | .report _, k => ((), k)
  | .stop, k => ((), k)

/-- What a process does whose guarded region was put elsewhere. -/
def misplaced : History :=
  [⟨.closeRange ⟨0, 2⟩, .ok ()⟩, ⟨.closeRange ⟨4, 0xffffffff⟩, .ok ()⟩, ⟨.dieWithParent, .ok ()⟩,
   ⟨.traceMe, .ok ()⟩, ⟨.map 0x200000000000 0x1000 .readWrite, .ok 0x200000000000⟩,
   ⟨.copy 0x200000000000 [0x90, 0xcc, 0x0f, 0x05, 0xcc], ()⟩,
   ⟨.protect 0x200000000000 0x1000 .readExec, .ok ()⟩, ⟨.map 0x10000 0x1000 .none, .ok 0x20000⟩,
   ⟨.unmap 0x20000 0x1000, ()⟩, ⟨.report (.failed .mapGuard .alreadyExists), ()⟩]

/-- The process exited before it was killed, and its end was collected. -/
def misplacedEnd : State (Except Halt (Sandbox .stopped)) where
  tracer := .done (.error (.failed (.setup (.stepFailed Stage.mapGuard.number .alreadyExists))))
  scene := ⟨⟨misplaced, .reaped (.exited 7 5), true⟩, 0⟩

theorem reaches_misplacedEnd : Reaches 7 (start 7 [0x90] smallLayout 3 1 0) misplacedEnd := by
  have hmay : ∀ x ∈ misplaced, x.call ≠ .stop ∧ Setup.MayAnswer x.call x.reply := by
    simp [misplaced, Setup.MayAnswer, UInt64.size]
  refine .trans (reaches_run misplacing _ () [] false 0 hmay) ?_
  refine .head (.child ⟨_, .exit, rfl⟩) ?_
  refine .head (.tracer (.readReport (.inr (.inr ⟨_, .inl rfl⟩)))) ?_
  refine .head (.tracer (.kill (by rintro _ ⟨⟩))) ?_
  refine .head (.tracer .reap) ?_
  exact .refl

theorem agrees_of_misplaced :
    [(0x90 : UInt8)].length < UInt64.size ∧
      Layout.plan (UInt64.ofNat [(0x90 : UInt8)].length) Config.standard
        ⟨"x86_64", 0x1000, 0x10000⟩ 0 = .ok smallLayout ∧
      smallLayout.codeRegion.overlaps smallLayout.guardRegion = false ∧ 0 < 1 ∧
      Reaches 7 (start 7 [0x90] smallLayout 3 1 0) misplacedEnd ∧
      Agreed (Sandbox.setupPlan [0x90] smallLayout 3) 7 smallLayout (fun _ => none)
        misplacedEnd.scene.child
        (.error (.failed (.setup (.stepFailed Stage.mapGuard.number .alreadyExists)))) :=
  have hcode : [(0x90 : UInt8)].length < UInt64.size := by decide
  have hplan : Layout.plan (UInt64.ofNat [(0x90 : UInt8)].length) Config.standard
      ⟨"x86_64", 0x1000, 0x10000⟩ 0 = .ok smallLayout := by decide +kernel
  have hapart : smallLayout.codeRegion.overlaps smallLayout.guardRegion = false := by decide
  ⟨hcode, hplan, hapart, Nat.one_pos, reaches_misplacedEnd,
    ((awaitStop_agrees hcode hplan hapart Nat.one_pos).2 _ reaches_misplacedEnd).2 _ rfl _⟩

end Handshake

end Footprint
