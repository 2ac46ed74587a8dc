import Footprint.Machine.World
import Footprint.Proofs.Monitor.Guarding
import Footprint.Proofs.Supervision.Keeping

/-!
# Existing mappings are spared

The system calls that a drive makes the process run leave the protection of every mapping that is there
alone, but for the guarded region: a mapping is only ever made where there is none, and only one that
was just made, elsewhere than wanted, is taken back (`Spares`). Together with the monitor's side this
says that code never becomes writable: `code_never_writable`.
-/

namespace Footprint

namespace Drive

open Kernel Monitor

variable {layout : Layout} {t : Transcript} {events : List Event} {x : Exchange}

/-- What a system call that a drive makes the process run does to the mappings that are there. -/
inductive Spares (layout : Layout) (events : List Event) (call : Registers) : Prop where
  -- The protection of the guarded region is lifted, and of nothing else.
  | lift : call.rax = SystemCall.protect → (⟨call.rdi, call.rsi⟩ : Region) = layout.guardRegion →
      Spares layout events call
  -- Fresh memory is mapped where nothing is mapped.
  | map : call.rax = SystemCall.map → call.r10 = SystemCall.exactMapping →
      call.r8 = SystemCall.noFile → Spares layout events call
  -- A mapping that the last call made elsewhere than wanted is taken back.
  | undo {earlier : List Event} {made after : Registers} :
      events = earlier ++ [.called made after] → made.rax = SystemCall.map →
      SystemCall.outcome after.rax = .ok call.rdi → call.rdi ≠ made.rdi → call.rsi = made.rsi →
      call.rax = SystemCall.unmap → Spares layout events call

/-- Every system call that the process is made to run in a transcript spares the mappings. -/
def CallsSpare (layout : Layout) (t : Transcript) : Prop :=
  ∀ before x after pid, t = before ++ x :: after → x.call = .resume pid .freely →
    ∃ call, stageOf before = .loaded call ∧ Spares layout (eventsOf before) call

theorem callsSpare_nil (layout : Layout) : CallsSpare layout [] := by
  intro before x after pid hnil
  simp at hnil

theorem CallsSpare.concat (h : CallsSpare layout t)
    (hx : ∀ pid, x.call = .resume pid .freely →
      ∃ call, stageOf t = .loaded call ∧ Spares layout (eventsOf t) call) :
    CallsSpare layout (t ++ [x]) := by
  intro before y after pid heq hcall
  rcases List.eq_nil_or_concat after with rfl | ⟨after', last, rfl⟩
  · rcases List.append_inj' heq rfl with ⟨rfl, hlast⟩
    cases hlast
    exact hx pid hcall
  · have hearlier : t ++ [x] = (before ++ y :: after') ++ [last] := by
      simpa using heq
    rcases List.append_inj' hearlier rfl with ⟨rfl, _⟩
    exact h before y after' pid rfl hcall

/-- Whoever does not make the process run a system call changes nothing. -/
theorem CallsSpare.quiet (h : CallsSpare layout t) (hx : ∀ pid, x.call ≠ .resume pid .freely) :
    CallsSpare layout (t ++ [x]) :=
  h.concat fun pid hcall => absurd hcall (hx pid)

theorem CallsSpare.plain (t : Transcript) (x : Exchange) (hx : isPlain x.call = true)
    (h : CallsSpare layout t) : CallsSpare layout (t ++ [x]) := by
  refine h.quiet ?_
  intro pid hcall
  rw [hcall] at hx
  cases hx

end Drive

namespace Injector

open Kernel Tracing Drive

variable {layout : Layout} {t : Transcript} {number : UInt64} {args : Registers.Arguments}
  {i : Injector} {start len : Addr}

/-- An injected call that spares the mappings keeps that all do, and is the only event. -/
theorem ensures_invoke_spare (hidle : stageOf t = .idle) (h : CallsSpare layout t)
    (hspares : ∀ saved : Registers,
      Spares layout (eventsOf t) (saved.forSystemCall i.stub number args)) :
    Ensures (fun t' outcome => CallsSpare layout t' ∧ stageOf t' = .idle ∧
        ∃ saved after : Registers, outcome = SystemCall.outcome after.rax ∧
          eventsOf t' = eventsOf t ++ [.called (saved.forSystemCall i.stub number args) after])
      (fun t _ => CallsSpare layout t) (i.invoke number args) t := by
  have hshows : Ensures (fun t' outcome => stageOf t' = .idle ∧
        ∃ saved after : Registers, outcome = SystemCall.outcome after.rax ∧
          eventsOf t' = eventsOf t ++ [.called (saved.forSystemCall i.stub number args) after])
      (fun _ _ => True) (i.invoke number args) t :=
    ensures_invoke hidle (fun t' saved after hstage hevents => ⟨hstage, saved, after, rfl, hevents⟩)
      fun _ _ _ _ => trivial
  have hkept : Ensures (fun t _ => CallsSpare layout t) (fun t _ => CallsSpare layout t)
      (i.invoke number args) t := by
    refine ensures_bind.2 (ensures_readRegisters (fun saved => ?_) fun errno => h.plain _ _ rfl)
    have hread := h.plain _ ⟨.readRegisters i.pid, .ok saved⟩ rfl
    refine ensures_bind.2 (ensures_writeRegisters ?_ fun errno => hread.quiet (by simp))
    have hwritten : CallsSpare layout (t ++ [⟨.readRegisters i.pid, .ok saved⟩] ++
        [⟨.writeRegisters i.pid (saved.forSystemCall i.stub number args), .ok ()⟩]) :=
      hread.quiet (by simp)
    -- the registers that were just written are those of the call
    have hresumed : ∀ reply, CallsSpare layout (t ++ [⟨.readRegisters i.pid, .ok saved⟩] ++
        [⟨.writeRegisters i.pid (saved.forSystemCall i.stub number args), .ok ()⟩] ++
        [⟨.resume i.pid .freely, reply⟩]) := by
      intro reply
      refine hwritten.concat fun pid _ => ⟨saved.forSystemCall i.stub number args, ?_, ?_⟩
      · simp [Stage.onExchange, Stage.onRead, Stage.onWrite, hidle]
      · simpa [Stage.onExchange, Stage.onRead, Stage.onWrite, hidle] using hspares saved
    refine ensures_bind.2 (ensures_resume ?_ fun errno => hresumed (.error errno))
    refine ensures_bind.2 ((ensures_awaitStub_keeps (fun t reply h => h.quiet (by simp))
      (fun t reply h => h.quiet (by simp)) number (hresumed (.ok ()))).mono ?_ fun _ _ h => h)
    intro t after h
    refine ensures_bind.2 (ensures_writeRegisters ?_ fun errno => h.quiet (by simp))
    exact h.quiet (by simp)
  refine (hkept.and hshows).mono ?_ fun _ _ h => h.1
  exact fun _ _ h => h

theorem ensures_mapExactly_spare (hidle : stageOf t = .idle) (h : CallsSpare layout t) :
    Ensures (fun t _ => CallsSpare layout t) (fun t _ => CallsSpare layout t)
      (i.mapExactly start len) t := by
  refine ensures_bind.2 ((ensures_invoke_spare hidle h fun _ => .map rfl rfl rfl).mono ?_
    fun _ _ h => h)
  rintro t' outcome ⟨h, hidle, saved, after, houtcome, hevents⟩
  cases outcome with
  | error errno => exact h
  | ok address =>
    by_cases hthere : address = start
    · simpa [hthere] using h
    · simp only [hthere, if_false]
      refine ensures_bind.2 ((ensures_invoke_spare hidle h ?_).mono ?_ fun _ _ h => h)
      · exact fun _ => .undo hevents rfl houtcome.symm hthere rfl rfl
      · exact fun _ _ h => h.1

end Injector

namespace Drive

open Kernel Monitor

variable {layout : Layout} {limits : Limits} {t before : Transcript} {pid : Pid} {m : Monitor}
  {g : Grant}

/-- What a drive decided to unprotect is the guarded region. -/
theorem Decided.liftsGuard (h : Decided layout limits pid before t m g) (hsited : layout.Sited) :
    LiftsGuard layout g := by
  rcases h.underway with ⟨rounds, hunderway⟩
  rcases h.judged with ⟨addr, denial, pc, elapsed, told, now, hjudge, _, _⟩
  have hsound : m.Sound := hunderway.sound hsited.granule
  have hgrants := (judge_eq_grant_iff hsound.log).1 hjudge
  rw [← hunderway.layout_eq] at hsited ⊢
  exact hgrants.liftsGuard hsound hsited

theorem Decided.ensures_makeAccessible_spare {s : Supervisor}
    (h : Decided layout limits s.pid before t m g) (hsited : layout.Sited)
    (hspare : CallsSpare layout t) :
    Tracing.Ensures (fun t _ => CallsSpare layout t) (fun t _ => CallsSpare layout t)
      (s.makeAccessible g) t := by
  unfold Supervisor.makeAccessible
  cases hmethod : g.method with
  | map => exact Injector.ensures_mapExactly_spare h.idle hspare
  | unprotect =>
    have hguard := h.liftsGuard hsited hmethod
    refine (Injector.ensures_invoke_spare h.idle hspare ?_).mono ?_ fun _ _ h => h
    · exact fun _ => .lift rfl hguard
    · exact fun _ _ h => h.1

/-- Whatever the kernel answers, a drive spares the mappings. -/
theorem drive_callsSpare {σ : Type} (s : Sandbox .launched) (limits : Limits)
    (started wallLimit : Duration) (turns : Nat) (answer : (c : Call) → σ → Answer c × σ) (k : σ)
    (hsited : s.layout.Sited) :
    CallsSpare s.layout
      ((s.drive (.start s.layout limits) started wallLimit turns).transcript answer k) := by
  have hkeeps : Keeps s.layout limits (CallsSpare s.layout) (fun t _ => CallsSpare s.layout t) :=
    .of_plain CallsSpare.plain fun _ _ _ _ _ _ h hdecided =>
      hdecided.ensures_makeAccessible_spare hsited h
  exact hkeeps.of_drive (callsSpare_nil s.layout) started wallLimit turns answer k

end Drive

namespace Sandbox

open Kernel Monitor Drive

/-- Nothing that happens in a sandbox makes its code writable, whichever layout it was started with. The
guarded region has no address in common with the code; every grant that lifts a protection is for exactly
that region, and at most one is carried out, in whatever order the monitor is called; and no other system
call that a drive makes the process run touches a mapping that is there. -/
theorem code_never_writable {σ : Type} (kernel : (c : Call) → σ → Answer c × σ) (k : σ) {code : Code}
    {config : Config} {host : Host} {findings : Findings} {layout : Layout} {draw : Addr}
    {reportTo : Int32} {reply : Except Errno Pid}
    (hvalidated : config.validate host = .ok findings) (hvalid : findings.isValid = true)
    (hplan : Layout.plan (UInt64.ofNat code.length) config host draw = .ok layout)
    (hfork : ⟨.fork (setupPlan code layout reportTo), reply⟩ ∈
      (spawn code config host).run.transcript kernel k)
    (hlength : code.length < 2 ^ 63) :
    (∀ a, layout.guardRegion.contains a = true → layout.codeRegion.contains a = false) ∧
      (∀ ops, GuardOnly layout ((Monitor.start layout config.limits).course ops).moments) ∧
      ∀ (τ : Type) (answer : (c : Call) → τ → Answer c × τ) (u : τ) (custody : Custody)
        (started wallLimit : Duration) (turns : Nat),
        CallsSpare layout (((⟨custody, layout⟩ : Sandbox .launched).drive
          (.start layout config.limits) started wallLimit turns).transcript answer u) := by
  have husable := Config.usable_of_validate hvalidated hvalid
  have hstarted := started_of_fork kernel k hplan hfork
  have hsited : layout.Sited := hstarted.sited husable hlength
  refine ⟨?_, ?_, ?_⟩
  · intro a ha
    exact Region.contains_eq_false_of_apart hstarted.apart ha
  · intro ops
    rcases exists_leads_moments (Monitor.start layout config.limits) ops with ⟨last, hleads⟩
    exact hleads.guardOnly hsited
  · intro τ answer u custody started wallLimit turns
    exact drive_callsSpare ⟨custody, layout⟩ config.limits started wallLimit turns answer u hsited

/-- The standard configuration plans a sandbox for a block of one byte, and a process is forked for it. -/
theorem code_never_writable_of_standard :
    let layout : Layout :=
      ⟨0x200000000000, 1, ⟨0x200000000000, 0x1000⟩, ⟨0x10000, 0x1000⟩, 0x1000⟩
    (∀ a, layout.guardRegion.contains a = true → layout.codeRegion.contains a = false) ∧
      (∀ ops, GuardOnly layout ((Monitor.start layout Config.standard.limits).course ops).moments) ∧
      ∀ (τ : Type) (answer : (c : Call) → τ → Answer c × τ) (u : τ) (custody : Custody)
        (started wallLimit : Duration) (turns : Nat),
        CallsSpare layout (((⟨custody, layout⟩ : Sandbox .launched).drive
          (.start layout Config.standard.limits) started wallLimit turns).transcript answer u) := by
  intro layout
  have hvalidated : Config.standard.validate ⟨"x86_64", 0x1000, 0x10000⟩ =
      .ok ⟨[], [.moreBlocksThanIterations 512 256]⟩ := by
    rfl
  have hplan : Layout.plan (UInt64.ofNat ([0x90] : Code).length) .standard
      ⟨"x86_64", 0x1000, 0x10000⟩ 0 = .ok layout := by
    rfl
  rcases exists_fork_of_checked Machine.World.answer .idle rfl (by decide) hplan (by decide) rfl with
    ⟨reply, hfork⟩
  exact code_never_writable Machine.World.answer .idle hvalidated rfl hplan hfork (by decide)

end Sandbox

end Footprint
