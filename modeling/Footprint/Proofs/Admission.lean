import Footprint.Proofs.Placement
import Footprint.Proofs.Region
import Footprint.Proofs.Tracing
import Footprint.Proofs.Validation
import Footprint.Sandbox

/-!
# Admitted sandboxes

A sandbox is started only for a configuration that was found valid, for code that is not too long, and
if the layout for both can be planned with its regions apart. This module draws from that the bounds
which a run in the sandbox relies on (`Layout.Sited`): its checked sums have values, and no region
reaches the end of the address space.
-/

namespace Footprint

/-- A layout whose parts lie where every sum about them is in range. -/
structure Layout.Sited (l : Layout) : Prop where
  granule : Addr.isGranule l.blockSize = true
  guardLen : l.guardRegion.len = l.blockSize
  guardAligned : l.guardRegion.start.toNat % l.blockSize.toNat = 0
  guardFits : l.guardRegion.start.toNat + l.blockSize.toNat ≤ taskSize.toNat
  imageFits : l.codeLocation.toNat + l.codeLen.toNat + 4 < UInt64.size

/-- A block that starts below the user limit ends within the address space. -/
theorem Layout.Sited.fits {l : Layout} (h : l.Sited) {a b : Addr}
    (ha : a.toNat < userAddressLimit.toNat) (hb : b.toNat ≤ a.toNat) :
    b.toNat + l.blockSize.toNat < UInt64.size := by
  have huser : userAddressLimit.toNat = 2 ^ 47 := by decide
  have htask : taskSize.toNat < 2 ^ 47 := by decide
  have hguard := h.guardFits
  simp only [UInt64.size]
  omega

theorem Window.lt_of_contains {window : Window} {a : Addr} (h : window.contains a = true)
    (hwindow : window.stop.toNat ≤ userAddressLimit.toNat) : a.toNat < userAddressLimit.toNat := by
  simp only [contains, Bool.and_eq_true, decide_eq_true_eq] at h
  exact Nat.lt_of_lt_of_le (UInt64.lt_iff_toNat_lt.1 h.2) hwindow

theorem Code.check_eq_ok_iff {code : Code} {limit : UInt64} :
    code.check limit = .ok () ↔ code ≠ [] ∧ code.length ≤ limit.toNat := by
  unfold Code.check
  cases code with
  | nil => simp
  | cons byte rest => simp

namespace Sandbox

variable {code : Code} {config : Config} {host : Host} {findings : Findings} {layout : Layout}

/-- What starting a sandbox has checked. -/
structure Started (code : Code) (config : Config) (host : Host) (layout : Layout) : Prop where
  checked : code.check config.maxCodeLen = .ok ()
  planned : ∃ draw, Layout.plan (UInt64.ofNat code.length) config host draw = .ok layout
  apart : layout.codeRegion.overlaps layout.guardRegion = false

/-- Planning for a given draw. -/
def planAt (code : Code) (config : Config) (host : Host) (draw : Addr) : Tracing Layout := do
  let layout ← Tracing.ofChecked (Layout.plan (UInt64.ofNat code.length) config host draw)
  if layout.codeRegion.overlaps layout.guardRegion then
    Tracing.failSetup (.overlap layout.codeRegion.start layout.guardRegion.start)
  else
    return layout

theorem plan_eq (code : Code) (config : Config) (host : Host) :
    plan code config host = (do
      let draw : Addr ←
        if config.placement = .randomized then Kernel.ask .draw else pure 0
      planAt code config host draw) :=
  rfl

section

variable {P : Kernel.Transcript → Prop} {t : Kernel.Transcript}

/-- A layout is planned without the kernel, and its regions are apart. -/
theorem ensures_planAt (hchecked : code.check config.maxCodeLen = .ok ()) (draw : Addr) (h : P t) :
    Tracing.Ensures (fun t layout => P t ∧ Started code config host layout) (fun t _ => P t)
      (planAt code config host draw) t := by
  refine Tracing.ensures_bind.2 (Tracing.ensures_ofChecked (fun layout hplan => ?_) fun _ _ => h)
  cases hoverlaps : layout.codeRegion.overlaps layout.guardRegion with
  | true =>
    simp only [if_true]
    exact h
  | false => simpa using And.intro h (Started.mk hchecked ⟨draw, hplan⟩ hoverlaps)

theorem ensures_plan (hchecked : code.check config.maxCodeLen = .ok ()) (h : P t)
    (hdraw : ∀ draw, P (t ++ [⟨.draw, draw⟩])) :
    Tracing.Ensures (fun t layout => P t ∧ Started code config host layout) (fun t _ => P t)
      (plan code config host) t := by
  rw [plan_eq]
  split
  · refine Tracing.ensures_bind.2 ((Tracing.ensures_lift _).2 ?_)
    exact fun draw => ensures_planAt hchecked draw (hdraw draw)
  · exact ensures_planAt hchecked 0 h

/-- Starting a sandbox draws a number, opens a report and forks a process for a layout that was checked:
what these keep holds whatever the kernel answers. -/
theorem ensures_spawn (code : Code) (config : Config) (host : Host) (h : P t) (hdraw : ∀ t draw, P t → P (t ++ [⟨.draw, draw⟩]))
    (hopen : ∀ t reply, P t → P (t ++ [⟨.openReport, reply⟩]))
    (hfork : ∀ t layout reportTo reply, Started code config host layout → P t →
      P (t ++ [⟨.fork (setupPlan code layout reportTo), reply⟩])) :
    Tracing.Ensures
      (fun t s => P t ∧ Started code config host s.layout ∧ ∃ pid, s = ⟨.of pid, s.layout⟩)
      (fun t _ => P t) (spawn code config host) t := by
  unfold spawn
  cases hchecked : code.check config.maxCodeLen with
  | error cause => exact h
  | ok checked =>
    refine Tracing.ensures_bind.2 ((ensures_plan hchecked h fun draw => hdraw t draw h).mono ?_
      fun _ _ h => h)
    rintro t layout ⟨h, hstarted⟩
    refine Tracing.ensures_bind.2 (Tracing.ensures_attempt ?_)
    rintro (errno | reportTo)
    · exact hopen t _ h
    have hopened := hopen t (.ok reportTo) h
    refine Tracing.ensures_bind.2 (Tracing.ensures_attempt ?_)
    rintro (errno | pid)
    · exact hfork _ layout reportTo _ hstarted hopened
    · exact ⟨hfork _ layout reportTo _ hstarted hopened, hstarted, pid, rfl⟩

end

/-- Whatever the kernel answers, a sandbox that was started was checked. -/
theorem started_of_spawn {σ : Type} (kernel : (c : Kernel.Call) → σ → Kernel.Answer c × σ) (k : σ)
    {s : Sandbox .forked}
    (h : (Dialogue.run kernel (spawn code config host).run k).1 = .ok s) :
    Started code config host s.layout := by
  have hall : Tracing.Ensures
      (fun _ s => True ∧ Started code config host s.layout ∧ ∃ pid, s = ⟨.of pid, s.layout⟩)
      (fun _ _ => True) (spawn code config host) [] :=
    ensures_spawn code config host trivial (by simp) (by simp) (by simp)
  have hspawn := hall.of_run kernel k
  rw [h] at hspawn
  exact hspawn.2.1

/-- Processes were forked only for layouts that were checked. -/
def ForksChecked (code : Code) (config : Config) (host : Host) (t : Kernel.Transcript) : Prop :=
  ∀ plan reply, ⟨.fork plan, reply⟩ ∈ t → ∃ layout reportTo,
    Started code config host layout ∧ plan = setupPlan code layout reportTo

theorem ForksChecked.concat {t : Kernel.Transcript} {x : Kernel.Exchange}
    (h : ForksChecked code config host t)
    (hx : ∀ plan reply, x = ⟨.fork plan, reply⟩ → ∃ layout reportTo,
      Started code config host layout ∧ plan = setupPlan code layout reportTo) :
    ForksChecked code config host (t ++ [x]) := by
  intro plan reply hmem
  rcases List.mem_append.1 hmem with hearlier | hlast
  · exact h plan reply hearlier
  · exact hx plan reply (List.mem_singleton.1 hlast).symm

/-- Whatever the kernel answers, a process is forked only for a layout that was checked. -/
theorem forksChecked_of_spawn {σ : Type} (kernel : (c : Kernel.Call) → σ → Kernel.Answer c × σ) (k : σ) :
    ForksChecked code config host ((spawn code config host).run.transcript kernel k) := by
  have hnone : ForksChecked code config host [] := by
    simp [ForksChecked]
  have hfork : ∀ t layout reportTo reply, Started code config host layout →
      ForksChecked code config host t →
        ForksChecked code config host (t ++ [⟨.fork (setupPlan code layout reportTo), reply⟩]) := by
    intro t layout reportTo reply hstarted h
    refine h.concat ?_
    rintro plan reply' ⟨⟩
    exact ⟨layout, reportTo, hstarted, rfl⟩
  have hspawn := (ensures_spawn code config host hnone (fun t draw h => h.concat (by simp))
    (fun t reply h => h.concat (by simp)) hfork).of_run kernel k
  split at hspawn
  · exact hspawn.1
  · exact hspawn

/-- A layout was checked if a process was forked for it, be it without success. -/
theorem started_of_fork {σ : Type} (kernel : (c : Kernel.Call) → σ → Kernel.Answer c × σ) (k : σ)
    {draw : Addr} {reportTo : Int32} {reply : Except Errno Pid}
    (hplan : Layout.plan (UInt64.ofNat code.length) config host draw = .ok layout)
    (hfork : ⟨.fork (setupPlan code layout reportTo), reply⟩ ∈
      (spawn code config host).run.transcript kernel k) :
    Started code config host layout := by
  rcases forksChecked_of_spawn kernel k _ _ hfork with ⟨layout', reportTo', hstarted, hsetup⟩
  rcases hstarted.planned with ⟨draw', hplan'⟩
  simp only [setupPlan, Setup.Plan.mk.injEq] at hsetup
  rcases hsetup with ⟨_, hlen, hlocation, hguard, _⟩
  have hcode : layout.codeRegion = layout'.codeRegion := by
    have hstart := (Layout.codePages_of_plan hplan).start_eq
    have hstart' := (Layout.codePages_of_plan hplan').start_eq
    rcases hregion : layout.codeRegion with ⟨start, len⟩
    rcases hregion' : layout'.codeRegion with ⟨start', len'⟩
    simp only [hregion, hregion'] at hlen hstart hstart'
    rw [hlen, hstart, hstart', hlocation]
  exact ⟨hstarted.checked, ⟨draw, hplan⟩, by rw [hcode, hguard]; exact hstarted.apart⟩

/-- Sets up a process for a layout: what is left of starting a sandbox once nothing was refused. -/
def setUp (code : Code) (layout : Layout) : Tracing (Sandbox .forked) := do
  let reportTo ← Tracing.attempt .openReport (Kernel.ask .openReport)
  let pid ← Tracing.attempt .fork (Kernel.ask (.fork (setupPlan code layout reportTo)))
  return ⟨.of pid, layout⟩

/-- Code that passes every check is refused by nobody but the kernel. -/
theorem spawn_eq_setUp (hchecked : code.check config.maxCodeLen = .ok ())
    (hplacement : config.placement ≠ .randomized)
    (hplan : Layout.plan (UInt64.ofNat code.length) config host 0 = .ok layout)
    (hapart : layout.codeRegion.overlaps layout.guardRegion = false) :
    spawn code config host = setUp code layout := by
  have hlayout : plan code config host = pure layout := by
    have hif : (if layout.codeRegion.overlaps layout.guardRegion then
        Tracing.failSetup (.overlap layout.codeRegion.start layout.guardRegion.start)
        else pure layout : Tracing Layout) = pure layout := by
      rw [hapart]
      rfl
    rw [plan_eq, if_neg hplacement]
    change planAt code config host 0 = _
    rw [planAt, hplan]
    exact hif
  unfold spawn
  rw [hchecked, hlayout]
  rfl

/-- Code that passes every check is forked for. -/
theorem exists_fork_of_checked {σ : Type} (kernel : (c : Kernel.Call) → σ → Kernel.Answer c × σ) (k : σ)
    {reportTo : Int32} (hchecked : code.check config.maxCodeLen = .ok ())
    (hplacement : config.placement ≠ .randomized)
    (hplan : Layout.plan (UInt64.ofNat code.length) config host 0 = .ok layout)
    (hapart : layout.codeRegion.overlaps layout.guardRegion = false)
    (hopened : (kernel .openReport k).1 = .ok reportTo) :
    ∃ reply, (⟨.fork (setupPlan code layout reportTo), reply⟩ : Kernel.Exchange) ∈
      (spawn code config host).run.transcript kernel k := by
  refine ⟨(kernel (.fork (setupPlan code layout reportTo)) (kernel .openReport k).2).1, ?_⟩
  rw [spawn_eq_setUp hchecked hplacement hplan hapart]
  refine List.mem_cons_of_mem _ ?_
  dsimp only
  rw [hopened]
  exact List.mem_cons_self

/-- Code that is run is in memory, where no sequence of bytes is longer than half the address space;
then everything about its sandbox is in range. -/
theorem Started.image_lt (h : Started code config host layout) (husable : config.Usable host)
    (hlength : code.length < 2 ^ 63) :
    layout.codeLocation.toNat + layout.codeLen.toNat + 4 < 2 ^ 63 + 2 ^ 48 := by
  rcases h with ⟨hchecked, ⟨draw, hplan⟩, _⟩
  have hplanned := Layout.planned_of_plan hplan
  have hcodeLen : layout.codeLen.toNat = code.length := by
    rw [hplanned.codeLen_eq]
    exact UInt64.toNat_ofNat_of_lt (Nat.lt_trans hlength (by decide))
  have hshort : code.length ≤ config.maxCodeLen.toNat := (Code.check_eq_ok_iff.1 hchecked).2
  have hlocated := hplanned.located
  cases hplacement : config.placement with
  | fixed location =>
    have htask : taskSize.toNat < 2 ^ 47 := by decide
    have hfits := husable.codeFits location hplacement
    rw [hplacement] at hlocated
    obtain rfl : location = layout.codeLocation := by simpa [Placement.locate] using hlocated
    omega
  | randomized =>
    rw [hplacement] at hlocated
    have hrange := (Placement.page_of_locate hlocated).2.1
    have hstop : Placement.randomRange.stop.toNat < 2 ^ 47 := by decide
    omega

theorem Started.sited (h : Started code config host layout) (husable : config.Usable host)
    (hlength : code.length < 2 ^ 63) : layout.Sited := by
  rcases h.planned with ⟨draw, hplan⟩
  have hplanned := Layout.planned_of_plan hplan
  exact {
    granule := hplanned.granule
    guardLen := by rw [hplanned.guardRegion_eq]
    guardAligned := by
      rw [hplanned.guardRegion_eq]
      exact Addr.clearBelow_mod _ hplanned.granule
    guardFits := by
      rw [hplanned.guardRegion_eq, hplanned.blockSize_eq]
      exact husable.guardFits
    imageFits := Nat.lt_trans (h.image_lt husable hlength) (by decide) }

/-- The code region consists of whole pages. -/
theorem Started.whole_codeRegion (h : Started code config host layout) (husable : config.Usable host)
    (hlength : code.length < 2 ^ 63) (hpage : host.pageSize.toNat < 2 ^ 62) :
    layout.codeRegion.Whole host.pageSize := by
  rcases h.planned with ⟨draw, hplan⟩
  have hpages := Layout.codePages_of_plan hplan
  refine ⟨?_, hpages.aligned, ?_⟩
  · have hlocated := (Layout.planned_of_plan hplan).located
    rw [hpages.start_eq]
    cases hplacement : config.placement with
    | fixed location =>
      have haligned := husable.codeAligned location hplacement
      rw [hplacement] at hlocated
      obtain rfl : location = layout.codeLocation := by simpa [Placement.locate] using hlocated
      exact haligned
    | randomized =>
      rw [hplacement] at hlocated
      exact (Placement.page_of_locate hlocated).2.2
  · have himage := h.image_lt husable hlength
    have hshort := hpages.short
    rw [hpages.start_eq]
    simp only [UInt64.size]
    omega

end Sandbox

end Footprint
