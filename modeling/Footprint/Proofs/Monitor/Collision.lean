import Footprint.Machine.World
import Footprint.Proofs.Monitor.Guarding

/-!
# What a mapped block may lie on

A grant by mapping is decided on for an address with nothing mapped at it, but covers the whole block of
the address. Guarded region and granted blocks are blocks, so a block that holds an unmapped address is
apart from them. The code region is a number of pages, which need not fill its blocks: where blocks are
larger than pages, an unmapped address may share its block with code, and then the grant that is decided
on lies on the code (`map_grants_apart`).
-/

namespace Footprint

namespace Monitor

variable {m last : Monitor} {g : Grant} {moments : List Moment} {layout : Layout} {limits : Limits}

/-- Nothing that a sandbox holds lies at an address: neither its own regions nor a granted block. -/
structure Vacant (layout : Layout) (granted : List Addr) (a : Addr) : Prop where
  offCode : layout.codeRegion.contains a = false
  offGuard : layout.guardRegion.contains a = false
  offGranted : ∀ b ∈ granted, (⟨b, layout.blockSize⟩ : Region).contains a = false

/-- An access is reported as one to unmapped memory only where nothing is mapped. -/
def Truthful (layout : Layout) (moments : List Moment) : Prop :=
  ∀ x ∈ moments, ∀ addr pc elapsed, x.op = .react (.access addr .unmapped pc) elapsed →
    Vacant layout x.before.log.toList addr

/-- A moment decides on a grant by mapping a block. -/
def Moment.Maps (x : Moment) (g : Grant) : Prop :=
  x.reply = .verdict (.grant g) ∧ g.method = .map

/-- Only unmapped memory is mapped. -/
theorem eq_unmapped_of_methodFor_eq_map {denial : Denial} {block : Addr}
    (h : m.methodFor denial block = .ok .map) : denial = .unmapped := by
  cases denial with
  | unmapped => rfl
  | forbidden =>
    simp only [methodFor] at h
    split at h
    all_goals cases h

/-- A grant by mapping answers an access to unmapped memory. -/
theorem Change.access_of_maps {op : Op} {after : Monitor} (h : Change m op (.verdict (.grant g)) after)
    (hm : m.Sound) (hmethod : g.method = .map) :
    ∃ pc elapsed, op = .react (.access g.addr .unmapped pc) elapsed ∧ m.Grants g.addr .unmapped g := by
  cases h with
  | @grant addr pc denial elapsed _ _ hjudge =>
    have hgrants := (judge_eq_grant_iff hm.log).1 hjudge
    have hallowed := hgrants.allowed
    rw [hmethod] at hallowed
    obtain rfl := eq_unmapped_of_methodFor_eq_map hallowed
    obtain rfl := hgrants.addr_eq
    exact ⟨pc, elapsed, rfl, hgrants⟩

/-! ## Blocks in range -/

/-- The block that an address is rounded down to, as a region. -/
def blockAround (layout : Layout) (a : Addr) : Region :=
  ⟨Addr.clearBelow a layout.blockSize, layout.blockSize⟩

theorem Grants.range_eq {addr : Addr} {denial : Denial} (hm : m.Sound) (h : m.Grants addr denial g) :
    g.range = blockAround m.layout addr := by
  unfold Grant.range blockAround
  rw [h.block_eq, h.len_eq, ← hm.blockSize_eq]
  rfl

/-- A block that does not hold an address is apart from the block of that address. -/
theorem blockAround_apart (hsited : layout.Sited) {a b : Addr} (ha : a.toNat < userAddressLimit.toNat)
    (haligned : b.toNat % layout.blockSize.toNat = 0)
    (hfits : b.toNat + layout.blockSize.toNat < UInt64.size)
    (hb : (⟨b, layout.blockSize⟩ : Region).contains a = false) :
    (blockAround layout a).overlaps ⟨b, layout.blockSize⟩ = false := by
  rw [Bool.eq_false_iff]
  intro hoverlaps
  have hle := Addr.clearBelow_le a hsited.granule
  have heq : Addr.clearBelow a layout.blockSize = b :=
    (Region.overlaps_block_iff hsited.granule (Addr.clearBelow_mod a hsited.granule) haligned
      (hsited.fits ha hle) hfits).1 hoverlaps
  rw [(Region.contains_block_iff hsited.granule haligned hfits).2 heq] at hb
  cases hb

/-! ## Courses -/

/-- What a moment that maps a block rests on, in a course of its own monitor. -/
theorem Leads.access_of_maps (h : Leads (start layout limits) moments last) (hsited : layout.Sited)
    {x : Moment} (hx : x ∈ moments) (hmaps : x.Maps g) :
    ∃ earlier pc elapsed, Leads (start layout limits) earlier x.before ∧
      x.op = .react (.access g.addr .unmapped pc) elapsed ∧
      limits.window.contains g.addr = true ∧ layout.codeRegion.contains g.addr = false ∧
      g.range = blockAround layout g.addr := by
  have hstart : (start layout limits).Sound := .start hsited.granule limits
  rcases List.append_of_mem hx with ⟨earlier, later, rfl⟩
  rcases h.split with ⟨hbefore, hchange, _⟩
  rw [hmaps.1] at hchange
  rcases hchange.access_of_maps (hbefore.sound hstart) hmaps.2 with ⟨pc, elapsed, hop, hgrants⟩
  have hlayout : x.before.layout = layout := hbefore.layout_eq
  have hlimits : x.before.limits = limits := hbefore.limits_eq
  refine ⟨earlier, pc, elapsed, hbefore, hop, ?_, ?_, ?_⟩
  · exact hlimits ▸ hgrants.inWindow
  · exact hlayout ▸ hgrants.outsideCode
  · exact hlayout ▸ hgrants.range_eq (hbefore.sound hstart)

/-- Granted blocks are blocks that end within the address space. -/
theorem Leads.fits_of_granted (h : Leads (start layout limits) moments m) (hsited : layout.Sited)
    (hwindow : limits.window.stop.toNat ≤ userAddressLimit.toNat) {b : Addr}
    (hb : b ∈ m.log.toList) :
    b.toNat % layout.blockSize.toNat = 0 ∧ b.toNat + layout.blockSize.toNat < UInt64.size := by
  have hstart : (start layout limits).Sound := .start hsited.granule limits
  have hm := h.sound hstart
  constructor
  · have haligned := hm.log.aligned b hb
    rwa [hm.blockSize_eq, h.layout_eq] at haligned
  · rcases h.witnessed hstart hb with hnone | ⟨g, hnone, _⟩ | hwitnessed
    · cases hnone
    · cases hnone
    · rcases hwitnessed with ⟨addr, _, _, _, _, hinside, _, hle, _⟩
      exact hsited.fits (Window.lt_of_contains hinside hwindow) hle

/-- Blocks that are mapped are apart from the guarded region and from every block granted before. -/
theorem Leads.maps_apart (h : Leads (start layout limits) moments last) (hsited : layout.Sited)
    (hwindow : limits.window.stop.toNat ≤ userAddressLimit.toNat) (htruthful : Truthful layout moments)
    {x : Moment} (hx : x ∈ moments) (hmaps : x.Maps g) :
    g.range.overlaps layout.guardRegion = false ∧
      ∀ b ∈ x.before.log.toList, g.range.overlaps ⟨b, layout.blockSize⟩ = false := by
  rcases h.access_of_maps hsited hx hmaps with ⟨earlier, pc, elapsed, hbefore, hop, hinside, _, hrange⟩
  have hvacant := htruthful x hx _ _ _ hop
  have hlow := Window.lt_of_contains hinside hwindow
  rw [hrange]
  constructor
  · have hguard : layout.guardRegion = ⟨layout.guardRegion.start, layout.blockSize⟩ := by
      rw [← hsited.guardLen]
    have htask : taskSize.toNat < UInt64.size := taskSize.toNat_lt
    have hoff := hvacant.offGuard
    rw [hguard] at hoff ⊢
    exact blockAround_apart hsited hlow hsited.guardAligned
      (Nat.lt_of_le_of_lt hsited.guardFits htask) hoff
  · intro b hb
    rcases hbefore.fits_of_granted hsited hwindow hb with ⟨haligned, hfits⟩
    exact blockAround_apart hsited hlow haligned hfits (hvacant.offGranted b hb)

/-- No address of the window outside of the code shares its block with code. -/
def CodeFillsBlocks (layout : Layout) (window : Window) : Prop :=
  ∀ a, window.contains a = true → layout.codeRegion.contains a = false →
    (blockAround layout a).overlaps layout.codeRegion = false

/-- Code that consists of whole blocks shares none of them. -/
theorem codeFillsBlocks_of_whole (hsited : layout.Sited) {window : Window}
    (hwindow : window.stop.toNat ≤ userAddressLimit.toNat)
    (hwhole : layout.codeRegion.Whole layout.blockSize) : CodeFillsBlocks layout window := by
  intro a hinside hoff
  rw [Bool.eq_false_iff]
  intro hoverlaps
  have hfits := hsited.fits (Window.lt_of_contains hinside hwindow) (Addr.clearBelow_le a hsited.granule)
  rw [hwhole.contains_of_overlaps hsited.granule hfits hoverlaps] at hoff
  cases hoff

/-- What is mapped is apart from the code if code fills its blocks. -/
theorem Leads.maps_apart_of_codeFillsBlocks (h : Leads (start layout limits) moments last)
    (hsited : layout.Sited) (hfills : CodeFillsBlocks layout limits.window) {x : Moment}
    (hx : x ∈ moments) (hmaps : x.Maps g) : g.range.overlaps layout.codeRegion = false := by
  rcases h.access_of_maps hsited hx hmaps with ⟨_, _, _, _, _, hinside, hoff, hrange⟩
  rw [hrange]
  exact hfills g.addr hinside hoff

/-- A run that begins with an access to unmapped memory beside the code maps the block of it. -/
theorem exists_maps (hsited : layout.Sited) {a : Addr} (hinside : limits.window.contains a = true)
    (hoff : layout.codeRegion.contains a = false) (hiterations : 0 < limits.maxIterations.toNat)
    (hblocks : 0 < limits.maxBlocks.toNat) :
    ∃ x g, x.Maps g ∧ x.before.log.toList = [] ∧ g.range = blockAround layout a ∧
      ((start layout limits).course [.react (.access a .unmapped 0) ⟨0⟩]).moments = [x] ∧
      x.op = .react (.access a .unmapped 0) ⟨0⟩ := by
  have hstart : (start layout limits).Sound := .start hsited.granule limits
  let g : Grant := ⟨a, (start layout limits).log.block a, layout.blockSize, .map⟩
  have hgrants : (start layout limits).Grants a .unmapped g := by
    exact {
      underIterations := UInt32.lt_iff_toNat_lt.2 hiterations
      inWindow := hinside
      outsideCode := hoff
      fresh := by simp [start]
      underBlocks := hblocks
      allowed := rfl
      addr_eq := rfl
      block_eq := rfl
      len_eq := rfl }
  have hverdict : (start layout limits).verdictOn (.access a .unmapped 0) ⟨0⟩ = .ok (.grant g) :=
    (judge_eq_grant_iff hstart.log).2 hgrants
  have hperform : (start layout limits).perform (.react (.access a .unmapped 0) ⟨0⟩) =
      .ok (.verdict (.grant g), (start layout limits).inPhase (.granting g)) := by
    have hrunning : (start layout limits).phase = .running := rfl
    simp [perform, react, hrunning, hverdict, phaseAfter]
  refine ⟨⟨start layout limits, .react (.access a .unmapped 0) ⟨0⟩, .verdict (.grant g),
    (start layout limits).inPhase (.granting g)⟩, g, ⟨rfl, rfl⟩, ?_, ?_, ?_, rfl⟩
  · simp [start]
  · have hrange : g.range = blockAround (start layout limits).layout a := Grants.range_eq hstart hgrants
    exact hrange
  · rw [course_cons_of_ok hperform, course_nil]

/-- Unless code fills its blocks, some truthful run maps a block that lies on the code. -/
theorem exists_maps_onCode (limits : Limits) (hsited : layout.Sited)
    (hapart : layout.codeRegion.overlaps layout.guardRegion = false)
    (hiterations : 0 < limits.maxIterations.toNat) (hblocks : 0 < limits.maxBlocks.toNat)
    (hshares : ¬ CodeFillsBlocks layout limits.window) :
    ∃ ops, Truthful layout ((start layout limits).course ops).moments ∧
      ∃ x ∈ ((start layout limits).course ops).moments, ∃ g, x.Maps g ∧
        g.range.overlaps layout.codeRegion = true := by
  simp only [CodeFillsBlocks, not_forall, Bool.not_eq_false] at hshares
  rcases hshares with ⟨a, hinside, hoff, hoverlaps⟩
  rcases exists_maps hsited hinside hoff hiterations hblocks with
    ⟨x, g, hmaps, hnone, hrange, hmoments, hop⟩
  refine ⟨_, ?_, x, hmoments ▸ List.mem_singleton_self x, g, hmaps, hrange ▸ hoverlaps⟩
  intro y hy addr pc elapsed hyop
  rw [hmoments, List.mem_singleton] at hy
  rw [hy] at hyop ⊢
  obtain rfl : a = addr := by
    rw [hop] at hyop
    cases hyop
    rfl
  refine ⟨hoff, ?_, by simp [hnone]⟩
  -- the block lies on the code, so it is not the guarded one
  rw [Bool.eq_false_iff]
  intro hguarded
  have hguard : blockAround layout a = layout.guardRegion := block_eq_guardRegion hsited hguarded
  rw [hguard, Region.overlaps_comm, hapart] at hoverlaps
  cases hoverlaps

end Monitor

namespace Sandbox

open Kernel Monitor

/-- In a run that is told the truth about unmapped memory, what is mapped is apart from the guarded region
and from every block granted before. It is apart from the code in all such runs if and only if code fills
its blocks, as it does where blocks are pages. -/
theorem map_grants_apart {σ : Type} (kernel : (c : Call) → σ → Answer c × σ) (k : σ) {code : Code}
    {config : Config} {host : Host} {findings : Findings} {layout : Layout} {draw : Addr}
    {reportTo : Int32} {reply : Except Errno Pid}
    (hvalidated : config.validate host = .ok findings) (hvalid : findings.isValid = true)
    (hplan : Layout.plan (UInt64.ofNat code.length) config host draw = .ok layout)
    (hfork : ⟨.fork (setupPlan code layout reportTo), reply⟩ ∈
      (spawn code config host).run.transcript kernel k)
    (hlength : code.length < 2 ^ 63) :
    (∀ ops, Truthful layout ((Monitor.start layout config.limits).course ops).moments →
      ∀ x ∈ ((Monitor.start layout config.limits).course ops).moments, ∀ g, x.Maps g →
        g.range.overlaps layout.guardRegion = false ∧
          ∀ b ∈ x.before.log.toList, g.range.overlaps ⟨b, layout.blockSize⟩ = false) ∧
      ((∀ ops, Truthful layout ((Monitor.start layout config.limits).course ops).moments →
        ∀ x ∈ ((Monitor.start layout config.limits).course ops).moments, ∀ g, x.Maps g →
          g.range.overlaps layout.codeRegion = false) ↔ CodeFillsBlocks layout config.window) ∧
      (layout.blockSize = host.pageSize → CodeFillsBlocks layout config.window) := by
  have husable := Config.usable_of_validate hvalidated hvalid
  have hstarted := started_of_fork kernel k hplan hfork
  have hsited : layout.Sited := hstarted.sited husable hlength
  refine ⟨?_, ⟨?_, ?_⟩, ?_⟩
  · intro ops htruthful x hx g hmaps
    rcases exists_leads_moments (Monitor.start layout config.limits) ops with ⟨last, hleads⟩
    exact hleads.maps_apart hsited husable.windowFits htruthful hx hmaps
  · intro hapart
    by_contra hshares
    rcases exists_maps_onCode config.limits hsited hstarted.apart husable.someIterations
      husable.someBlocks hshares with ⟨ops, htruthful, x, hx, g, hmaps, hoverlaps⟩
    rw [hapart ops htruthful x hx g hmaps] at hoverlaps
    cases hoverlaps
  · intro hfills ops _ x hx g hmaps
    rcases exists_leads_moments (Monitor.start layout config.limits) ops with ⟨last, hleads⟩
    exact hleads.maps_apart_of_codeFillsBlocks hsited hfills hx hmaps
  · intro hpages
    refine codeFillsBlocks_of_whole hsited husable.windowFits ?_
    rw [hpages]
    refine hstarted.whole_codeRegion husable hlength ?_
    have htask : taskSize.toNat < 2 ^ 62 := by decide
    have hguard := hsited.guardFits
    rw [← hpages]
    omega

/-- Blocks are pages in the standard configuration, so nothing that is mapped meets what is there. -/
theorem map_grants_apart_of_standard :
    let layout : Layout :=
      ⟨0x200000000000, 1, ⟨0x200000000000, 0x1000⟩, ⟨0x10000, 0x1000⟩, 0x1000⟩
    ∀ ops, Truthful layout ((Monitor.start layout Config.standard.limits).course ops).moments →
      ∀ x ∈ ((Monitor.start layout Config.standard.limits).course ops).moments, ∀ g, x.Maps g →
        g.range.overlaps layout.codeRegion = false ∧ g.range.overlaps layout.guardRegion = false ∧
          ∀ b ∈ x.before.log.toList, g.range.overlaps ⟨b, layout.blockSize⟩ = false := by
  intro layout
  have hvalidated : Config.standard.validate ⟨"x86_64", 0x1000, 0x10000⟩ =
      .ok ⟨[], [.moreBlocksThanIterations 512 256]⟩ := by
    rfl
  have hplan : Layout.plan (UInt64.ofNat ([0x90] : Code).length) .standard
      ⟨"x86_64", 0x1000, 0x10000⟩ 0 = .ok layout := by
    rfl
  rcases exists_fork_of_checked Machine.World.answer .idle rfl (by decide) hplan (by decide) rfl with
    ⟨reply, hfork⟩
  rcases map_grants_apart Machine.World.answer .idle hvalidated rfl hplan hfork (by decide) with
    ⟨hapart, hcode, hpages⟩
  intro ops htruthful x hx g hmaps
  exact ⟨hcode.2 (hpages rfl) ops htruthful x hx g hmaps, hapart ops htruthful x hx g hmaps⟩

/-- Blocks of sixteen pages, of which code fills one. -/
def largeBlocks : Config :=
  { Config.standard with blockSize := some 0x10000 }

/-- With blocks of sixteen pages, a truthful run maps a block that lies on the code: nothing is mapped two
pages behind the start of the code, but code is mapped in the same block. -/
theorem map_grant_onCode_of_largeBlocks :
    let host : Host := ⟨"x86_64", 0x1000, 0x10000⟩
    let layout : Layout :=
      ⟨0x200000000000, 12, ⟨0x200000000000, 0x1000⟩, ⟨0x10000, 0x10000⟩, 0x10000⟩
    (∃ findings, largeBlocks.validate host = .ok findings ∧ findings.isValid = true) ∧
      Layout.plan 12 largeBlocks host 0 = .ok layout ∧
      layout.codeRegion.overlaps layout.guardRegion = false ∧
      ∃ ops, Truthful layout ((Monitor.start layout largeBlocks.limits).course ops).moments ∧
        ∃ x ∈ ((Monitor.start layout largeBlocks.limits).course ops).moments, ∃ g, x.Maps g ∧
          g.range.overlaps layout.codeRegion = true := by
  intro host layout
  have hplan : Layout.plan 12 largeBlocks host 0 = .ok layout := by
    decide
  have hapart : layout.codeRegion.overlaps layout.guardRegion = false := by
    decide
  have hvalidated : largeBlocks.validate host = .ok ⟨[], [.moreBlocksThanIterations 512 256]⟩ := by
    decide
  have hsited : layout.Sited := by
    exact {
      granule := by decide
      guardLen := rfl
      guardAligned := by decide
      guardFits := by decide
      imageFits := by decide }
  have hshares : ¬ CodeFillsBlocks layout largeBlocks.window := by
    intro hfills
    have hbeside := hfills 0x200000002000 (by decide) (by decide)
    revert hbeside
    decide
  exact ⟨⟨_, hvalidated, rfl⟩, hplan, hapart,
    exists_maps_onCode largeBlocks.limits hsited hapart (by decide) (by decide) hshares⟩

end Sandbox

end Footprint
