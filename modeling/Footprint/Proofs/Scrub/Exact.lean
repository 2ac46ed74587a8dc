import Footprint.Proofs.Layout.Fixed
import Footprint.Proofs.Region.Gaps
import Footprint.Proofs.Scrub.Standstill

/-!
# What scrubbing leaves

Scrubbing reads the listing of mappings, decides what to keep, and removes every gap between the kept
regions with a system call that runs inside one of them. On any kernel that hosts the process the regions
of the sandbox stay mapped behind every call, so that the stub is always there to run the next one; and
where scrubbing succeeds, nothing else is left below the end of the address space, except for the mapping
that holds the thread's control block where the kernel cannot tell about restartable sequences
(`Sandbox.scrub_leaves_own`).
-/

namespace Footprint

open Kernel

variable {σ : Type} {kernel : (c : Call) → σ → Answer c × σ} {closing : Call → Prop} {v : View σ}
  {page : Addr} {k : σ}

/-- The addresses of some regions. -/
def covered (rs : List Region) : Set Addr :=
  {a | ∃ r ∈ rs, r.contains a = true}

theorem covered_nil : covered [] = ∅ := by
  simp [covered]

theorem covered_singleton (r : Region) : covered [r] = r.addresses := by
  simp [covered, Region.addresses]

theorem covered_append (rs ss : List Region) : covered (rs ++ ss) = covered rs ∪ covered ss := by
  ext a
  simp [covered, or_and_right, exists_or]

theorem covered_subset_append {rs ss : List Region} : covered rs ⊆ covered (rs ++ ss) := by
  rw [covered_append]
  exact Set.subset_union_left

namespace View

/-- Mappings of whole pages, of which no two share an address. -/
structure Paged (v : View σ) (page : Addr) (k : σ) : Prop where
  aligned : ∀ w ∈ v.mappings k, w.start.toNat % page.toNat = 0 ∧ w.stop.toNat % page.toNat = 0
  apart : ∀ w ∈ v.mappings k, ∀ w' ∈ v.mappings k, ∀ a, w.contains a = true → w'.contains a = true → w = w'

/-- The addresses of the mapping that an address lies in. -/
def around (v : View σ) (k : σ) (b : Addr) : Set Addr :=
  {a | ∃ w ∈ v.mappings k, w.contains b = true ∧ w.contains a = true}

/-- What is kept besides the regions of the sandbox: where the kernel cannot tell about restartable
sequences, the mapping that the thread pointer lies in. -/
def spared (v : View σ) (k : σ) : Set Addr :=
  {a | (∃ errno, v.rseq k = .error errno) ∧ a ∈ v.around k (v.registers k).fsBase}

/-- Of the addresses that a process can have, these are the mapped ones. -/
def HasExactly (v : View σ) (m : Set Addr) (k : σ) : Prop :=
  ∀ a, a.toNat < taskSize.toNat → (a ∈ v.mapped k ↔ a ∈ m)

theorem Same.spared {k k' : σ} (h : v.Same k k') : v.spared k' = v.spared k := by
  unfold View.spared View.around
  rw [h.mappings, h.registers, h.rseq]

theorem Same.paged {k k' : σ} (h : v.Same k k') (hpaged : v.Paged page k) : v.Paged page k' := by
  rcases hpaged with ⟨haligned, hapart⟩
  rw [← h.mappings] at haligned hapart
  exact ⟨haligned, hapart⟩

/-- Mappings in the order of their addresses share none. -/
theorem apart_of_ordered {ws : List Window}
    (h : ws.Pairwise fun w w' => w.stop.toNat ≤ w'.start.toNat) :
    ∀ w ∈ ws, ∀ w' ∈ ws, ∀ a, w.contains a = true → w'.contains a = true → w = w' := by
  intro w hw w' hw' a ha ha'
  rw [Window.contains_iff] at ha ha'
  induction h with
  | nil => cases hw
  | cons hbelow _ ih =>
    rcases List.mem_cons.1 hw with rfl | hrest
    · rcases List.mem_cons.1 hw' with rfl | hrest'
      · rfl
      · have := hbelow w' hrest'
        omega
    · rcases List.mem_cons.1 hw' with rfl | hrest'
      · have := hbelow w hrest
        omega
      · exact ih hrest hrest'

theorem Paged.around_eq {w : Window} {b : Addr} (h : v.Paged page k) (hw : w ∈ v.mappings k)
    (hb : w.contains b = true) : v.around k b = {a | w.contains a = true} := by
  ext a
  constructor
  · intro ha
    rcases ha with ⟨w', hw', hb', ha⟩
    obtain rfl := h.apart w' hw' w hw b hb' hb
    exact ha
  · intro ha
    exact ⟨w, hw, hb, ha⟩

theorem around_eq_empty {b : Addr} (h : ∀ w ∈ v.mappings k, w.contains b = false) : v.around k b = ∅ := by
  apply Set.eq_empty_of_forall_notMem
  intro a ha
  rcases ha with ⟨w, hw, hb, -⟩
  rw [h w hw] at hb
  cases hb

theorem spared_subset (v : View σ) (k : σ) : v.spared k ⊆ v.mapped k := by
  intro a ha
  rcases ha with ⟨-, w, hw, -, ha⟩
  exact ⟨w, hw, ha⟩

end View

/-- A layout whose regions are whole pages, with the stub in the code region. -/
structure Layout.Housed (l : Layout) (stub page : Addr) : Prop where
  stubAt : l.stubAddr = .ok stub
  stubWithin : (⟨stub, stubLen⟩ : Region).Within l.codeRegion
  code : l.codeRegion.Whole page
  guarded : l.guardRegion.Whole page

theorem Layout.Housed.whole {l : Layout} {stub : Addr} (h : l.Housed stub page) :
    ∀ r ∈ [l.codeRegion, l.guardRegion], r.Whole page := by
  intro r hr
  rcases List.mem_cons.1 hr with rfl | hr
  · exact h.code
  · obtain rfl := List.mem_singleton.1 hr
    exact h.guarded

/-- What validation admits at a fixed location can be scrubbed. -/
theorem Layout.WellPlaced.housed {l : Layout} {config : Config} {host : Host}
    (h : l.WellPlaced config host) : ∃ stub, l.Housed stub host.pageSize := by
  rcases h.stubWithin with ⟨_, stub, _, -, hstub, -, -, hwithin⟩
  exact ⟨stub, hstub, hwithin, h.codeMappable.whole, h.guardMappable.whole⟩

namespace Region

theorem Within.addresses_subset {r s : Region} (h : r.Within s) : r.addresses ⊆ s.addresses := by
  intro a ha
  have hstarts := h.starts
  have hends := h.ends
  have hfits : r.start.toNat + r.len.toNat < UInt64.size := Nat.lt_of_le_of_lt hends h.fits
  have ha : r.start.toNat ≤ a.toNat ∧ a.toNat < r.start.toNat + r.len.toNat := (contains_iff hfits).1 ha
  exact (contains_iff h.fits).2 (by omega)

end Region

namespace Sandbox

variable {s : Sandbox .stopped} {i : Injector} {own : Set Addr} {maps : List MapEntry} {b : Addr}

/-! ## The mapping that holds an address -/

/-- A mapping that is not empty ends where its length says. -/
theorem start_add_len {w : Window} (hb : w.contains b = true) :
    w.start.toNat + (w.stop - w.start).toNat = w.stop.toNat := by
  rw [Window.contains_iff] at hb
  have hle : w.start.toNat ≤ w.stop.toNat := by omega
  rw [UInt64.toNat_sub_of_le _ _ (UInt64.le_iff_toNat_le.2 hle)]
  exact Nat.add_sub_of_le hle

theorem addresses_of_window {w : Window} (hb : w.contains b = true) :
    (⟨w.start, w.stop - w.start⟩ : Region).addresses = {a | w.contains a = true} := by
  have hends := start_add_len hb
  ext a
  change Region.contains _ a = true ↔ w.contains a = true
  rw [Region.contains_iff (hends ▸ w.stop.toNat_lt), hends, Window.contains_iff]

theorem whole_of_window {w : Window} (hb : w.contains b = true)
    (haligned : w.start.toNat % page.toNat = 0 ∧ w.stop.toNat % page.toNat = 0) :
    (⟨w.start, w.stop - w.start⟩ : Region).Whole page := by
  have hends := start_add_len hb
  rcases haligned with ⟨hstart, hstop⟩
  have hlen : page.toNat ∣ (w.stop - w.start).toNat := by
    rw [← hends] at hstop
    exact (Nat.dvd_add_right (Nat.dvd_of_mod_eq_zero hstart)).1 (Nat.dvd_of_mod_eq_zero hstop)
  exact ⟨hstart, Nat.mod_eq_zero_of_dvd hlen, hends ▸ w.stop.toNat_lt⟩

/-- Looking an address up in the listing finds the mapping that it lies in, if there is one. -/
theorem regionAround_spec (hmaps : maps.map MapEntry.window = v.mappings k) (hpaged : v.Paged page k)
    (b : Addr) :
    (∀ r ∈ regionAround maps b, r.Whole page) ∧ covered (regionAround maps b) = v.around k b := by
  unfold regionAround
  split
  next entry hfound =>
    have hentry : entry.window ∈ v.mappings k := by
      rw [← hmaps]
      exact List.mem_map_of_mem (List.mem_of_find?_eq_some hfound)
    have hb : entry.window.contains b = true :=
      List.find?_some (p := fun e : MapEntry => e.contains b) hfound
    constructor
    · intro r hr
      obtain rfl := List.mem_singleton.1 hr
      exact whole_of_window hb (hpaged.aligned _ hentry)
    · rw [covered_singleton, hpaged.around_eq hentry hb]
      exact addresses_of_window hb
  next hnone =>
    refine ⟨List.forall_mem_nil _, ?_⟩
    rw [covered_nil, View.around_eq_empty]
    intro w hw
    rw [← hmaps] at hw
    rcases List.mem_map.1 hw with ⟨entry, hentry, rfl⟩
    exact Bool.eq_false_iff.2 (List.find?_eq_none.1 hnone entry hentry)

/-! ## The steps of scrubbing -/

/-- Giving up restartable sequences unmaps nothing and tells what to keep. -/
theorem passes_dropRseq (hk : v.Hosts kernel i.pid i.stub page)
    (hstub : (⟨i.stub, stubLen⟩ : Region).addresses ⊆ own) (hown : own ⊆ v.mapped k)
    (hmaps : maps.map MapEntry.window = v.mappings k) (hpaged : v.Paged page k) :
    Tracing.Passes kernel closing (v.Keeps own)
      (fun kept k' => v.mapped k' = v.mapped k ∧ (∀ r ∈ kept, r.Whole page) ∧ covered kept = v.spared k)
      (dropRseq i maps) k := by
  have hasked := hk.quiet (.readRseq i.pid) k (.inr (.inl rfl))
  have hempty : ∀ rseq, v.rseq k = .ok rseq → covered [] = v.spared k := by
    intro rseq hrseq
    simp [covered_nil, View.spared, hrseq]
  refine Tracing.passes_bind.2 (Tracing.passes_readRseq (.of_subset hown hasked.mapped) ?_ ?_)
  · intro rseq hanswer
    rw [hk.tells] at hanswer
    have hnothing : ∀ r ∈ ([] : List Region), r.Whole page := List.forall_mem_nil _
    dsimp only
    split
    · refine Tracing.passes_bind.2 ?_
      refine (i.passes_dropRseq hk hstub rseq (hasked.mapped ▸ hown)).mono ?_
      intro outcome k' hdropped
      cases outcome with
      | error errno => trivial
      | ok value =>
        exact ⟨(hdropped value rfl).trans hasked.mapped, hnothing, hempty rseq hanswer⟩
    · exact ⟨hasked.mapped, hnothing, hempty rseq hanswer⟩
  · intro errno hanswer
    rw [hk.tells] at hanswer
    have hread := hk.quiet (.readRegisters i.pid) (kernel (.readRseq i.pid) k).2 (.inl rfl)
    refine Tracing.passes_bind.2 (Tracing.passes_readRegisters ?_ ?_)
    · exact .of_subset hown (hread.mapped.trans hasked.mapped)
    intro registers hregisters
    obtain rfl := hk.reads _ registers hregisters
    rw [hasked.registers]
    rcases regionAround_spec hmaps hpaged (v.registers k).fsBase with ⟨hwhole, haround⟩
    refine ⟨hread.mapped.trans hasked.mapped, hwhole, ?_⟩
    simp [haround, View.spared, hanswer]

/-- Unmapping gaps removes their addresses and keeps all that lie in none of them. -/
theorem passes_unmapAll (hk : v.Hosts kernel i.pid i.stub page)
    (hstub : (⟨i.stub, stubLen⟩ : Region).addresses ⊆ own) {gaps : List Region}
    (hwhole : ∀ g ∈ gaps, g.Whole page)
    (hinside : ∀ g ∈ gaps, 0 < g.len.toNat ∧ g.start.toNat + g.len.toNat ≤ taskSize.toNat)
    (hapart : ∀ g ∈ gaps, ∀ a ∈ own, g.contains a = false) (hown : own ⊆ v.mapped k) :
    Tracing.Passes kernel closing (v.Keeps own)
      (fun _ k' => ∀ a, a ∈ v.mapped k' ↔ a ∈ v.mapped k ∧ ∀ g ∈ gaps, g.contains a = false)
      (unmapAll i gaps) k := by
  induction gaps generalizing k with
  | nil =>
    change ∀ a, a ∈ v.mapped k ↔ _
    simp
  | cons gap rest ih =>
    rw [List.forall_mem_cons] at hwhole hinside hapart
    refine Tracing.passes_bind.2 ?_
    refine (i.passes_unmap hk hstub hwhole.1 hinside.1.1 hinside.1.2 hown hapart.1).mono ?_
    intro outcome k' hunmapped
    cases outcome with
    | error errno => trivial
    | ok value =>
      have hmapped : ∀ a, a ∈ v.mapped k' ↔ a ∈ v.mapped k ∧ gap.contains a = false := by
        intro a
        rw [hunmapped value rfl]
        simp [Region.addresses]
      have hstill : own ⊆ v.mapped k' := fun a ha => (hmapped a).2 ⟨hown ha, hapart.1 a ha⟩
      refine (ih hwhole.2 hinside.2 hapart.2 hstill).mono ?_
      intro _ k'' hrest a
      rw [hrest a, hmapped a, List.forall_mem_cons, and_assoc]

/-- Unmapping the gaps between mapped regions leaves the regions. -/
theorem passes_unmapGaps (hk : v.Hosts kernel i.pid i.stub page) {rs : List Region}
    (hstub : (⟨i.stub, stubLen⟩ : Region).addresses ⊆ covered rs) (hwhole : ∀ r ∈ rs, r.Whole page)
    (hlimit : taskSize.toNat % page.toNat = 0) (hmapped : covered rs ⊆ v.mapped k) :
    Tracing.Passes kernel closing (v.Keeps (covered rs)) (fun _ => v.HasExactly (covered rs))
      (do
        let gaps ← Tracing.ofChecked (Region.gaps rs taskSize)
        unmapAll i gaps) k := by
  have hpos : 0 < taskSize.toNat := by decide
  rcases Region.gaps_complement rs hpos with ⟨gaps, hgaps, hcomplement⟩
  have hapart : ∀ g ∈ gaps, ∀ a ∈ covered rs, g.contains a = false := by
    intro g hg a ha
    rcases ha with ⟨r, hr, ha⟩
    exact hcomplement.apart hr ha g hg
  rw [hgaps]
  refine (passes_unmapAll hk hstub (hcomplement.whole (Nat.zero_mod _) hlimit hwhole)
    (fun g hg => (hcomplement.inside g hg).2) hapart hmapped).mono ?_
  intro _ k' hleft a ha
  calc
    a ∈ v.mapped k' ↔ a ∈ v.mapped k ∧ ∀ g ∈ gaps, g.contains a = false := hleft a
    _ ↔ a ∈ v.mapped k ∧ a ∈ covered rs :=
      and_congr_right fun _ => hcomplement.forall_contains_eq_false_iff (Nat.zero_le _) ha
    _ ↔ a ∈ covered rs := and_iff_right_of_imp fun h => hmapped h

theorem passes_removeInherited {pid : Pid} {stub : Addr} (patience : Nat)
    (hk : v.Hosts kernel pid stub page) (hhoused : s.layout.Housed stub page)
    (hlimit : taskSize.toNat % page.toNat = 0) (hpaged : v.Paged page k)
    (hown : covered s.ownRegions ⊆ v.mapped k) :
    Tracing.Passes kernel closing (v.Keeps (covered s.ownRegions))
      (fun _ => v.HasExactly (covered s.ownRegions ∪ v.spared k)) (s.removeInherited pid patience) k := by
  have hstub : (⟨stub, stubLen⟩ : Region).addresses ⊆ covered s.ownRegions := by
    intro a ha
    exact ⟨s.layout.codeRegion, List.mem_cons_self, hhoused.stubWithin.addresses_subset ha⟩
  have hlisted := hk.quiet (.readMaps pid) k (.inr (.inr rfl))
  refine Tracing.passes_bind.2 (Tracing.passes_readMaps (.of_subset hown hlisted.mapped) ?_)
  intro text htext
  rcases hk.lists k text htext with ⟨rows, hrows, rfl, hwindows⟩
  rw [Maps.entries_listing hrows]
  have hmaps : (rows.map Maps.Row.entry).map MapEntry.window = v.mappings (kernel (.readMaps pid) k).2 := by
    rw [hlisted.mappings, ← hwindows, List.map_map]
    rfl
  have hinjector : s.injector pid patience = pure { pid, stub, patience } := by
    unfold injector
    rw [hhoused.stubAt]
    rfl
  refine Tracing.passes_bind.2 ?_
  rw [hinjector, Tracing.passes_pure]
  refine Tracing.passes_bind.2 ?_
  refine (passes_dropRseq hk hstub (hlisted.mapped ▸ hown) hmaps (hlisted.paged hpaged)).mono ?_
  intro kept k' hkept
  rcases hkept with ⟨hmapped, hwhole, hcovered⟩
  -- from here on the regions of the sandbox and the spared mapping are treated alike
  have hregions : covered (s.ownRegions ++ kept) = covered s.ownRegions ∪ v.spared k := by
    rw [covered_append, hcovered, hlisted.spared]
  have hmapped : covered (s.ownRegions ++ kept) ⊆ v.mapped k' := by
    rw [hregions, hmapped, hlisted.mapped]
    exact Set.union_subset hown (v.spared_subset k)
  rw [← hregions]
  refine (passes_unmapGaps hk (hstub.trans covered_subset_append)
    (List.forall_mem_append.2 ⟨hhoused.whole, hwhole⟩) hlimit hmapped).weaken ?_ fun _ _ h => h
  intro k'' hkeeps
  exact covered_subset_append.trans hkeeps

/-- Taking a process down when a program halts adds nothing to what the program passes through, if what
taking it down passes through is not claimed. -/
theorem passes_orRelease {α : Type} {inv : σ → Prop} {good : α → σ → Prop} {program : Tracing α}
    (patience : Nat) (h : Tracing.Passes kernel closing inv good program k)
    (hrelease : ∀ k, (s.custody.release patience).Passes kernel closing inv (fun _ _ => True) k) :
    Tracing.Passes kernel closing inv good (s.orRelease patience program) k := by
  refine Tracing.passes_bind.2 ((Tracing.passes_lift _).2 (Dialogue.Passes.mono h (fun _ h => h) ?_))
  intro result k hresult
  cases result with
  | ok a => exact hresult
  | error halt =>
    refine Tracing.passes_bind.2 ((Tracing.passes_lift _).2 ?_)
    exact (hrelease k).mono (fun _ h => h) fun _ _ _ => trivial

/-- Giving custody up kills the process first. -/
theorem passes_release {pid : Pid} {inv : σ → Prop} {c : Custody} (hheld : c.pid = some pid)
    (hclosing : closing (.kill pid)) (patience : Nat) :
    (c.release patience).Passes kernel closing inv (fun _ _ => True) k := by
  have hsome : c.pid.isSome = true := by rw [hheld]; rfl
  unfold Custody.release Custody.teardown
  rw [if_pos hsome, hheld]
  exact .inl hclosing

theorem passes_scrub {pid : Pid} {inv : σ → Prop} {good : Sandbox .scrubbed → σ → Prop} (patience : Nat)
    (hheld : s.custody.pid = some pid)
    (h : Tracing.Passes kernel closing inv (fun _ => good (s.entering .scrubbed))
      (s.removeInherited pid patience) k)
    (hrelease : ∀ k, (s.custody.release patience).Passes kernel closing inv (fun _ _ => True) k) :
    Tracing.Passes kernel closing inv good (s.scrub true patience) k := by
  have hprocess : s.process = pure pid := by
    unfold process
    rw [hheld]
  unfold scrub
  rw [if_pos rfl, hprocess]
  exact Tracing.passes_bind.2 (Tracing.passes_bind.2 (passes_orRelease patience h hrelease))

/-- On a kernel that hosts the process, scrubbing leaves exactly what the sandbox needs: behind every call
its regions are mapped, unless scrubbing failed and killed the process, and once it succeeded nothing else
is mapped that a process can address, except for what the kernel makes it spare. -/
theorem scrub_leaves_own {pid : Pid} {stub : Addr} (patience : Nat) (hk : v.Hosts kernel pid stub page)
    (hheld : s.custody.pid = some pid) (hhoused : s.layout.Housed stub page)
    (hlimit : taskSize.toNat % page.toNat = 0) (hpaged : v.Paged page k)
    (hown : covered s.ownRegions ⊆ v.mapped k) :
    let scrubbing := (s.scrub true patience).run
    (∀ n, (∀ x ∈ (scrubbing.transcript kernel k).take n, x.call ≠ .kill pid) →
      covered s.ownRegions ⊆ v.mapped (scrubbing.stateAfter kernel k n)) ∧
    ∀ scrubbed, (scrubbing.run kernel k).1 = .ok scrubbed →
      v.HasExactly (covered s.ownRegions ∪ v.spared k) (scrubbing.run kernel k).2 := by
  intro scrubbing
  have hremoves : ∀ closing, Tracing.Passes kernel closing (v.Keeps (covered s.ownRegions))
      (fun _ => v.HasExactly (covered s.ownRegions ∪ v.spared k)) (s.removeInherited pid patience) k := by
    intro closing
    exact passes_removeInherited patience hk hhoused hlimit hpaged hown
  constructor
  · intro n hopen
    have hpasses : Tracing.Passes kernel (fun c => c = .kill pid) (v.Keeps (covered s.ownRegions))
        (fun _ _ => True) (s.scrub true patience) k := by
      apply passes_scrub patience hheld
      · exact (hremoves _).mono fun _ _ _ => trivial
      · intro k
        refine passes_release hheld ?_ patience
        rfl
    exact Dialogue.Passes.stateAfter hpasses hown n hopen
  · intro scrubbed hscrubbed
    have hpasses : Tracing.Passes kernel (fun _ => False) (fun _ => True)
        (fun _ => v.HasExactly (covered s.ownRegions ∪ v.spared k)) (s.scrub true patience) k := by
      apply passes_scrub patience hheld
      · exact (hremoves _).weaken (fun _ _ => trivial) fun _ _ h => h
      · intro k
        exact Dialogue.passes_trivial _
    have hend := Dialogue.Passes.of_run hpasses
    rw [hscrubbed] at hend
    exact hend

/-- A sandbox with its guarded region below its code. -/
def inverted : Sandbox .stopped where
  custody := .of 7
  layout :=
    { codeLocation := 0x14000, codeLen := 5, codeRegion := ⟨0x14000, 0x1000⟩,
      guardRegion := ⟨0x10000, 0x1000⟩, blockSize := 0x1000 }

/-- Its process, with inherited memory between the regions and right behind the guarded one, a thread's
control block, a stack, and a page that no process can address; the kernel does not know the request for
restartable sequences. -/
def crowded : Still where
  windows :=
    [⟨0x10000, 0x11000⟩, ⟨0x11000, 0x12000⟩, ⟨0x13000, 0x14000⟩, ⟨0x14000, 0x15000⟩,
      ⟨0x7f0000000000, 0x7f0000002000⟩, ⟨0x7ffffffde000, 0x7ffffffff000⟩,
      ⟨0xffffffffff600000, 0xffffffffff601000⟩]
  registers := { (default : Registers) with fsBase := 0x7f0000000740 }
  rseq := .error .invalidArgument

theorem scrub_leaves_own_of_crowded :
    ((inverted.scrub true 2).run.run (Still.answer 0x14006) crowded).1 = .ok (inverted.entering .scrubbed) ∧
      Still.view.HasExactly (covered inverted.ownRegions ∪ Still.view.spared crowded)
        ((inverted.scrub true 2).run.run (Still.answer 0x14006) crowded).2 ∧
      ∀ n, (∀ x ∈ ((inverted.scrub true 2).run.transcript (Still.answer 0x14006) crowded).take n,
          x.call ≠ .kill 7) →
        covered inverted.ownRegions ⊆
          Still.view.mapped ((inverted.scrub true 2).run.stateAfter (Still.answer 0x14006) crowded n) := by
  have hhoused : inverted.layout.Housed 0x14006 0x1000 :=
    ⟨rfl, ⟨by decide, by decide, by decide⟩, ⟨by decide, by decide, by decide⟩,
      ⟨by decide, by decide, by decide⟩⟩
  have hpaged : Still.view.Paged 0x1000 crowded :=
    ⟨by decide, View.apart_of_ordered (by decide)⟩
  have hown : covered inverted.ownRegions ⊆ Still.view.mapped crowded := by
    intro a ha
    rcases ha with ⟨r, hr, ha⟩
    rcases List.mem_cons.1 hr with rfl | hr
    · exact ⟨⟨0x14000, 0x15000⟩, by decide, ha⟩
    · obtain rfl := List.mem_singleton.1 hr
      exact ⟨⟨0x10000, 0x11000⟩, by decide, ha⟩
  have hleaves := scrub_leaves_own 2 (Still.hosts 7 0x14006 0x1000) rfl hhoused (by decide) hpaged hown
  have htold : ∀ errno, crowded.rseq = .error errno → errno ∈ Tracing.rseqUnknown := by
    intro errno h
    obtain rfl := Except.error.inj h
    decide
  have hheld : inverted.custody.pid = some 7 := rfl
  have hscrubbed := Still.run_scrub hheld hhoused.stubAt (by decide) htold (by decide : 0 < 2)
  exact ⟨hscrubbed, hleaves.2 _ hscrubbed, hleaves.1⟩

end Sandbox

end Footprint
