import Mathlib.Data.Set.Basic
import Footprint.Injection
import Footprint.Proofs.Maps
import Footprint.Proofs.Region
import Footprint.Proofs.Tracing.Passage

/-!
# Kernels that a sandbox runs on

What a tracer relies on when it runs system calls in a stopped process, as laws of the kernel. A `View`
says what the kernel's state holds about the process: its mappings, its registers and what the kernel can
tell of its restartable sequences. `View.Hosts` says how requests change that. In particular a process
that is resumed at its stub, while the stub is mapped, runs the system call that its registers name, and
unmapping removes exactly the range given.
-/

namespace Footprint

namespace Region

def addresses (r : Region) : Set Addr :=
  {a | r.contains a = true}

end Region

namespace MapEntry

def window (e : MapEntry) : Window :=
  ⟨e.start, e.stop⟩

end MapEntry

open Kernel

variable {σ : Type}

/-- What a state of the kernel holds about the process. -/
structure View (σ : Type) where
  mappings : σ → List Window
  registers : σ → Registers
  rseq : σ → Except Errno Rseq

/-- The states in which a process that was resumed may be found, as often as one waits for it. -/
inductive Awaited (kernel : (c : Call) → σ → Answer c × σ) (pid : Pid) (k : σ) : σ → Prop where
  | resumed : Awaited kernel pid k (kernel (.resume pid .freely) k).2
  | waited {k' : σ} : Awaited kernel pid k k' → Awaited kernel pid k (kernel (.wait pid) k').2

/-- The requests that only ask for something. -/
def isQuestion (pid : Pid) (c : Call) : Prop :=
  c = .readRegisters pid ∨ c = .readRseq pid ∨ c = .readMaps pid

namespace View

variable (v : View σ)

def mapped (k : σ) : Set Addr :=
  {a | ∃ w ∈ v.mappings k, w.contains a = true}

/-- Two states in which the process is the same. -/
structure Same (k k' : σ) : Prop where
  mappings : v.mappings k' = v.mappings k
  registers : v.registers k' = v.registers k
  rseq : v.rseq k' = v.rseq k

/-- The process stands before its stub, and the stub is there. -/
structure AtStub (stub : Addr) (k : σ) : Prop where
  rip : (v.registers k).rip = stub
  there : (⟨stub, stubLen⟩ : Region).addresses ⊆ v.mapped k

/-- The stub ran to its breakpoint, and the system call was granted. -/
structure Granted (stub : Addr) (k : σ) : Prop where
  rip : (v.registers k).rip = stub + stubLen
  outcome : ∃ value, SystemCall.outcome (v.registers k).rax = .ok value

/-- The range that an unmapping is about, by its registers. -/
def range (k : σ) : Region :=
  ⟨(v.registers k).rdi, (v.registers k).rsi⟩

/-- A kernel with pages of a size, as far as the process is concerned. -/
structure Hosts (kernel : (c : Call) → σ → Answer c × σ) (pid : Pid) (stub page : Addr) : Prop where
  quiet : ∀ c k, isQuestion pid c → v.Same k (kernel c k).2
  reads : ∀ k registers, (kernel (.readRegisters pid) k).1 = .ok registers → registers = v.registers k
  tells : ∀ k, (kernel (.readRseq pid) k).1 = v.rseq k
  lists : ∀ k text, (kernel (.readMaps pid) k).1 = .ok text →
    ∃ rows, (∀ r ∈ rows, Maps.Row.WellFormed r) ∧ text = Maps.listing rows ∧
      rows.map (fun r => r.entry.window) = v.mappings k
  writesOnly : ∀ k registers, v.mappings (kernel (.writeRegisters pid registers) k).2 = v.mappings k
  writes : ∀ k registers, (kernel (.writeRegisters pid registers) k).1 = .ok () →
    v.registers (kernel (.writeRegisters pid registers) k).2 = registers
  -- Unmapping whole pages removes them all, or nothing as long as it was not granted.
  unmaps : ∀ k k', v.AtStub stub k → (v.registers k).rax = SystemCall.unmap →
    (v.range k).Whole page → 0 < (v.range k).len.toNat →
    (v.range k).start.toNat + (v.range k).len.toNat ≤ taskSize.toNat → Awaited kernel pid k k' →
    v.mapped k' = v.mapped k \ (v.range k).addresses ∨
      v.mapped k' = v.mapped k ∧ ¬ v.Granted stub k'
  unregisters : ∀ k k', v.AtStub stub k → (v.registers k).rax = SystemCall.rseq →
    Awaited kernel pid k k' → v.mapped k' = v.mapped k

/-- The addresses are still mapped. -/
def Keeps (own : Set Addr) (k : σ) : Prop :=
  own ⊆ v.mapped k

variable {v}

theorem mapped_eq_of_mappings {k k' : σ} (h : v.mappings k' = v.mappings k) : v.mapped k' = v.mapped k := by
  unfold mapped
  rw [h]

theorem Same.mapped {k k' : σ} (h : v.Same k k') : v.mapped k' = v.mapped k :=
  mapped_eq_of_mappings h.mappings

theorem Keeps.of_subset {own m : Set Addr} {k : σ} (h : own ⊆ m) (hmapped : v.mapped k = m) :
    v.Keeps own k := by
  unfold Keeps
  rw [hmapped]
  exact h

end View

/-! ## System calls in the process -/

namespace Injector

variable {kernel : (c : Call) → σ → Answer c × σ} {closing : Call → Prop} {v : View σ} {i : Injector}
  {page : Addr} {own before after : Set Addr} {k : σ}

/-- What running the stub with some registers does to the mappings: they are `after` what they were
`before`, unless the call was not granted. -/
def Does (v : View σ) (kernel : (c : Call) → σ → Answer c × σ) (i : Injector) (call : Registers → Prop)
    (before after : Set Addr) : Prop :=
  ∀ k k', v.AtStub i.stub k → call (v.registers k) → v.mapped k = before → Awaited kernel i.pid k k' →
    v.mapped k' = after ∨ v.mapped k' = before ∧ ¬ v.Granted i.stub k'

theorem passes_awaitStub (hk : v.Hosts kernel i.pid i.stub page) {number : UInt64}
    (hruns : ∀ k', Awaited kernel i.pid k k' →
      v.mapped k' = after ∨ v.mapped k' = before ∧ ¬ v.Granted i.stub k')
    (hbefore : own ⊆ before) (hafter : own ⊆ after) :
    Tracing.Passes kernel closing (v.Keeps own)
      (fun registers k' => v.mapped k' = after ∨
        v.mapped k' = before ∧ ∀ value, SystemCall.outcome registers.rax ≠ .ok value)
      (i.awaitStub number) (kernel (.resume i.pid .freely) k).2 := by
  have hkeeps : ∀ k', Awaited kernel i.pid k k' → v.Keeps own k' := by
    intro k' hawaited
    rcases hruns k' hawaited with hmapped | ⟨hmapped, -⟩
    · exact .of_subset hafter hmapped
    · exact .of_subset hbefore hmapped
  have hresumed : Awaited kernel i.pid k (kernel (.resume i.pid .freely) k).2 := .resumed
  refine Tracing.passes_bind.2 (Tracing.passes_wait ?_ ?_ i.patience hresumed)
  · intro k' hawaited
    exact ⟨hkeeps _ hawaited.waited, hawaited.waited⟩
  intro status k' hawaited
  have hsame := hk.quiet (.readRegisters i.pid) k' (.inl rfl)
  cases status with
  | stopped _ signal =>
    cases signal with
    | trap =>
      -- a breakpoint, which is the stub's if the program counter is behind it
      refine Tracing.passes_bind.2 (Tracing.passes_readRegisters ?_ ?_)
      · exact .of_subset (hkeeps k' hawaited) hsame.mapped
      intro registers hregisters
      obtain rfl := hk.reads k' registers hregisters
      refine Tracing.passes_bind.2 (Tracing.passes_ofChecked ?_)
      intro expected hexpected
      split
      next hrip =>
        change v.mapped _ = after ∨ v.mapped _ = before ∧ _
        rw [hsame.mapped]
        refine (hruns k' hawaited).imp_right fun hrefused => ⟨hrefused.1, ?_⟩
        intro value hvalue
        exact hrefused.2 ⟨hrip.trans (Addr.eq_add_of_add_eq_ok hexpected), value, hvalue⟩
      next => trivial
    | _ => trivial
  | _ => trivial

/-- A system call in the process leaves the mappings as they were or as the call makes them, the latter
where it was granted. -/
theorem passes_invoke (hk : v.Hosts kernel i.pid i.stub page) {number : UInt64}
    {args : Registers.Arguments} (hstub : (⟨i.stub, stubLen⟩ : Region).addresses ⊆ own)
    (hdoes : Does v kernel i (fun call => ∃ saved : Registers, call = saved.forSystemCall i.stub number args)
      (v.mapped k) after)
    (hbefore : own ⊆ v.mapped k) (hafter : own ⊆ after) :
    Tracing.Passes kernel closing (v.Keeps own)
      (fun outcome k' => ∀ value, outcome = .ok value → v.mapped k' = after) (i.invoke number args) k := by
  have hsame := hk.quiet (.readRegisters i.pid) k (.inl rfl)
  refine Tracing.passes_bind.2 (Tracing.passes_readRegisters ?_ ?_)
  · exact .of_subset hbefore hsame.mapped
  intro saved _
  set k₁ := (kernel (.readRegisters i.pid) k).2
  have hwritten := View.mapped_eq_of_mappings (hk.writesOnly k₁ (saved.forSystemCall i.stub number args))
  refine Tracing.passes_bind.2 (Tracing.passes_writeRegisters ?_ ?_)
  · exact .of_subset hbefore (hwritten.trans hsame.mapped)
  intro hok
  have hcall := hk.writes k₁ _ hok
  set k₂ := (kernel (.writeRegisters i.pid (saved.forSystemCall i.stub number args)) k₁).2
  have hmapped : v.mapped k₂ = v.mapped k := hwritten.trans hsame.mapped
  have hatStub : v.AtStub i.stub k₂ := ⟨by rw [hcall]; rfl, hmapped ▸ hstub.trans hbefore⟩
  have hruns := fun k' => hdoes k₂ k' hatStub ⟨saved, hcall⟩ hmapped
  refine Tracing.passes_bind.2 (Tracing.passes_resume ?_ ?_)
  · rcases hruns _ .resumed with hmapped | ⟨hmapped, -⟩
    · exact .of_subset hafter hmapped
    · exact .of_subset hbefore hmapped
  intro _
  refine Tracing.passes_bind.2 ((passes_awaitStub hk hruns hbefore hafter).mono ?_)
  intro registers k' hran
  have hrestored := View.mapped_eq_of_mappings (hk.writesOnly k' saved)
  refine Tracing.passes_bind.2 (Tracing.passes_writeRegisters ?_ ?_)
  · rcases hran with hmapped | ⟨hmapped, -⟩
    · exact .of_subset hafter (hrestored.trans hmapped)
    · exact .of_subset hbefore (hrestored.trans hmapped)
  intro _ value hvalue
  rcases hran with hmapped | ⟨-, hrefused⟩
  · exact hrestored.trans hmapped
  · exact absurd hvalue (hrefused value)

theorem passes_unmap (hk : v.Hosts kernel i.pid i.stub page)
    (hstub : (⟨i.stub, stubLen⟩ : Region).addresses ⊆ own) {gap : Region} (hwhole : gap.Whole page)
    (hpos : 0 < gap.len.toNat) (hbelow : gap.start.toNat + gap.len.toNat ≤ taskSize.toNat)
    (hown : own ⊆ v.mapped k) (hapart : ∀ a ∈ own, gap.contains a = false) :
    Tracing.Passes kernel closing (v.Keeps own)
      (fun outcome k' => ∀ value, outcome = .ok value → v.mapped k' = v.mapped k \ gap.addresses)
      (i.unmap gap.start gap.len) k := by
  refine passes_invoke hk hstub ?_ hown ?_
  · intro k₁ k₂ hatStub hcall hmapped hawaited
    rcases hcall with ⟨saved, hcall⟩
    have hrange : v.range k₁ = gap := by
      unfold View.range
      rw [hcall]
      rfl
    have hunmaps := hk.unmaps k₁ k₂ hatStub (by rw [hcall]; rfl)
    rw [hrange, hmapped] at hunmaps
    exact hunmaps hwhole hpos hbelow hawaited
  · intro a ha
    exact ⟨hown ha, Bool.eq_false_iff.1 (hapart a ha)⟩

theorem passes_dropRseq (hk : v.Hosts kernel i.pid i.stub page)
    (hstub : (⟨i.stub, stubLen⟩ : Region).addresses ⊆ own) (rseq : Rseq) (hown : own ⊆ v.mapped k) :
    Tracing.Passes kernel closing (v.Keeps own)
      (fun outcome k' => ∀ value, outcome = .ok value → v.mapped k' = v.mapped k)
      (i.dropRseq rseq) k := by
  refine passes_invoke hk hstub ?_ hown hown
  intro k₁ k₂ hatStub hcall hmapped hawaited
  rcases hcall with ⟨saved, hcall⟩
  have hrax : (v.registers k₁).rax = SystemCall.rseq := by
    rw [hcall]
    rfl
  exact .inl ((hk.unregisters k₁ k₂ hatStub hrax hawaited).trans hmapped)

end Injector

end Footprint
