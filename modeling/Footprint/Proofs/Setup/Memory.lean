import Footprint.Proofs.Region
import Footprint.Proofs.Setup.Conduct

/-!
# The memory of a fresh process

Memory says of each address whether something is mapped there, what that permits and which byte it holds.
What a process asked and was granted changes it (`Memory.afterAll`); what a refused call leaves is not
followed up, since a process does not go on behind one. Once all steps of a plan succeeded, the code
region holds the image from its start on and may be executed and no longer written, the guarded region
permits nothing, and everything else is as it was before (`Plan.built_afterAll`).
-/

namespace Footprint

namespace Setup

/-- A byte that is mapped, and what may be done with it. -/
structure Cell where
  perms : Perms
  byte : UInt8
deriving DecidableEq, Repr, Inhabited

/-- What is mapped at each address. -/
abbrev Memory := Addr → Option Cell

namespace Memory

/-- Writes bytes from an address on, wherever something writable is mapped. -/
def write (m : Memory) (start : Addr) (bytes : Code) : Memory := fun a =>
  (m a).map fun cell =>
    if cell.perms.write && start ≤ a then { cell with byte := bytes.getD (a - start).toNat cell.byte }
    else cell

def permit (m : Memory) (region : Region) (perms : Perms) : Memory := fun a =>
  if region.contains a then (m a).map fun cell => { cell with perms } else m a

/-- The memory after a call was answered. -/
def after (m : Memory) : Exchange → Memory
  | ⟨.map _ len perms, .ok mapped⟩ => fun a =>
    if (Region.mk mapped len).contains a then some ⟨perms, 0⟩ else m a
  | ⟨.unmap start len, _⟩ => fun a => if (Region.mk start len).contains a then none else m a
  | ⟨.copy start image, _⟩ => m.write start image
  | ⟨.protect start len perms, .ok _⟩ => m.permit ⟨start, len⟩ perms
  | _ => m

def afterAll (m : Memory) (t : History) : Memory :=
  t.foldl after m

@[simp]
theorem afterAll_append (m : Memory) (t t' : History) :
    m.afterAll (t ++ t') = (m.afterAll t).afterAll t' :=
  List.foldl_append ..

/-- Closing descriptors leaves memory alone. -/
theorem afterAll_bodyOf (m : Memory) (t : History) : m.afterAll (bodyOf t) = m.afterAll t := by
  induction t generalizing m with
  | nil => rfl
  | cons x rest ih =>
    rcases x with ⟨c, reply⟩
    cases c with
    | closeRange range => exact ih m
    | close descriptor => exact ih m
    | _ => exact ih _

end Memory

namespace Plan

variable {plan : Plan} {m : Memory} {a : Addr}

def codeRegion (plan : Plan) : Region :=
  ⟨plan.codeLocation, plan.regionLen⟩

/-- Memory in which a plan was carried out. -/
structure Built (plan : Plan) (before after : Memory) : Prop where
  code : ∀ a, plan.codeRegion.contains a = true →
    after a = some ⟨.readExec, plan.image.getD (a - plan.codeLocation).toNat 0⟩
  image : ∀ i (h : i < plan.image.length),
    after (plan.codeLocation + UInt64.ofNat i) = some ⟨.readExec, plan.image[i]⟩
  guard : ∀ a, plan.guardRegion.contains a = true → after a = some ⟨.none, 0⟩
  rest : ∀ a, plan.codeRegion.contains a = false → plan.guardRegion.contains a = false →
    after a = before a

/-- What the steps of a plan leave at an address. -/
theorem afterAll_steps (m : Memory) (a : Addr) :
    m.afterAll plan.steps a =
      if plan.guardRegion.contains a then some ⟨.none, 0⟩
      else if plan.codeRegion.contains a then
        some ⟨.readExec, plan.image.getD (a - plan.codeLocation).toNat 0⟩
      else m.write plan.codeLocation plan.image a := by
  by_cases hcode : plan.codeRegion.contains a = true
  · have hstart : plan.codeLocation ≤ a := by
      rw [UInt64.le_iff_toNat_le]
      exact (Region.contains_iff_lt_stop.1 hcode).1
    unfold codeRegion at hcode
    simp [Memory.afterAll, steps, Memory.after, Memory.write, Memory.permit, codeRegion, hcode, hstart,
      Perms.readWrite]
  · unfold codeRegion at hcode
    simp [Memory.afterAll, steps, Memory.after, Memory.write, Memory.permit, codeRegion, hcode]

/-- Where the image fits into the code region, nothing outside is written. -/
theorem write_of_outside (hroom : plan.image.length ≤ plan.regionLen.toNat)
    (hfits : plan.codeLocation.toNat + plan.regionLen.toNat < UInt64.size)
    (ha : plan.codeRegion.contains a = false) : m.write plan.codeLocation plan.image a = m a := by
  have houtside : plan.codeLocation ≤ a → plan.image.length ≤ (a - plan.codeLocation).toNat := by
    intro hstart
    rw [UInt64.toNat_sub_of_le _ _ hstart]
    rw [UInt64.le_iff_toNat_le] at hstart
    by_contra hinside
    have hcontains : plan.codeRegion.contains a = true :=
      (Region.contains_iff hfits).2 ⟨hstart, by dsimp only [codeRegion]; omega⟩
    rw [ha] at hcontains
    cases hcontains
  unfold Memory.write
  cases m a with
  | none => rfl
  | some cell =>
    by_cases hstart : plan.codeLocation ≤ a
    · simp [List.getElem?_eq_none (houtside hstart)]
    · simp [hstart]

/-- All steps of a plan together carry it out. -/
theorem built_afterAll (hroom : plan.image.length ≤ plan.regionLen.toNat)
    (hfits : plan.codeLocation.toNat + plan.regionLen.toNat < UInt64.size)
    (hapart : plan.codeRegion.overlaps plan.guardRegion = false) :
    plan.Built m (m.afterAll plan.steps) := by
  have hcode : ∀ a, plan.codeRegion.contains a = true →
      m.afterAll plan.steps a =
        some ⟨.readExec, plan.image.getD (a - plan.codeLocation).toNat 0⟩ := by
    intro a ha
    have hguard : plan.guardRegion.contains a = false :=
      Region.contains_eq_false_of_apart (by rwa [Region.overlaps_comm]) ha
    rw [afterAll_steps, hguard, ha]
    rfl
  refine ⟨hcode, ?_, ?_, ?_⟩
  · intro i hi
    have hsize : i < UInt64.size := by omega
    have hoffset : (UInt64.ofNat i).toNat = i := UInt64.toNat_ofNat_of_lt' hsize
    have hplace : (plan.codeLocation + UInt64.ofNat i).toNat = plan.codeLocation.toNat + i := by
      rw [Addr.toNat_add_of_fits (by omega), hoffset]
    have hin : plan.codeRegion.contains (plan.codeLocation + UInt64.ofNat i) = true :=
      (Region.contains_iff hfits).2 (by dsimp only [codeRegion]; omega)
    rw [hcode _ hin, UInt64.add_comm, UInt64.add_sub_cancel, hoffset]
    simp [hi]
  · intro a ha
    rw [afterAll_steps, ha]
    rfl
  · intro a hcode hguard
    rw [afterAll_steps, hguard, hcode]
    exact write_of_outside hroom hfits hcode

end Plan

end Setup

end Footprint
