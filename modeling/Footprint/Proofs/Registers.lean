import Mathlib.Data.List.Induction
import Footprint.Proofs.Priming
import Footprint.Registers

/-!
# The register file that a block starts in

Priming writes the sixteen general-purpose registers by their position, one after the other, and then five
registers more. No register stands at two positions (`atIndex_inj`), so that no write undoes another one
(`get_fill`), and between them the positions are all of the registers (`generals_eq`). With the segment
selectors, which stay, that determines the whole file: what a block starts with says nothing else about the
registers that the process had before (`prime_hides_registers`).
-/

namespace Footprint

/-! ## Positions and registers -/

namespace Gpr

/-- No register stands at two positions. -/
theorem atIndex_inj : ∀ i < 16, ∀ j < 16, atIndex i = atIndex j → i = j := by
  decide

end Gpr

namespace Registers

variable {r s : Registers} {priming : Priming} {entry : Addr}

/-! ## Reading and writing by name -/

@[simp]
theorem get_set (r : Registers) (g h : Gpr) (v : UInt64) :
    (r.set g v).get h = if h = g then v else r.get h := by
  cases g
  all_goals cases h
  all_goals rfl

/-- The registers that hold segments. -/
structure Selectors where
  cs : UInt64
  ss : UInt64
  ds : UInt64
  es : UInt64
  fs : UInt64
  gs : UInt64
deriving DecidableEq

def selectors (r : Registers) : Selectors :=
  ⟨r.cs, r.ss, r.ds, r.es, r.fs, r.gs⟩

@[simp]
theorem selectors_set (r : Registers) (g : Gpr) (v : UInt64) : (r.set g v).selectors = r.selectors := by
  cases g
  all_goals rfl

/-- The general-purpose registers in priming order. -/
def generals (r : Registers) : List UInt64 :=
  [r.rax, r.rbx, r.rcx, r.rdx, r.rsi, r.rdi, r.rbp, r.rsp,
    r.r8, r.r9, r.r10, r.r11, r.r12, r.r13, r.r14, r.r15]

/-- Reading by position goes through the general-purpose registers in priming order. -/
theorem generals_eq (r : Registers) : r.generals = (List.range 16).map fun i => r.get (Gpr.atIndex i) := rfl

/-! ## Filling registers by position -/

/-- Writes the registers at some positions, each with the value for its position. -/
def fill (r : Registers) (value : Nat → UInt64) (positions : List Nat) : Registers :=
  positions.foldl (fun r i => r.set (Gpr.atIndex i) (value i)) r

theorem fill_concat (r : Registers) (value : Nat → UInt64) (positions : List Nat) (i : Nat) :
    r.fill value (positions ++ [i]) = (r.fill value positions).set (Gpr.atIndex i) (value i) := by
  simp [fill]

theorem selectors_fill (r : Registers) (value : Nat → UInt64) (positions : List Nat) :
    (r.fill value positions).selectors = r.selectors := by
  induction positions using List.reverseRecOn with
  | nil => rfl
  | append_singleton positions i ih => rw [fill_concat, selectors_set, ih]

/-- A register that was written keeps its value, because no other position is that register. -/
theorem get_fill (r : Registers) (value : Nat → UInt64) {positions : List Nat}
    (hbound : ∀ j ∈ positions, j < 16) {i : Nat} (hi : i ∈ positions) :
    (r.fill value positions).get (Gpr.atIndex i) = value i := by
  induction positions using List.reverseRecOn with
  | nil => simp at hi
  | append_singleton positions j ih =>
    rw [fill_concat, get_set]
    by_cases hsame : Gpr.atIndex i = Gpr.atIndex j
    · rw [if_pos hsame, Gpr.atIndex_inj i (hbound i hi) j (hbound j (by simp)) hsame]
    · have hne : i ≠ j := fun h => hsame (congrArg Gpr.atIndex h)
      have hearlier : i ∈ positions := by simpa [hne] using hi
      rw [if_neg hsame, ih (fun k hk => hbound k (by simp [hk])) hearlier]

/-! ## Priming -/

/-- Priming fills the general-purpose registers and writes five more. -/
theorem prime_eq_fill (r : Registers) (priming : Priming) (entry : Addr) :
    r.prime priming entry =
      { r.fill priming.valueAt (List.range 16) with
        fsBase := priming.base, gsBase := priming.base, rip := entry, eflags := primedFlags,
        origRax := noSystemCall } := rfl

/-- The registers that priming writes besides are no general-purpose ones. -/
theorem get_of_specials (r : Registers) (fsBase gsBase rip eflags origRax : UInt64) (g : Gpr) :
    { r with fsBase, gsBase, rip, eflags, origRax }.get g = r.get g := by
  cases g
  all_goals rfl

theorem get_prime (r : Registers) (priming : Priming) (entry : Addr) {i : Nat} (hi : i < 16) :
    (r.prime priming entry).get (Gpr.atIndex i) = priming.valueAt i := by
  rw [prime_eq_fill, get_of_specials, get_fill r _ (fun _ => List.mem_range.1) (List.mem_range.2 hi)]

theorem generals_prime (r : Registers) (priming : Priming) (entry : Addr) :
    (r.prime priming entry).generals = (List.range 16).map priming.valueAt := by
  rw [generals_eq]
  exact List.map_congr_left fun i hi => get_prime r priming entry (List.mem_range.1 hi)

/-- How a register file stands to the one that it was primed from. -/
structure Primes (priming : Priming) (entry : Addr) (before after : Registers) : Prop where
  uniform : ∀ value, priming = .uniform value → after.generals = List.replicate 16 value
  distinct : ∀ base stride, priming = .distinct base stride →
    after.generals.map UInt64.toNat =
      (List.range 16).map fun i => (base.toNat + i * stride.toNat) % 2 ^ 64
  fsBase : after.fsBase = priming.base
  gsBase : after.gsBase = priming.base
  rip : after.rip = entry
  eflags : after.eflags = 0x202
  origRax : after.origRax.toNat = 2 ^ 64 - 1
  selectors : after.selectors = before.selectors

theorem primes_prime (r : Registers) (priming : Priming) (entry : Addr) :
    Primes priming entry r (r.prime priming entry) where
  uniform := by
    rintro value rfl
    rw [generals_prime]
    rfl
  distinct := by
    rintro base stride rfl
    rw [generals_prime, List.map_map]
    exact List.map_congr_left fun i _ => Priming.toNat_valueAt _ i
  fsBase := rfl
  gsBase := rfl
  rip := rfl
  eflags := rfl
  origRax := rfl
  selectors := selectors_fill r priming.valueAt (List.range 16)

/-- A register file is its general-purpose registers, its selectors and five registers more. -/
theorem eq_of_generals_eq (hgenerals : r.generals = s.generals) (hselectors : r.selectors = s.selectors)
    (hfsBase : r.fsBase = s.fsBase) (hgsBase : r.gsBase = s.gsBase) (hrip : r.rip = s.rip)
    (heflags : r.eflags = s.eflags) (horigRax : r.origRax = s.origRax) : r = s := by
  cases r
  cases s
  simp only [generals, selectors, List.cons.injEq, Selectors.mk.injEq] at *
  simp only [hgenerals, hselectors, hfsBase, hgsBase, hrip, heflags, horigRax]

/-- What priming says of a register file leaves no choice but for the selectors. -/
theorem Primes.eq {after after' : Registers} (h : Primes priming entry r after)
    (h' : Primes priming entry s after') (hselectors : r.selectors = s.selectors) : after = after' := by
  have hgenerals : after.generals = after'.generals := by
    cases priming with
    | uniform value => rw [h.uniform value rfl, h'.uniform value rfl]
    | distinct base stride =>
      have hsame := (h.distinct base stride rfl).trans (h'.distinct base stride rfl).symm
      exact (List.map_inj_right fun _ _ => UInt64.toNat_inj.1).1 hsame
  refine eq_of_generals_eq hgenerals ?_ ?_ ?_ ?_ ?_ ?_
  · rw [h.selectors, h'.selectors, hselectors]
  · rw [h.fsBase, h'.fsBase]
  · rw [h.gsBase, h'.gsBase]
  · rw [h.rip, h'.rip]
  · rw [h.eflags, h'.eflags]
  · exact UInt64.toNat_inj.1 (h.origRax.trans h'.origRax.symm)

/-- Priming fills every general-purpose register with the value for its position, and what comes of it
depends on nothing but the segment selectors of the file before. To prime once more changes nothing. -/
theorem prime_hides_registers (priming : Priming) (entry : Addr) :
    (∀ r, Primes priming entry r (r.prime priming entry)) ∧
    (∀ r s : Registers, r.prime priming entry = s.prime priming entry ↔ r.selectors = s.selectors) ∧
    ∀ r : Registers, (r.prime priming entry).prime priming entry = r.prime priming entry := by
  refine ⟨fun r => primes_prime r priming entry, fun r s => ⟨fun h => ?_, fun h => ?_⟩, fun r => ?_⟩
  · rw [← (primes_prime r priming entry).selectors, h, (primes_prime s priming entry).selectors]
  · exact (primes_prime r priming entry).eq (primes_prime s priming entry) h
  · have hselectors := (primes_prime r priming entry).selectors
    exact (primes_prime _ priming entry).eq (primes_prime r priming entry) hselectors

end Registers

end Footprint
