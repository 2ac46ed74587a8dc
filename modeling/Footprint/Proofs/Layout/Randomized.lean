import Footprint.Proofs.Layout.Fixed

/-!
# Layouts at random locations

Validation examines where the code lies only if its location is fixed. What keeps a random location safe
is the distance of the random range from the task size, and that is finite: a block is safe at every
location exactly if its image takes no more than this distance (`Layout.randomlyPlaced_iff`). A
configuration that accepts longer blocks is found valid all the same (`Layout.randomized_safe_iff`), and
the plan for a block as long as the address space has no value at all
(`Layout.plan_overflows_of_unboundedCode`).
-/

namespace Footprint

namespace Placement

variable {draw location : Addr}

theorem firstPage_of_page : firstPage 0x1000 * 0x1000 = randomRange.start.toNat := by decide

/-- With pages of 4096 bytes, every draw gives a location in the random range. -/
theorem exists_locate_of_page (draw : Addr) :
    ∃ location, randomized.locate 0x1000 draw = .ok location := by
  refine ⟨UInt64.ofNat ((firstPage 0x1000 + draw.toNat % pageCount 0x1000) * 0x1000),
    locate_randomized_eq_ok_iff.2 ⟨by decide, ?_⟩⟩
  have hpositive : 0 < pageCount 0x1000 := by decide
  have hpage := page_lt_stop (Nat.mod_lt draw.toNat hpositive)
  have hstop : randomRange.stop.toNat < 2 ^ 64 := UInt64.toNat_lt _
  exact UInt64.toNat_ofNat_of_lt (Nat.lt_trans hpage hstop)

/-- No location is as close to the task size as the last page of the random range. -/
theorem locate_le_last (h : randomized.locate 0x1000 draw = .ok location) :
    location.toNat ≤ 0x3ffffffff000 := by
  rcases page_of_locate h with ⟨_, hbelow, haligned⟩
  have hstop : randomRange.stop.toNat = 0x400000000000 := rfl
  change location.toNat % 0x1000 = 0 at haligned
  omega

theorem exists_draw_last : ∃ draw, randomized.locate 0x1000 draw = .ok 0x3ffffffff000 :=
  exists_draw (i := 0x2ffffffff) (by decide) (by decide)

end Placement

namespace Layout

/-- A code region at a page of the random range that ends below the task size. -/
structure RandomlyPlaced (l : Layout) (host : Host) : Prop where
  aligned : l.codeRegion.start.toNat % host.pageSize.toNat = 0
  inRange : Placement.randomRange.contains l.codeRegion.start = true
  below : l.codeRegion.start.toNat + l.codeRegion.len.toNat ≤ taskSize.toNat

variable {l : Layout} {codeLen draw location : Addr} {config : Config} {host : Host} {findings : Findings}

/-- The code region of a plan ends where the image ends, rounded up to a page. -/
theorem CodePages.len_le_iff {n : Nat} (h : CodePages host.pageSize l)
    (himage : l.codeLen.toNat + 4 ≤ l.codeRegion.len.toNat) (hn : n % host.pageSize.toNat = 0) :
    l.codeRegion.len.toNat ≤ n ↔ l.codeLen.toNat + 4 ≤ n := by
  constructor
  · intro hle
    exact Nat.le_trans himage hle
  · intro hle
    by_contra hlonger
    have hpage : n + host.pageSize.toNat ≤ l.codeRegion.len.toNat :=
      Addr.add_le_of_multiples hn h.aligned (Nat.lt_of_not_le hlonger)
    have hshort := h.short
    omega

section

variable (hpage : host.pageSize = 0x1000) (hgranule : Addr.isGranule (config.granule host) = true)
  (hplacement : config.placement = .randomized)

include hpage hplacement

/-- A plan at a random location starts at a page of the random range. -/
theorem start_of_randomized_plan (hplan : plan codeLen config host draw = .ok l) :
    l.codeRegion.start.toNat % host.pageSize.toNat = 0 ∧
      Placement.randomRange.contains l.codeRegion.start = true := by
  have hlocated := (planned_of_plan hplan).located
  rw [hplacement, hpage] at hlocated
  rcases Placement.page_of_locate hlocated with ⟨habove, hbelow, haligned⟩
  have hfirst : Placement.firstPage 0x1000 * (0x1000 : Addr).toNat = Placement.randomRange.start.toNat :=
    Placement.firstPage_of_page
  rw [hfirst] at habove
  rw [(codePages_of_plan hplan).start_eq, hpage]
  refine ⟨haligned, ?_⟩
  simp only [Window.contains, Bool.and_eq_true, decide_eq_true_eq]
  exact ⟨UInt64.le_iff_toNat_le.2 habove, UInt64.lt_iff_toNat_lt.2 hbelow⟩

include hgranule

/-- A plan has a value as long as a page can be added to the image. -/
theorem randomized_plan_isOk_iff :
    (∃ l, plan codeLen config host draw = .ok l) ↔ codeLen.toNat + 4 + 0x1000 < UInt64.size := by
  have hsize : host.pageSize.toNat = 0x1000 := by
    rw [hpage]
    rfl
  constructor
  · intro hplan
    rcases hplan with ⟨l, hplan⟩
    rw [← hsize]
    exact (plan_eq_ok_iff.1 hplan).2.2.2
  · intro hfits
    rcases Placement.exists_locate_of_page draw with ⟨location, hlocated⟩
    rw [← hplacement, ← hpage] at hlocated
    refine plan_isOk ?_ hgranule hlocated (hsize.symm ▸ hfits)
    rw [hpage]
    decide

/-- A block is safe at every random location if and only if its image is not longer than the distance
of the last location from the task size. -/
theorem randomlyPlaced_iff :
    (∀ draw, ∃ l, plan codeLen config host draw = .ok l ∧ l.RandomlyPlaced host) ↔
      codeLen.toNat + 4 ≤ 2 ^ 46 := by
  have hdistance : taskSize.toNat = 0x3ffffffff000 + 2 ^ 46 := by decide
  have hpages : 2 ^ 46 % host.pageSize.toNat = 0 := by
    rw [hpage]
    decide
  constructor
  · intro hsafe
    rcases Placement.exists_draw_last with ⟨draw, hlast⟩
    rcases hsafe draw with ⟨l, hplan, hplaced⟩
    rcases plan_eq_ok_iff.1 hplan with ⟨hplanned, hcodePages, himage, _⟩
    have hlocated := hplanned.located
    rw [hplacement, hpage, hlast] at hlocated
    have hstart : l.codeRegion.start.toNat = 0x3ffffffff000 := by
      rw [hcodePages.start_eq, ← Except.ok.inj hlocated]
      rfl
    have hbelow := hplaced.below
    omega
  · intro hshort draw
    have hfits : codeLen.toNat + 4 + 0x1000 < UInt64.size := by
      simp only [UInt64.size]
      omega
    rcases (randomized_plan_isOk_iff hpage hgranule hplacement).2 hfits with ⟨l, hplan⟩
    rcases plan_eq_ok_iff.1 hplan with ⟨hplanned, hcodePages, himage, _⟩
    rcases start_of_randomized_plan hpage hplacement hplan with ⟨haligned, hinRange⟩
    refine ⟨l, hplan, haligned, hinRange, ?_⟩
    have hlocated := hplanned.located
    rw [hplacement, hpage] at hlocated
    rw [← hplanned.codeLen_eq] at himage hshort
    calc
      l.codeRegion.start.toNat + l.codeRegion.len.toNat
          ≤ 0x3ffffffff000 + 2 ^ 46 := by
            rw [hcodePages.start_eq]
            exact Nat.add_le_add (Placement.locate_le_last hlocated)
              ((hcodePages.len_le_iff himage hpages).2 hshort)
      _ = taskSize.toNat := hdistance.symm

end

/-- A valid configuration with a random placement plans every location at a page of the random range, has
a plan for every block that a page can be added to, and is safe for all the blocks that it accepts if and
only if the longest one ends below the task size at the last location. -/
theorem randomized_safe_iff (hpage : host.pageSize = 0x1000)
    (hvalidate : config.validate host = .ok findings) (hvalid : findings.isValid = true)
    (hplacement : config.placement = .randomized) :
    (∀ codeLen draw l, plan codeLen config host draw = .ok l →
      l.codeRegion.start.toNat % host.pageSize.toNat = 0 ∧
        Placement.randomRange.contains l.codeRegion.start = true) ∧
    (∀ codeLen draw, (∃ l, plan codeLen config host draw = .ok l) ↔
      codeLen.toNat + 4 + 0x1000 < UInt64.size) ∧
    ((∀ codeLen draw : Addr, 1 ≤ codeLen.toNat → codeLen.toNat ≤ config.maxCodeLen.toNat →
      ∃ l, plan codeLen config host draw = .ok l ∧ l.RandomlyPlaced host) ↔
        config.maxCodeLen.toNat + 4 ≤ 2 ^ 46) := by
  rcases Config.checks_of_validate hvalidate hvalid with ⟨hblockSize, hlimits, _⟩
  have hgranule := (Config.granule_of_examineBlockSize hblockSize).1
  refine ⟨?_, ?_, ?_⟩
  · intro codeLen draw l hplan
    exact start_of_randomized_plan hpage hplacement hplan
  · intro codeLen draw
    exact randomized_plan_isOk_iff hpage hgranule hplacement
  · constructor
    · intro hsafe
      have hsome : 1 ≤ config.maxCodeLen.toNat := Config.codeLen_pos_of_examineLimits hlimits
      refine (randomlyPlaced_iff hpage hgranule hplacement).1 ?_
      intro draw
      exact hsafe config.maxCodeLen draw hsome (Nat.le_refl _)
    · intro hmax codeLen draw _ hshort
      refine (randomlyPlaced_iff hpage hgranule hplacement).2 ?_ draw
      exact Nat.le_trans (Nat.add_le_add_right hshort 4) hmax

/-- The standard configuration with random locations. -/
def standardAtRandom : Config :=
  { Config.standard with placement := .randomized }

/-- The standard configuration is safe at random locations, for all the blocks that it accepts. -/
theorem randomized_safe_of_standard :
    standardAtRandom.maxCodeLen = 4092 ∧
      ∀ codeLen draw : Addr, 1 ≤ codeLen.toNat → codeLen.toNat ≤ 4092 →
        ∃ l, plan codeLen standardAtRandom ⟨"x86_64", 0x1000, 0x10000⟩ draw = .ok l ∧
          l.RandomlyPlaced ⟨"x86_64", 0x1000, 0x10000⟩ := by
  have hvalidate : standardAtRandom.validate ⟨"x86_64", 0x1000, 0x10000⟩ =
      .ok ⟨[], [.moreBlocksThanIterations 512 256]⟩ := by
    rfl
  exact ⟨rfl, (randomized_safe_iff rfl hvalidate rfl rfl).2.2.2 (by decide)⟩

/-- Random locations, and no bound on the code. -/
def unboundedCode : Config :=
  { standardAtRandom with maxCodeLen := Addr.top }

/-- Validation has no objection to a bound on the code that is the greatest number, but the plan for a
block of this length overflows, whatever is drawn. -/
theorem plan_overflows_of_unboundedCode :
    let host : Host := ⟨"x86_64", 0x1000, 0x10000⟩
    unboundedCode.validate host = .ok ⟨[], [.moreBlocksThanIterations 512 256]⟩ ∧
      ∀ draw, plan unboundedCode.maxCodeLen unboundedCode host draw = .error .addOverflow := by
  refine ⟨rfl, ?_⟩
  intro draw
  rfl

end Layout

end Footprint
