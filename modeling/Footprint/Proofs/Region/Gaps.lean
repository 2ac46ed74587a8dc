import Footprint.Proofs.Region

/-!
# Gaps between regions

The sweep that looks for gaps goes through regions in the order of their starts, with a cursor below
which everything is decided. From any cursor it leaves out exactly what the regions contain
(`gapsFrom_complement`), and sorting the regions first loses none of them (`gaps_complement`). It never
goes back, so the gaps come in the order of their addresses (`gaps_exact`).
-/

namespace Footprint

namespace Region

variable {r : Region} {rs gs rest : List Region} {a cursor limit stop : Addr}

/-- The gaps are what the regions leave of the addresses from the cursor up to the limit. -/
structure Complement (cursor limit : Addr) (rs gs : List Region) : Prop where
  inside : ∀ g ∈ gs, cursor.toNat ≤ g.start.toNat ∧ 0 < g.len.toNat ∧
    g.start.toNat + g.len.toNat ≤ limit.toNat
  -- Gaps are bounded by what there is.
  bounds : ∀ g ∈ gs, (g.start = cursor ∨ ∃ r ∈ rs, g.start = r.stop) ∧
    (g.start.toNat + g.len.toNat = limit.toNat ∨ ∃ r ∈ rs, g.start.toNat + g.len.toNat = r.start.toNat)
  exact : ∀ a : Addr, cursor.toNat ≤ a.toNat → a.toNat < limit.toNat →
    ((∃ g ∈ gs, g.contains a = true) ↔ ∀ r ∈ rs, r.contains a = false)

/-- The gap from the cursor up to the next region, if there is one. -/
def gapBefore (cursor stop : Addr) : List Region :=
  if cursor < stop then [⟨cursor, stop - cursor⟩] else []

theorem gapsFrom_nil : gapsFrom cursor limit [] = .ok (gapBefore cursor limit) := rfl

/-- Below the limit, the sweep is a gap before the first region and the gaps behind it. -/
theorem gapsFrom_cons (hcursor : cursor < limit) :
    gapsFrom cursor limit (r :: rest) =
      if limit ≤ max cursor r.stop then .ok (gapBefore cursor (min r.start limit))
      else (gapsFrom (max cursor r.stop) limit rest).map (gapBefore cursor (min r.start limit) ++ ·) := by
  rw [gapsFrom]
  by_cases hstart : cursor < r.start
  · have hlt : cursor < min r.start limit := by
      rw [UInt64.lt_iff_toNat_lt, UInt64.toNat_min]
      exact Nat.lt_min.2 ⟨UInt64.lt_iff_toNat_lt.1 hstart, UInt64.lt_iff_toNat_lt.1 hcursor⟩
    have hlen : Addr.sub (min r.start limit) cursor = .ok (min r.start limit - cursor) :=
      if_pos (UInt64.le_of_lt hlt)
    rw [if_pos hstart, hlen, gapBefore, if_pos hlt]
    change (if limit ≤ max cursor r.stop then _ else _) = _
    split
    · rfl
    · cases gapsFrom (max cursor r.stop) limit rest <;> rfl
  · have hnot : ¬ cursor < min r.start limit := by
      intro hlt
      rw [UInt64.lt_iff_toNat_lt, UInt64.toNat_min] at hlt
      exact hstart (UInt64.lt_iff_toNat_lt.2 (Nat.lt_min.1 hlt).1)
    rw [if_neg hstart, gapBefore, if_neg hnot]
    change (if limit ≤ max cursor r.stop then _ else _) = _
    split
    · rfl
    · cases gapsFrom (max cursor r.stop) limit rest <;> rfl

theorem mem_gapBefore {g : Region} (hg : g ∈ gapBefore cursor stop) :
    g.start = cursor ∧ g.len = stop - cursor ∧ cursor < stop := by
  unfold gapBefore at hg
  split at hg
  next hlt =>
    obtain rfl := List.mem_singleton.1 hg
    exact ⟨rfl, rfl, hlt⟩
  next => cases hg

/-- A gap is not empty and ends where the next region starts. -/
theorem gapBefore_inside {g : Region} (hg : g ∈ gapBefore cursor stop) :
    cursor.toNat ≤ g.start.toNat ∧ 0 < g.len.toNat ∧ g.start.toNat + g.len.toNat = stop.toNat := by
  rcases mem_gapBefore hg with ⟨hstart, hlen, hlt⟩
  have hlen : g.len.toNat = stop.toNat - cursor.toNat := by
    rw [hlen]
    exact UInt64.toNat_sub_of_le _ _ (UInt64.le_of_lt hlt)
  rw [UInt64.lt_iff_toNat_lt] at hlt
  rw [hstart]
  omega

theorem exists_gapBefore_iff :
    (∃ g ∈ gapBefore cursor stop, g.contains a = true) ↔
      cursor.toNat ≤ a.toNat ∧ a.toNat < stop.toNat := by
  constructor
  · intro h
    rcases h with ⟨g, hg, ha⟩
    have hinside := gapBefore_inside hg
    have hfits : g.start.toNat + g.len.toNat < UInt64.size := hinside.2.2 ▸ stop.toNat_lt
    rw [contains_iff hfits] at ha
    omega
  · intro h
    have hlt : cursor < stop := UInt64.lt_iff_toNat_lt.2 (by omega)
    have hg : ⟨cursor, stop - cursor⟩ ∈ gapBefore cursor stop := by simp [gapBefore, hlt]
    have hends := (gapBefore_inside hg).2.2
    refine ⟨_, hg, (contains_iff (hends ▸ stop.toNat_lt)).2 ?_⟩
    rw [hends]
    exact h

/-- Regions in the order of their starts. -/
def Ordered (rs : List Region) : Prop :=
  rs.Pairwise fun r s => r.start.toNat ≤ s.start.toNat

theorem contains_eq_false_iff :
    r.contains a = false ↔ a.toNat < r.start.toNat ∨ r.stop.toNat ≤ a.toNat := by
  rw [← Bool.not_eq_true, contains_iff_lt_stop]
  omega

/-- What lies before the first of some ordered regions lies in none of them. -/
theorem Ordered.contains_eq_false (h : Ordered (r :: rest)) (ha : a.toNat < r.start.toNat) :
    ∀ s ∈ r :: rest, s.contains a = false := by
  intro s hs
  apply contains_eq_false_iff.2
  rcases List.mem_cons.1 hs with rfl | hs
  · exact .inl ha
  · exact .inl (Nat.lt_of_lt_of_le ha ((List.pairwise_cons.1 h).1 s hs))

theorem complement_nil : Complement cursor limit [] (gapBefore cursor limit) := by
  constructor
  case inside =>
    intro g hg
    have hinside := gapBefore_inside hg
    omega
  case bounds =>
    intro g hg
    exact ⟨.inl (mem_gapBefore hg).1, .inl (gapBefore_inside hg).2.2⟩
  case exact =>
    intro a hlow hhigh
    simp [exists_gapBefore_iff, hlow, hhigh]

/-- The gap before the next region starts at the cursor and ends with the limit or with the region. -/
theorem bounds_of_mem_gapBefore {g : Region} (hg : g ∈ gapBefore cursor (min r.start limit)) :
    (g.start = cursor ∨ ∃ s ∈ r :: rest, g.start = s.stop) ∧
      (g.start.toNat + g.len.toNat = limit.toNat ∨
        ∃ s ∈ r :: rest, g.start.toNat + g.len.toNat = s.start.toNat) := by
  have hends := (gapBefore_inside hg).2.2
  rw [UInt64.toNat_min] at hends
  refine ⟨.inl (mem_gapBefore hg).1, ?_⟩
  rcases Nat.le_total r.start.toNat limit.toNat with hle | hle
  · exact .inr ⟨r, List.mem_cons_self, by omega⟩
  · exact .inl (by omega)

/-- Behind a region that reaches the limit there is nothing left. -/
theorem complement_cons_of_le (hordered : Ordered (r :: rest)) (hlimit : limit ≤ max cursor r.stop) :
    Complement cursor limit (r :: rest) (gapBefore cursor (min r.start limit)) := by
  rw [UInt64.le_iff_toNat_le, UInt64.toNat_max] at hlimit
  constructor
  case inside =>
    intro g hg
    have hinside := gapBefore_inside hg
    rw [UInt64.toNat_min] at hinside
    omega
  case bounds =>
    intro g hg
    exact bounds_of_mem_gapBefore hg
  case exact =>
    intro a hlow hhigh
    rw [exists_gapBefore_iff, UInt64.toNat_min]
    constructor
    · intro hbefore
      exact hordered.contains_eq_false (by omega)
    · intro hnone
      have hr := contains_eq_false_iff.1 (hnone r List.mem_cons_self)
      omega

section

variable {after : List Region}

/-- A gap behind a region is bounded by what there is, the region included. -/
theorem Complement.bounds_cons (h : Complement (max cursor r.stop) limit rest after) {g : Region}
    (hg : g ∈ after) :
    (g.start = cursor ∨ ∃ s ∈ r :: rest, g.start = s.stop) ∧
      (g.start.toNat + g.len.toNat = limit.toNat ∨
        ∃ s ∈ r :: rest, g.start.toNat + g.len.toNat = s.start.toNat) := by
  have hnext : (max cursor r.stop).toNat = max cursor.toNat r.stop.toNat := UInt64.toNat_max _ _
  rcases h.bounds g hg with ⟨hstart, hends⟩
  constructor
  · rcases hstart with hstart | ⟨s, hs, hstart⟩
    · rcases Nat.le_total cursor.toNat r.stop.toNat with hle | hle
      · refine .inr ⟨r, List.mem_cons_self, UInt64.toNat_inj.1 ?_⟩
        rw [hstart, hnext, Nat.max_eq_right hle]
      · refine .inl (UInt64.toNat_inj.1 ?_)
        rw [hstart, hnext, Nat.max_eq_left hle]
    · exact .inr ⟨s, List.mem_cons_of_mem _ hs, hstart⟩
  · rcases hends with hends | ⟨s, hs, hends⟩
    · exact .inl hends
    · exact .inr ⟨s, List.mem_cons_of_mem _ hs, hends⟩

/-- An address before or behind a region lies in a gap if no region has it. -/
theorem Complement.exact_cons (hordered : Ordered (r :: rest))
    (h : Complement (max cursor r.stop) limit rest after) (hlow : cursor.toNat ≤ a.toNat)
    (hhigh : a.toNat < limit.toNat) :
    (∃ g ∈ gapBefore cursor (min r.start limit) ++ after, g.contains a = true) ↔
      ∀ s ∈ r :: rest, s.contains a = false := by
  rcases h with ⟨hinside, -, hexact⟩
  have hnext : (max cursor r.stop).toNat = max cursor.toNat r.stop.toNat := UInt64.toNat_max _ _
  rw [hnext] at hinside hexact
  simp only [List.mem_append, or_and_right, exists_or]
  rw [exists_gapBefore_iff, UInt64.toNat_min]
  constructor
  · intro hgap
    by_cases hbefore : a.toNat < r.start.toNat
    · exact hordered.contains_eq_false hbefore
    · rcases hgap with hgap | ⟨g, hg, hga⟩
      · omega
      -- the gap lies behind the region, and the sweep went on from there
      have hbehind : max cursor.toNat r.stop.toNat ≤ a.toNat :=
        Nat.le_trans (hinside g hg).1 (contains_iff_lt_stop.1 hga).1
      have hnone := (hexact a hbehind hhigh).1 ⟨g, hg, hga⟩
      intro s hs
      rcases List.mem_cons.1 hs with rfl | hs
      · exact contains_eq_false_iff.2 (.inr (by omega))
      · exact hnone s hs
  · intro hnone
    rcases contains_eq_false_iff.1 (hnone r List.mem_cons_self) with hbefore | hbehind
    · exact .inl ⟨hlow, by omega⟩
    · refine .inr ((hexact a (by omega) hhigh).2 ?_)
      intro s hs
      exact hnone s (List.mem_cons_of_mem _ hs)

/-- Behind any other region the sweep goes on. -/
theorem Complement.cons (hordered : Ordered (r :: rest))
    (h : Complement (max cursor r.stop) limit rest after) :
    Complement cursor limit (r :: rest) (gapBefore cursor (min r.start limit) ++ after) := by
  constructor
  case inside =>
    intro g hg
    rcases List.mem_append.1 hg with hg | hg
    · have hbefore := gapBefore_inside hg
      rw [UInt64.toNat_min] at hbefore
      omega
    · have hbehind := h.inside g hg
      rw [UInt64.toNat_max] at hbehind
      omega
  case bounds =>
    intro g hg
    rcases List.mem_append.1 hg with hg | hg
    · exact bounds_of_mem_gapBefore hg
    · exact h.bounds_cons hg
  case exact =>
    intro a hlow hhigh
    exact h.exact_cons hordered hlow hhigh

end

/-- The sweep never goes below zero, and leaves out exactly what the regions contain. -/
theorem gapsFrom_complement (hordered : Ordered rs) (hcursor : cursor.toNat < limit.toNat) :
    ∃ gs, gapsFrom cursor limit rs = .ok gs ∧ Complement cursor limit rs gs := by
  induction rs generalizing cursor with
  | nil => exact ⟨_, gapsFrom_nil, complement_nil⟩
  | cons r rest ih =>
    rw [gapsFrom_cons (UInt64.lt_iff_toNat_lt.2 hcursor)]
    by_cases hlimit : limit ≤ max cursor r.stop
    · rw [if_pos hlimit]
      exact ⟨_, rfl, complement_cons_of_le hordered hlimit⟩
    · have hgoesOn : (max cursor r.stop).toNat < limit.toNat :=
        UInt64.lt_iff_toNat_lt.1 (UInt64.not_le.1 hlimit)
      rcases ih (List.pairwise_cons.1 hordered).2 hgoesOn with ⟨after, hafter, hcomplement⟩
      rw [if_neg hlimit, hafter]
      exact ⟨_, rfl, hcomplement.cons hordered⟩

theorem Complement.fits (h : Complement cursor limit rs gs) :
    ∀ g ∈ gs, g.start.toNat + g.len.toNat < UInt64.size := by
  intro g hg
  exact Nat.lt_of_le_of_lt (h.inside g hg).2.2 limit.toNat_lt

/-- No gap has an address of a region. -/
theorem Complement.apart (h : Complement cursor limit rs gs) (hr : r ∈ rs) (ha : r.contains a = true) :
    ∀ g ∈ gs, g.contains a = false := by
  intro g hg
  rw [Bool.eq_false_iff]
  intro hga
  have hinside := h.inside g hg
  have hbounds := (contains_iff (h.fits g hg)).1 hga
  have hnone := (h.exact a (by omega) (by omega)).1 ⟨g, hg, hga⟩ r hr
  rw [ha] at hnone
  cases hnone

/-- What lies in no gap lies in a region. -/
theorem Complement.forall_contains_eq_false_iff (h : Complement cursor limit rs gs)
    (hlow : cursor.toNat ≤ a.toNat) (hhigh : a.toNat < limit.toNat) :
    (∀ g ∈ gs, g.contains a = false) ↔ ∃ r ∈ rs, r.contains a = true := by
  constructor
  · intro hgaps
    by_contra hnone
    have hfree : ∀ r ∈ rs, r.contains a = false := by
      intro r hr
      exact Bool.eq_false_iff.2 fun ha => hnone ⟨r, hr, ha⟩
    rcases (h.exact a hlow hhigh).2 hfree with ⟨g, hg, hga⟩
    rw [hgaps g hg] at hga
    cases hga
  · intro hcovered
    rcases hcovered with ⟨r, hr, ha⟩
    exact h.apart hr ha

/-- Between regions of whole pages, gaps are whole pages. -/
theorem Complement.whole {page : Addr} (h : Complement cursor limit rs gs)
    (hcursor : cursor.toNat % page.toNat = 0) (hlimit : limit.toNat % page.toNat = 0)
    (hrs : ∀ r ∈ rs, r.Whole page) : ∀ g ∈ gs, g.Whole page := by
  intro g hg
  rcases h.bounds g hg with ⟨hstart, hends⟩
  have hstartAligned : g.start.toNat % page.toNat = 0 := by
    rcases hstart with hstart | ⟨r, hr, hstart⟩
    · exact hstart ▸ hcursor
    · exact hstart ▸ (hrs r hr).stopAligned
  have hendAligned : (g.start.toNat + g.len.toNat) % page.toNat = 0 := by
    rcases hends with hends | ⟨r, hr, hends⟩
    · exact hends ▸ hlimit
    · exact hends ▸ (hrs r hr).startAligned
  have hlenAligned : page.toNat ∣ g.len.toNat :=
    (Nat.dvd_add_right (Nat.dvd_of_mod_eq_zero hstartAligned)).1 (Nat.dvd_of_mod_eq_zero hendAligned)
  exact ⟨hstartAligned, Nat.mod_eq_zero_of_dvd hlenAligned, h.fits g hg⟩

/-- Sorting puts regions in the order of their starts. -/
theorem ordered_mergeSort (rs : List Region) : Ordered (rs.mergeSort fun r s => r.start ≤ s.start) := by
  have htrans : ∀ r s t : Region, decide (r.start ≤ s.start) = true → decide (s.start ≤ t.start) = true →
      decide (r.start ≤ t.start) = true := by
    intro r s t hrs hst
    exact decide_eq_true (UInt64.le_trans (of_decide_eq_true hrs) (of_decide_eq_true hst))
  have htotal : ∀ r s : Region, (decide (r.start ≤ s.start) || decide (s.start ≤ r.start)) = true := by
    intro r s
    simpa using UInt64.le_total r.start s.start
  refine (List.pairwise_mergeSort htrans htotal rs).imp ?_
  intro r s h
  exact UInt64.le_iff_toNat_le.1 (of_decide_eq_true h)

/-- The gaps between regions in any order are what the regions leave of the addresses below the limit. -/
theorem gaps_complement (rs : List Region) (hlimit : 0 < limit.toNat) :
    ∃ gs, gaps rs limit = .ok gs ∧ Complement 0 limit rs gs := by
  have hcursor : (0 : Addr).toNat < limit.toNat := hlimit
  rcases gapsFrom_complement (ordered_mergeSort rs) hcursor with ⟨gs, hgs, hinside, hbounds, hexact⟩
  simp only [List.mem_mergeSort] at hbounds hexact
  exact ⟨gs, hgs, hinside, hbounds, hexact⟩

/-! ## The order of the gaps -/

/-- Each region ends before the next one starts. -/
def Successive (gs : List Region) : Prop :=
  gs.Pairwise fun g h => g.start.toNat + g.len.toNat ≤ h.start.toNat

theorem successive_gapBefore : Successive (gapBefore cursor stop) := by
  unfold gapBefore
  split
  · exact List.pairwise_singleton _ _
  · exact List.Pairwise.nil

/-- The sweep meets the gaps in the order of their addresses. -/
theorem gapsFrom_successive (hordered : Ordered rs) (hcursor : cursor.toNat < limit.toNat)
    (h : gapsFrom cursor limit rs = .ok gs) : Successive gs := by
  induction rs generalizing cursor gs with
  | nil =>
    cases h
    exact successive_gapBefore
  | cons r rest ih =>
    have hrest := (List.pairwise_cons.1 hordered).2
    rw [gapsFrom_cons (UInt64.lt_iff_toNat_lt.2 hcursor)] at h
    split at h
    next hlimit =>
      cases h
      exact successive_gapBefore
    next hlimit =>
      have hgoesOn := UInt64.lt_iff_toNat_lt.1 (UInt64.not_le.1 hlimit)
      rcases gapsFrom_complement hrest hgoesOn with ⟨after, hafter, hcomplement⟩
      rw [hafter] at h
      cases h
      refine List.pairwise_append.2 ⟨successive_gapBefore, ih hrest hgoesOn hafter, ?_⟩
      -- the gap before a region ends where the region starts, and the others start behind its end
      intro g hg s hs
      have hends := (gapBefore_inside hg).2.2
      have hstarts := (hcomplement.inside s hs).1
      have hregion := start_le_stop r
      rw [UInt64.toNat_min] at hends
      rw [UInt64.toNat_max] at hstarts
      omega

theorem gaps_successive (hlimit : 0 < limit.toNat) (h : gaps rs limit = .ok gs) : Successive gs := by
  have hcursor : (0 : Addr).toNat < limit.toNat := hlimit
  exact gapsFrom_successive (ordered_mergeSort rs) hcursor h

/-- What the end of a region is a multiple of does not depend on clamping, unless it is clamped. -/
theorem dvd_stop {page : Nat} (hbelow : r.stop.toNat < Addr.top.toNat)
    (h : page ∣ r.start.toNat + r.len.toNat ∨ page ∣ r.stop.toNat) : page ∣ r.stop.toNat := by
  rcases h with hsum | hstop
  · have hends : r.stop.toNat = r.start.toNat + r.len.toNat := by
      rw [toNat_stop_eq_min] at hbelow ⊢
      omega
    rwa [hends]
  · exact hstop

/-- Between regions of whole pages lie whole pages. -/
theorem Complement.paged {page : Nat} {g : Region} (h : Complement 0 limit rs gs) (hpage : page ∣ limit.toNat)
    (hpaged : ∀ r ∈ rs, page ∣ r.start.toNat ∧
      (page ∣ r.start.toNat + r.len.toNat ∨ page ∣ r.stop.toNat)) (hg : g ∈ gs) :
    page ∣ g.start.toNat ∧ page ∣ g.len.toNat := by
  rcases h.inside g hg with ⟨-, hpos, hbelow⟩
  rcases h.bounds g hg with ⟨hstart, hends⟩
  have htop : limit.toNat ≤ Addr.top.toNat := Nat.le_of_lt_succ limit.toNat_lt
  have hstartPaged : page ∣ g.start.toNat := by
    rcases hstart with hstart | ⟨r, hr, hstart⟩
    · rw [hstart]
      exact Nat.dvd_zero page
    · rw [hstart] at hbelow ⊢
      exact dvd_stop (by omega) (hpaged r hr).2
  have hendPaged : page ∣ g.start.toNat + g.len.toNat := by
    rcases hends with hends | ⟨r, hr, hends⟩
    · rwa [hends]
    · rw [hends]
      exact (hpaged r hr).1
  exact ⟨hstartPaged, (Nat.dvd_add_right hstartPaged).1 hendPaged⟩

/-- The gaps that some regions leave below a limit, in the order of their addresses. -/
structure OrderedGaps (kept : List Region) (limit : Addr) (gs : List Region) : Prop where
  nonempty : ∀ g ∈ gs, 0 < g.len.toNat
  increasing : gs.Pairwise fun g h => g.start.toNat < h.start.toNat
  apart : gs.Pairwise fun g h => ∀ a, ¬(g.contains a = true ∧ h.contains a = true)
  below : ∀ g ∈ gs, g.start.toNat + g.len.toNat ≤ limit.toNat
  exact : ∀ a : Addr, a.toNat < limit.toNat →
    ((∃ g ∈ gs, g.contains a = true) ↔ ∀ r ∈ kept, r.contains a = false)
  -- An end that lies behind the greatest address may count as it is or as it is clamped.
  paged : ∀ page : Nat, page ∣ limit.toNat →
    (∀ r ∈ kept, page ∣ r.start.toNat ∧
      (page ∣ r.start.toNat + r.len.toNat ∨ page ∣ r.stop.toNat)) →
    ∀ g ∈ gs, page ∣ g.start.toNat ∧ page ∣ g.len.toNat

/-- Whatever regions are kept, and in whatever order, the gaps between them are found without going
below zero, and they are exactly what the regions leave. -/
theorem gaps_exact (kept : List Region) (hlimit : 0 < limit.toNat) :
    ∃ gs, gaps kept limit = .ok gs ∧ OrderedGaps kept limit gs := by
  rcases gaps_complement kept hlimit with ⟨gs, hgs, hcomplement⟩
  have hsuccessive : Successive gs := gaps_successive hlimit hgs
  refine ⟨gs, hgs, ?_⟩
  constructor
  case nonempty =>
    intro g hg
    exact (hcomplement.inside g hg).2.1
  case increasing =>
    refine hsuccessive.imp_of_mem ?_
    intro g h hg _ hends
    have hpos := (hcomplement.inside g hg).2.1
    omega
  case apart =>
    refine hsuccessive.imp_of_mem ?_
    rintro g h hg hh hends a ⟨hga, hha⟩
    rw [contains_iff (hcomplement.fits g hg)] at hga
    rw [contains_iff (hcomplement.fits h hh)] at hha
    omega
  case below =>
    intro g hg
    exact (hcomplement.inside g hg).2.2
  case exact =>
    intro a ha
    exact hcomplement.exact a (Nat.zero_le _) ha
  case paged =>
    intro page hpage hkept g hg
    exact hcomplement.paged hpage hkept hg

/-- Regions out of order, one of them twice and inside another, one empty, and one that would end behind
the greatest address. -/
theorem gaps_exact_of_scattered :
    let kept : List Region :=
      [⟨0x8000, 0xffffffffffff9000⟩, ⟨0x2000, 0x2000⟩, ⟨0x1000, 0x4000⟩, ⟨0x2000, 0x2000⟩, ⟨0x6000, 0⟩]
    gaps kept 0xa000 = .ok [⟨0, 0x1000⟩, ⟨0x5000, 0x1000⟩, ⟨0x6000, 0x2000⟩] ∧
      OrderedGaps kept 0xa000 [⟨0, 0x1000⟩, ⟨0x5000, 0x1000⟩, ⟨0x6000, 0x2000⟩] := by
  intro kept
  have hsorted : kept.mergeSort (fun r s => r.start ≤ s.start) =
      [⟨0x1000, 0x4000⟩, ⟨0x2000, 0x2000⟩, ⟨0x2000, 0x2000⟩, ⟨0x6000, 0⟩, ⟨0x8000, 0xffffffffffff9000⟩] := by
    simp [kept, List.mergeSort, List.MergeSort.Internal.splitInTwo]
  have hswept : gaps kept 0xa000 = .ok [⟨0, 0x1000⟩, ⟨0x5000, 0x1000⟩, ⟨0x6000, 0x2000⟩] := by
    rw [gaps, hsorted]
    decide
  have hlimit : 0 < (0xa000 : Addr).toNat := by decide
  rcases gaps_exact kept hlimit with ⟨gs, hgs, hgaps⟩
  obtain rfl := Except.ok.inj (hgs.symm.trans hswept)
  exact ⟨hswept, hgaps⟩

end Region

end Footprint
