import Mathlib.Order.Bounds.Basic
import Footprint.Proofs.Alignment

/-!
# Rounding as an extremum

Rounding down gives the greatest multiple of the granule that is not above an address, rounding up the least
one that is not below it (`align_exact`). Rounding down has a value everywhere. Rounding up adds a whole
granule first, so it has none as soon as that sum leaves the address space, although the multiple itself may
still lie within: the last granule of the address space can be reached by rounding up, but its start cannot
be rounded up again (`alignUp_of_alignUp`).
-/

namespace Footprint

namespace Addr

variable {a b g s u v : Addr}

/-! ## Rounding down -/

theorem isGreatest_clearBelow (a : Addr) (hg : isGranule g = true) :
    IsGreatest {n : Nat | g.toNat ∣ n ∧ n ≤ a.toNat} (clearBelow a g).toNat := by
  refine ⟨⟨Nat.dvd_of_mod_eq_zero (clearBelow_mod a hg), clearBelow_le a hg⟩, ?_⟩
  rintro n ⟨hdvd, hle⟩
  exact le_clearBelow hg hdvd hle

theorem clearBelow_mono (hg : isGranule g = true) (h : a ≤ b) : clearBelow a g ≤ clearBelow b g := by
  have hbelow : {n : Nat | g.toNat ∣ n ∧ n ≤ a.toNat} ⊆ {n : Nat | g.toNat ∣ n ∧ n ≤ b.toNat} :=
    fun n hn => ⟨hn.1, hn.2.trans (UInt64.le_iff_toNat_le.1 h)⟩
  exact UInt64.le_iff_toNat_le.2 ((isGreatest_clearBelow a hg).mono (isGreatest_clearBelow b hg) hbelow)

theorem clearBelow_eq_self_iff (hg : isGranule g = true) : clearBelow a g = a ↔ g.toNat ∣ a.toNat := by
  constructor
  · intro h
    rw [← h]
    exact Nat.dvd_of_mod_eq_zero (clearBelow_mod a hg)
  · intro h
    exact clearBelow_of_mod hg (Nat.mod_eq_zero_of_dvd h)

theorem alignDown_bind_alignDown (hs : isGranule s = true) (hg : isGranule g = true) (h : s.toNat ≤ g.toNat)
    (a : Addr) : (alignDown a s >>= (alignDown · g)) = alignDown a g := by
  calc
    (alignDown a s >>= (alignDown · g))
        = (Except.ok (clearBelow a s) >>= (alignDown · g)) := by rw [alignDown_eq_ok a hs]
    _ = .ok (clearBelow (clearBelow a s) g) := alignDown_eq_ok _ hg
    _ = alignDown a g := by rw [clearBelow_clearBelow_of_le hs hg h, alignDown_eq_ok a hg]

/-! ## Rounding up -/

theorem alignUp_eq_overflow_iff (hg : isGranule g = true) :
    alignUp a g = .error .addOverflow ↔ UInt64.size ≤ a.toNat + g.toNat := by
  simp only [alignUp, hg, if_true]
  cases hsum : add a g with
  | error e =>
    rcases add_eq_error_iff.1 hsum with ⟨rfl, hwraps⟩
    exact iff_of_true rfl hwraps
  | ok raised =>
    have hfits : a.toNat + g.toNat < UInt64.size := add_eq_ok_iff.1 hsum ▸ raised.toNat_lt
    exact iff_of_false (by simp [bind, Except.bind, pure, Except.pure]) (Nat.not_le_of_lt hfits)

theorem isLeast_of_alignUp (h : alignUp a g = .ok u) :
    IsLeast {n : Nat | g.toNat ∣ n ∧ a.toNat ≤ n} u.toNat := by
  rcases alignUp_eq_ok_iff.1 h with ⟨-, -, hmod, hle, hlt⟩
  refine ⟨⟨Nat.dvd_of_mod_eq_zero hmod, hle⟩, ?_⟩
  rintro n ⟨hdvd, hn⟩
  by_contra hbelow
  have := add_le_of_multiples (Nat.mod_eq_zero_of_dvd hdvd) hmod (Nat.lt_of_not_le hbelow)
  omega

/-- Below an address that can be rounded up every other one can, to no more than that one is. -/
theorem alignUp_mono (h : a ≤ b) (hb : alignUp b g = .ok v) : ∃ u, alignUp a g = .ok u ∧ u ≤ v := by
  have hnat : a.toNat ≤ b.toNat := UInt64.le_iff_toNat_le.1 h
  rcases alignUp_eq_ok_iff.1 hb with ⟨hg, hfits, -⟩
  rcases alignUp_isOk hg (a := a) (by omega) with ⟨u, hu⟩
  have habove : {n : Nat | g.toNat ∣ n ∧ b.toNat ≤ n} ⊆ {n : Nat | g.toNat ∣ n ∧ a.toNat ≤ n} :=
    fun n hn => ⟨hn.1, hnat.trans hn.2⟩
  exact ⟨u, hu, UInt64.le_iff_toNat_le.2 ((isLeast_of_alignUp hb).mono (isLeast_of_alignUp hu) habove)⟩

/-- What was rounded up stays as it is, unless it starts the last granule of all. -/
theorem alignUp_of_alignUp (h : alignUp a g = .ok u) :
    alignUp u g = .ok u ∨ u.toNat + g.toNat = UInt64.size ∧ alignUp u g = .error .addOverflow := by
  rcases alignUp_eq_ok_iff.1 h with ⟨hg, -, hmod, -, -⟩
  have hends : u.toNat + g.toNat ≤ UInt64.size :=
    add_le_of_multiples hmod (Nat.mod_eq_zero_of_dvd (granule_dvd_size hg)) u.toNat_lt
  rcases Nat.lt_or_eq_of_le hends with hfits | hlast
  · exact .inl (alignUp_eq_ok_iff.2 ⟨hg, hfits, hmod, Nat.le_refl _, Nat.lt_add_of_pos_right (granule_pos hg)⟩)
  · exact .inr ⟨hlast, (alignUp_eq_overflow_iff hg).2 (Nat.le_of_eq hlast.symm)⟩

/-- Both directions meet at the multiples of the granule and nowhere else. -/
theorem alignDown_eq_iff_of_alignUp (h : alignUp a g = .ok u) : alignDown a g = .ok u ↔ g.toNat ∣ a.toNat := by
  rcases alignUp_eq_ok_iff.1 h with ⟨hg, -, hmod, hle, -⟩
  rw [alignDown_eq_ok a hg, Except.ok.injEq]
  constructor
  · rintro rfl
    have hsame : (clearBelow a g).toNat = a.toNat := Nat.le_antisymm (clearBelow_le a hg) hle
    exact (clearBelow_eq_self_iff hg).1 (UInt64.toNat_inj.1 hsame)
  · intro hdvd
    have hleast : u.toNat ≤ a.toNat := (isLeast_of_alignUp h).2 ⟨hdvd, Nat.le_refl _⟩
    rw [(clearBelow_eq_self_iff hg).2 hdvd]
    exact UInt64.toNat_inj.1 (Nat.le_antisymm hle hleast)

/-! ## Both -/

/-- What rounding to multiples of a number comes to. -/
structure Rounds (g : Addr) : Prop where
  down : ∀ a, ∃ d, alignDown a g = .ok d ∧ IsGreatest {n : Nat | g.toNat ∣ n ∧ n ≤ a.toNat} d.toNat
  overflows_iff : ∀ a, alignUp a g = .error .addOverflow ↔ UInt64.size ≤ a.toNat + g.toNat
  up : ∀ a : Addr, a.toNat + g.toNat < UInt64.size →
    ∃ u, alignUp a g = .ok u ∧ IsLeast {n : Nat | g.toNat ∣ n ∧ a.toNat ≤ n} u.toNat
  down_mono : ∀ a b d e, a ≤ b → alignDown a g = .ok d → alignDown b g = .ok e → d ≤ e
  up_mono : ∀ a b v, a ≤ b → alignUp b g = .ok v → ∃ u, alignUp a g = .ok u ∧ u ≤ v
  down_idem : ∀ a, (alignDown a g >>= (alignDown · g)) = alignDown a g
  -- The start of the last granule can be a result and is still too high to be rounded up itself.
  up_idem : ∀ a u, alignUp a g = .ok u →
    alignUp u g = .ok u ∨ u.toNat + g.toNat = UInt64.size ∧ alignUp u g = .error .addOverflow
  agree_iff : ∀ a u, alignUp a g = .ok u → (alignDown a g = .ok u ↔ g.toNat ∣ a.toNat)
  absorbs : ∀ s : Addr, s.toNat.isPowerOfTwo → s.toNat ≤ g.toNat →
    ∀ a, (alignDown a s >>= (alignDown · g)) = alignDown a g

/-- Rounding to a power of two finds the nearest multiple on either side, as far as the address space goes;
to anything else there is no rounding at all. -/
theorem align_exact (g : Addr) :
    (g.toNat.isPowerOfTwo → Rounds g) ∧
      (¬g.toNat.isPowerOfTwo → ∀ a, alignDown a g = .error .badGranule ∧ alignUp a g = .error .badGranule) := by
  constructor
  · intro hpower
    have hg : isGranule g = true := isGranule_iff.2 hpower
    constructor
    case down => exact fun a => ⟨clearBelow a g, alignDown_eq_ok a hg, isGreatest_clearBelow a hg⟩
    case overflows_iff => exact fun a => alignUp_eq_overflow_iff hg
    case up =>
      intro a hfits
      rcases alignUp_isOk hg hfits with ⟨u, hu⟩
      exact ⟨u, hu, isLeast_of_alignUp hu⟩
    case down_mono =>
      intro a b d e hab hd he
      obtain rfl : clearBelow a g = d := by simpa [hg] using hd
      obtain rfl : clearBelow b g = e := by simpa [hg] using he
      exact clearBelow_mono hg hab
    case up_mono => exact fun a b v hab hv => alignUp_mono hab hv
    case down_idem => exact alignDown_bind_alignDown hg hg (Nat.le_refl _)
    case up_idem => exact fun a u hu => alignUp_of_alignUp hu
    case agree_iff => exact fun a u hu => alignDown_eq_iff_of_alignUp hu
    case absorbs => exact fun s hs hle => alignDown_bind_alignDown (isGranule_iff.2 hs) hg hle
  · intro hpower a
    have hg : ¬isGranule g = true := mt isGranule_iff.1 hpower
    exact ⟨by simp [alignDown, hg], by simp [alignUp, hg, throw, throwThe, MonadExceptOf.throw]⟩

/-- Pages at the upper end of the address space, and a number that is no power of two. -/
theorem align_exact_of_lastPage :
    (0x1000 : Addr).toNat.isPowerOfTwo ∧ Rounds 0x1000 ∧
      alignUp 0xffffffffffffe001 0x1000 = .ok 0xfffffffffffff000 ∧
      alignUp 0xfffffffffffff000 0x1000 = .error .addOverflow ∧
      ¬(0x1800 : Addr).toNat.isPowerOfTwo ∧ alignUp 0xfffffffffffff000 0x1800 = .error .badGranule := by
  have hpage : (0x1000 : Addr).toNat.isPowerOfTwo := ⟨12, rfl⟩
  have hrounds : Rounds 0x1000 := (align_exact 0x1000).1 hpage
  have hodd : ¬(0x1800 : Addr).toNat.isPowerOfTwo := by
    rw [← isGranule_iff]
    decide
  exact ⟨hpage, hrounds, by decide, (hrounds.overflows_iff _).2 (by decide), hodd,
    ((align_exact 0x1800).2 hodd _).2⟩

end Addr

end Footprint
