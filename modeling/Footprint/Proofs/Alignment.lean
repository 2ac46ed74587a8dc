import Mathlib.Data.Nat.Bitwise
import Footprint.Address

/-!
# Alignment: rounding addresses to a granule

Rounding is defined on the bits of a machine word. This module says what it does to the numbers that
the words stand for, so that everything about blocks can be argued by division with remainder:

* a granule is a power of two (`isGranule_iff`);
* `clearBelow` takes the remainder off (`toNat_clearBelow`, `clearBelow_eq_iff`), and the larger of two
  granules decides (`clearBelow_clearBelow_of_le`);
* the checked operations answer exactly when they are defined (`alignDown_eq_ok`, `alignUp_eq_ok_iff`,
  `add_eq_ok_iff`).
-/

namespace Footprint

/-- A sequence of checked steps has a value if each of them has. -/
theorem Checked.bind_eq_ok_iff {α β : Type} {x : Checked α} {f : α → Checked β} {b : β} :
    (x >>= f) = .ok b ↔ ∃ a, x = .ok a ∧ f a = .ok b := by
  cases x with
  | error e => simp [bind, Except.bind]
  | ok a => simp [bind, Except.bind]

namespace Addr

variable {a b g : Addr}

theorem toNat_sub_one (ha : 0 < a.toNat) : (a - 1).toNat = a.toNat - 1 :=
  UInt64.toNat_sub_of_le _ _ (UInt64.le_iff_toNat_le.2 ha)

/-! ## Granules are powers of two -/

theorem isGranule_iff : isGranule g = true ↔ g.toNat.isPowerOfTwo := by
  rw [← Nat.ne_zero_and_sub_one_eq_zero_iff_isPowerOfTwo]
  by_cases hzero : g = 0
  · subst hzero
    simp [isGranule]
  · have hpos : g.toNat ≠ 0 := fun h => hzero (UInt64.toNat_inj.1 (by simpa using h))
    have hpred : (g - 1).toNat = g.toNat - 1 := toNat_sub_one (Nat.pos_of_ne_zero hpos)
    have hmask : g &&& (g - 1) = 0 ↔ g.toNat &&& (g.toNat - 1) = 0 := by
      rw [← UInt64.toNat_inj, UInt64.toNat_and, hpred]
      rfl
    simp [isGranule, hzero, hpos, hmask]

/-- Of two granules the smaller one divides the larger one. -/
theorem mod_granule_of_le {p : Addr} (hp : isGranule p = true) (hg : isGranule g = true)
    (h : p.toNat ≤ g.toNat) : g.toNat % p.toNat = 0 := by
  rcases isGranule_iff.1 hp with ⟨j, hj⟩
  rcases isGranule_iff.1 hg with ⟨k, hk⟩
  rw [hj, hk] at h ⊢
  have hjk : j ≤ k := (Nat.pow_le_pow_iff_right (by decide)).1 h
  exact Nat.mod_eq_zero_of_dvd (Nat.pow_dvd_pow 2 hjk)

theorem granule_pos (hg : isGranule g = true) : 0 < g.toNat :=
  Nat.pos_of_isPowerOfTwo (isGranule_iff.1 hg)

/-- Granules divide the size of the address space. -/
theorem granule_dvd_size (hg : isGranule g = true) : g.toNat ∣ UInt64.size := by
  rcases isGranule_iff.1 hg with ⟨k, hk⟩
  have hbound : 2 ^ k < 2 ^ 64 := hk ▸ g.toNat_lt
  have hexponent : k ≤ 64 := Nat.le_of_lt ((Nat.pow_lt_pow_iff_right (by decide)).1 hbound)
  rw [hk]
  exact Nat.pow_dvd_pow 2 hexponent

/-! ## Clearing the bits below a granule -/

/-- Rounding down clears the bits below the exponent of the granule. -/
theorem testBit_clearBelow {k : Nat} (a : Addr) (hk : g.toNat = 2 ^ k) (i : Nat) :
    (clearBelow a g).toNat.testBit i = (a.toNat.testBit i && decide (k ≤ i)) := by
  have hpred : (g - 1).toNat = 2 ^ k - 1 := by
    rw [toNat_sub_one (hk ▸ Nat.two_pow_pos k), hk]
  have hmask : (~~~(g - 1)).toNat = 2 ^ 64 - (2 ^ k - 1 + 1) := by
    rw [UInt64.toNat_not, hpred]
    simp only [UInt64.size]
    omega
  have hlow : 2 ^ k - 1 < 2 ^ 64 := hpred ▸ (g - 1).toNat_lt
  rw [clearBelow, UInt64.toNat_and, Nat.testBit_and, hmask, Nat.testBit_two_pow_sub_succ hlow,
    Nat.testBit_two_pow_sub_one]
  by_cases hi : i < 64
  · by_cases hki : k ≤ i
    · simp [hi, hki]
    · simp [hi, hki, Nat.lt_of_not_le hki]
  · have hhigh : a.toNat.testBit i = false :=
      Nat.testBit_lt_two_pow (Nat.lt_of_lt_of_le a.toNat_lt (Nat.pow_le_pow_right (by decide) (by omega)))
    simp [hhigh]

/-- Rounding down takes the remainder off. -/
theorem toNat_clearBelow (a : Addr) (hg : isGranule g = true) :
    (clearBelow a g).toNat = a.toNat - a.toNat % g.toNat := by
  rcases isGranule_iff.1 hg with ⟨k, hk⟩
  rw [← Nat.div_mul_self_eq_mod_sub_self, hk]
  apply Nat.eq_of_testBit_eq
  intro i
  rw [testBit_clearBelow a hk, Nat.testBit_mul_two_pow, Nat.testBit_div_two_pow]
  by_cases hki : k ≤ i
  · simp [hki, Nat.sub_add_cancel hki]
  · simp [hki]

/-- Rounding down keeps the whole granules. -/
theorem toNat_clearBelow_eq_mul (a : Addr) (hg : isGranule g = true) :
    (clearBelow a g).toNat = a.toNat / g.toNat * g.toNat := by
  rw [toNat_clearBelow a hg, Nat.div_mul_self_eq_mod_sub_self]

theorem clearBelow_le (a : Addr) (hg : isGranule g = true) :
    (clearBelow a g).toNat ≤ a.toNat := by
  rw [toNat_clearBelow a hg]
  exact Nat.sub_le _ _

/-- No multiple of the granule between the rounded address and the address is greater. -/
theorem le_clearBelow {n : Nat} (hg : isGranule g = true) (hdvd : g.toNat ∣ n) (hle : n ≤ a.toNat) :
    n ≤ (clearBelow a g).toNat := by
  rcases hdvd with ⟨q, rfl⟩
  rw [toNat_clearBelow_eq_mul a hg, Nat.mul_comm]
  exact Nat.mul_le_mul_right _ ((Nat.le_div_iff_mul_le (granule_pos hg)).2 (by rwa [Nat.mul_comm]))

theorem lt_clearBelow_add (a : Addr) (hg : isGranule g = true) :
    a.toNat < (clearBelow a g).toNat + g.toNat := by
  have hmod := Nat.mod_lt a.toNat (granule_pos hg)
  have hle := Nat.mod_le a.toNat g.toNat
  rw [toNat_clearBelow a hg]
  omega

theorem clearBelow_mod (a : Addr) (hg : isGranule g = true) :
    (clearBelow a g).toNat % g.toNat = 0 := by
  rw [toNat_clearBelow_eq_mul a hg, Nat.mul_mod_left]

/-- The only aligned address within reach below `a` is `a` rounded down. -/
theorem clearBelow_eq_iff (hg : isGranule g = true) :
    clearBelow a g = b ↔ b.toNat % g.toNat = 0 ∧ b.toNat ≤ a.toNat ∧ a.toNat < b.toNat + g.toNat := by
  constructor
  · rintro rfl
    exact ⟨clearBelow_mod a hg, clearBelow_le a hg, lt_clearBelow_add a hg⟩
  · rintro ⟨hmod, hle, hlt⟩
    apply UInt64.toNat_inj.1
    rcases Nat.dvd_of_mod_eq_zero hmod with ⟨q, hq⟩
    have hquot : a.toNat / g.toNat = q := by
      apply Nat.div_eq_of_lt_le
      · rw [Nat.mul_comm, ← hq]
        exact hle
      · rw [Nat.succ_mul, Nat.mul_comm, ← hq]
        exact hlt
    rw [toNat_clearBelow_eq_mul a hg, hquot, hq, Nat.mul_comm]

/-- An aligned address is its own block. -/
theorem clearBelow_of_mod (hg : isGranule g = true) (ha : a.toNat % g.toNat = 0) :
    clearBelow a g = a :=
  (clearBelow_eq_iff hg).2 ⟨ha, Nat.le_refl _, by have := granule_pos hg; omega⟩

@[simp]
theorem clearBelow_clearBelow (hg : isGranule g = true) :
    clearBelow (clearBelow a g) g = clearBelow a g :=
  clearBelow_of_mod hg (clearBelow_mod a hg)

/-- Rounding to a granule absorbs rounding to a smaller one before it. -/
theorem clearBelow_clearBelow_of_le {p : Addr} (hp : isGranule p = true) (hg : isGranule g = true)
    (h : p.toNat ≤ g.toNat) : clearBelow (clearBelow a p) g = clearBelow a g := by
  have hdvd : p.toNat ∣ (clearBelow a g).toNat :=
    (Nat.dvd_of_mod_eq_zero (mod_granule_of_le hp hg h)).trans
      (Nat.dvd_of_mod_eq_zero (clearBelow_mod a hg))
  have hbelow : (clearBelow a g).toNat ≤ (clearBelow a p).toNat :=
    le_clearBelow hp hdvd (clearBelow_le a hg)
  have hreach : (clearBelow a p).toNat < (clearBelow a g).toNat + g.toNat :=
    Nat.lt_of_le_of_lt (clearBelow_le a hp) (lt_clearBelow_add a hg)
  exact (clearBelow_eq_iff hg).2 ⟨clearBelow_mod a hg, hbelow, hreach⟩

/-- A multiple below another one is a whole granule below it. -/
theorem add_le_of_multiples {m n g : Nat} (hm : m % g = 0) (hn : n % g = 0) (h : m < n) :
    m + g ≤ n := by
  rcases Nat.dvd_of_mod_eq_zero hm with ⟨i, rfl⟩
  rcases Nat.dvd_of_mod_eq_zero hn with ⟨j, rfl⟩
  have hij : i + 1 ≤ j := Nat.lt_of_mul_lt_mul_left h
  calc
    g * i + g = g * (i + 1) := (Nat.mul_succ g i).symm
    _ ≤ g * j := Nat.mul_le_mul_left g hij

/-! ## Checked arithmetic -/

@[simp]
theorem alignDown_eq_ok (a : Addr) (hg : isGranule g = true) :
    alignDown a g = .ok (clearBelow a g) := by
  simp [alignDown, hg]

theorem isGranule_of_alignDown (h : alignDown a g = .ok b) : isGranule g = true := by
  by_contra hg
  simp [alignDown, hg] at h

/-- A sum in range is the sum of the numbers. -/
theorem toNat_add_of_fits (h : a.toNat + b.toNat < UInt64.size) : (a + b).toNat = a.toNat + b.toNat := by
  rw [UInt64.toNat_add]
  exact Nat.mod_eq_of_lt h

theorem add?_eq_some_iff {c : Addr} :
    add? a b = some c ↔ c.toNat = a.toNat + b.toNat := by
  unfold add?
  split
  next hfits =>
    rw [Option.some.injEq, ← UInt64.toNat_inj, toNat_add_of_fits hfits]
    exact eq_comm
  next hwraps =>
    have hlt : c.toNat < UInt64.size := c.toNat_lt
    simp only [reduceCtorEq, false_iff]
    omega

theorem add?_eq_none_iff : add? a b = none ↔ UInt64.size ≤ a.toNat + b.toNat := by
  simp [add?]

theorem add_eq_ok_iff {c : Addr} : add a b = .ok c ↔ c.toNat = a.toNat + b.toNat := by
  rw [← add?_eq_some_iff]
  unfold add
  cases add? a b <;> simp

theorem add_eq_error_iff {e : ArithError} :
    add a b = .error e ↔ e = .addOverflow ∧ UInt64.size ≤ a.toNat + b.toNat := by
  rw [← add?_eq_none_iff]
  unfold add
  cases add? a b <;> simp [eq_comm]

theorem eq_add_of_add_eq_ok {c : Addr} (h : add a b = .ok c) : c = a + b := by
  have hsum : c.toNat = a.toNat + b.toNat := add_eq_ok_iff.1 h
  rw [← UInt64.toNat_inj, UInt64.toNat_add, hsum]
  exact (Nat.mod_eq_of_lt (hsum ▸ c.toNat_lt)).symm

theorem add_isOk (h : a.toNat + b.toNat < UInt64.size) : ∃ c, add a b = .ok c :=
  ⟨a + b, add_eq_ok_iff.2 (toNat_add_of_fits h)⟩

/-- Rounding up is the least multiple that is not below. It is defined as long as a whole granule can be
added, which is more than what the result needs. -/
theorem alignUp_eq_ok_iff :
    alignUp a g = .ok b ↔ isGranule g = true ∧ a.toNat + g.toNat < UInt64.size ∧
      b.toNat % g.toNat = 0 ∧ a.toNat ≤ b.toNat ∧ b.toNat < a.toNat + g.toNat := by
  by_cases hg : isGranule g = true
  · have hpos := granule_pos hg
    simp only [alignUp, hg, if_true, Checked.bind_eq_ok_iff, add_eq_ok_iff, true_and]
    constructor
    · rintro ⟨raised, hraised, hb⟩
      obtain rfl : clearBelow (raised - 1) g = b := by simpa [pure, Except.pure] using hb
      have hpred : (raised - 1).toNat = raised.toNat - 1 := toNat_sub_one (by omega)
      have hfits : raised.toNat < UInt64.size := raised.toNat_lt
      have hmod := clearBelow_mod (raised - 1) hg
      have hle := clearBelow_le (raised - 1) hg
      have hlt := lt_clearBelow_add (raised - 1) hg
      omega
    · rintro ⟨hfits, hmod, hle, hlt⟩
      rcases add_isOk hfits with ⟨raised, hok⟩
      have hraised : raised.toNat = a.toNat + g.toNat := add_eq_ok_iff.1 hok
      refine ⟨raised, hraised, ?_⟩
      have hpred : (raised - 1).toNat = raised.toNat - 1 := toNat_sub_one (by omega)
      exact congrArg Except.ok ((clearBelow_eq_iff hg).2 ⟨hmod, by omega, by omega⟩)
  · simp [alignUp, hg, throw, throwThe, MonadExceptOf.throw]

theorem alignUp_isOk (hg : isGranule g = true) (h : a.toNat + g.toNat < UInt64.size) :
    ∃ b, alignUp a g = .ok b := by
  rcases add_isOk h with ⟨raised, hraised⟩
  exact ⟨clearBelow (raised - 1) g, by simp [alignUp, hg, hraised, bind, Except.bind, pure, Except.pure]⟩

theorem sub_eq_ok_iff {c : Addr} : sub a b = .ok c ↔ a.toNat = c.toNat + b.toNat := by
  unfold sub
  split
  next hle =>
    have hdiff : (a - b).toNat = a.toNat - b.toNat := UInt64.toNat_sub_of_le _ _ hle
    have hnat : b.toNat ≤ a.toNat := UInt64.le_iff_toNat_le.1 hle
    rw [Except.ok.injEq, ← UInt64.toNat_inj, hdiff]
    omega
  next hlt =>
    have hnat : a.toNat < b.toNat := UInt64.lt_iff_toNat_lt.1 (UInt64.not_le.1 hlt)
    simp only [reduceCtorEq, false_iff]
    omega

end Addr

end Footprint
