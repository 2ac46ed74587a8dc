import Mathlib.Data.List.Induction
import Mathlib.Data.List.TakeWhile
import Footprint.Proofs.Maps

/-!
# How bounds are spelled

A bound is a number below `2 ^ 64` in hexadecimal digits of either case, perhaps behind a plus sign. What is
read as a bound is exactly what spells one (`readBound_eq_some_iff`): the sum that reading goes by never
decreases, so it leaves the range at some digit exactly if the whole number is out of range. Two bounds with
a dash between them are the range of a mapping (`readRange_eq_some_iff`).
-/

namespace Footprint

namespace Maps

open Text

variable {text digits low high : List Char} {c : Char} {n : Nat} {a start stop : Addr}

/-! ## Numbers -/

/-- Hexadecimal digits and the number that they write. -/
inductive Digits : List Char → Nat → Prop where
  | single {c : Char} {d : Nat} : hexValue? c = some d → Digits [c] d
  | snoc {digits : List Char} {n : Nat} {c : Char} {d : Nat} :
      Digits digits n → hexValue? c = some d → Digits (digits ++ [c]) (n * 16 + d)

/-- The codes of the digits: the decimal ones and the first six letters in either case. -/
theorem toNat_of_hexValue? {d : Nat} (h : hexValue? c = some d) :
    48 ≤ c.toNat ∧ c.toNat ≤ 57 ∨ 97 ≤ c.toNat ∧ c.toNat ≤ 102 ∨ 65 ≤ c.toNat ∧ c.toNat ≤ 70 := by
  unfold hexValue? at h
  split at h
  next hdecimal => exact .inl hdecimal
  next =>
    split at h
    next hlower => exact .inr (.inl hlower)
    next =>
      split at h
      next hupper => exact .inr (.inr hupper)
      next => cases h

theorem isBlank_of_hexValue? {d : Nat} (h : hexValue? c = some d) : isBlank c = false := by
  have hcode := toNat_of_hexValue? h
  simp only [isBlank, blankRanges, List.any_cons, List.any_nil, Bool.or_false, Bool.or_eq_false_iff,
    Bool.and_eq_false_iff, decide_eq_false_iff_not]
  omega

theorem Digits.forall_mem (h : Digits digits n) : ∀ c ∈ digits, ∃ d, hexValue? c = some d := by
  induction h with
  | single hc =>
    intro c hmem
    rw [List.mem_singleton.1 hmem]
    exact ⟨_, hc⟩
  | snoc _ hc ih =>
    intro c hmem
    rcases List.mem_append.1 hmem with hmem | hmem
    · exact ih c hmem
    · rw [List.mem_singleton.1 hmem]
      exact ⟨_, hc⟩

theorem Digits.ne_nil (h : Digits digits n) : digits ≠ [] := by
  cases h
  all_goals simp

theorem hexFrom_singleton_eq_some_iff {value : Nat} :
    hexFrom value [c] = some n ↔ ∃ d, hexValue? c = some d ∧ value * 16 + d = n ∧ n < UInt64.size := by
  unfold hexFrom
  cases hexValue? c with
  | none => simp
  | some d =>
    simp only [hexFrom, Option.ite_none_right_eq_some, Option.some.injEq]
    constructor
    · rintro ⟨hlt, rfl⟩
      exact ⟨d, rfl, rfl, hlt⟩
    · rintro ⟨_, rfl, rfl, hlt⟩
      exact ⟨hlt, rfl⟩

theorem Digits.hexFrom_eq (h : Digits digits n) (hn : n < UInt64.size) : hexFrom 0 digits = some n := by
  induction h with
  | @single c d hc => exact hexFrom_singleton_eq_some_iff.2 ⟨d, hc, by omega, hn⟩
  | @snoc digits m c d _ hc ih =>
    rw [hexFrom_append, ih (by omega)]
    exact hexFrom_singleton_eq_some_iff.2 ⟨d, hc, rfl, hn⟩

theorem digits_of_hexFrom (hne : digits ≠ []) (h : hexFrom 0 digits = some n) :
    Digits digits n ∧ n < UInt64.size := by
  induction digits using List.reverseRecOn generalizing n with
  | nil => exact absurd rfl hne
  | append_singleton digits c ih =>
    rw [hexFrom_append, Option.bind_eq_some_iff] at h
    rcases h with ⟨m, hm, hlast⟩
    rcases hexFrom_singleton_eq_some_iff.1 hlast with ⟨d, hc, rfl, hlt⟩
    refine ⟨?_, hlt⟩
    by_cases hdigits : digits = []
    · subst hdigits
      obtain rfl : 0 = m := by simpa [hexFrom] using hm
      simpa using Digits.single hc
    · exact .snoc (ih hdigits hm).1 hc

/-! ## Bounds -/

/-- The spellings of a bound. -/
inductive Spells : List Char → Addr → Prop where
  | plain {digits : List Char} {a : Addr} : Digits digits a.toNat → Spells digits a
  | signed {digits : List Char} {a : Addr} : Digits digits a.toNat → Spells ('+' :: digits) a

/-- Digits that are read as a bound. -/
theorem readDigits_eq_some_iff :
    (if digits.isEmpty then none else (hexFrom 0 digits).map UInt64.ofNat) = some a ↔ Digits digits a.toNat := by
  constructor
  · intro h
    split at h
    next => cases h
    next hne =>
      rcases Option.map_eq_some_iff.1 h with ⟨n, hn, rfl⟩
      rcases digits_of_hexFrom (by simpa using hne) hn with ⟨hdigits, hlt⟩
      rwa [UInt64.toNat_ofNat_of_lt' hlt]
  · intro h
    rw [if_neg (by simpa using h.ne_nil), h.hexFrom_eq a.toNat_lt]
    simp

theorem readBound_eq_some_iff : readBound text = some a ↔ Spells text a := by
  unfold readBound
  split
  next rest =>
    rw [readDigits_eq_some_iff]
    constructor
    · exact .signed
    · intro h
      cases h with
      | plain h =>
        rcases h.forall_mem '+' List.mem_cons_self with ⟨d, hd⟩
        cases hd
      | signed h => exact h
  next hplus =>
    rw [readDigits_eq_some_iff]
    constructor
    · exact .plain
    · intro h
      cases h with
      | plain h => exact h
      | signed h => exact absurd rfl (hplus _)

/-- A spelling has digits and perhaps a sign. -/
theorem Spells.mem (h : Spells text a) (hc : c ∈ text) : c = '+' ∨ ∃ d, hexValue? c = some d := by
  cases h with
  | plain h => exact .inr (h.forall_mem c hc)
  | signed h =>
    rcases List.mem_cons.1 hc with hc | hc
    · exact .inl hc
    · exact .inr (h.forall_mem c hc)

theorem Spells.not_mem_dash (h : Spells text a) : '-' ∉ text := by
  intro hdash
  rcases h.mem hdash with hplus | ⟨d, hd⟩
  · cases hplus
  · cases hd

theorem Spells.solid (h : Spells text a) : ∀ c ∈ text, isBlank c = false := by
  intro c hc
  rcases h.mem hc with rfl | ⟨d, hd⟩
  · decide
  · exact isBlank_of_hexValue? hd

/-! ## Ranges -/

/-- The words that give the range of a mapping. There is no dash in a bound, so the one between the bounds is
the first. -/
inductive IsRange : List Char → Addr → Addr → Prop where
  | mk {low high : List Char} {start stop : Addr} :
      Spells low start → Spells high stop → IsRange (low ++ '-' :: high) start stop

/-- The first dash divides a text. -/
theorem splitAtDash_append (h : '-' ∉ low) (high : List Char) :
    splitAtDash (low ++ '-' :: high) = some (low, high) := by
  have hdash : ∀ c ∈ low, (c != '-') = true := by
    rintro c hc
    exact bne_iff_ne.2 fun heq => h (heq ▸ hc)
  rw [splitAtDash, List.dropWhile_append_of_pos hdash, List.takeWhile_append_of_pos hdash]
  simp

theorem splitAtDash_eq_some_iff :
    splitAtDash text = some (low, high) ↔ text = low ++ '-' :: high ∧ '-' ∉ low := by
  constructor
  · intro h
    unfold splitAtDash at h
    split at h
    next => cases h
    next c after hdrop =>
      obtain ⟨rfl, rfl⟩ : text.takeWhile (· != '-') = low ∧ after = high := by simpa using h
      have hdash : c = '-' := by
        have hhead := List.head_dropWhile_not (· != '-') (l := text) (by simp [hdrop])
        simpa [hdrop] using hhead
      refine ⟨?_, fun hmem => ?_⟩
      · calc
          text = text.takeWhile (· != '-') ++ text.dropWhile (· != '-') :=
            List.takeWhile_append_dropWhile.symm
          _ = text.takeWhile (· != '-') ++ '-' :: after := by rw [hdrop, hdash]
      · simpa using List.mem_takeWhile_imp hmem
  · rintro ⟨rfl, hlow⟩
    exact splitAtDash_append hlow high

/-- The range that a word gives. -/
def readRange (range : List Char) : Option (Addr × Addr) := do
  let (low, high) ← splitAtDash range
  let start ← readBound low
  let stop ← readBound high
  return (start, stop)

theorem readRange_eq_some_iff : readRange text = some (start, stop) ↔ IsRange text start stop := by
  constructor
  · intro h
    simp only [readRange, Option.bind_eq_bind, Option.bind_eq_some_iff, Option.pure_def,
      Option.some.injEq, Prod.mk.injEq] at h
    rcases h with ⟨⟨low, high⟩, hsplit, _, hstart, _, hstop, rfl, rfl⟩
    rcases splitAtDash_eq_some_iff.1 hsplit with ⟨rfl, -⟩
    exact .mk (readBound_eq_some_iff.1 hstart) (readBound_eq_some_iff.1 hstop)
  · rintro ⟨hlow, hhigh⟩
    simp [readRange, splitAtDash_append hlow.not_mem_dash, readBound_eq_some_iff.2 hlow,
      readBound_eq_some_iff.2 hhigh]

instance (text : List Char) (start stop : Addr) : Decidable (IsRange text start stop) :=
  decidable_of_iff _ readRange_eq_some_iff

theorem IsRange.isWord (h : IsRange text start stop) : IsWord text := by
  cases h with
  | @mk low high _ _ hlow hhigh =>
    refine ⟨by simp, ?_⟩
    intro c hc
    rcases List.mem_append.1 hc with hc | hc
    · exact hlow.solid c hc
    · rcases List.mem_cons.1 hc with rfl | hc
      · decide
      · exact hhigh.solid c hc

theorem Row.isRange_range (r : Row) : IsRange r.range r.start r.stop :=
  .mk (readBound_eq_some_iff.1 (readBound_boundText r.start)) (readBound_eq_some_iff.1 (readBound_boundText r.stop))

end Maps

end Footprint
