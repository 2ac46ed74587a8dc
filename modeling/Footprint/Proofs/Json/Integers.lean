import Footprint.Proofs.Json.Grammar

/-!
# Integer literals

The literal of an integer: its digits are those of its magnitude without leading zeros (`digitsOf`), it is a
number of the grammar (`spelled_ofInt`), and it is read as an integer of its value as long as a 64-bit word
has room for that, with a sign or without (`kind_ofInt_of_nonneg`, `kind_ofInt_of_neg`).
-/

namespace Footprint.Json.Numeral

variable {n : Nat} {i : Int}

/-! ## Digits -/

theorem digitsOf_of_lt (h : n < 10) : digitsOf n = [n] := by
  rw [digitsOf, if_pos h]

theorem digitsOf_of_le (h : 10 ≤ n) : digitsOf n = digitsOf (n / 10) ++ [n % 10] := by
  rw [digitsOf, if_neg (Nat.not_lt.2 h)]

theorem digitsOf_ne_nil (n : Nat) : digitsOf n ≠ [] := by
  rcases Nat.lt_or_ge n 10 with h | h
  · simp [digitsOf_of_lt h]
  · simp [digitsOf_of_le h]

theorem lt_of_mem_digitsOf (n : Nat) : ∀ d ∈ digitsOf n, d < 10 := by
  induction n using Nat.strongRecOn with
  | ind n ih =>
    intro d hd
    rcases Nat.lt_or_ge n 10 with h | h
    · rw [digitsOf_of_lt h, List.mem_singleton] at hd
      omega
    · rw [digitsOf_of_le h, List.mem_append, List.mem_singleton] at hd
      rcases hd with hd | hd
      · exact ih (n / 10) (by omega) d hd
      · omega

/-- Only zero starts with the digit zero. -/
theorem head?_digitsOf (n : Nat) : (digitsOf n).head? = some 0 → n = 0 := by
  induction n using Nat.strongRecOn with
  | ind n ih =>
    intro hhead
    rcases Nat.lt_or_ge n 10 with h | h
    · rw [digitsOf_of_lt h] at hhead
      exact Option.some.inj hhead
    · obtain ⟨d, ds, hds⟩ := List.exists_cons_of_ne_nil (digitsOf_ne_nil (n / 10))
      rw [digitsOf_of_le h, hds] at hhead
      have hzero := ih (n / 10) (by omega) (by rw [hds]; exact hhead)
      omega

theorem valueUpTo_digitsOf (limit n : Nat) : valueUpTo limit (digitsOf n) = min limit n := by
  induction n using Nat.strongRecOn with
  | ind n ih =>
    rcases Nat.lt_or_ge n 10 with h | h
    · simp [digitsOf_of_lt h, valueUpTo]
    · have hhigh := ih (n / 10) (by omega)
      rw [valueUpTo] at hhigh ⊢
      rw [digitsOf_of_le h, List.foldl_append, hhigh, List.foldl_cons, List.foldl_nil]
      omega

/-! ## Literals -/

/-- The literal of an integer is a number of the grammar. -/
theorem spelled_ofInt (i : Int) : (ofInt i).Spelled (Render.numeral (ofInt i)) := by
  have hdigits : Digits (ofInt i).whole (Render.digits (ofInt i).whole) :=
    .some (digitsOf_ne_nil _) (lt_of_mem_digitsOf _)
  have hzero : (ofInt i).whole.head? = some 0 → (ofInt i).whole.length = 1 := by
    intro h
    have hnone : i.natAbs = 0 := head?_digitsOf i.natAbs h
    simp [ofInt, hnone, digitsOf_of_lt]
  have hspelled := Spelled.mk hdigits hzero .none .none
  simpa [Render.numeral, ofInt] using hspelled

theorem kind_ofInt_of_nonneg (hi : 0 ≤ i) (hfits : i < UInt64.size) : (ofInt i).kind = .natural i.toNat := by
  have hvalue : min UInt64.size i.natAbs = i.toNat := by omega
  have hsign : ¬ i < 0 := by omega
  have hsmall : i.toNat < UInt64.size := by omega
  simp [kind, ofInt, valueUpTo_digitsOf, hvalue, hsign, hsmall]

theorem kind_ofInt_of_neg (hi : i < 0) (hfits : 2 * i.natAbs ≤ UInt64.size) :
    (ofInt i).kind = .negative i := by
  have hvalue : min UInt64.size i.natAbs = i.natAbs := by omega
  have hsome : 0 < i.natAbs := by omega
  have habs : -(i.natAbs : Int) = i := by omega
  simp only [kind, ofInt, valueUpTo_digitsOf, hvalue, habs]
  simp [hi, hfits, hsome]

end Footprint.Json.Numeral
