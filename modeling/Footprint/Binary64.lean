/-!
# Double-precision numbers as integers

Rounding to the numbers of the double-precision format, in exact natural arithmetic: 53 significant
bits, ties to the even neighbour, and the bound from which on a number rounds to infinity.
-/

namespace Footprint.Binary64

/-- The quotient rounded to the nearest integer, a tie to the even one. -/
def roundDiv (num den : Nat) : Nat :=
  let q := num / den
  let r := num % den
  if den < 2 * r ∨ (2 * r = den ∧ q % 2 = 1) then q + 1 else q

/-- The natural number rounded to 53 significant bits. -/
def roundNat (n : Nat) : Nat :=
  let scale := Nat.pow 2 (n.log2 - 52)
  roundDiv n scale * scale

/-- The least magnitude that rounds to infinity. -/
def infinityBound : Nat := Nat.pow 2 1024 - Nat.pow 2 970

/-- A positive double: `significand * 2 ^ exponent`, the significand below `2 ^ 53`. -/
structure Positive where
  significand : Nat
  exponent : Int
deriving DecidableEq, Repr

namespace Positive

/-- The double nearest to the positive ratio `num / den`, for ratios inside the normal range. -/
def ofRatio (num den : Nat) : Positive :=
  -- the quotient of a dividend scaled by `2 ^ up` over a divisor scaled by `2 ^ down` has 53 or 54 bits
  let gap : Int := (num.log2 : Int) - den.log2
  let shift : Int := gap - 53
  let up := (-shift).toNat
  let down := shift.toNat
  let num' := num * Nat.pow 2 up
  let den' := den * Nat.pow 2 down
  if num' / den' < Nat.pow 2 53 then
    ⟨roundDiv num' den', shift⟩
  else
    ⟨roundDiv num' (den' * 2), shift + 1⟩

/-- The numerator of a double over `denominator`. -/
def numerator (x : Positive) : Nat := x.significand * Nat.pow 2 x.exponent.toNat

/-- The power of two that a double is a fraction over. -/
def denominator (x : Positive) : Nat := Nat.pow 2 (-x.exponent).toNat

end Positive

end Footprint.Binary64
