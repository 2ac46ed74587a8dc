import Footprint.Binary64

/-!
# Shortest decimal text

The decimal text of a positive double: the fewest digits that read back as the same double, of
several such decimals the nearest and of two equally near the greater, in positional notation
without an exponent.
-/

namespace Footprint.Decimal

open Binary64

/-- The exponent `p` with `10 ^ (p - 1) ≤ num / den < 10 ^ p`, for a positive ratio. -/
def pointOf (num den : Nat) : Int :=
  if den ≤ num then (Nat.toDigits 10 (num / den)).length
  else 1 - ((Nat.toDigits 10 ((den - 1) / num)).length : Int)

/-- Whether `candidate / (4 * den)` rounds to the double, whose quarters count from the midpoints
with its neighbours; `num / den` is the double itself. The midpoints belong to an even significand. -/
def roundsTo (x : Positive) (candidateTimesFour : Nat) (unit : Nat) : Bool :=
  let below := if x.significand = Nat.pow 2 52 then 4 * x.significand - 1 else 4 * x.significand - 2
  let above := 4 * x.significand + 2
  if x.significand % 2 = 0 then
    below * unit ≤ candidateTimesFour && candidateTimesFour ≤ above * unit
  else
    below * unit < candidateTimesFour && candidateTimesFour < above * unit

/-- The multiple of `10 ^ place` nearest to the double among those that round to it, as a count of
`10 ^ place`. -/
def onGrid (x : Positive) (place : Int) : Option Nat :=
  -- `x = num / den` in units of the grid
  let num := x.numerator * Nat.pow 10 (-place).toNat
  let den := x.denominator * Nat.pow 10 place.toNat
  let low := num / den
  let unit := num / x.significand
  let hits := [low, low + 1].filter fun c => roundsTo x (4 * c * den) unit
  match hits with
  | [] => none
  | [c] => some c
  | c :: d :: _ => if num - c * den < d * den - num then some c else some d

/-- The digits of the shortest decimal, tried from `count` digits on, and the grid place. -/
def shortestFrom (x : Positive) (point : Int) : Nat → Nat → Nat × Int
  | 0, _ => (x.numerator, 0)
  | fuel + 1, count =>
    let place := point - count
    match onGrid x place with
    | some c => (c, place)
    | none => shortestFrom x point fuel (count + 1)

/-- The shortest decimal of a double as a multiple of a power of ten. -/
def shortest (x : Positive) : Nat × Int :=
  shortestFrom x (pointOf x.numerator x.denominator) 17 1

def positional (n : Nat) (place : Int) : String :=
  let digits := Nat.toDigits 10 n
  if 0 ≤ place then
    String.ofList (digits ++ List.replicate place.toNat '0')
  else
    let width := (-place).toNat
    let padded := List.replicate (width + 1 - digits.length) '0' ++ digits
    let whole := padded.take (padded.length - width)
    let fraction := ((padded.drop (padded.length - width)).reverse.dropWhile (· = '0')).reverse
    if fraction.isEmpty then String.ofList whole
    else String.ofList (whole ++ '.' :: fraction)

/-- The text of the quotient of two natural numbers, each rounded to a double before the division
and the quotient rounded again. -/
def ratioText (num den : Nat) : String :=
  if num = 0 then "0"
  else
    let (n, place) := shortest (Positive.ofRatio (roundNat num) (roundNat den))
    positional n place

end Footprint.Decimal
