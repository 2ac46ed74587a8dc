import Footprint.Binary64
import Footprint.Json.Value

/-!
# The kinds of JSON numbers

A number literal is an integer if it has neither fraction nor exponent and fits a 64-bit word, with
a sign or without; negative zero is none. Every other literal is floating, and beyond the range of
double precision it is no number at all.
-/

namespace Footprint.Json

namespace Numeral

/-- The decimal digits of a number, most significant first. -/
def digitsOf (n : Nat) : List Nat :=
  if n < 10 then [n] else digitsOf (n / 10) ++ [n % 10]
termination_by n

/-- The number that decimal digits write, or the limit if it is at least that. -/
def valueUpTo (limit : Nat) (digits : List Nat) : Nat :=
  digits.foldl (fun value d => min limit (value * 10 + d)) 0

def ofInt (i : Int) : Numeral :=
  { negative := i < 0, whole := digitsOf i.natAbs, fraction := [], exponent := none }

/-- A significand below `2 ^ 64` and the power of ten it is scaled by. -/
structure Scaled where
  significand : Nat
  power : Int
  -- Whether a digit was dropped because the significand was full.
  full : Bool
deriving DecidableEq, Repr

/-- Takes the digits of the whole part; once the significand is full they only scale it. -/
def takeWhole (digits : List Nat) : Scaled :=
  digits.foldl
    (fun s d =>
      if !s.full && s.significand * 10 + d < UInt64.size then
        { s with significand := s.significand * 10 + d }
      else
        { s with power := s.power + 1, full := true })
    ⟨0, 0, false⟩

/-- Takes the digits of the fraction up to the first for which the significand is full. -/
def takeFraction (s : Scaled) (digits : List Nat) : Scaled :=
  digits.foldl
    (fun s d =>
      if !s.full && s.significand * 10 + d < UInt64.size then
        { s with significand := s.significand * 10 + d, power := s.power - 1 }
      else
        { s with full := true })
    { s with full := false }

/-- The power of ten that an exponent stands for. From `2 ^ 31` on, exponents are all alike. -/
def exponentPower : Option (Bool × List Nat) → Int
  | none => 0
  | some (negative, digits) =>
    let power : Int := valueUpTo (Nat.pow 2 31) digits
    if negative then -power else power

/-- Whether the literal is beyond the range of double precision. The significand and the power of
ten are each rounded to a double before they are multiplied. -/
def isBeyond (n : Numeral) : Bool :=
  let s := takeFraction (takeWhole n.whole) n.fraction
  let power := s.power + exponentPower n.exponent
  if s.significand = 0 ∨ power < 0 then false
  else if 308 < power then true
  else
    Binary64.infinityBound
      ≤ Binary64.roundNat s.significand * Binary64.roundNat (Nat.pow 10 power.toNat)

/-- What a number literal is. -/
inductive Kind where
  -- An integer from 0 up to `2 ^ 64 - 1`.
  | natural (n : Nat)
  -- An integer from `-2 ^ 63` up to -1.
  | negative (i : Int)
  | floating
  -- No number of double precision.
  | beyond
deriving DecidableEq, Repr

def kind (n : Numeral) : Kind :=
  let value := valueUpTo UInt64.size n.whole
  let integral := n.fraction.isEmpty && n.exponent.isNone
  if integral && !n.negative && value < UInt64.size then .natural value
  else if integral && n.negative && 0 < value && 2 * value ≤ UInt64.size then .negative (-(value : Int))
  else if n.isBeyond then .beyond
  else .floating

end Numeral

def Value.int (i : Int) : Value :=
  .number (.ofInt i)

def Value.word (w : UInt64) : Value :=
  .int w.toNat

end Footprint.Json
