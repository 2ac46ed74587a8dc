import Footprint.Json.Numeral

/-!
# Writing JSON text

The compact text of a tree: no spaces, short escapes where there are any, and four lower-case digits
for every other unit. A fault in the tree has no text.
-/

namespace Footprint.Json

namespace Render

def hexDigit (d : Nat) : Char :=
  if d < 10 then Char.ofNat ('0'.toNat + d) else Char.ofNat ('a'.toNat + d - 10)

/-- The text of a piece inside a string literal. A slash needs no escape. -/
def piece : Piece → List Char
  | .char c =>
    match Piece.shortEscapes.find? (fun e => e.2 = c ∧ c ≠ '/') with
    | some (letter, _) => ['\\', letter]
    | none => [c]
  | .unit u =>
    ['\\', 'u', hexDigit (u / 4096 % 16), hexDigit (u / 256 % 16), hexDigit (u / 16 % 16),
     hexDigit (u % 16)]

def string (pieces : List Piece) : List Char :=
  '"' :: pieces.flatMap piece ++ ['"']

def digits (ds : List Nat) : List Char :=
  ds.map fun d => Char.ofNat ('0'.toNat + d)

def numeral (n : Numeral) : List Char :=
  let sign := if n.negative then ['-'] else []
  let fraction := if n.fraction.isEmpty then [] else '.' :: digits n.fraction
  let exponent := match n.exponent with
    | none => []
    | some (negative, ds) => 'e' :: (if negative then ['-'] else []) ++ digits ds
  sign ++ digits n.whole ++ fraction ++ exponent

mutual

def value : Value → List Char
  | .null => "null".toList
  | .bool true => "true".toList
  | .bool false => "false".toList
  | .number n => numeral n
  | .string s => string s
  | .array items => '[' :: itemList items
  | .object members => '\x7b' :: memberList members
  | .broken => []

/-- The text of the items of an array and of its end. -/
def itemList : Items → List Char
  | .done => [']']
  | .broken => []
  | .cons item .done => value item ++ [']']
  | .cons item rest => value item ++ ',' :: itemList rest

/-- The text of the members of an object and of its end. -/
def memberList : Members → List Char
  | .done => ['\x7d']
  | .broken => []
  | .cons key v .done => string key ++ ':' :: value v ++ ['\x7d']
  | .cons key v rest => string key ++ ':' :: value v ++ ',' :: memberList rest

end

end Render

def Value.render (v : Value) : String :=
  String.ofList (Render.value v)

end Footprint.Json
