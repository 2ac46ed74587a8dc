/-!
# JSON texts as trees

The tree of a JSON text that may break off. A text that is not well formed still has a tree: the
part that was read before the fault, with the fault marked in its place. Reading a record from the
tree from left to right therefore meets a wrong type and a syntax fault in the order in which they
stand in the text.
-/

namespace Footprint.Json

/-- A part of a string literal. -/
inductive Piece where
  -- A character, written as itself or by a short escape.
  | char (c : Char)
  -- A 16-bit unit, written as an escape with four hexadecimal digits.
  | unit (u : Nat)
deriving DecidableEq, Repr

/-- A number literal as it is written; digits are most significant first. -/
structure Numeral where
  negative : Bool
  whole : List Nat
  -- The digits behind the point; empty if there is no point.
  fraction : List Nat
  -- The sign and the digits of the exponent.
  exponent : Option (Bool × List Nat)
deriving DecidableEq, Repr

mutual

/-- A JSON value as far as the text goes. -/
inductive Value where
  | null
  | bool (b : Bool)
  | number (n : Numeral)
  | string (s : List Piece)
  | array (items : Items)
  | object (members : Members)
  -- The text stops being JSON here.
  | broken

/-- The items of an array, up to its end or up to a fault. -/
inductive Items where
  | done
  | broken
  | cons (item : Value) (rest : Items)

/-- The members of an object, up to its end or up to a fault. -/
inductive Members where
  | done
  | broken
  | cons (key : List Piece) (value : Value) (rest : Members)

end

mutual

/-- Whether the value is complete JSON. -/
def Value.intact : Value → Bool
  | .array items => items.intact
  | .object members => members.intact
  | .broken => false
  | _ => true

/-- Whether every item and the end of the array are there. -/
def Items.intact : Items → Bool
  | .done => true
  | .broken => false
  | .cons item rest => item.intact && rest.intact

/-- Whether every member and the end of the object are there. -/
def Members.intact : Members → Bool
  | .done => true
  | .broken => false
  | .cons _ value rest => value.intact && rest.intact

end

def Items.ofList : List Value → Items
  | [] => .done
  | item :: rest => .cons item (ofList rest)

def Members.ofList : List (List Piece × Value) → Members
  | [] => .done
  | (key, value) :: rest => .cons key value (ofList rest)

namespace Piece

/-- The letter of a short escape and the character it stands for. -/
def shortEscapes : List (Char × Char) :=
  [('"', '"'), ('\\', '\\'), ('/', '/'), ('b', '\x08'), ('f', '\x0c'), ('n', '\n'), ('r', '\r'),
   ('t', '\t')]

/-- The piece that writes a character: controls without a short escape go by their unit. -/
def ofChar (c : Char) : Piece :=
  if c.toNat < 0x20 ∧ ¬ shortEscapes.any (·.2 = c) then .unit c.toNat else .char c

/-- Whether a unit is the first half of a surrogate pair. -/
def isHigh (u : Nat) : Bool := 0xd800 ≤ u && u ≤ 0xdbff

/-- Whether a unit is the second half of a surrogate pair. -/
def isLow (u : Nat) : Bool := 0xdc00 ≤ u && u ≤ 0xdfff

/-- The characters that pieces spell, unless a surrogate stands without its partner. -/
def decode : List Piece → Option (List Char)
  | [] => some []
  | .char c :: rest => (decode rest).map (c :: ·)
  | .unit u :: rest =>
    if isHigh u then
      match rest with
      | .unit v :: rest' =>
        if isLow v then
          (decode rest').map (Char.ofNat (0x10000 + (u - 0xd800) * 0x400 + (v - 0xdc00)) :: ·)
        else none
      | _ => none
    else if isLow u then none
    else (decode rest).map (Char.ofNat u :: ·)

end Piece

/-- The pieces that write a text. -/
def piecesOf (s : String) : List Piece :=
  s.toList.map Piece.ofChar

def Value.text (s : String) : Value :=
  .string (piecesOf s)

def Value.list (items : List Value) : Value :=
  .array (.ofList items)

def Value.record (members : List (String × Value)) : Value :=
  .object (.ofList (members.map fun m => (piecesOf m.1, m.2)))

end Footprint.Json
