import Footprint.Json.Value

/-!
# Reading JSON text

The tree of a text. Every reader answers what it read together with the rest of the text, or without
a rest if the text stopped being JSON on the way.
-/

namespace Footprint.Json.Parse

/-- Whether a character may stand between the parts of a text. -/
def isSpace (c : Char) : Bool :=
  c = ' ' || c = '\t' || c = '\n' || c = '\r'

/-- The text from its first character that is no space. -/
def skipSpace (text : List Char) : List Char :=
  text.dropWhile isSpace

def hexValue (c : Char) : Option Nat :=
  if '0' ≤ c ∧ c ≤ '9' then some (c.toNat - '0'.toNat)
  else if 'a' ≤ c ∧ c ≤ 'f' then some (c.toNat - 'a'.toNat + 10)
  else if 'A' ≤ c ∧ c ≤ 'F' then some (c.toNat - 'A'.toNat + 10)
  else none

/-- The unit that four hexadecimal digits write. -/
def unitOf (a b c d : Char) : Option Nat := do
  let a ← hexValue a
  let b ← hexValue b
  let c ← hexValue c
  let d ← hexValue d
  return ((a * 16 + b) * 16 + c) * 16 + d

/-- The character that a short escape stands for. -/
def shortEscape (letter : Char) : Option Char :=
  (Piece.shortEscapes.find? (·.1 = letter)).map (·.2)

/-- The pieces of a string literal behind its opening quote, and the text behind its closing one. -/
def string : List Char → Option (List Piece × List Char)
  | [] => none
  | '"' :: rest => some ([], rest)
  | '\\' :: 'u' :: a :: b :: c :: d :: rest => do
    let u ← unitOf a b c d
    let (pieces, rest) ← string rest
    return (.unit u :: pieces, rest)
  | '\\' :: letter :: rest => do
    let c ← shortEscape letter
    let (pieces, rest) ← string rest
    return (.char c :: pieces, rest)
  | c :: rest =>
    if c = '\\' ∨ c.toNat < 0x20 then none
    else do
      let (pieces, rest) ← string rest
      return (.char c :: pieces, rest)

def isDigit (c : Char) : Bool :=
  '0' ≤ c && c ≤ '9'

/-- The digits at the start of a text and what follows them. -/
def digits (text : List Char) : List Nat × List Char :=
  ((text.takeWhile isDigit).map (fun c => c.toNat - '0'.toNat), text.dropWhile isDigit)

/-- The digits at the start of a text, of which there must be one. -/
def someDigits (text : List Char) : Option (List Nat × List Char) :=
  match digits text with
  | ([], _) => none
  | read => some read

/-- The fraction of a number, if a point starts one. -/
def fraction : List Char → Option (List Nat × List Char)
  | '.' :: rest => someDigits rest
  | text => some ([], text)

/-- The digits of an exponent behind its letter, with its sign. -/
def signedDigits : List Char → Option ((Bool × List Nat) × List Char)
  | '+' :: rest => (someDigits rest).map fun (ds, rest) => ((false, ds), rest)
  | '-' :: rest => (someDigits rest).map fun (ds, rest) => ((true, ds), rest)
  | text => (someDigits text).map fun (ds, rest) => ((false, ds), rest)

/-- The exponent of a number, if a letter starts one. -/
def exponent (text : List Char) : Option (Option (Bool × List Nat) × List Char) :=
  match text with
  | 'e' :: rest | 'E' :: rest => (signedDigits rest).map fun (e, rest) => (some e, rest)
  | _ => some (none, text)

/-- A number literal behind its sign. A whole part of several digits does not start with zero. -/
def numeral (negative : Bool) (text : List Char) : Option (Numeral × List Char) := do
  let (whole, rest) ← someDigits text
  if whole.head? = some 0 ∧ whole.length ≠ 1 then none
  let (fraction, rest) ← fraction rest
  let (exponent, rest) ← exponent rest
  return ({ negative, whole, fraction, exponent }, rest)

/-- A word that the text must start with, and the value that it stands for. -/
def word (value : Value) : List Char → List Char → Value × Option (List Char)
  | [], rest => (value, some rest)
  | w :: ws, c :: rest => if w = c then word value ws rest else (.broken, none)
  | _ :: _, [] => (.broken, none)

def number (negative : Bool) (text : List Char) : Value × Option (List Char) :=
  match numeral negative text with
  | some (n, rest) => (.number n, some rest)
  | none => (.broken, none)

mutual

/-- The value at the start of a text. -/
def value : Nat → List Char → Value × Option (List Char)
  | 0, _ => (.broken, none)
  | fuel + 1, text =>
    match skipSpace text with
    | 'n' :: rest => word .null "ull".toList rest
    | 't' :: rest => word (.bool true) "rue".toList rest
    | 'f' :: rest => word (.bool false) "alse".toList rest
    | '-' :: rest => number true rest
    | '"' :: rest =>
      match string rest with
      | some (pieces, rest) => (.string pieces, some rest)
      | none => (.broken, none)
    | '[' :: rest =>
      match skipSpace rest with
      | ']' :: rest => (.array .done, some rest)
      | rest =>
        let (items, rest) := items fuel rest
        (.array items, rest)
    | '{' :: rest =>
      match skipSpace rest with
      | '}' :: rest => (.object .done, some rest)
      | rest =>
        let (members, rest) := members fuel rest
        (.object members, rest)
    | c :: rest => if isDigit c then number false (c :: rest) else (.broken, none)
    | [] => (.broken, none)

/-- The items of an array from one of them on. -/
def items : Nat → List Char → Items × Option (List Char)
  | 0, _ => (.broken, none)
  | fuel + 1, text =>
    match value fuel text with
    | (item, none) => (.cons item .broken, none)
    | (item, some rest) =>
      match skipSpace rest with
      | ']' :: rest => (.cons item .done, some rest)
      | ',' :: rest =>
        let (more, rest) := items fuel rest
        (.cons item more, rest)
      | _ => (.cons item .broken, none)

/-- The members of an object from one of them on. -/
def members : Nat → List Char → Members × Option (List Char)
  | 0, _ => (.broken, none)
  | fuel + 1, text =>
    match skipSpace text with
    | '"' :: rest =>
      match string rest with
      | none => (.broken, none)
      | some (key, rest) =>
        match skipSpace rest with
        | ':' :: rest =>
          match value fuel rest with
          | (v, none) => (.cons key v .broken, none)
          | (v, some rest) =>
            match skipSpace rest with
            | '}' :: rest => (.cons key v .done, some rest)
            | ',' :: rest =>
              let (more, rest) := members fuel rest
              (.cons key v more, rest)
            | _ => (.cons key v .broken, none)
        | _ => (.cons key .broken .broken, none)
    | _ => (.broken, none)

end

/-- The fuel that reads any text: two steps for each character. -/
def fuelFor (text : List Char) : Nat :=
  3 * text.length + 3

/-- The value at the start of a text and what follows it. -/
def document (text : List Char) : Value × Option (List Char) :=
  value (fuelFor text) text

end Footprint.Json.Parse
