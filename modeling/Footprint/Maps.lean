import Footprint.Address
import Footprint.Text.Blank
import Footprint.Text.Hex

/-!
# Listings of a process's mappings

The kernel lists the mappings of a process one per line: bounds in hexadecimal with a dash between
them, permissions, offset, device, inode and perhaps a path, separated by blanks. Reading such a
listing keeps the entries in order and sets malformed lines apart; blank lines are nothing.
-/

namespace Footprint

/-- One mapping of a process as the kernel lists it. -/
structure MapEntry where
  start : Addr
  stop : Addr
  perms : String
  path : Option String
deriving DecidableEq, Repr, Inhabited

namespace MapEntry

def contains (e : MapEntry) (a : Addr) : Bool :=
  e.start ≤ a && a < e.stop

end MapEntry

namespace Maps

/-- The number that hexadecimal digits continue, if it stays below `2 ^ 64`. -/
def hexFrom (value : Nat) : List Char → Option Nat
  | [] => some value
  | c :: rest =>
    match Text.hexValue? c with
    | some d => if value * 16 + d < UInt64.size then hexFrom (value * 16 + d) rest else none
    | none => none

/-- A bound in hexadecimal: at least one digit, perhaps after a plus sign. -/
def readBound (text : List Char) : Option Addr :=
  let digits := match text with
    | '+' :: rest => rest
    | _ => text
  if digits.isEmpty then none else (hexFrom 0 digits).map UInt64.ofNat

/-- What stands before and after the first dash. -/
def splitAtDash (text : List Char) : Option (List Char × List Char) :=
  match text.dropWhile (· != '-') with
  | [] => none
  | _ :: after => some (text.takeWhile (· != '-'), after)

/-- The entry that the words of a line spell. -/
def readWords : List (List Char) → Option MapEntry
  | range :: perms :: _offset :: _device :: _inode :: path => do
    let (low, high) ← splitAtDash range
    let start ← readBound low
    let stop ← readBound high
    let joined := Text.joinWords path
    return { start, stop, perms := String.ofList perms,
             path := if joined.isEmpty then none else some (String.ofList joined) }
  | _ => none

/-- What a line of a listing is. -/
inductive Line where
  | entry (e : MapEntry)
  | blank
  | malformed (text : String)
deriving DecidableEq, Repr

def readLine (line : List Char) : Line :=
  match readWords (Text.words line) with
  | some e => .entry e
  | none => if line.all Text.isBlank then .blank else .malformed (String.ofList line)

def entries (text : String) : List MapEntry :=
  (Text.lines text.toList).filterMap fun line =>
    match readLine line with
    | .entry e => some e
    | _ => none

def malformedLines (text : String) : List String :=
  (Text.lines text.toList).filterMap fun line =>
    match readLine line with
    | .malformed l => some l
    | _ => none

def warning (line : String) : String :=
  "Skipping malformed maps line: " ++ line

end Maps

end Footprint
