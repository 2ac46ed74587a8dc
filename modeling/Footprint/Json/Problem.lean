import Footprint.Json.Numeral
import Footprint.Text.Quoted

/-!
# What is wrong with a JSON text

The reasons for which a text is not the record it should be, and their wordings.
-/

namespace Footprint.Json

/-- What stands in a text where something else was expected. -/
inductive Found where
  | integer (i : Int)
  | floating
  | bool (b : Bool)
  | string (s : String)
  | null
  | sequence
  | map
  -- The name of a variant without the content that the variant has.
  | bareVariant
deriving DecidableEq, Repr

/-- Why a text is not the record it should be. -/
inductive Problem where
  -- The text is not JSON, or goes on behind its value.
  | malformed
  | wrongType (found : Found) (expected : String)
  | wrongValue (found : Found) (expected : String)
  | wrongLength (len : Nat) (expected : String)
  | missingField (name : String)
  | duplicateField (name : String)
  | unknownVariant (name : String) (known : List String)
deriving DecidableEq, Repr

namespace Found

def text : Found → String
  | integer i => "integer `" ++ toString i ++ "`"
  | floating => "floating point"
  | bool b => "boolean `" ++ toString b ++ "`"
  | string s => "string " ++ Text.quoted s
  | null => "null"
  | sequence => "sequence"
  | map => "map"
  | bareVariant => "unit variant"

end Found

namespace Problem

/-- A name between backquotes. -/
def name (s : String) : String := "`" ++ s ++ "`"

/-- The wording of the names that would have been right. -/
def choice : List String → String
  | [a] => name a
  | [a, b] => name a ++ " or " ++ name b
  | names => "one of " ++ ", ".intercalate (names.map name)

def message : Problem → String
  | malformed => "syntax error"
  | wrongType found expected => "invalid type: " ++ found.text ++ ", expected " ++ expected
  | wrongValue found expected => "invalid value: " ++ found.text ++ ", expected " ++ expected
  | wrongLength len expected => "invalid length " ++ toString len ++ ", expected " ++ expected
  | missingField field => "missing field " ++ name field
  | duplicateField field => "duplicate field " ++ name field
  | unknownVariant variant known =>
    "unknown variant " ++ name variant ++ ", expected " ++ choice known

end Problem

/-- The characters of a string literal, which must not hold half a surrogate pair. -/
def textOf (pieces : List Piece) : Except Problem String :=
  match Piece.decode pieces with
  | some cs => .ok (String.ofList cs)
  | none => .error .malformed

/-- What a value is to a reader that expected something else. The value is looked at no further than
that takes: an array or an object by its first character, a number or a string as a whole. -/
def found : Value → Except Problem Found
  | .null => .ok .null
  | .bool b => .ok (.bool b)
  | .number n =>
    match n.kind with
    | .natural n => .ok (.integer n)
    | .negative i => .ok (.integer i)
    | .floating => .ok .floating
    | .beyond => .error .malformed
  | .string s => do
    let text ← textOf s
    return .string text
  | .array _ => .ok .sequence
  | .object _ => .ok .map
  | .broken => .error .malformed

/-- Refuses a value of another type. -/
def refuse {α : Type} (v : Value) (expected : String) : Except Problem α := do
  let what ← found v
  throw (.wrongType what expected)

end Footprint.Json
