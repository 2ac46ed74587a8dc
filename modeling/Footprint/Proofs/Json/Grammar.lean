import Footprint.Json.Render

/-!
# The grammar of JSON texts

Which texts are JSON, independently of how they are read or written: a relation between trees and texts with
one rule for each form (`Value.Spelled`). A tree has many texts. Spaces may stand between the parts, an escape
may be in either case, and an exponent may have either letter and a plus sign. What a string literal says is a
relation of its own (`Piece.Means`), because a character can be written as itself or by its 16-bit units.
-/

namespace Footprint.Json

/-! ## Spaces -/

/-- A text that may stand between the parts of another. -/
def Blank (s : List Char) : Prop :=
  ∀ c ∈ s, c ∈ [' ', '\t', '\n', '\r']

/-- A text with spaces around it. -/
inductive Spaced (s : List Char) : List Char → Prop where
  | mk {a b : List Char} (ha : Blank a) (hb : Blank b) : Spaced s (a ++ (s ++ b))

/-- A text that may follow a value: nothing, a space or the end of an item. -/
def Ends (s : List Char) : Prop :=
  ∀ c ∈ s.head?, c ∈ [' ', '\t', '\n', '\r', ',', ']', '\x7d']

/-! ## Strings -/

/-- The character is the hexadecimal digit for `d`, in either case. -/
def HexDigit (c : Char) (d : Nat) : Prop :=
  "0123456789abcdef".toList[d]? = some c ∨ "0123456789ABCDEF".toList[d]? = some c

/-- The texts of a piece inside a string literal. -/
inductive Piece.Spelled : Piece → List Char → Prop where
  | raw {c : Char} (hvisible : 0x20 ≤ c.toNat) (hquote : c ≠ '"') (hescape : c ≠ '\\') :
      Spelled (.char c) [c]
  | short {letter c : Char} (hletter : (letter, c) ∈ shortEscapes) : Spelled (.char c) ['\\', letter]
  | unit {a b c d : Char} {x y z w : Nat} (ha : HexDigit a x) (hb : HexDigit b y) (hc : HexDigit c z)
      (hd : HexDigit d w) : Spelled (.unit (((x * 16 + y) * 16 + z) * 16 + w)) ['\\', 'u', a, b, c, d]

/-- The texts of pieces one behind the other. -/
inductive Piece.AllSpelled : List Piece → List Char → Prop where
  | nil : AllSpelled [] []
  | cons {p : Piece} {ps : List Piece} {s t : List Char} (hp : p.Spelled s) (hps : AllSpelled ps t) :
      AllSpelled (p :: ps) (s ++ t)

/-- The string literals of pieces. -/
inductive Literal (pieces : List Piece) : List Char → Prop where
  | quoted {s : List Char} (hs : Piece.AllSpelled pieces s) : Literal pieces ('"' :: s ++ ['"'])

/-- What pieces say: every character is there as itself or by its units in UTF-16. -/
inductive Piece.Means : List Piece → List Char → Prop where
  | nil : Means [] []
  | char {c : Char} {ps : List Piece} {cs : List Char} (h : Means ps cs) : Means (.char c :: ps) (c :: cs)
  | unit {c : Char} {ps : List Piece} {cs : List Char} (hc : c.toNat < 0x10000) (h : Means ps cs) :
      Means (.unit c.toNat :: ps) (c :: cs)
  | pair {c : Char} {ps : List Piece} {cs : List Char} (hc : 0x10000 ≤ c.toNat) (h : Means ps cs) :
      Means (.unit (0xd800 + (c.toNat - 0x10000) / 0x400) ::
        .unit (0xdc00 + (c.toNat - 0x10000) % 0x400) :: ps) (c :: cs)

/-- The pieces of a string literal say the text. -/
def Says (pieces : List Piece) (text : String) : Prop :=
  Piece.Means pieces text.toList

/-! ## Numbers -/

/-- The text of one or more digits. -/
inductive Digits (ds : List Nat) : List Char → Prop where
  | some (hsome : ds ≠ []) (hdigits : ∀ d ∈ ds, d < 10) : Digits ds (Render.digits ds)

/-- The texts of the digits behind the point. -/
inductive Fraction : List Nat → List Char → Prop where
  | none : Fraction [] []
  | some {ds : List Nat} {s : List Char} (hs : Digits ds s) : Fraction ds ('.' :: s)

/-- The texts of the sign of an exponent. -/
inductive ExponentSign : Bool → List Char → Prop where
  | none : ExponentSign false []
  | plus : ExponentSign false ['+']
  | minus : ExponentSign true ['-']

/-- The texts of an exponent. -/
inductive Exponent : Option (Bool × List Nat) → List Char → Prop where
  | none : Exponent none []
  | some {letter : Char} {negative : Bool} {sign : List Char} {ds : List Nat} {s : List Char}
      (hletter : letter = 'e' ∨ letter = 'E') (hsign : ExponentSign negative sign) (hs : Digits ds s) :
      Exponent (some (negative, ds)) (letter :: (sign ++ s))

/-- The texts of a number. A whole part of several digits does not start with zero. -/
inductive Numeral.Spelled (n : Numeral) : List Char → Prop where
  | mk {w f e : List Char} (hw : Digits n.whole w) (hzero : n.whole.head? = some 0 → n.whole.length = 1)
      (hf : Fraction n.fraction f) (he : Exponent n.exponent e) :
      Spelled n ((if n.negative then ['-'] else []) ++ (w ++ (f ++ e)))

/-! ## Values -/

mutual

/-- The texts of a value, without spaces around it. -/
inductive Value.Spelled : Value → List Char → Prop where
  | null : Value.Spelled .null ['n', 'u', 'l', 'l']
  | yes : Value.Spelled (.bool true) ['t', 'r', 'u', 'e']
  | no : Value.Spelled (.bool false) ['f', 'a', 'l', 's', 'e']
  | number {n : Numeral} {s : List Char} (h : n.Spelled s) : Value.Spelled (.number n) s
  | string {ps : List Piece} {s : List Char} (h : Literal ps s) : Value.Spelled (.string ps) s
  | emptyArray {a : List Char} (ha : Blank a) : Value.Spelled (.array .done) ('[' :: (a ++ [']']))
  | array {items : Items} {s : List Char} (h : Items.Spelled items s) :
      Value.Spelled (.array items) ('[' :: s)
  | emptyObject {a : List Char} (ha : Blank a) : Value.Spelled (.object .done) ('\x7b' :: (a ++ ['\x7d']))
  | object {members : Members} {s : List Char} (h : Members.Spelled members s) :
      Value.Spelled (.object members) ('\x7b' :: s)

/-- The texts of the items of an array, at least one, with the bracket behind them. -/
inductive Items.Spelled : Items → List Char → Prop where
  | last {v : Value} {s t : List Char} (hs : Value.Spelled v s) (ht : Spaced s t) :
      Items.Spelled (.cons v .done) (t ++ [']'])
  | more {v : Value} {rest : Items} {s t u : List Char} (hs : Value.Spelled v s) (ht : Spaced s t)
      (hu : Items.Spelled rest u) : Items.Spelled (.cons v rest) (t ++ ',' :: u)

/-- The texts of the members of an object, at least one, with the brace behind them. -/
inductive Members.Spelled : Members → List Char → Prop where
  | last {key : List Piece} {v : Value} {k l s t : List Char} (hk : Literal key k) (hl : Spaced k l)
      (hs : Value.Spelled v s) (ht : Spaced s t) :
      Members.Spelled (.cons key v .done) (l ++ ':' :: (t ++ ['\x7d']))
  | more {key : List Piece} {v : Value} {rest : Members} {k l s t u : List Char} (hk : Literal key k)
      (hl : Spaced k l) (hs : Value.Spelled v s) (ht : Spaced s t) (hu : Members.Spelled rest u) :
      Members.Spelled (.cons key v rest) (l ++ ':' :: (t ++ ',' :: u))

end

/-- The whole texts of a value: there may be spaces around it. -/
inductive Value.Document (v : Value) : String → Prop where
  | mk {s t : List Char} (hs : v.Spelled s) (ht : Spaced s t) : Document v (String.ofList t)

/-! ## Members by name -/

/-- What an object holds under the names that are known: their values in the order of the text. Between them
there may be members with other names, which hold any complete value. -/
inductive Members.Holds (known : List String) : Members → List (String × Value) → Prop where
  | done : Holds known .done []
  | given {key : List Piece} {name : String} {v : Value} {rest : Members} {given : List (String × Value)}
      (hkey : Says key name) (hname : name ∈ known) (hrest : Holds known rest given) :
      Holds known (.cons key v rest) ((name, v) :: given)
  | skipped {key : List Piece} {name : String} {v : Value} {rest : Members} {given : List (String × Value)}
      (hkey : Says key name) (hname : name ∉ known) (hv : v.intact = true) (hrest : Holds known rest given) :
      Holds known (.cons key v rest) given

end Footprint.Json
