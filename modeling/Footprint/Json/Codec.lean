import Footprint.Json.Parse
import Footprint.Json.Problem
import Footprint.Json.Render

/-!
# Reading and writing records

A codec reads a type from JSON trees and writes it back. Records are read from an object, with its
members in any order and unknown ones skipped, or from an array of the fields in their order. A
variant is a bare name, or an object with the name as its one key.

Readers go from left to right and report the first fault.
-/

namespace Footprint.Json

/-- How a type is read from JSON and written to it. -/
structure Codec (α : Type) where
  read : Value → Except Problem α
  write : α → Value

namespace Codec

/-- Reads a whole text: one value and nothing but spaces behind it. -/
def parse {α : Type} (codec : Codec α) (text : String) : Except Problem α := do
  let (v, rest) := Parse.document text.toList
  let a ← codec.read v
  match rest with
  | some rest => if (Parse.skipSpace rest).isEmpty then return a else throw .malformed
  | none => throw .malformed

def print {α : Type} (codec : Codec α) (a : α) : String :=
  (codec.write a).render

/-- The codec of a type whose values correspond to those of another. -/
def map {α β : Type} (codec : Codec α) (forth : α → β) (back : β → α) : Codec β where
  read v := do
    let a ← codec.read v
    return forth a
  write b := codec.write (back b)

/-- The integers of a range, called `name` where something else stands. -/
def integer (least greatest : Int) (name : String) : Codec Int where
  read v :=
    let within (i : Int) : Except Problem Int :=
      if least ≤ i ∧ i ≤ greatest then .ok i else .error (.wrongValue (.integer i) name)
    match v with
    | .number n =>
      match n.kind with
      | .natural n => within n
      | .negative i => within i
      | _ => refuse v name
    | _ => refuse v name
  write := .int

/-- Words of 64 bits under the name that their field calls for. -/
def word (name : String) : Codec UInt64 :=
  (integer 0 18446744073709551615 name).map (fun i => UInt64.ofNat i.toNat) (fun w => w.toNat)

def address : Codec UInt64 := word "u64"

/-- A count of things in memory. -/
def count : Codec UInt64 := word "usize"

def count32 : Codec UInt32 :=
  (integer 0 4294967295 "u32").map (fun i => UInt32.ofNat i.toNat) (fun w => w.toNat)

def signed32 : Codec Int := integer (-2147483648) 2147483647 "i32"

def bool : Codec Bool where
  read
    | .bool b => .ok b
    | v => refuse v "a boolean"
  write := .bool

/-- A text under the name that its field calls for. -/
def text (name : String) : Codec String where
  read
    | .string s => textOf s
    | v => refuse v name
  write := .text

def string : Codec String := text "a string"

def path : Codec String := text "path string"

/-- A value that may be null. -/
def optional {α : Type} (codec : Codec α) : Codec (Option α) where
  read
    | .null => .ok none
    | v => do
      let a ← codec.read v
      return some a
  write
    | none => .null
    | some a => codec.write a

/-- Reads the items of an array one after the other. -/
def readItems {α : Type} (codec : Codec α) : Items → Except Problem (List α)
  | .done => .ok []
  | .broken => .error .malformed
  | .cons item rest => do
    let a ← codec.read item
    let more ← readItems codec rest
    return a :: more

def list {α : Type} (codec : Codec α) : Codec (List α) where
  read
    | .array items => readItems codec items
    | v => refuse v "a sequence"
  write as := .list (as.map codec.write)

end Codec

/-- A field of the record type `ρ`. -/
structure Field (ρ : Type) where
  name : String
  -- Reads the field's value, which then replaces the one in a record.
  read : Value → Except Problem (ρ → ρ)
  write : ρ → Value
  -- Whether an object without the field is no record.
  required : Bool

namespace Field

/-- A field that must be there. -/
def mandatory {ρ α : Type} (name : String) (codec : Codec α) (get : ρ → α) (put : α → ρ → ρ) :
    Field ρ where
  name := name
  read v := do
    let a ← codec.read v
    return put a
  write r := codec.write (get r)
  required := true

/-- A field that keeps the value it has beforehand when it is left out of an object. -/
def defaulted {ρ α : Type} (name : String) (codec : Codec α) (get : ρ → α) (put : α → ρ → ρ) :
    Field ρ :=
  { mandatory name codec get put with required := false }

end Field

/-- The form of a record type. -/
structure RecordForm (ρ : Type) where
  -- What the record is called where something else stands.
  title : String
  -- The record before any field was read.
  blank : ρ
  fields : List (Field ρ)
  -- Whether an array may leave out fields at its end.
  mayStopEarly : Bool

namespace RecordForm

variable {ρ : Type}

/-- Reads the members of an object into a record; `seen` are the fields read before. -/
def readMembers (form : RecordForm ρ) (seen : List String) (record : ρ) :
    Members → Except Problem ρ
  | .broken => .error .malformed
  | .done =>
    match form.fields.find? fun f => f.required && !seen.contains f.name with
    | some f => .error (.missingField f.name)
    | none => .ok record
  | .cons key v rest => do
    let name ← textOf key
    match form.fields.find? fun f => f.name = name with
    | some f =>
      if seen.contains name then throw (.duplicateField name)
      let put ← f.read v
      readMembers form (name :: seen) (put record) rest
    | none =>
      if v.intact then readMembers form seen record rest else throw .malformed

/-- Reads the items of an array into the fields in their order; `done` items were read before. -/
def readItems (form : RecordForm ρ) (done : Nat) (record : ρ) :
    List (Field ρ) → Items → Except Problem ρ
  | _, .broken => .error .malformed
  | [], .done => .ok record
  | [], .cons _ _ => .error .malformed
  | _ :: _, .done =>
    if form.mayStopEarly then .ok record
    else
      let expected := s!" with {form.fields.length} elements"
      .error (.wrongLength done (form.title ++ expected))
  | f :: fs, .cons item rest => do
    let put ← f.read item
    readItems form (done + 1) (put record) fs rest

def codec (form : RecordForm ρ) : Codec ρ where
  read
    | .object members => form.readMembers [] form.blank members
    | .array items => form.readItems 0 form.blank form.fields items
    | v => refuse v form.title
  write record := .record (form.fields.map fun f => (f.name, f.write record))

end RecordForm

/-- A variant of the type `α`, by what it holds. -/
inductive Variant (α : Type) where
  -- A variant without content.
  | plain (a : α)
  -- A variant with one value.
  | holding (read : Value → Except Problem α)
  -- A variant with fields.
  | fields (read : Value → Except Problem α)

namespace Variant

variable {α : Type}

/-- Reads a variant given by its bare name. -/
def bare : Variant α → Except Problem α
  | plain a => .ok a
  | holding _ => .error (.wrongType .bareVariant "newtype variant")
  | fields _ => .error (.wrongType .bareVariant "struct variant")

/-- Reads a variant given with its content; that of a plain one is null. -/
def content : Variant α → Value → Except Problem α
  | plain a, .null => .ok a
  | plain _, v => refuse v "unit"
  | holding read, v => read v
  | fields read, v => read v

def named (variants : List (String × Variant α)) (name : String) : Except Problem (Variant α) :=
  match variants.find? (·.1 = name) with
  | some (_, variant) => .ok variant
  | none => .error (.unknownVariant name (variants.map (·.1)))

def read (variants : List (String × Variant α)) : Value → Except Problem α
  | .string s => do
    let name ← textOf s
    let variant ← named variants name
    variant.bare
  | .object (.cons key v rest) => do
    let name ← textOf key
    let variant ← named variants name
    let a ← variant.content v
    match rest with
    | .done => return a
    | _ => throw .malformed
  | _ => .error .malformed

end Variant

/-- A type of plain variants, each with its name. -/
def Codec.names {α : Type} [DecidableEq α] (table : List (α × String)) : Codec α where
  read := Variant.read (table.map fun entry => (entry.2, .plain entry.1))
  write a := .text (((table.find? fun entry => entry.1 = a).map (·.2)).getD "")

end Footprint.Json
