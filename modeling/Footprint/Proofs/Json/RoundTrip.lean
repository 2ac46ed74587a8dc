import Footprint.Proofs.Json.Records
import Footprint.Proofs.Json.Writing

/-!
# Codecs that read what they write

A value round-trips if its codec writes it to a plain tree and reads that tree as the value
(`Codec.RoundTrips`); its text is then read as the value too (`RoundTrips.parse_print`). There is one law for
each way to make a codec: integers by their range, texts always, an optional value if it is not written as
null, a list if its items round-trip, a record if its fields do and together make up the record.
-/

namespace Footprint.Json

/-- The codec writes the value to a plain tree and reads it back from there. -/
structure Codec.RoundTrips {α : Type} (codec : Codec α) (a : α) : Prop where
  plain : (codec.write a).Plain
  read : codec.read (codec.write a) = .ok a

namespace Codec

variable {α β : Type} {codec : Codec α} {a : α}

/-- What round-trips as a tree round-trips as a text. -/
theorem RoundTrips.parse_print (h : codec.RoundTrips a) : codec.parse (codec.print a) = .ok a := by
  rw [print, parse_of_document codec (document_render h.plain), h.read]

theorem read_map {v : Value} (forth : α → β) (back : β → α) (h : codec.read v = .ok a) :
    (codec.map forth back).read v = .ok (forth a) := by
  simp [map, h]

/-! ## Integers -/

/-- The integers that a literal can have as an integer. -/
structure Fits (i : Int) : Prop where
  least : -(2 ^ 63 : Int) ≤ i
  most : i < UInt64.size

theorem read_integer {least greatest i : Int} (name : String) (hi : least ≤ i ∧ i ≤ greatest)
    (hfits : Fits i) : (integer least greatest name).read (.int i) = .ok i := by
  rcases Int.lt_or_le i 0 with hneg | hnonneg
  · have hleast := hfits.least
    have hmagnitude : 2 * i.natAbs ≤ UInt64.size := by
      simp only [UInt64.size]
      omega
    have hkind := Numeral.kind_ofInt_of_neg hneg hmagnitude
    simp [integer, Value.int, hkind, hi]
  · have hkind := Numeral.kind_ofInt_of_nonneg hnonneg hfits.most
    simp [integer, Value.int, hkind, hi, Int.toNat_of_nonneg hnonneg]

/-- A word is read under any name that its field calls for. -/
theorem read_word (name : String) (w : UInt64) : (word name).read (.word w) = .ok w := by
  have hw := w.toNat_lt
  have hread : (integer 0 18446744073709551615 name).read (.word w) = .ok (w.toNat : Int) :=
    read_integer name ⟨by omega, by omega⟩ ⟨by omega, by simpa using hw⟩
  have hmap := read_map (fun i : Int => UInt64.ofNat i.toNat) (fun w : UInt64 => (w.toNat : Int)) hread
  rw [Int.toNat_natCast, UInt64.ofNat_toNat] at hmap
  exact hmap

@[simp] theorem read_address (w : UInt64) : address.read (.word w) = .ok w := read_word "u64" w

theorem read_count32 (n : UInt32) : count32.read (.int n.toNat) = .ok n := by
  have hn := n.toNat_lt
  have hread : (integer 0 4294967295 "u32").read (.int n.toNat) = .ok (n.toNat : Int) :=
    read_integer "u32" ⟨by omega, by omega⟩ ⟨by omega, by simp only [UInt64.size]; omega⟩
  have hmap := read_map (fun i : Int => UInt32.ofNat i.toNat) (fun n : UInt32 => (n.toNat : Int)) hread
  rw [Int.toNat_natCast, UInt32.ofNat_toNat] at hmap
  exact hmap

/-- The integers of 32 bits with a sign. -/
def IsSigned32 (i : Int) : Prop :=
  -(2 ^ 31 : Int) ≤ i ∧ i < 2 ^ 31

theorem roundTrips_word (name : String) (w : UInt64) : (word name).RoundTrips w :=
  ⟨Value.plain_int _, read_word name w⟩

theorem roundTrips_count32 (n : UInt32) : count32.RoundTrips n :=
  ⟨Value.plain_int _, read_count32 n⟩

theorem roundTrips_signed32 {i : Int} (h : IsSigned32 i) : signed32.RoundTrips i := by
  obtain ⟨hleast, hmost⟩ := h
  refine ⟨Value.plain_int _, read_integer "i32" ⟨by omega, by omega⟩ ⟨by omega, ?_⟩⟩
  simp only [UInt64.size]
  omega

/-! ## Texts and truth values -/

theorem roundTrips_bool (b : Bool) : bool.RoundTrips b := ⟨trivial, rfl⟩

theorem read_text (name : String) {pieces : List Piece} {s : String} (h : Says pieces s) :
    (text name).read (.string pieces) = .ok s :=
  textOf_eq_ok h

theorem roundTrips_text (name s : String) : (text name).RoundTrips s :=
  ⟨Value.plain_text s, read_text name (says_piecesOf s)⟩

/-! ## Optional values and lists -/

theorem read_optional_some {v : Value} (hv : v ≠ .null) (h : codec.read v = .ok a) :
    (optional codec).read v = .ok (some a) := by
  cases v with
  | null => exact absurd rfl hv
  | _ =>
    simp only [optional, h]
    rfl

theorem roundTrips_optional {o : Option α} (h : ∀ a ∈ o, codec.RoundTrips a ∧ codec.write a ≠ .null) :
    (optional codec).RoundTrips o := by
  cases o with
  | none => exact ⟨trivial, rfl⟩
  | some a =>
    obtain ⟨ha, hnull⟩ := h a rfl
    exact ⟨ha.plain, read_optional_some hnull ha.read⟩

theorem roundTrips_list {as : List α} (h : ∀ a ∈ as, codec.RoundTrips a) : (list codec).RoundTrips as := by
  have hread : readItems codec (.ofList (as.map codec.write)) = .ok as := by
    induction as with
    | nil => rfl
    | cons a as ih =>
      have ha := (h a List.mem_cons_self).read
      have hmore := ih fun b hb => h b (List.mem_cons_of_mem _ hb)
      rw [List.map_cons, Items.ofList, readItems, ha, hmore]
      rfl
  refine ⟨Value.plain_list fun v hv => ?_, hread⟩
  obtain ⟨a, ha, rfl⟩ := List.mem_map.1 hv
  exact (h a ha).plain

end Codec

/-! ## Variants -/

namespace Variant

variable {α : Type} {variants : List (String × Variant α)}

/-- A bare name is read as the variant of that name. -/
theorem read_string {pieces : List Piece} {name : String} {variant : Variant α} (hname : Says pieces name)
    (hfind : variants.find? (·.1 = name) = some (name, variant)) :
    read variants (.string pieces) = variant.bare := by
  simp only [read, named, textOf_eq_ok hname, hfind, bind, Except.bind]

/-- An object with a name as its one key is read as the variant of that name with its content. -/
theorem read_object {key : List Piece} {name : String} {variant : Variant α} {v : Value}
    (hname : Says key name) (hfind : variants.find? (·.1 = name) = some (name, variant)) :
    read variants (.object (.cons key v .done)) = variant.content v := by
  simp only [read, named, textOf_eq_ok hname, hfind, bind, Except.bind]
  cases variant.content v
  all_goals rfl

end Variant

/-- A name is read as what the table has it for. -/
theorem Codec.read_names {α : Type} [DecidableEq α] {table : List (α × String)} {a : α} {name : String}
    (hfind : table.find? (·.2 = name) = some (a, name)) : (names table).read (.text name) = .ok a := by
  have hvariant : (table.map fun entry => (entry.2, Variant.plain entry.1)).find? (·.1 = name) =
      some (name, .plain a) := by
    rw [List.find?_map, Option.map_eq_some_iff]
    exact ⟨(a, name), hfind, rfl⟩
  exact Variant.read_string (says_piecesOf name) hvariant

/-! ## Records -/

/-- The field is written to a plain tree, and what it reads from there is put into a record by `put`. -/
structure Field.RoundTrips {ρ : Type} (f : Field ρ) (r : ρ) (put : ρ → ρ) : Prop where
  plain : (f.write r).Plain
  read : f.read (f.write r) = .ok put

theorem Field.read_mandatory {ρ α : Type} (name : String) {codec : Codec α} (get : ρ → α)
    (put : α → ρ → ρ) {a : α} {v : Value} (h : codec.read v = .ok a) :
    (mandatory name codec get put).read v = .ok (put a) := by
  simp [mandatory, h]

theorem Field.read_defaulted {ρ α : Type} (name : String) {codec : Codec α} (get : ρ → α)
    (put : α → ρ → ρ) {a : α} {v : Value} (h : codec.read v = .ok a) :
    (defaulted name codec get put).read v = .ok (put a) :=
  read_mandatory name get put h

theorem Field.roundTrips_mandatory {ρ α : Type} (name : String) {codec : Codec α} {get : ρ → α}
    (set : α → ρ → ρ) {r : ρ} (h : codec.RoundTrips (get r)) :
    (mandatory name codec get set).RoundTrips r (set (get r)) :=
  ⟨h.plain, read_mandatory name get set h.read⟩

theorem Field.roundTrips_defaulted {ρ α : Type} (name : String) {codec : Codec α} {get : ρ → α}
    (set : α → ρ → ρ) {r : ρ} (h : codec.RoundTrips (get r)) :
    (defaulted name codec get set).RoundTrips r (set (get r)) :=
  ⟨h.plain, read_defaulted name get set h.read⟩

namespace RecordForm

variable {ρ : Type} {form : RecordForm ρ}

/-- The members that a record is written to hold all of its fields. -/
theorem holds_of_fields (form : RecordForm ρ) (fields : List (Field ρ))
    (hfields : ∀ f ∈ fields, f ∈ form.fields) (r : ρ) :
    Members.Holds (form.fields.map (·.name))
      (.ofList ((fields.map fun f => (f.name, f.write r)).map fun m => (piecesOf m.1, m.2)))
      (fields.map fun f => (f.name, f.write r)) := by
  induction fields with
  | nil => exact .done
  | cons f fields ih =>
    have hf := List.mem_map_of_mem (f := Field.name) (hfields f List.mem_cons_self)
    exact .given (says_piecesOf _) hf (ih fun g hg => hfields g (List.mem_cons_of_mem _ hg))

theorem reads_of_roundTrips {fields : List (Field ρ)} (hfields : ∀ f ∈ fields, f ∈ form.fields)
    {puts : List (ρ → ρ)} {r : ρ} (hputs : List.Forall₂ (fun f put => Field.RoundTrips f r put) fields puts) :
    List.Forall₂ form.Reads (fields.map fun f => (f.name, f.write r)) puts := by
  induction hputs with
  | nil => exact .nil
  | cons hput hmore ih =>
    have hf := hfields _ List.mem_cons_self
    exact .cons ⟨_, hf, rfl, hput.read⟩ (ih fun g hg => hfields g (List.mem_cons_of_mem _ hg))

theorem plain_of_roundTrips {fields : List (Field ρ)} {puts : List (ρ → ρ)} {r : ρ}
    (hputs : List.Forall₂ (fun f put => Field.RoundTrips f r put) fields puts) :
    ∀ f ∈ fields, (f.write r).Plain := by
  induction hputs with
  | nil => exact fun _ hf => nomatch hf
  | cons hput hmore ih => exact List.forall_mem_cons.2 ⟨hput.plain, ih⟩

/-- A record round-trips if its fields do and a blank record becomes the record by having them put in. -/
theorem roundTrips {puts : List (ρ → ρ)} {r : ρ} (hnames : (form.fields.map (·.name)).Nodup)
    (hputs : List.Forall₂ (fun f put => Field.RoundTrips f r put) form.fields puts)
    (hwhole : putAll form.blank puts = r) : form.codec.RoundTrips r := by
  have hholds := holds_of_fields form form.fields (fun _ hf => hf) r
  have hreads := reads_of_roundTrips (fun _ hf => hf) hputs
  have hgiven : (form.fields.map fun f => (f.name, f.write r)).map (·.1) = form.fields.map (·.name) :=
    List.map_map
  constructor
  · refine Value.plain_record fun m hm => ?_
    obtain ⟨f, hf, rfl⟩ := List.mem_map.1 hm
    exact plain_of_roundTrips hputs f hf
  · change form.readMembers [] form.blank _ = _
    rw [readMembers_of_holds hnames hholds hreads [] form.blank ⟨?_, ?_⟩ ?_, hwhole]
    · rw [hgiven]
      exact hnames
    · exact fun _ _ => List.not_mem_nil
    · intro f hf _
      rw [hgiven]
      exact .inr (List.mem_map_of_mem hf)

end RecordForm

end Footprint.Json
