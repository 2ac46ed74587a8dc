import Mathlib.Logic.ExistsUnique
import Footprint.Proofs.Setup.Report

/-!
# The bytes of a report

Reports and sixteen bytes correspond to each other one to one: no bytes are without a report, and no two
reports share theirs (`wire_bijective`). Each field has bytes of its own, which tell it and nothing else.
-/

namespace Footprint

namespace Setup.Report

variable {bytes : List UInt8} {r r' : Report}

/-! ## Bytes and the numbers that they write -/

theorem ofLittleEndian_lt (bytes : List UInt8) : ofLittleEndian bytes < 256 ^ bytes.length := by
  induction bytes with
  | nil => decide
  | cons b rest ih =>
    have hb : b.toNat < 256 := b.toNat_lt
    rw [ofLittleEndian, List.length_cons, Nat.pow_succ]
    omega

theorem ofLittleEndian_take_lt (width : Nat) (bytes : List UInt8) :
    ofLittleEndian (bytes.take width) < 256 ^ width :=
  Nat.lt_of_lt_of_le (ofLittleEndian_lt _)
    (Nat.pow_le_pow_right (by decide) (by rw [List.length_take]; exact Nat.min_le_left _ _))

/-- Bytes are what is written for the number that they write. -/
theorem littleEndian_ofLittleEndian (bytes : List UInt8) :
    littleEndian bytes.length (ofLittleEndian bytes) = bytes := by
  induction bytes with
  | nil => rfl
  | cons b rest ih =>
    have hb : b.toNat < 256 := b.toNat_lt
    have hlow : UInt8.ofNat (b.toNat + 256 * ofLittleEndian rest) = b := by
      rw [← UInt8.toNat_inj, UInt8.toNat_ofNat']
      omega
    have hrest : (b.toNat + 256 * ofLittleEndian rest) / 256 = ofLittleEndian rest := by omega
    rw [List.length_cons, littleEndian, ofLittleEndian, hlow, hrest, ih]

/-! ## Fields -/

/-- The fields of a report. -/
inductive Field where
  | stage
  | errno
  | codeAddr
deriving DecidableEq

namespace Field

variable {f : Field} {i : Nat}

/-- The place of the first byte of a field. -/
def offset : Field → Nat
  | stage => 0
  | errno => 4
  | codeAddr => 8

def width : Field → Nat
  | stage => 4
  | errno => 4
  | codeAddr => 8

/-- Whether the byte at a place is one of a field. -/
def Occupies (f : Field) (i : Nat) : Prop :=
  f.offset ≤ i ∧ i < f.offset + f.width

instance (f : Field) (i : Nat) : Decidable (f.Occupies i) :=
  inferInstanceAs (Decidable (_ ∧ _))

/-- The number that a field is written as. -/
def number (r : Report) : Field → Nat
  | stage => r.stage.toNat
  | errno => r.errno.toUInt32.toNat
  | codeAddr => r.codeAddr.toNat

/-- Whether two reports have the same in a field. -/
def Same (r r' : Report) : Field → Prop
  | stage => r.stage = r'.stage
  | errno => r.errno = r'.errno
  | codeAddr => r.codeAddr = r'.codeAddr

/-- The bytes of a field among all of a report's. -/
def part (f : Field) (bytes : List UInt8) : List UInt8 :=
  (bytes.drop f.offset).take f.width

theorem getElem?_part (hi : f.Occupies i) (bytes : List UInt8) :
    (f.part bytes)[i - f.offset]? = bytes[i]? := by
  rcases hi with ⟨hstart, hend⟩
  rw [part, List.getElem?_take_of_lt (by omega), List.getElem?_drop, Nat.add_sub_cancel' hstart]

theorem length_part (h : bytes.length = len) : (f.part bytes).length = f.width := by
  rw [part, List.length_take, List.length_drop, h]
  cases f
  all_goals rfl

theorem apart_of_ne {f' : Field} (h : f ≠ f') :
    f.offset + f.width ≤ f'.offset ∨ f'.offset + f'.width ≤ f.offset := by
  revert h
  cases f <;> cases f' <;> decide

theorem eq_of_occupies {f' : Field} (hi : f.Occupies i) (hi' : f'.Occupies i) : f = f' := by
  refine Decidable.byContradiction fun hne => ?_
  have hapart := apart_of_ne hne
  unfold Occupies at hi hi'
  omega

/-- Every byte of a report belongs to one field. -/
theorem existsUnique_occupies (hi : i < len) : ∃! f : Field, f.Occupies i := by
  have hfield : ∃ f : Field, f.Occupies i := by
    unfold len at hi
    by_cases hstage : i < 4
    · exact ⟨stage, Nat.zero_le i, hstage⟩
    · by_cases herrno : i < 8
      · exact ⟨errno, Nat.le_of_not_lt hstage, herrno⟩
      · exact ⟨codeAddr, Nat.le_of_not_lt herrno, hi⟩
  rcases hfield with ⟨f, hf⟩
  exact ⟨f, hf, fun f' hf' => eq_of_occupies hf' hf⟩

theorem number_lt (r : Report) (f : Field) : f.number r < 256 ^ f.width := by
  cases f
  case stage => exact r.stage.toNat_lt
  case errno => exact r.errno.toUInt32.toNat_lt
  case codeAddr => exact r.codeAddr.toNat_lt

theorem number_inj : f.number r = f.number r' ↔ f.Same r r' := by
  cases f
  case stage => exact UInt32.toNat_inj
  case errno =>
    refine UInt32.toNat_inj.trans ⟨fun h => ?_, congrArg Int32.toUInt32⟩
    rw [Same, ← r.errno.toInt32_toUInt32, h, Int32.toInt32_toUInt32]
  case codeAddr => exact UInt64.toNat_inj

/-! ## What is written and read of a field -/

theorem part_encode (r : Report) (f : Field) : f.part r.encode = littleEndian f.width (f.number r) := by
  cases f
  case stage => simp [part, encode, offset, width, number, List.take_left']
  case errno => simp [part, encode, offset, width, number, List.take_left', List.drop_left']
  case codeAddr =>
    have hlast : r.encode.drop 8 = littleEndian 8 r.codeAddr.toNat := List.drop_left' (by simp)
    rw [part, offset, hlast]
    simp [width, number, List.take_of_length_le]

theorem number_decode (bytes : List UInt8) (f : Field) : f.number (decode bytes) = ofLittleEndian (f.part bytes) := by
  have hlt : ofLittleEndian (f.part bytes) < 256 ^ f.width := ofLittleEndian_take_lt f.width _
  cases f
  case stage => exact UInt32.toNat_ofNat_of_lt' hlt
  case errno =>
    rw [number, decode, UInt32.toUInt32_toInt32]
    exact UInt32.toNat_ofNat_of_lt' hlt
  case codeAddr => exact UInt64.toNat_ofNat_of_lt' hlt

/-- A field's bytes tell it. -/
theorem same_iff_part_eq : f.Same r r' ↔ f.part r.encode = f.part r'.encode := by
  rw [← number_inj, part_encode, part_encode]
  constructor
  · intro h
    rw [h]
  · intro h
    rw [← ofLittleEndian_littleEndian (number_lt r f), h, ofLittleEndian_littleEndian (number_lt r' f)]

theorem same_iff : f.Same r r' ↔ ∀ i, f.Occupies i → r.encode[i]? = r'.encode[i]? := by
  rw [same_iff_part_eq]
  constructor
  · intro h i hi
    rw [← getElem?_part hi, h, getElem?_part hi]
  · intro h
    apply List.ext_getElem?
    intro j
    by_cases hj : j < f.width
    · have hi : f.Occupies (f.offset + j) := ⟨Nat.le_add_right _ _, Nat.add_lt_add_left hj _⟩
      simpa [← getElem?_part hi] using h _ hi
    · have hbehind : ∀ r : Report, (f.part r.encode)[j]? = none := fun r =>
        List.getElem?_eq_none (by rw [length_part r.length_encode]; exact Nat.le_of_not_lt hj)
      rw [hbehind r, hbehind r']

/-- Reports that differ in one field have all their other bytes in common. -/
theorem getElem?_encode_of_not_occupies (h : ∀ f' : Field, f' ≠ f → f'.Same r r') {i : Nat}
    (hi : ¬f.Occupies i) : r.encode[i]? = r'.encode[i]? := by
  by_cases hlen : i < len
  · rcases existsUnique_occupies hlen with ⟨f', hf', -⟩
    have hother : f' ≠ f := by
      rintro rfl
      exact hi hf'
    exact same_iff.1 (h f' hother) i hf'
  · have hbehind : ∀ r : Report, r.encode[i]? = none := fun r =>
      List.getElem?_eq_none (by rw [length_encode]; exact Nat.le_of_not_lt hlen)
    rw [hbehind r, hbehind r']

end Field

/-! ## All sixteen bytes -/

/-- Sixteen bytes are what is written for the report that they hold. -/
theorem encode_decode (h : bytes.length = len) : (decode bytes).encode = bytes := by
  have hwritten : ∀ f : Field, littleEndian f.width (f.number (decode bytes)) = f.part bytes := by
    intro f
    rw [Field.number_decode, ← Field.length_part h, littleEndian_ofLittleEndian]
  calc
    (decode bytes).encode
        = littleEndian Field.stage.width (Field.stage.number (decode bytes)) ++
            littleEndian Field.errno.width (Field.errno.number (decode bytes)) ++
            littleEndian Field.codeAddr.width (Field.codeAddr.number (decode bytes)) := rfl
    _ = Field.stage.part bytes ++ Field.errno.part bytes ++ Field.codeAddr.part bytes := by
          rw [hwritten, hwritten, hwritten]
    _ = bytes.take (4 + 4 + 8) := by
          rw [List.take_add, List.take_add]
          rfl
    _ = bytes := List.take_of_length_le (Nat.le_of_eq h)

/-- Writing and reading are inverse to each other, and each field stands in bytes that are its own: the bytes
of a field are the same exactly if the field is, and no others change with it. -/
theorem wire_bijective :
    (∀ r : Report, r.encode.length = len ∧ decode r.encode = r) ∧
    (∀ bytes : List UInt8, bytes.length = len → (decode bytes).encode = bytes) ∧
    (∀ i < len, ∃! f : Field, f.Occupies i) ∧
    ∀ (f : Field) (r r' : Report),
      (f.Same r r' ↔ ∀ i, f.Occupies i → r.encode[i]? = r'.encode[i]?) ∧
      ((∀ f' : Field, f' ≠ f → f'.Same r r') → ∀ i, ¬f.Occupies i → r.encode[i]? = r'.encode[i]?) := by
  refine ⟨fun r => ⟨length_encode r, decode_encode r⟩, fun bytes h => encode_decode h,
    fun i hi => Field.existsUnique_occupies hi, fun f r r' => ⟨Field.same_iff, fun h i hi => ?_⟩⟩
  exact Field.getElem?_encode_of_not_occupies h hi

/-- A report with a negative error number, and what any other error number in its place leaves alone. -/
theorem wire_bijective_of_negativeErrno :
    let bytes : List UInt8 := [5, 4, 3, 2, 0xfe, 0xff, 0xff, 0xff, 8, 7, 6, 0, 0, 0x20, 0, 1]
    let r : Report := ⟨0x02030405, -2, 0x0100200000060708⟩
    bytes.length = len ∧ r.encode = bytes ∧ decode bytes = r ∧
      ∀ errno : Int32, ∀ i, ¬Field.errno.Occupies i → ({ r with errno } : Report).encode[i]? = bytes[i]? := by
  intro bytes r
  have hlen : bytes.length = len := rfl
  have hread : decode bytes = r := by decide
  have hwritten : r.encode = bytes := hread ▸ wire_bijective.2.1 bytes hlen
  refine ⟨hlen, hwritten, hread, fun errno i hi => ?_⟩
  rw [← hwritten]
  refine (wire_bijective.2.2.2 .errno { r with errno } r).2 ?_ i hi
  rintro (_ | _ | _) hother
  · rfl
  · exact absurd rfl hother
  · rfl

end Setup.Report

end Footprint
