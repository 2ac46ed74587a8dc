import Mathlib.Algebra.Group.Nat.Defs
import Footprint.Failure

/-!
# Reports on the wire

A setup report is written to sixteen bytes and read back from them. What is read is what was written
(`decode_encode`), and the number of a stage names the stage again (`labelOf_number`), so that a tracer
learns the step that failed and the error number of it as the process had them.
-/

namespace Footprint

namespace Setup

/-! ## Numbers in bytes -/

namespace Report

@[simp]
theorem length_littleEndian (width n : Nat) : (littleEndian width n).length = width := by
  induction width generalizing n with
  | zero => rfl
  | succ width ih => simp [littleEndian, ih]

theorem ofLittleEndian_littleEndian {width n : Nat} (h : n < 256 ^ width) :
    ofLittleEndian (littleEndian width n) = n := by
  induction width generalizing n with
  | zero =>
    rw [Nat.pow_zero, Nat.lt_one_iff] at h
    rw [h]
    rfl
  | succ width ih =>
    have hrest : n / 256 < 256 ^ width := by
      rw [Nat.pow_succ] at h
      exact Nat.div_lt_of_lt_mul (by rwa [Nat.mul_comm])
    calc
      ofLittleEndian (littleEndian (width + 1) n)
          = (UInt8.ofNat n).toNat + 256 * ofLittleEndian (littleEndian width (n / 256)) := rfl
      _ = n % 256 + 256 * (n / 256) := by rw [ih hrest, UInt8.toNat_ofNat']
      _ = n := Nat.mod_add_div n 256

@[simp]
theorem length_encode (r : Report) : r.encode.length = len := by
  simp [encode, len]

/-- What is read from the bytes of a report is the report. -/
theorem decode_encode (r : Report) : decode r.encode = r := by
  have hstage : ofLittleEndian (littleEndian 4 r.stage.toNat) = r.stage.toNat :=
    ofLittleEndian_littleEndian r.stage.toNat_lt
  have herrno : ofLittleEndian (littleEndian 4 r.errno.toUInt32.toNat) = r.errno.toUInt32.toNat :=
    ofLittleEndian_littleEndian r.errno.toUInt32.toNat_lt
  have hcode : ofLittleEndian (littleEndian 8 r.codeAddr.toNat) = r.codeAddr.toNat :=
    ofLittleEndian_littleEndian r.codeAddr.toNat_lt
  have hlast : r.encode.drop 8 = littleEndian 8 r.codeAddr.toNat := List.drop_left' (by simp)
  rw [decode, hlast]
  simp [encode, List.take_left', List.drop_left', List.take_of_length_le, hstage, herrno, hcode]

end Report

/-! ## Numbers of stages -/

namespace Stage

variable {s s' : Stage}

theorem ofNumber?_number (s : Stage) : ofNumber? s.number = some s := by
  cases s
  all_goals rfl

/-- A stage is named by its number. -/
theorem labelOf_number (s : Stage) : labelOf s.number = s.label := by
  rw [labelOf, ofNumber?_number]
  rfl

theorem number_inj : s.number = s'.number ↔ s = s' := by
  constructor
  · intro h
    have hsome : some s = some s' := by rw [← ofNumber?_number s, h, ofNumber?_number]
    exact Option.some.inj hsome
  · rintro rfl
    rfl

end Stage

end Setup

/-! ## Error numbers -/

/-- Whether an error number is a signed word, as every one of a system is. -/
def Errno.IsWord (e : Errno) : Prop :=
  -2147483648 ≤ e.code ∧ e.code < 2147483648

instance (e : Errno) : Decidable e.IsWord :=
  inferInstanceAs (Decidable (_ ∧ _))

theorem Errno.IsWord.toInt_ofInt {e : Errno} (h : e.IsWord) : (Int32.ofInt e.code).toInt = e.code := by
  unfold IsWord at h
  exact Int32.toInt_ofInt_of_le (by omega) (by omega)

/-- The wording of a failed step names the stage and the error number. -/
theorem SetupCause.text_stepFailed (stage : Setup.Stage) (errno : Errno) :
    (SetupCause.stepFailed stage.number errno).text =
      "isolated context failed at " ++ stage.label ++ ": " ++ errno.text := by
  exact congrArg (fun label => "isolated context failed at " ++ label ++ ": " ++ errno.text)
    (Setup.Stage.labelOf_number stage)

end Footprint
