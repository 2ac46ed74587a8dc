import Footprint.ConfigFile
import Footprint.Proofs.Json.RoundTrip

/-!
# The JSON values of a configuration's parts

Which JSON values stand for a placement, for a register priming and for two bounds with names, independently
of how they are read: a variant by its bare name or as the one key of an object, a pair of bounds as an object
in either order with other keys between them, or as an array. Each such value is read as what it stands for.
-/

namespace Footprint.Forms

open Json

variable {v : Value}

/-! ## Two named words -/

/-- The values that stand for two words with names. -/
inductive IsPair (first second : String) (a b : Addr) : Value → Prop where
  | object {members : Members} {given : List (String × Value)}
      (hmembers : members.Holds [first, second] given)
      (hgiven : given = [(first, .word a), (second, .word b)] ∨
        given = [(second, .word b), (first, .word a)]) : IsPair first second a b (.object members)
  | array : IsPair first second a b (.array (.ofList [.word a, .word b]))

/-- A form with two words as its fields reads the values that stand for them. -/
theorem read_pair {ρ : Type} (form : RecordForm ρ) {first second : String} {a b : Addr}
    {getFirst getSecond : ρ → Addr} {putFirst putSecond : Addr → ρ → ρ}
    (hfields : form.fields =
      [.mandatory first .address getFirst putFirst, .mandatory second .address getSecond putSecond])
    (hne : first ≠ second)
    (hswap : putFirst a (putSecond b form.blank) = putSecond b (putFirst a form.blank))
    (h : IsPair first second a b v) :
    form.codec.read v = .ok (putSecond b (putFirst a form.blank)) := by
  have hnames : form.fields.map (·.name) = [first, second] := by rw [hfields]; rfl
  have hnodup : (form.fields.map (·.name)).Nodup := by simp [hnames, hne]
  have hwhole (f : Json.Field ρ) (hf : f ∈ form.fields) : f.name ∈ [first, second] :=
    hnames ▸ List.mem_map_of_mem hf
  have hfirst := Field.read_mandatory first getFirst putFirst (Codec.read_address a)
  have hsecond := Field.read_mandatory second getSecond putSecond (Codec.read_address b)
  have hreadsFirst : form.Reads (first, .word a) (putFirst a) := ⟨_, by simp [hfields], rfl, hfirst⟩
  have hreadsSecond : form.Reads (second, .word b) (putSecond b) := ⟨_, by simp [hfields], rfl, hsecond⟩
  cases h with
  | object hmembers hgiven =>
    rw [← hnames] at hmembers
    rcases hgiven with rfl | rfl
    · exact RecordForm.readMembers_of_holds hnodup hmembers
        (.cons hreadsFirst (.cons hreadsSecond .nil)) [] form.blank (by simp [hne])
        fun f hf _ => .inr (hwhole f hf)
    · rw [← hswap]
      exact RecordForm.readMembers_of_holds hnodup hmembers
        (.cons hreadsSecond (.cons hreadsFirst .nil)) [] form.blank (by simp [hne.symm])
        fun f hf _ => .inr (List.mem_reverse.1 (hwhole f hf))
  | array =>
    have hread := RecordForm.readItems_of_reads hnodup (.cons hreadsFirst (.cons hreadsSecond .nil))
      (fun _ hf => hf) hnames.symm (.inl rfl) 0 form.blank
    rw [List.append_nil] at hread
    exact hread

/-- The values that stand for an access window. -/
abbrev IsWindow (w : Window) : Value → Prop :=
  IsPair "start" "end" w.start w.stop

theorem read_window {w : Window} (h : IsWindow w v) : window.codec.read v = .ok w :=
  read_pair window rfl (by decide) rfl h

theorem read_strides {base stride : Addr} (h : IsPair "base" "stride" base stride v) :
    strides.codec.read v = .ok (base, stride) :=
  read_pair strides rfl (by decide) rfl h

/-! ## Variants -/

/-- The values that stand for a placement. -/
inductive IsPlacement : Placement → Value → Prop where
  | fixed {key : List Piece} (location : Addr) (hkey : Says key "fixed") :
      IsPlacement (.fixed location) (.object (.cons key (.word location) .done))
  | randomized {name : List Piece} (hname : Says name "randomized") : IsPlacement .randomized (.string name)
  | keyed {key : List Piece} (hkey : Says key "randomized") :
      IsPlacement .randomized (.object (.cons key .null .done))

/-- The values that stand for a register priming. -/
inductive IsPriming : Priming → Value → Prop where
  | uniform {key : List Piece} (value : Addr) (hkey : Says key "uniform") :
      IsPriming (.uniform value) (.object (.cons key (.word value) .done))
  | distinct {key : List Piece} {v : Value} {base stride : Addr} (hkey : Says key "distinct")
      (hv : IsPair "base" "stride" base stride v) :
      IsPriming (.distinct base stride) (.object (.cons key v .done))

theorem read_placement {p : Placement} (h : IsPlacement p v) : placement.read v = .ok p := by
  cases h with
  | fixed location hkey =>
    refine (Variant.read_object hkey (by rfl)).trans ?_
    simp [Variant.content]
  | randomized hname => exact (Variant.read_string hname (by rfl)).trans rfl
  | keyed hkey => exact (Variant.read_object hkey (by rfl)).trans rfl

theorem read_priming {p : Priming} (h : IsPriming p v) : priming.read v = .ok p := by
  cases h with
  | uniform value hkey =>
    refine (Variant.read_object hkey (by rfl)).trans ?_
    simp [Variant.content]
  | distinct hkey hv =>
    refine (Variant.read_object hkey (by rfl)).trans ?_
    simp [Variant.content, read_strides hv]

end Footprint.Forms
