import Footprint.Proofs.Forms.Values

/-!
# Records read back from their JSON

Writing a record and reading the text gives the record: configurations, and everything that a discovery
answers. Each form is taken apart into its fields. For a configuration this says that the standard values
never show through, because a text that was written leaves nothing out.
-/

namespace Footprint

/-- The integers of a report have 32 bits, as process ids, exit codes and signals do. -/
structure TeardownReport.Narrow (r : TeardownReport) : Prop where
  pid : ∀ i ∈ r.pid, Json.Codec.IsSigned32 i
  exitCode : ∀ i ∈ r.exitCode, Json.Codec.IsSigned32 i
  termSignal : ∀ i ∈ r.termSignal, Json.Codec.IsSigned32 i

namespace Forms

open Json Codec

/-! ## Two named words -/

/-- A record of two words round-trips if these words make it up. -/
theorem roundTrips_pair {ρ : Type} (form : RecordForm ρ) {first second : String}
    {getFirst getSecond : ρ → Addr} {putFirst putSecond : Addr → ρ → ρ} {r : ρ}
    (hfields : form.fields =
      [.mandatory first .address getFirst putFirst, .mandatory second .address getSecond putSecond])
    (hne : first ≠ second)
    (hwhole : putSecond (getSecond r) (putFirst (getFirst r) form.blank) = r) : form.codec.RoundTrips r := by
  have hfirst : Field.RoundTrips (.mandatory first .address getFirst putFirst) r (putFirst (getFirst r)) :=
    Field.roundTrips_mandatory _ _ (roundTrips_word _ _)
  have hsecond : Field.RoundTrips (.mandatory second .address getSecond putSecond) r
      (putSecond (getSecond r)) := Field.roundTrips_mandatory _ _ (roundTrips_word _ _)
  have hnames : form.fields.map (·.name) = [first, second] := by rw [hfields]; rfl
  have hputs : List.Forall₂ (fun f put => Field.RoundTrips f r put) form.fields
      [putFirst (getFirst r), putSecond (getSecond r)] := hfields ▸ .cons hfirst (.cons hsecond .nil)
  exact RecordForm.roundTrips (by simp [hnames, hne]) hputs hwhole

theorem roundTrips_strides (r : Addr × Addr) : strides.codec.RoundTrips r :=
  roundTrips_pair strides rfl (by decide) rfl

theorem roundTrips_window (w : Window) : window.codec.RoundTrips w :=
  roundTrips_pair window rfl (by decide) rfl

theorem roundTrips_region (r : Region) : region.codec.RoundTrips r :=
  roundTrips_pair region rfl (by decide) rfl

/-! ## Variants -/

theorem plain_single {name : String} {v : Value} (hv : v.Plain) : (Value.record [(name, v)]).Plain :=
  Value.plain_record fun _ hm => List.mem_singleton.1 hm ▸ hv

theorem roundTrips_placement (p : Placement) : placement.RoundTrips p := by
  cases p with
  | fixed location =>
    exact ⟨plain_single (Value.plain_int _), read_placement (.fixed location (says_piecesOf "fixed"))⟩
  | randomized =>
    exact ⟨Value.plain_text _, read_placement (.randomized (says_piecesOf "randomized"))⟩

theorem roundTrips_priming (p : Priming) : priming.RoundTrips p := by
  cases p with
  | uniform value =>
    exact ⟨plain_single (Value.plain_int _), read_priming (.uniform value (says_piecesOf "uniform"))⟩
  | distinct base stride =>
    have hstrides := roundTrips_strides (base, stride)
    refine ⟨plain_single hstrides.plain, ?_⟩
    refine (Variant.read_object (says_piecesOf "distinct") (by rfl)).trans ?_
    simp [Variant.content, hstrides.read]

/-! ## Records -/

theorem roundTrips_config (c : Config) : config.codec.RoundTrips c :=
  have hblockSize := roundTrips_optional (o := c.blockSize) fun a _ => ⟨roundTrips_word "u64" a, nofun⟩
  have hauditPath := roundTrips_optional (o := c.auditPath) fun a _ =>
    ⟨roundTrips_text "path string" a, nofun⟩
  RecordForm.roundTrips (by decide)
    (.cons (Field.roundTrips_defaulted _ _ hblockSize)
      (.cons (Field.roundTrips_defaulted _ _ (roundTrips_word _ _))
      (.cons (Field.roundTrips_defaulted _ _ (roundTrips_placement _))
      (.cons (Field.roundTrips_defaulted _ _ (roundTrips_priming _))
      (.cons (Field.roundTrips_defaulted _ _ (roundTrips_window _))
      (.cons (Field.roundTrips_defaulted _ _ (roundTrips_word _ _))
      (.cons (Field.roundTrips_defaulted _ _ (roundTrips_count32 _))
      (.cons (Field.roundTrips_defaulted _ _ (roundTrips_word _ _))
      (.cons (Field.roundTrips_defaulted _ _ (roundTrips_bool _))
      (.cons (Field.roundTrips_defaulted _ _ hauditPath) .nil)))))))))) rfl

theorem roundTrips_touched (t : TouchedBlocks) : touched.codec.RoundTrips t :=
  have hblocks := roundTrips_list fun a (_ : a ∈ t.blocks) => roundTrips_word "u64" a
  RecordForm.roundTrips (by decide)
    (.cons (Field.roundTrips_mandatory _ _ (roundTrips_word _ _))
      (.cons (Field.roundTrips_mandatory _ _ (roundTrips_word _ _))
      (.cons (Field.roundTrips_mandatory _ _ hblocks) .nil))) rfl

theorem roundTrips_layout (l : Layout) : layout.codec.RoundTrips l :=
  RecordForm.roundTrips (by decide)
    (.cons (Field.roundTrips_mandatory _ _ (roundTrips_word _ _))
      (.cons (Field.roundTrips_mandatory _ _ (roundTrips_word _ _))
      (.cons (Field.roundTrips_mandatory _ _ (roundTrips_region _))
      (.cons (Field.roundTrips_mandatory _ _ (roundTrips_region _))
      (.cons (Field.roundTrips_mandatory _ _ (roundTrips_word _ _)) .nil))))) rfl

/-- An optional integer with a sign is never written as null if it is there. -/
theorem roundTrips_optional_signed32 {o : Option Int} (h : ∀ i ∈ o, IsSigned32 i) :
    (optional signed32).RoundTrips o :=
  roundTrips_optional fun i hi => ⟨roundTrips_signed32 (h i hi), nofun⟩

theorem roundTrips_teardown {r : TeardownReport} (h : r.Narrow) : teardown.codec.RoundTrips r :=
  RecordForm.roundTrips (by decide)
    (.cons (Field.roundTrips_defaulted _ _ (roundTrips_optional_signed32 h.pid))
      (.cons (Field.roundTrips_mandatory _ _ (roundTrips_bool _))
      (.cons (Field.roundTrips_mandatory _ _ (roundTrips_bool _))
      (.cons (Field.roundTrips_defaulted _ _ (roundTrips_optional_signed32 h.exitCode))
      (.cons (Field.roundTrips_defaulted _ _ (roundTrips_optional_signed32 h.termSignal)) .nil))))) rfl

/-- What is written is read back: every configuration from its text, and every record of a discovery's
result, of a layout and of a teardown. -/
theorem written_records_are_read :
    (∀ c : Config, Config.ofText (config.codec.print c) = .ok c) ∧
      (∀ t : TouchedBlocks, touched.codec.parse (touched.codec.print t) = .ok t) ∧
      (∀ l : Layout, layout.codec.parse (layout.codec.print l) = .ok l) ∧
      ∀ r : TeardownReport, r.Narrow → teardown.codec.parse (teardown.codec.print r) = .ok r := by
  refine ⟨fun c => ?_, fun t => (roundTrips_touched t).parse_print,
    fun l => (roundTrips_layout l).parse_print, fun r hr => (roundTrips_teardown hr).parse_print⟩
  rw [Config.ofText, (roundTrips_config c).parse_print]
  rfl

/-- A configuration with the largest words and a path of quotes, backslashes and controls, and a report with
the least exit code, are among them. -/
theorem written_records_are_read_of_awkward :
    let c : Config := { Config.standard with
      blockSize := some 0xffffffffffffffff
      placement := .randomized
      priming := .distinct 0x8000000000000000 1
      auditPath := some "a\"\\\n\x01/\u2028" }
    let r : TeardownReport := ⟨some 1, true, false, some (-2147483648), none⟩
    Config.ofText (config.codec.print c) = .ok c ∧
      teardown.codec.parse (teardown.codec.print r) = .ok r := by
  intro c r
  have hnarrow : r.Narrow := by
    constructor
    all_goals simp [r, IsSigned32]
  exact ⟨written_records_are_read.1 c, written_records_are_read.2.2.2 r hnarrow⟩

end Forms

end Footprint
