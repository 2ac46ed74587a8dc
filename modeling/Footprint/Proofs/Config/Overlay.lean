import Mathlib.Data.List.Perm.Basic
import Footprint.Proofs.Forms.Values

/-!
# Configurations that leave things out

A text that gives some fields of a configuration stands for the standard configuration changed on exactly
these fields. It can give them as an object, in any order and with unknown keys between them, or as an array
if they are the first fields. A field given twice makes the object unreadable.

A field with its value is a `Setting`. Putting settings of distinct fields into a configuration commutes, so
the order of an object does not matter (`putAll_perm`).
-/

namespace Footprint.Config

open Json Forms

/-- One field of a configuration with a value. -/
inductive Setting where
  | blockSize (a : Option Addr)
  | maxCodeLen (n : UInt64)
  | placement (p : Placement)
  | priming (p : Priming)
  | window (w : Window)
  | maxBlocks (n : UInt64)
  | maxIterations (n : UInt32)
  | wallLimitMs (n : UInt64)
  | scrub (b : Bool)
  | auditPath (path : Option String)

namespace Setting

/-- The keys of the fields, in the order in which they are declared. -/
def names : List String :=
  ["block_size", "max_code_len", "placement", "priming", "access_window", "max_granted_blocks",
   "max_fault_iterations", "wall_time_limit_ms", "scrub_address_space", "audit_log_path"]

/-- The key of the field. -/
def name : Setting → String
  | blockSize _ => "block_size"
  | maxCodeLen _ => "max_code_len"
  | placement _ => "placement"
  | priming _ => "priming"
  | window _ => "access_window"
  | maxBlocks _ => "max_granted_blocks"
  | maxIterations _ => "max_fault_iterations"
  | wallLimitMs _ => "wall_time_limit_ms"
  | scrub _ => "scrub_address_space"
  | auditPath _ => "audit_log_path"

/-- The configuration has this value in this field. -/
def HoldsIn (c : Config) : Setting → Prop
  | blockSize a => c.blockSize = a
  | maxCodeLen n => c.maxCodeLen = n
  | placement p => c.placement = p
  | priming p => c.priming = p
  | window w => c.window = w
  | maxBlocks n => c.maxBlocks = n
  | maxIterations n => c.maxIterations = n
  | wallLimitMs n => c.wallLimitMs = n
  | scrub b => c.scrub = b
  | auditPath path => c.auditPath = path

/-- The JSON values that give a field its value. -/
inductive Given : Setting → Value → Prop where
  | noBlockSize : Given (blockSize none) .null
  | blockSize (a : Addr) : Given (blockSize (some a)) (.word a)
  | maxCodeLen (n : UInt64) : Given (maxCodeLen n) (.word n)
  | placement {p : Placement} {v : Value} (h : IsPlacement p v) : Given (placement p) v
  | priming {p : Priming} {v : Value} (h : IsPriming p v) : Given (priming p) v
  | window {w : Window} {v : Value} (h : IsWindow w v) : Given (window w) v
  | maxBlocks (n : UInt64) : Given (maxBlocks n) (.word n)
  | maxIterations (n : UInt32) : Given (maxIterations n) (.int n.toNat)
  | wallLimitMs (n : UInt64) : Given (wallLimitMs n) (.word n)
  | scrub (b : Bool) : Given (scrub b) (.bool b)
  | noAuditPath : Given (auditPath none) .null
  | auditPath {path : String} {pieces : List Piece} (h : Says pieces path) :
      Given (auditPath (some path)) (.string pieces)

/-! ## Settings in a configuration -/

/-- Puts the value into the field. -/
def put : Setting → Config → Config
  | blockSize a, c => { c with blockSize := a }
  | maxCodeLen n, c => { c with maxCodeLen := n }
  | placement p, c => { c with placement := p }
  | priming p, c => { c with priming := p }
  | window w, c => { c with window := w }
  | maxBlocks n, c => { c with maxBlocks := n }
  | maxIterations n, c => { c with maxIterations := n }
  | wallLimitMs n, c => { c with wallLimitMs := n }
  | scrub b, c => { c with scrub := b }
  | auditPath path, c => { c with auditPath := path }

variable {s t : Setting} {c : Config}

theorem holdsIn_put (s : Setting) (c : Config) : s.HoldsIn (s.put c) := by
  cases s
  all_goals rfl

theorem holdsIn_put_of_ne (hne : s.name ≠ t.name) : s.HoldsIn (t.put c) ↔ s.HoldsIn c := by
  cases s
  all_goals
    cases t
    all_goals first | exact Iff.rfl | exact absurd rfl hne

/-- Settings of two fields can be put in either way round. -/
theorem put_comm (hne : s.name ≠ t.name) : s.put (t.put c) = t.put (s.put c) := by
  cases s
  all_goals
    cases t
    all_goals first | rfl | exact absurd rfl hne

/-- A configuration has one value in a field. -/
theorem eq_of_name (hname : s.name = t.name) (hs : s.HoldsIn c) (ht : t.HoldsIn c) : s = t := by
  cases s
  all_goals
    cases t
    all_goals
      cases hs
      cases ht
      first | rfl | simp [name] at hname

/-- A configuration is told by the settings that hold in it. -/
theorem eq_of_holdsIn {c' : Config} (h : ∀ s : Setting, s.HoldsIn c → s.HoldsIn c') : c' = c := by
  cases c'
  cases c
  rw [Config.mk.injEq]
  exact ⟨h (.blockSize _) rfl, h (.maxCodeLen _) rfl, h (.placement _) rfl, h (.priming _) rfl,
    h (.window _) rfl, h (.maxBlocks _) rfl, h (.maxIterations _) rfl, h (.wallLimitMs _) rfl,
    h (.scrub _) rfl, h (.auditPath _) rfl⟩

end Setting

/-- The configuration has the settings in their fields and in all others what the base has. -/
structure Overlays (base : Config) (settings : List Setting) (c : Config) : Prop where
  given : ∀ s ∈ settings, s.HoldsIn c
  others : ∀ s : Setting, s.name ∉ settings.map Setting.name → (s.HoldsIn c ↔ s.HoldsIn base)

/-- Settings and a base leave no choice. -/
theorem Overlays.unique {base c c' : Config} {settings : List Setting} (h : Overlays base settings c)
    (h' : Overlays base settings c') : c' = c := by
  refine Setting.eq_of_holdsIn fun s hs => ?_
  by_cases hname : s.name ∈ settings.map Setting.name
  · obtain ⟨t, ht, htname⟩ := List.mem_map.1 hname
    rw [Setting.eq_of_name htname.symm hs (h.given t ht)]
    exact h'.given t ht
  · exact (h'.others s hname).2 ((h.others s hname).1 hs)

/-- The configuration with the settings put into it one after the other. -/
def putAll (c : Config) (settings : List Setting) : Config :=
  RecordForm.putAll c (settings.map Setting.put)

theorem overlays_putAll {settings : List Setting} (hdistinct : (settings.map Setting.name).Nodup)
    (base : Config) : Overlays base settings (putAll base settings) := by
  induction settings generalizing base with
  | nil => exact ⟨fun _ hs => (List.not_mem_nil hs).elim, fun _ _ => Iff.rfl⟩
  | cons s settings ih =>
    rw [List.map_cons, List.nodup_cons] at hdistinct
    have hrest := ih hdistinct.2 (s.put base)
    refine ⟨fun t ht => ?_, fun t ht => ?_⟩
    · rcases List.mem_cons.1 ht with rfl | ht
      · exact (hrest.others t hdistinct.1).2 (t.holdsIn_put base)
      · exact hrest.given t ht
    · rw [List.map_cons, List.mem_cons, not_or] at ht
      exact (hrest.others t ht.2).trans (Setting.holdsIn_put_of_ne ht.1)

theorem putAll_perm {order settings : List Setting} (h : order.Perm settings)
    (hdistinct : (order.map Setting.name).Nodup) (base : Config) :
    putAll base order = putAll base settings := by
  refine (h.map Setting.put).foldl_eq' (fun put hput put' hput' c => ?_) base
  obtain ⟨s, hs, rfl⟩ := List.mem_map.1 hput
  obtain ⟨t, ht, rfl⟩ := List.mem_map.1 hput'
  by_cases hname : t.name = s.name
  · rw [List.inj_on_of_nodup_map hdistinct ht hs hname]
  · exact Setting.put_comm hname

/-! ## Settings in a text -/

/-- Every setting is given by the member with its key. -/
abbrev AllGiven (settings : List Setting) (given : List (String × Value)) : Prop :=
  List.Forall₂ (fun s m => m.1 = s.name ∧ s.Given m.2) settings given

/-- The text is an object that gives the settings, in any order and between members with unknown keys. -/
inductive WrittenAsObject (settings : List Setting) : String → Prop where
  | mk {order : List Setting} {given : List (String × Value)} {members : Members} {text : String}
      (horder : order.Perm settings) (hgiven : AllGiven order given)
      (hmembers : members.Holds Setting.names given) (htext : (Value.object members).Document text) :
      WrittenAsObject settings text

/-- The text is the array of the settings' values. -/
inductive WrittenAsArray (settings : List Setting) : String → Prop where
  | mk {values : List Value} {text : String} (hgiven : List.Forall₂ Setting.Given settings values)
      (htext : (Value.array (.ofList values)).Document text) : WrittenAsArray settings text

/-- The text is an object with a known key that it has twice. -/
inductive RepeatsKey : String → Prop where
  | mk {before between after : List (List Piece × Value)} {key key' : List Piece} {v v' : Value}
      {name text : String} (hname : name ∈ Setting.names) (hkey : Says key name) (hkey' : Says key' name)
      (htext : (Value.object
        (.ofList (before ++ (key, v) :: (between ++ (key', v') :: after)))).Document text) :
      RepeatsKey text

/-! ## Reading settings -/

theorem names_eq : config.fields.map (·.name) = Setting.names := rfl

theorem names_nodup : (config.fields.map (·.name)).Nodup := by
  rw [names_eq]
  decide

theorem not_required : ∀ f ∈ config.fields, f.required = false := by
  simp [config, Field.defaulted]

theorem reads_at {s : Setting} {v : Value} (i : Nat) {f : Json.Field Config} (hf : config.fields[i]? = some f)
    (hname : f.name = s.name) (hread : f.read v = .ok s.put) : config.Reads (s.name, v) s.put :=
  ⟨f, List.mem_of_getElem? hf, hname, hread⟩

/-- The field of a setting reads every value that gives the setting. -/
theorem reads_of_given {s : Setting} {v : Value} (h : s.Given v) : config.Reads (s.name, v) s.put := by
  cases h with
  | noBlockSize => exact reads_at 0 rfl rfl rfl
  | blockSize a =>
    exact reads_at 0 rfl rfl
      (Field.read_defaulted _ _ _ (Codec.read_optional_some nofun (Codec.read_address a)))
  | maxCodeLen n => exact reads_at 1 rfl rfl (Field.read_defaulted _ _ _ (Codec.read_word _ n))
  | placement h => exact reads_at 2 rfl rfl (Field.read_defaulted _ _ _ (read_placement h))
  | priming h => exact reads_at 3 rfl rfl (Field.read_defaulted _ _ _ (read_priming h))
  | window h => exact reads_at 4 rfl rfl (Field.read_defaulted _ _ _ (read_window h))
  | maxBlocks n => exact reads_at 5 rfl rfl (Field.read_defaulted _ _ _ (Codec.read_word _ n))
  | maxIterations n => exact reads_at 6 rfl rfl (Field.read_defaulted _ _ _ (Codec.read_count32 n))
  | wallLimitMs n => exact reads_at 7 rfl rfl (Field.read_defaulted _ _ _ (Codec.read_word _ n))
  | scrub b => exact reads_at 8 rfl rfl rfl
  | noAuditPath => exact reads_at 9 rfl rfl rfl
  | auditPath h =>
    exact reads_at 9 rfl rfl
      (Field.read_defaulted _ _ _ (Codec.read_optional_some nofun (Codec.read_text _ h)))

/-! ## Reading texts -/

variable {settings : List Setting} {text : String}

theorem ofText_of_document {v : Value} {c : Config} (h : v.Document text)
    (hread : config.codec.read v = .ok c) : ofText text = .ok c := by
  rw [ofText, Codec.parse_of_document _ h, hread]
  rfl

theorem reads_of_allGiven {given : List (String × Value)} (h : AllGiven settings given) :
    List.Forall₂ config.Reads given (settings.map Setting.put) ∧
      given.map (·.1) = settings.map Setting.name := by
  induction h with
  | nil => exact ⟨.nil, rfl⟩
  | cons hgiven hmore ih =>
    rename_i s m settings given
    obtain ⟨hname, hvalue⟩ := hgiven
    have hread : config.Reads m s.put := by
      have hreads := reads_of_given hvalue
      rwa [← hname] at hreads
    exact ⟨.cons hread ih.1, by rw [List.map_cons, List.map_cons, hname, ih.2]⟩

theorem exists_allGiven {values : List Value} (h : List.Forall₂ Setting.Given settings values) :
    ∃ given, AllGiven settings given ∧ given.map (·.2) = values := by
  induction h with
  | nil => exact ⟨[], .nil, rfl⟩
  | cons hvalue hmore ih =>
    rename_i s v settings values
    obtain ⟨given, hgiven, hvalues⟩ := ih
    exact ⟨(s.name, v) :: given, .cons ⟨rfl, hvalue⟩ hgiven, by rw [List.map_cons, hvalues]⟩

theorem ofText_object (hdistinct : (settings.map Setting.name).Nodup) (h : WrittenAsObject settings text) :
    ofText text = .ok (putAll .standard settings) := by
  obtain ⟨horder, hgiven, hmembers, htext⟩ := h
  rename_i order given members
  have horderNodup : (order.map Setting.name).Nodup := (horder.map Setting.name).nodup_iff.2 hdistinct
  obtain ⟨hreads, hkeys⟩ := reads_of_allGiven hgiven
  rw [← names_eq] at hmembers
  refine ofText_of_document htext ?_
  rw [← putAll_perm horder horderNodup]
  refine RecordForm.readMembers_of_holds names_nodup hmembers hreads [] .standard ⟨?_, ?_⟩ ?_
  · rw [hkeys]
    exact horderNodup
  · exact fun _ _ => List.not_mem_nil
  · intro f hf hrequired
    rw [not_required f hf] at hrequired
    cases hrequired

theorem ofText_array (hleading : settings.map Setting.name <+: Setting.names)
    (h : WrittenAsArray settings text) : ofText text = .ok (putAll .standard settings) := by
  obtain ⟨hvalues, htext⟩ := h
  obtain ⟨given, hgiven, rfl⟩ := exists_allGiven hvalues
  obtain ⟨hreads, hkeys⟩ := reads_of_allGiven hgiven
  obtain ⟨rest, hnames⟩ := hleading
  obtain ⟨fields, others, hfields, hfirst, -⟩ := List.map_eq_append_iff.1 (names_eq.trans hnames.symm)
  have hmem (f : Json.Field Config) (hf : f ∈ fields) : f ∈ config.fields :=
    hfields ▸ List.mem_append_left others hf
  refine ofText_of_document htext ?_
  change config.readItems 0 .standard config.fields _ = _
  rw [hfields]
  exact RecordForm.readItems_of_reads names_nodup hreads hmem (hkeys.trans hfirst.symm) (.inr rfl) 0 .standard

theorem ofText_repeated (h : RepeatsKey text) : ∃ problem, ofText text = .error (.unparsable problem) := by
  obtain ⟨hname, hkey, hkey', htext⟩ := h
  rename_i before between after key key' v v' name
  rw [← names_eq] at hname
  obtain ⟨f, hf, rfl⟩ := List.mem_map.1 hname
  obtain ⟨problem, hproblem⟩ := RecordForm.exists_error_of_repeated hf hkey hkey' [] .standard
  refine ⟨problem, ?_⟩
  rw [ofText, Codec.parse_of_document _ htext]
  exact congrArg (Except.mapError ConfigCause.unparsable) hproblem

/-- Settings of distinct fields stand for one configuration, the standard one with exactly these fields
changed. Every object that gives the settings is read as it, in whatever order they stand and whatever unknown
keys hold between them, and so is the array of their values if they are the first fields. No object that gives
a field twice is read.

A key is a text. One with half of a surrogate pair says none and is refused. -/
theorem ofText_overlays {settings : List Setting} (hdistinct : (settings.map Setting.name).Nodup) :
    (∃ c, Overlays .standard settings c ∧
      (∀ text, WrittenAsObject settings text → ofText text = .ok c) ∧
      (settings.map Setting.name <+: Setting.names →
        ∀ text, WrittenAsArray settings text → ofText text = .ok c)) ∧
    ∀ text, RepeatsKey text → ∃ problem, ofText text = .error (.unparsable problem) :=
  ⟨⟨putAll .standard settings, overlays_putAll hdistinct .standard, fun _ => ofText_object hdistinct,
    fun hleading _ => ofText_array hleading⟩, fun _ => ofText_repeated⟩

/-- Two settings in another order than their fields, with spaces and an unknown key between them. -/
theorem ofText_overlays_of_sparse :
    ofText "\x7b\"scrub_address_space\": false,\"note\":[\x7b\x7d],\"placement\" :\"randomized\"\x7d\n" =
      .ok { standard with placement := .randomized, scrub := false } := by
  have hbefore (s : List Char) : Spaced s ([' '] ++ (s ++ [])) := .mk (by simp [Blank]) blank_nil
  have hafter (s : List Char) : Spaced s ([] ++ (s ++ [' '])) := .mk blank_nil (by simp [Blank])
  have hplacement := Members.Spelled.last (literal_piecesOf "placement") (hafter _)
    (.string (literal_piecesOf "randomized")) (spaced_self _)
  have hnote := Members.Spelled.more (literal_piecesOf "note") (spaced_self _)
    (.array (.last (.emptyObject blank_nil) (spaced_self _))) (spaced_self _) hplacement
  have hscrub := Members.Spelled.more (literal_piecesOf "scrub_address_space") (spaced_self _) .no
    (hbefore _) hnote
  have htext := Value.Document.mk (Value.Spelled.object hscrub)
    (.mk blank_nil (by simp [Blank] : Blank ['\n']))
  have hdistinct : ([Setting.placement .randomized, .scrub false].map Setting.name).Nodup := by decide
  obtain ⟨⟨c, hc, hobject, -⟩, -⟩ := ofText_overlays hdistinct
  obtain rfl := hc.unique (overlays_putAll hdistinct .standard)
  have hgiven : AllGiven [.scrub false, .placement .randomized]
      [("scrub_address_space", .bool false), ("placement", .text "randomized")] :=
    .cons ⟨rfl, .scrub false⟩ (.cons ⟨rfl, .placement (.randomized (says_piecesOf "randomized"))⟩ .nil)
  refine hobject _ (.mk (.swap _ _ _) hgiven ?_ htext)
  refine .given (says_piecesOf "scrub_address_space") (by decide) ?_
  refine .skipped (says_piecesOf "note") (by decide) rfl ?_
  exact .given (says_piecesOf "placement") (by decide) .done

/-- A key with half of a surrogate pair is unknown, but what it holds is not skipped. -/
theorem unpaired_key_refused :
    (∀ name ∈ Setting.names, ¬ Says [.unit 0xd800] name) ∧
      (Value.object (.cons [.unit 0xd800] .null .done)).Document "\x7b\"\\ud800\":null\x7d" ∧
      Overlays .standard [] .standard ∧
      ofText "\x7b\"\\ud800\":null\x7d" = .error (.unparsable .malformed) := by
  have hkey : Literal [.unit 0xd800] _ := .quoted (.cons (spelled_unit (by decide)) .nil)
  have hspelled := Value.Spelled.object (.last hkey (spaced_self _) .null (spaced_self _))
  have htext : (Value.object (.cons [.unit 0xd800] .null .done)).Document "\x7b\"\\ud800\":null\x7d" :=
    .mk hspelled (spaced_self _)
  have hdistinct : (([] : List Setting).map Setting.name).Nodup := .nil
  refine ⟨fun name _ hmeant => ?_, htext, overlays_putAll hdistinct standard, ?_⟩
  · have hnone := textOf_eq_ok hmeant
    cases hnone
  · rw [ofText, Codec.parse_of_document _ htext]
    rfl

end Footprint.Config
