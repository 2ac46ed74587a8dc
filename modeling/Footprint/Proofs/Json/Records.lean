import Mathlib.Data.List.Nodup
import Footprint.Proofs.Json.Reading

/-!
# Records from objects and arrays

What a record is read as, for objects whose members stand in any order between unknown ones and for arrays of
the values alone. Reading goes through the members once and puts each value that it knows into the record, so
it ends with the record that has all of them put in (`readMembers_of_holds`, `readItems_of_reads`). A field
that is named twice ends it, whatever else the object holds (`exists_error_of_repeated`).
-/

namespace Footprint.Json

/-! ## What strings say -/

theorem isHigh_isLow_of_char (c : Char) : Piece.isHigh c.toNat = false ∧ Piece.isLow c.toNat = false := by
  have hvalid : c.toNat < 0xd800 ∨ 0xdfff < c.toNat ∧ c.toNat < 0x110000 := c.valid
  simp only [Piece.isHigh, Piece.isLow, Bool.and_eq_false_iff, decide_eq_false_iff_not]
  omega

/-- The characters of a string literal are read off its pieces. -/
theorem decode_of_means {ps : List Piece} {cs : List Char} (h : Piece.Means ps cs) :
    Piece.decode ps = some cs := by
  induction h with
  | nil => rfl
  | char h ih => simp [Piece.decode, ih]
  | unit hc h ih =>
    rename_i c ps cs
    obtain ⟨hhigh, hlow⟩ := isHigh_isLow_of_char c
    rw [Piece.decode.eq_def]
    simp [hhigh, hlow, ih, Char.ofNat_toNat]
  | pair hc h ih =>
    rename_i c ps cs
    have hbound : c.toNat < 0x110000 := by
      have hvalid : c.toNat < 0xd800 ∨ 0xdfff < c.toNat ∧ c.toNat < 0x110000 := c.valid
      omega
    have hhigh : Piece.isHigh (0xd800 + (c.toNat - 0x10000) / 0x400) = true := by
      simp only [Piece.isHigh, Bool.and_eq_true, decide_eq_true_eq]
      omega
    have hlow : Piece.isLow (0xdc00 + (c.toNat - 0x10000) % 0x400) = true := by
      simp only [Piece.isLow, Bool.and_eq_true, decide_eq_true_eq]
      omega
    have hwhole : 0x10000 + (0xd800 + (c.toNat - 0x10000) / 0x400 - 0xd800) * 0x400 +
        (0xdc00 + (c.toNat - 0x10000) % 0x400 - 0xdc00) = c.toNat := by omega
    rw [Piece.decode, if_pos hhigh]
    simp only [hlow, if_true, hwhole, ih, Char.ofNat_toNat, Option.map_some]

theorem textOf_eq_ok {pieces : List Piece} {text : String} (h : Says pieces text) :
    textOf pieces = .ok text := by
  simp [textOf, decode_of_means h]

namespace RecordForm

variable {ρ : Type} {form : RecordForm ρ}

/-! ## Objects -/

/-- What a named value puts into a record: the field of that name reads it. -/
def Reads (form : RecordForm ρ) (m : String × Value) (put : ρ → ρ) : Prop :=
  ∃ f ∈ form.fields, f.name = m.1 ∧ f.read m.2 = .ok put

/-- The record after everything was put into it. -/
def putAll (r : ρ) (puts : List (ρ → ρ)) : ρ :=
  puts.foldl (fun r put => put r) r

/-- The field of a name, in a form that has no two fields of one name. -/
theorem find?_name (hnames : (form.fields.map (·.name)).Nodup) {f : Field ρ} (hf : f ∈ form.fields) :
    (form.fields.find? fun g => g.name = f.name) = some f := by
  cases hfind : form.fields.find? fun g => g.name = f.name with
  | none => exact (List.find?_eq_none.1 hfind f hf (decide_eq_true rfl)).elim
  | some g =>
    have hname : g.name = f.name := by simpa using List.find?_some hfind
    exact congrArg some (List.inj_on_of_nodup_map hnames (List.mem_of_find?_eq_some hfind) hf hname)

theorem find?_name_eq_none {name : String} (hname : name ∉ form.fields.map (·.name)) :
    (form.fields.find? fun g => g.name = name) = none := by
  rw [List.find?_eq_none]
  intro g hg heq
  refine hname (List.mem_map.2 ⟨g, hg, ?_⟩)
  simpa using heq

/-- An object that holds values for fields, none of them twice and all that a record must have, is read as the
record with these values put in. -/
theorem readMembers_of_holds (hnames : (form.fields.map (·.name)).Nodup) {members : Members}
    {given : List (String × Value)} {puts : List (ρ → ρ)}
    (h : members.Holds (form.fields.map (·.name)) given) (hputs : List.Forall₂ form.Reads given puts)
    (seen : List String) (r : ρ)
    (hfresh : (given.map (·.1)).Nodup ∧ ∀ name ∈ given.map (·.1), name ∉ seen)
    (hwhole : ∀ f ∈ form.fields, f.required = true → f.name ∈ seen ∨ f.name ∈ given.map (·.1)) :
    form.readMembers seen r members = .ok (putAll r puts) := by
  induction h generalizing seen r puts with
  | done =>
    cases hputs
    have hnone : (form.fields.find? fun f => f.required && !seen.contains f.name) = none := by
      rw [List.find?_eq_none]
      intro f hf hmissing
      rw [Bool.and_eq_true, Bool.not_eq_true', List.contains_eq_mem, decide_eq_false_iff_not] at hmissing
      rcases hwhole f hf hmissing.1 with h | h
      · exact hmissing.2 h
      · cases h
    rw [readMembers, hnone]
    rfl
  | given hkey hname hrest ih =>
    obtain _ | ⟨⟨f, hf, rfl, hread⟩, hmore⟩ := hputs
    obtain ⟨hnodup, hseen⟩ := hfresh
    rw [List.map_cons, List.nodup_cons] at hnodup
    have hnew : f.name ∉ seen := hseen f.name List.mem_cons_self
    rw [readMembers, textOf_eq_ok hkey]
    simp only [bind, Except.bind, find?_name hnames hf, List.contains_eq_mem, hnew, decide_false,
      Bool.false_eq_true, if_false, hread]
    refine ih hmore (f.name :: seen) _ ⟨hnodup.2, ?_⟩ ?_
    · intro name hname hmem
      rcases List.mem_cons.1 hmem with rfl | hmem
      · exact hnodup.1 hname
      · exact hseen name (List.mem_cons_of_mem _ hname) hmem
    · intro g hg hrequired
      rcases hwhole g hg hrequired with h | h
      · exact .inl (List.mem_cons_of_mem _ h)
      · rw [List.map_cons, List.mem_cons] at h
        rcases h with h | h
        · exact .inl (by rw [h]; exact List.mem_cons_self)
        · exact .inr h
  | skipped hkey hname hv hrest ih =>
    rw [readMembers, textOf_eq_ok hkey]
    simp only [bind, Except.bind, find?_name_eq_none hname, hv, if_true]
    exact ih hputs seen r hfresh hwhole

/-! ## Repeated fields -/

/-- What a member does to reading that ends well: it gives a field that was not seen before, or it is no
field's and is skipped. -/
theorem readMembers_cons_cases {seen : List String} {r r' : ρ} {key : List Piece} {v : Value}
    {rest : Members} (h : form.readMembers seen r (.cons key v rest) = .ok r') :
    ∃ name, textOf key = .ok name ∧
      ((∃ put : ρ → ρ, name ∉ seen ∧ form.readMembers (name :: seen) (put r) rest = .ok r') ∨
        ((form.fields.find? fun f => f.name = name) = none ∧ form.readMembers seen r rest = .ok r')) := by
  rw [readMembers] at h
  cases hkey : textOf key with
  | error problem =>
    rw [hkey] at h
    cases h
  | ok name =>
    refine ⟨name, rfl, ?_⟩
    simp only [hkey, bind, Except.bind] at h
    cases hfind : form.fields.find? fun f => f.name = name with
    | none =>
      simp only [hfind] at h
      split at h
      · exact .inr ⟨rfl, h⟩
      · cases h
    | some f =>
      simp only [hfind, List.contains_eq_mem] at h
      by_cases hseen : name ∈ seen
      · simp only [hseen, decide_true, if_true] at h
        cases h
      · simp only [hseen, decide_false, Bool.false_eq_true, if_false] at h
        cases hread : f.read v with
        | error problem =>
          rw [hread] at h
          cases h
        | ok put =>
          rw [hread] at h
          exact .inl ⟨put, hseen, h⟩

/-- A field that was seen is not in what is still read. -/
theorem not_seen_of_readMembers {members : List (List Piece × Value)} {seen : List String} {r r' : ρ}
    (h : form.readMembers seen r (.ofList members) = .ok r') {f : Field ρ} (hf : f ∈ form.fields)
    {m : List Piece × Value} (hm : m ∈ members) (hkey : Says m.1 f.name) : f.name ∉ seen := by
  induction members generalizing seen r with
  | nil => cases hm
  | cons m' members ih =>
    obtain ⟨name, htext, hcases⟩ := readMembers_cons_cases h
    rcases List.mem_cons.1 hm with rfl | hm
    · rw [textOf_eq_ok hkey] at htext
      obtain rfl := Except.ok.inj htext
      rcases hcases with ⟨put, hseen, -⟩ | ⟨hnone, -⟩
      · exact hseen
      · exact (List.find?_eq_none.1 hnone f hf (decide_eq_true rfl)).elim
    · rcases hcases with ⟨put, -, hrest⟩ | ⟨-, hrest⟩
      · exact fun hmem => ih hrest hm (List.mem_cons_of_mem _ hmem)
      · exact ih hrest hm

/-- Behind a member that gives a field, that field is seen. -/
theorem exists_seen_of_readMembers {before after : List (List Piece × Value)} {seen : List String}
    {r r' : ρ} {key : List Piece} {v : Value}
    (h : form.readMembers seen r (.ofList (before ++ (key, v) :: after)) = .ok r') {f : Field ρ}
    (hf : f ∈ form.fields) (hkey : Says key f.name) :
    ∃ seen' r'', f.name ∈ seen' ∧ form.readMembers seen' r'' (.ofList after) = .ok r' := by
  induction before generalizing seen r with
  | nil =>
    obtain ⟨name, htext, hcases⟩ := readMembers_cons_cases h
    rw [textOf_eq_ok hkey] at htext
    obtain rfl := Except.ok.inj htext
    rcases hcases with ⟨put, -, hrest⟩ | ⟨hnone, -⟩
    · exact ⟨_, _, List.mem_cons_self, hrest⟩
    · exact (List.find?_eq_none.1 hnone f hf (decide_eq_true rfl)).elim
  | cons m before ih =>
    obtain ⟨name, -, hcases⟩ := readMembers_cons_cases h
    rcases hcases with ⟨put, -, hrest⟩ | ⟨-, hrest⟩
    · exact ih hrest
    · exact ih hrest

/-- An object that names a field twice is not read, whatever else it holds. -/
theorem exists_error_of_repeated {before between after : List (List Piece × Value)}
    {key key' : List Piece} {v v' : Value} {f : Field ρ} (hf : f ∈ form.fields) (hkey : Says key f.name)
    (hkey' : Says key' f.name) (seen : List String) (r : ρ) :
    ∃ problem, form.readMembers seen r (.ofList (before ++ (key, v) :: (between ++ (key', v') :: after))) =
      .error problem := by
  cases h : form.readMembers seen r (.ofList (before ++ (key, v) :: (between ++ (key', v') :: after))) with
  | error problem => exact ⟨problem, rfl⟩
  | ok r' =>
    obtain ⟨seen', r'', hseen, hrest⟩ := exists_seen_of_readMembers h hf hkey
    exact (not_seen_of_readMembers hrest hf (List.mem_append_right _ List.mem_cons_self) hkey' hseen).elim

/-! ## Arrays -/

/-- An array that holds values for the first fields in their order is read as the record with all of them put
in, if these are all the fields or it may stop early. -/
theorem readItems_of_reads (hnames : (form.fields.map (·.name)).Nodup) {given : List (String × Value)}
    {puts : List (ρ → ρ)} (h : List.Forall₂ form.Reads given puts) {fields rest : List (Field ρ)}
    (hfields : ∀ f ∈ fields, f ∈ form.fields) (hgiven : given.map (·.1) = fields.map (·.name))
    (hrest : rest = [] ∨ form.mayStopEarly = true) (done : Nat) (r : ρ) :
    form.readItems done r (fields ++ rest) (.ofList (given.map (·.2))) = .ok (putAll r puts) := by
  induction h generalizing fields done r with
  | nil =>
    obtain rfl : fields = [] := List.map_eq_nil_iff.1 hgiven.symm
    cases rest with
    | nil => rfl
    | cons f rest =>
      have hstop : form.mayStopEarly = true := hrest.resolve_left nofun
      exact if_pos hstop
  | cons hread hmore ih =>
    rename_i m put given puts
    cases fields with
    | nil => cases hgiven
    | cons f fields =>
      obtain ⟨hname, hnames'⟩ := List.cons.inj hgiven
      obtain ⟨g, hg, hgname, hput⟩ := hread
      obtain rfl : g = f :=
        List.inj_on_of_nodup_map hnames hg (hfields f List.mem_cons_self) (hgname.trans hname)
      change (g.read m.2 >>= fun put => form.readItems (done + 1) (put r) (fields ++ rest) _) = _
      rw [hput]
      exact ih (fun f hf => hfields f (List.mem_cons_of_mem _ hf)) hnames' (done + 1) (put r)

end RecordForm

end Footprint.Json
