import Mathlib.Tactic.IntervalCases
import Mathlib.Tactic.Tauto
import Footprint.Json.Codec
import Footprint.Proofs.Json.Grammar

/-!
# Texts of the grammar are read

The reader of JSON texts accepts every text of the grammar and answers the tree that the text spells
(`document_of_spelled`). Each part is read with any text behind it, and with any fuel that is at least the
length of the part; a number needs a text behind it that does not go on with it.
-/

namespace Footprint.Json

namespace Parse

variable {a b s t rest : List Char}

/-! ## Spaces -/

theorem isSpace_of_mem {c : Char} (h : c ∈ [' ', '\t', '\n', '\r']) : isSpace c = true := by
  simp only [List.mem_cons, List.not_mem_nil, or_false] at h
  rcases h with rfl | rfl | rfl | rfl
  all_goals rfl

/-- A text that does not start with a space. -/
def Solid (s : List Char) : Prop :=
  ∀ c ∈ s.head?, isSpace c = false

theorem skipSpace_of_solid (hs : Solid s) : skipSpace s = s := by
  cases s with
  | nil => rfl
  | cons c s =>
    have hc : isSpace c = false := hs c rfl
    simp [skipSpace, hc]

/-- Spaces in front of a text are skipped. -/
theorem skipSpace_blank_append (ha : Blank a) (hs : Solid s) : skipSpace (a ++ s) = s := by
  induction a with
  | nil => exact skipSpace_of_solid hs
  | cons c a ih =>
    have hc : isSpace c = true := isSpace_of_mem (ha c List.mem_cons_self)
    have hrest := ih fun d hd => ha d (List.mem_cons_of_mem _ hd)
    simpa [skipSpace, hc] using hrest

theorem solid_cons {c : Char} (hc : isSpace c = false) : Solid (c :: s) := by
  intro d hd
  rw [← Option.some.inj hd]
  exact hc

/-- Spaces and then a mark of the grammar end a value. -/
theorem ends_blank_append {c : Char} (hb : Blank b) (hc : c = ',' ∨ c = ']' ∨ c = '\x7d') :
    Ends (b ++ c :: rest) := by
  intro d hd
  cases b with
  | nil =>
    have heq : c = d := Option.some.inj hd
    rcases hc with h | h | h
    all_goals simp [← heq, h]
  | cons e b =>
    have heq : e = d := Option.some.inj hd
    have hspace := hb e List.mem_cons_self
    rw [heq] at hspace
    simp only [List.mem_cons, List.not_mem_nil, or_false] at hspace ⊢
    tauto

theorem ends_of_blank (hb : Blank b) : Ends b := by
  intro c hc
  have hspace := hb c (List.mem_of_mem_head? hc)
  simp only [List.mem_cons, List.not_mem_nil, or_false] at hspace ⊢
  tauto

/-! ## String literals -/

theorem hexValue_of_hexDigit {c : Char} {d : Nat} (h : HexDigit c d) : hexValue c = some d := by
  have hd : d < 16 := by
    rcases h with h | h
    all_goals exact (List.getElem?_eq_some_iff.1 h).1
  rcases h with h | h
  all_goals
    interval_cases d
    all_goals
      rw [← Option.some.inj h]
      rfl

theorem shortEscape_of_mem {letter c : Char} (h : (letter, c) ∈ Piece.shortEscapes) :
    shortEscape letter = some c ∧ letter ≠ 'u' := by
  simp only [Piece.shortEscapes, List.mem_cons, Prod.mk.injEq, List.not_mem_nil, or_false] at h
  rcases h with ⟨rfl, rfl⟩ | ⟨rfl, rfl⟩ | ⟨rfl, rfl⟩ | ⟨rfl, rfl⟩ | ⟨rfl, rfl⟩ | ⟨rfl, rfl⟩ | ⟨rfl, rfl⟩ |
    ⟨rfl, rfl⟩
  all_goals exact ⟨rfl, by decide⟩

theorem unitOf_of_hexDigit {a b c d : Char} {x y z w : Nat} (ha : HexDigit a x) (hb : HexDigit b y)
    (hc : HexDigit c z) (hd : HexDigit d w) : unitOf a b c d = some (((x * 16 + y) * 16 + z) * 16 + w) := by
  simp [unitOf, hexValue_of_hexDigit ha, hexValue_of_hexDigit hb, hexValue_of_hexDigit hc,
    hexValue_of_hexDigit hd]

/-- A piece is read off the front of a string literal. -/
theorem string_piece_append {p : Piece} (hp : p.Spelled s) (rest : List Char) :
    string (s ++ rest) = (string rest).map fun read => (p :: read.1, read.2) := by
  cases hp with
  | raw hvisible hquote hescape =>
    rename_i c
    have hc : ¬ (c = '\\' ∨ c.toNat < 0x20) := by
      rintro (h | h)
      · exact hescape h
      · omega
    rw [List.singleton_append, string]
    · rw [if_neg hc]
      cases string rest <;> rfl
    all_goals simp_all
  | short hletter =>
    rename_i letter c
    obtain ⟨hshort, hu⟩ := shortEscape_of_mem hletter
    change string ('\\' :: letter :: rest) = _
    rw [string, hshort]
    · cases string rest <;> rfl
    · intro _ _ _ _ _ h _
      exact hu h
  | unit ha hb hc hd =>
    rename_i a b c d _ _ _ _
    change string ('\\' :: 'u' :: a :: b :: c :: d :: rest) = _
    rw [string, unitOf_of_hexDigit ha hb hc hd]
    cases string rest <;> rfl

theorem string_of_allSpelled {ps : List Piece} (h : Piece.AllSpelled ps s) (rest : List Char) :
    string (s ++ '"' :: rest) = some (ps, rest) := by
  induction h with
  | nil => rfl
  | cons hp hps ih => rw [List.append_assoc, string_piece_append hp, ih]; rfl

/-! ## Numbers -/

theorem isDigit_digitChar {d : Nat} (hd : d < 10) : isDigit (Char.ofNat ('0'.toNat + d)) = true := by
  interval_cases d
  all_goals rfl

theorem toNat_digitChar {d : Nat} (hd : d < 10) :
    (Char.ofNat ('0'.toNat + d)).toNat - '0'.toNat = d := by
  interval_cases d
  all_goals rfl

/-- A text that does not start with a digit. -/
def Undigited (s : List Char) : Prop :=
  ∀ c ∈ s.head?, isDigit c = false

theorem digits_append {ds : List Nat} (hds : ∀ d ∈ ds, d < 10) (hrest : Undigited rest) :
    digits (Render.digits ds ++ rest) = (ds, rest) := by
  induction ds with
  | nil =>
    cases rest with
    | nil => rfl
    | cons c rest =>
      have hc : isDigit c = false := hrest c rfl
      simp [digits, Render.digits, hc]
  | cons d ds ih =>
    have hd := hds d List.mem_cons_self
    have hmore := ih fun e he => hds e (List.mem_cons_of_mem _ he)
    simp only [digits, Prod.mk.injEq] at hmore
    simp only [digits, Render.digits, List.map_cons, List.cons_append] at hmore ⊢
    rw [List.takeWhile_cons_of_pos (isDigit_digitChar hd), List.dropWhile_cons_of_pos (isDigit_digitChar hd),
      List.map_cons, hmore.1, hmore.2, toNat_digitChar hd]

theorem someDigits_append {ds : List Nat} (hs : Digits ds s) (hrest : Undigited rest) :
    someDigits (s ++ rest) = some (ds, rest) := by
  cases hs with
  | some hsome hdigits =>
    rw [someDigits, digits_append hdigits hrest]
    cases ds with
    | nil => exact absurd rfl hsome
    | cons d ds => rfl

theorem Digits.exists_cons {ds : List Nat} (hs : Digits ds s) : ∃ c t, s = c :: t ∧ isDigit c = true := by
  cases hs with
  | some hsome hdigits =>
    cases ds with
    | nil => exact absurd rfl hsome
    | cons d ds => exact ⟨_, _, rfl, isDigit_digitChar (hdigits d List.mem_cons_self)⟩

theorem undigited_cons {c : Char} (hc : isDigit c = false) : Undigited (c :: s) := by
  intro d hd
  rw [← Option.some.inj hd]
  exact hc

/-- What follows a value does not go on with a number. -/
theorem stops_of_ends (h : Ends s) : ∀ c ∈ s.head?, isDigit c = false ∧ c ≠ '.' ∧ c ≠ 'e' ∧ c ≠ 'E' := by
  intro c hc
  have hmem := h c hc
  simp only [List.mem_cons, List.not_mem_nil, or_false] at hmem
  rcases hmem with rfl | rfl | rfl | rfl | rfl | rfl | rfl
  all_goals decide

theorem undigited_of_ends (h : Ends s) : Undigited s := fun c hc => (stops_of_ends h c hc).1

theorem signedDigits_append {negative : Bool} {sign : List Char} {ds : List Nat}
    (hsign : ExponentSign negative sign) (hs : Digits ds s) (hrest : Undigited rest) :
    signedDigits (sign ++ (s ++ rest)) = some ((negative, ds), rest) := by
  have hdigits := someDigits_append hs hrest
  cases hsign with
  | none =>
    obtain ⟨c, t, rfl, hc⟩ := Digits.exists_cons hs
    rw [List.nil_append, signedDigits, hdigits]
    · rfl
    all_goals
      intro t' h
      rw [(List.cons.inj h).1] at hc
      cases hc
  | plus => simp [signedDigits, hdigits]
  | minus => simp [signedDigits, hdigits]

theorem exponent_append {e : Option (Bool × List Nat)} (he : Exponent e s) (hrest : Ends rest) :
    exponent (s ++ rest) = some (e, rest) := by
  cases he with
  | none =>
    have hstops := stops_of_ends hrest
    rw [List.nil_append, exponent]
    all_goals
      rintro t rfl
      simp at hstops
  | some hletter hsign hs =>
    have hsigned := signedDigits_append hsign hs (undigited_of_ends hrest)
    rcases hletter with rfl | rfl
    all_goals simp [exponent, hsigned]

/-- Behind a fraction comes its exponent or the end of the number, but no digit and no other point. -/
theorem exponent_append_starts {e : Option (Bool × List Nat)} (he : Exponent e s) (hrest : Ends rest) :
    ∀ c ∈ (s ++ rest).head?, isDigit c = false ∧ c ≠ '.' := by
  intro c hc
  cases he with
  | none =>
    obtain ⟨hdigit, hpoint, -⟩ := stops_of_ends hrest c hc
    exact ⟨hdigit, hpoint⟩
  | some hletter hsign hs =>
    rw [← Option.some.inj hc]
    rcases hletter with rfl | rfl
    all_goals exact ⟨rfl, by decide⟩

theorem fraction_append {ds : List Nat} (hs : Fraction ds s)
    (hrest : ∀ c ∈ rest.head?, isDigit c = false ∧ c ≠ '.') : fraction (s ++ rest) = some (ds, rest) := by
  cases hs with
  | none =>
    rw [List.nil_append, fraction]
    intro t h
    subst h
    exact (hrest '.' rfl).2 rfl
  | some hs =>
    have hdigits := someDigits_append hs fun c hc => (hrest c hc).1
    simp [fraction, hdigits]

theorem fraction_append_undigited {ds : List Nat} (hs : Fraction ds s)
    (hrest : ∀ c ∈ rest.head?, isDigit c = false ∧ c ≠ '.') : Undigited (s ++ rest) := by
  cases hs with
  | none => exact fun c hc => (hrest c hc).1
  | some hs => exact undigited_cons rfl

/-- A number is read behind its sign. -/
theorem numeral_append {n : Numeral} {w f e : List Char} (hw : Digits n.whole w)
    (hzero : n.whole.head? = some 0 → n.whole.length = 1) (hf : Fraction n.fraction f)
    (he : Exponent n.exponent e) (hrest : Ends rest) :
    numeral n.negative (w ++ (f ++ (e ++ rest))) = some (n, rest) := by
  have hstarts := exponent_append_starts he hrest
  have hleading : ¬ (n.whole.head? = some 0 ∧ n.whole.length ≠ 1) := fun h => h.2 (hzero h.1)
  simp only [numeral, someDigits_append hw (fraction_append_undigited hf hstarts),
    fraction_append hf hstarts, exponent_append he hrest, Option.bind_eq_bind, Option.bind_some,
    if_neg hleading]
  rfl

/-! ## Values -/

theorem ne_of_isDigit {c d : Char} (hc : isDigit c = true) (hd : isDigit d = false) : c ≠ d := by
  rintro rfl
  rw [hc] at hd
  cases hd

theorem isSpace_of_isDigit {c : Char} (hc : isDigit c = true) : isSpace c = false := by
  simp [isSpace, ne_of_isDigit hc (d := ' ') rfl, ne_of_isDigit hc (d := '\t') rfl,
    ne_of_isDigit hc (d := '\n') rfl, ne_of_isDigit hc (d := '\r') rfl]

/-- A value starts with a character that is neither a space nor the end of an item. -/
theorem exists_cons_of_spelled {v : Value} (h : v.Spelled s) :
    ∃ c t, s = c :: t ∧ isSpace c = false ∧ c ≠ ']' ∧ c ≠ '\x7d' := by
  cases h with
  | number h =>
    cases h with
    | mk hw hzero hf he =>
      split
      · exact ⟨'-', _, rfl, rfl, by decide, by decide⟩
      · obtain ⟨c, t, rfl, hc⟩ := Digits.exists_cons hw
        exact ⟨c, _, rfl, isSpace_of_isDigit hc, ne_of_isDigit hc rfl, ne_of_isDigit hc rfl⟩
  | string h =>
    cases h with
    | quoted hs => exact ⟨'"', _, rfl, rfl, by decide, by decide⟩
  | _ => exact ⟨_, _, rfl, rfl, by decide, by decide⟩

theorem solid_of_spelled {v : Value} (h : v.Spelled s) : Solid (s ++ rest) := by
  obtain ⟨c, t, rfl, hc, -⟩ := exists_cons_of_spelled h
  exact solid_cons hc

theorem solid_skipSpace (text : List Char) : Solid (skipSpace text) := by
  induction text with
  | nil => exact fun _ h => nomatch h
  | cons c text ih =>
    cases hc : isSpace c with
    | true => simpa [skipSpace, hc] using ih
    | false => simpa [skipSpace, hc] using solid_cons hc

theorem skipSpace_skipSpace (text : List Char) : skipSpace (skipSpace text) = skipSpace text :=
  skipSpace_of_solid (solid_skipSpace text)

theorem value_skipSpace (fuel : Nat) (text : List Char) : value fuel (skipSpace text) = value fuel text := by
  cases fuel with
  | zero => rfl
  | succ fuel => rw [value, value, skipSpace_skipSpace]

theorem items_skipSpace (fuel : Nat) (text : List Char) : items fuel (skipSpace text) = items fuel text := by
  cases fuel with
  | zero => rfl
  | succ fuel => rw [items, items, value_skipSpace]

theorem members_skipSpace (fuel : Nat) (text : List Char) :
    members fuel (skipSpace text) = members fuel text := by
  cases fuel with
  | zero => rfl
  | succ fuel => rw [members, members, skipSpace_skipSpace]

/-- Spaces in front of a value are skipped. -/
theorem value_blank_append (ha : Blank a) (hs : Solid s) (fuel : Nat) :
    value fuel (a ++ s) = value fuel s := by
  rw [← value_skipSpace, skipSpace_blank_append ha hs]

/-! One step of the reader, once the first character is known. -/

theorem value_of_isDigit {c : Char} (hc : isDigit c = true) (fuel : Nat) (rest : List Char) :
    value (fuel + 1) (c :: rest) = number false (c :: rest) := by
  rw [value, skipSpace_of_solid (solid_cons (isSpace_of_isDigit hc))]
  split
  case h_8 =>
    rename_i heq
    obtain ⟨rfl, rfl⟩ := List.cons.inj heq
    exact if_pos hc
  -- every other form starts with a character that is no digit
  all_goals
    rename_i heq
    cases heq
    try cases hc

theorem value_cons_quote (fuel : Nat) (t : List Char) :
    value (fuel + 1) ('"' :: t) =
      match string t with
      | some (ps, rest) => (.string ps, some rest)
      | none => (.broken, none) :=
  rfl

theorem value_quote (fuel : Nat) {ps : List Piece} {t : List Char} (h : string t = some (ps, rest)) :
    value (fuel + 1) ('"' :: t) = (.string ps, some rest) := by
  simp only [value_cons_quote, h]

/-- What follows a bracket is the end of the array or its first item. -/
theorem value_cons_bracket (fuel : Nat) (t : List Char) :
    value (fuel + 1) ('[' :: t) =
      match skipSpace t with
      | ']' :: rest => (.array .done, some rest)
      | rest => (.array (items fuel rest).1, (items fuel rest).2) :=
  rfl

theorem value_bracket_done (fuel : Nat) {t : List Char} (h : skipSpace t = ']' :: rest) :
    value (fuel + 1) ('[' :: t) = (.array .done, some rest) := by
  simp only [value_cons_bracket, h]

theorem value_bracket (fuel : Nat) {t : List Char} (h : (skipSpace t).head? ≠ some ']') :
    value (fuel + 1) ('[' :: t) = (.array (items fuel t).1, (items fuel t).2) := by
  rw [value_cons_bracket]
  split
  · rename_i heq
    rw [heq] at h
    exact absurd rfl h
  · rw [items_skipSpace]

/-- What follows a brace is the end of the object or its first member. -/
theorem value_cons_brace (fuel : Nat) (t : List Char) :
    value (fuel + 1) ('\x7b' :: t) =
      match skipSpace t with
      | '\x7d' :: rest => (.object .done, some rest)
      | rest => (.object (members fuel rest).1, (members fuel rest).2) :=
  rfl

theorem value_brace_done (fuel : Nat) {t : List Char} (h : skipSpace t = '\x7d' :: rest) :
    value (fuel + 1) ('\x7b' :: t) = (.object .done, some rest) := by
  simp only [value_cons_brace, h]

theorem value_brace (fuel : Nat) {t : List Char} (h : (skipSpace t).head? ≠ some '\x7d') :
    value (fuel + 1) ('\x7b' :: t) = (.object (members fuel t).1, (members fuel t).2) := by
  rw [value_cons_brace]
  split
  · rename_i heq
    rw [heq] at h
    exact absurd rfl h
  · rw [members_skipSpace]

/-- What follows an item decides how its array goes on. -/
theorem items_of_value (fuel : Nat) {v : Value} {t u : List Char} (hv : value fuel t = (v, some u)) :
    items (fuel + 1) t =
      match skipSpace u with
      | ']' :: rest => (.cons v .done, some rest)
      | ',' :: rest => (.cons v (items fuel rest).1, (items fuel rest).2)
      | _ => (.cons v .broken, none) := by
  rewrite [items, hv]
  -- The reader takes the pair for the further items apart, where the statement has its projections.
  rfl

theorem items_last (fuel : Nat) {v : Value} {t u : List Char} (hv : value fuel t = (v, some u))
    (hu : skipSpace u = ']' :: rest) : items (fuel + 1) t = (.cons v .done, some rest) := by
  simp only [items_of_value fuel hv, hu]

theorem items_more (fuel : Nat) {v : Value} {t u w : List Char} (hv : value fuel t = (v, some u))
    (hu : skipSpace u = ',' :: w) :
    items (fuel + 1) t = (.cons v (items fuel w).1, (items fuel w).2) := by
  simp only [items_of_value fuel hv, hu]

/-- What follows a member decides how its object goes on. -/
theorem members_of_value (fuel : Nat) {key : List Piece} {v : Value} {t u w x y : List Char}
    (ht : skipSpace t = '"' :: u) (hkey : string u = some (key, w)) (hw : skipSpace w = ':' :: x)
    (hv : value fuel x = (v, some y)) :
    members (fuel + 1) t =
      match skipSpace y with
      | '\x7d' :: rest => (.cons key v .done, some rest)
      | ',' :: rest => (.cons key v (members fuel rest).1, (members fuel rest).2)
      | _ => (.cons key v .broken, none) := by
  simp only [members, ht, hkey, hw]
  rewrite [hv]
  rfl

theorem members_last (fuel : Nat) {key : List Piece} {v : Value} {t u w x y : List Char}
    (ht : skipSpace t = '"' :: u) (hkey : string u = some (key, w)) (hw : skipSpace w = ':' :: x)
    (hv : value fuel x = (v, some y)) (hy : skipSpace y = '\x7d' :: rest) :
    members (fuel + 1) t = (.cons key v .done, some rest) := by
  simp only [members_of_value fuel ht hkey hw hv, hy]

theorem members_more (fuel : Nat) {key : List Piece} {v : Value} {t u w x y z : List Char}
    (ht : skipSpace t = '"' :: u) (hkey : string u = some (key, w)) (hw : skipSpace w = ':' :: x)
    (hv : value fuel x = (v, some y)) (hy : skipSpace y = ',' :: z) :
    members (fuel + 1) t = (.cons key v (members fuel z).1, (members fuel z).2) := by
  simp only [members_of_value fuel ht hkey hw hv, hy]

/-! The parts of a value, with any text behind them. -/

theorem value_number_append {n : Numeral} (h : n.Spelled s) (hrest : Ends rest) (fuel : Nat) :
    value (fuel + 1) (s ++ rest) = (.number n, some rest) := by
  cases h with
  | mk hw hzero hf he =>
    rename_i w f e
    have hread := numeral_append hw hzero hf he hrest
    cases hnegative : n.negative with
    | true =>
      rw [hnegative] at hread
      simp only [if_true, List.append_assoc, List.cons_append, List.nil_append]
      change number true _ = _
      rw [number, hread]
    | false =>
      obtain ⟨c, t, rfl, hc⟩ := Digits.exists_cons hw
      rw [hnegative] at hread
      simp only [Bool.false_eq_true, if_false, List.append_assoc, List.cons_append,
        List.nil_append] at hread ⊢
      rw [value_of_isDigit hc, number, hread]

theorem string_of_literal {ps : List Piece} (h : Literal ps s) :
    ∃ t, s = '"' :: t ∧ ∀ rest, string (t ++ rest) = some (ps, rest) := by
  cases h with
  | quoted hs =>
    rename_i s
    refine ⟨s ++ ['"'], rfl, fun rest => ?_⟩
    rw [List.append_assoc]
    exact string_of_allSpelled hs rest

theorem value_string_append {ps : List Piece} (h : Literal ps s) (fuel : Nat) (rest : List Char) :
    value (fuel + 1) (s ++ rest) = (.string ps, some rest) := by
  obtain ⟨t, rfl, hread⟩ := string_of_literal h
  exact value_quote fuel (hread rest)

theorem items_head {items : Items} (h : items.Spelled s) (rest : List Char) :
    (skipSpace (s ++ rest)).head? ≠ some ']' := by
  have hitem : ∀ {v : Value} {t u : List Char} (w : List Char), v.Spelled t → Spaced t u →
      (skipSpace (u ++ w)).head? ≠ some ']' := by
    rintro v t _ w ht ⟨ha, hb⟩
    rw [List.append_assoc, List.append_assoc, skipSpace_blank_append ha (solid_of_spelled ht)]
    obtain ⟨c, t, rfl, -, hc, -⟩ := exists_cons_of_spelled ht
    simpa using hc
  cases h with
  | last hs ht => simpa only [List.append_assoc] using hitem _ hs ht
  | more hs ht hu => simpa only [List.append_assoc] using hitem _ hs ht

/-- A key is read between its spaces. -/
theorem exists_string_of_spaced {key : List Piece} {k l : List Char} (hk : Literal key k) (hl : Spaced k l)
    (rest : List Char) : ∃ t u, skipSpace (l ++ ':' :: rest) = '"' :: t ∧ string t = some (key, u) ∧
      skipSpace u = ':' :: rest := by
  obtain ⟨ha, hb⟩ := hl
  obtain ⟨t, rfl, hread⟩ := string_of_literal hk
  refine ⟨_, _, ?_, hread _, skipSpace_blank_append hb (solid_cons rfl)⟩
  rw [List.append_assoc, List.append_assoc]
  exact skipSpace_blank_append ha (solid_cons rfl)

theorem members_head {members : Members} (h : members.Spelled s) (rest : List Char) :
    (skipSpace (s ++ rest)).head? ≠ some '\x7d' := by
  have hmember : ∀ {key : List Piece} {k l : List Char} (w : List Char), Literal key k → Spaced k l →
      (skipSpace (l ++ ':' :: w)).head? ≠ some '\x7d' := by
    intro key k l w hk hl
    obtain ⟨t, u, hquote, -⟩ := exists_string_of_spaced hk hl w
    rw [hquote]
    simp
  cases h with
  | last hk hl hs ht => simpa only [List.append_assoc, List.cons_append] using hmember _ hk hl
  | more hk hl hs ht hu => simpa only [List.append_assoc, List.cons_append] using hmember _ hk hl

/-- A value that is read in front of every end is read between its spaces. -/
theorem exists_value_of_spaced {v : Value} {fuel : Nat} {s t : List Char}
    (hread : ∀ {rest : List Char}, Ends rest → value fuel (s ++ rest) = (v, some rest)) (hs : v.Spelled s)
    (ht : Spaced s t) {mark : Char} (hmark : mark = ',' ∨ mark = ']' ∨ mark = '\x7d') (rest : List Char) :
    ∃ u, value fuel (t ++ mark :: rest) = (v, some u) ∧ skipSpace u = mark :: rest := by
  obtain ⟨ha, hb⟩ := ht
  refine ⟨_, ?_, skipSpace_blank_append hb (solid_cons ?_)⟩
  · rw [List.append_assoc, List.append_assoc, value_blank_append ha (solid_of_spelled hs)]
    exact hread (ends_blank_append hb hmark)
  · rcases hmark with rfl | rfl | rfl
    all_goals rfl

theorem length_le_of_spaced {s t : List Char} (h : Spaced s t) : s.length ≤ t.length := by
  cases h with
  | mk ha hb =>
    simp only [List.length_append]
    omega

mutual

/-- A value is read, whatever follows it, with as much fuel as its text is long. -/
theorem value_append (v : Value) {s rest : List Char} (h : v.Spelled s) (hrest : Ends rest) {fuel : Nat}
    (hfuel : s.length ≤ fuel) : value fuel (s ++ rest) = (v, some rest) := by
  obtain ⟨c, t, hs, -⟩ := exists_cons_of_spelled h
  obtain ⟨fuel, rfl⟩ : ∃ n, fuel = n + 1 := by
    rw [hs, List.length_cons] at hfuel
    exact ⟨fuel - 1, by omega⟩
  clear hs
  cases h with
  | null => rfl
  | yes => rfl
  | no => rfl
  | number h => exact value_number_append h hrest fuel
  | string h => exact value_string_append h fuel rest
  | emptyArray ha =>
    rw [List.cons_append, List.append_assoc]
    exact value_bracket_done fuel (skipSpace_blank_append ha (solid_cons rfl))
  | array h =>
    rename_i items s
    rw [List.cons_append, value_bracket fuel (items_head h rest),
      items_append items h (Nat.le_of_succ_le_succ hfuel)]
  | emptyObject ha =>
    rw [List.cons_append, List.append_assoc]
    exact value_brace_done fuel (skipSpace_blank_append ha (solid_cons rfl))
  | object h =>
    rename_i members s
    rw [List.cons_append, value_brace fuel (members_head h rest),
      members_append members h (Nat.le_of_succ_le_succ hfuel)]

/-- The items of an array are read up to its end. -/
theorem items_append (is : Items) {s rest : List Char} (h : is.Spelled s) {fuel : Nat}
    (hfuel : s.length ≤ fuel) : items fuel (s ++ rest) = (is, some rest) := by
  obtain ⟨fuel, rfl⟩ : ∃ n, fuel = n + 1 := by
    refine ⟨fuel - 1, ?_⟩
    cases h
    all_goals
      simp only [List.length_append, List.length_cons] at hfuel
      omega
  cases h with
  | last hs ht =>
    rename_i v s t
    have hlength := length_le_of_spaced ht
    simp only [List.length_append, List.length_cons, List.length_nil] at hfuel
    have hvalue : ∀ {rest}, Ends rest → value fuel (s ++ rest) = (v, some rest) :=
      fun hends => value_append v hs hends (by omega)
    obtain ⟨u, hread, hmark⟩ := exists_value_of_spaced hvalue hs ht (.inr (.inl rfl)) rest
    rw [List.append_assoc]
    exact items_last fuel hread hmark
  | more hs ht hu =>
    rename_i v more s t u
    have hlength := length_le_of_spaced ht
    simp only [List.length_append, List.length_cons] at hfuel
    have hvalue : ∀ {rest}, Ends rest → value fuel (s ++ rest) = (v, some rest) :=
      fun hends => value_append v hs hends (by omega)
    obtain ⟨w, hread, hmark⟩ := exists_value_of_spaced hvalue hs ht (.inl rfl) (u ++ rest)
    rw [List.append_assoc]
    change items (fuel + 1) (t ++ ',' :: (u ++ rest)) = _
    rw [items_more fuel hread hmark, items_append more hu (by omega)]

/-- The members of an object are read up to its end. -/
theorem members_append (ms : Members) {s rest : List Char} (h : ms.Spelled s) {fuel : Nat}
    (hfuel : s.length ≤ fuel) : members fuel (s ++ rest) = (ms, some rest) := by
  obtain ⟨fuel, rfl⟩ : ∃ n, fuel = n + 1 := by
    refine ⟨fuel - 1, ?_⟩
    cases h
    all_goals
      simp only [List.length_append, List.length_cons] at hfuel
      omega
  cases h with
  | last hk hl hs ht =>
    rename_i key v k l s t
    have hlength := length_le_of_spaced ht
    simp only [List.length_append, List.length_cons, List.length_nil] at hfuel
    simp only [List.append_assoc, List.cons_append, List.nil_append]
    have hvalue : ∀ {rest}, Ends rest → value fuel (s ++ rest) = (v, some rest) :=
      fun hends => value_append v hs hends (by omega)
    obtain ⟨w, hread, hmark⟩ := exists_value_of_spaced hvalue hs ht (.inr (.inr rfl)) rest
    obtain ⟨x, y, hquote, hkey, hcolon⟩ := exists_string_of_spaced hk hl (t ++ '\x7d' :: rest)
    exact members_last fuel hquote hkey hcolon hread hmark
  | more hk hl hs ht hu =>
    rename_i key v more k l s t u
    have hlength := length_le_of_spaced ht
    simp only [List.length_append, List.length_cons] at hfuel
    simp only [List.append_assoc, List.cons_append]
    have hvalue : ∀ {rest}, Ends rest → value fuel (s ++ rest) = (v, some rest) :=
      fun hends => value_append v hs hends (by omega)
    obtain ⟨w, hread, hmark⟩ := exists_value_of_spaced hvalue hs ht (.inl rfl) (u ++ rest)
    obtain ⟨x, y, hquote, hkey, hcolon⟩ := exists_string_of_spaced hk hl (t ++ ',' :: (u ++ rest))
    rw [members_more fuel hquote hkey hcolon hread hmark, members_append more hu (by omega)]

end

/-- A text of the grammar is read as the tree that it spells, with nothing but spaces left. -/
theorem document_of_spelled {v : Value} {s t : List Char} (hs : v.Spelled s) (ht : Spaced s t) :
    ∃ b, Blank b ∧ document t = (v, some b) := by
  have hfuel : s.length ≤ fuelFor t := by
    have hlength := length_le_of_spaced ht
    rw [fuelFor]
    omega
  obtain ⟨ha, hb⟩ := ht
  refine ⟨_, hb, ?_⟩
  rw [document, value_blank_append ha (solid_of_spelled hs)]
  exact value_append v hs (ends_of_blank hb) hfuel

end Parse

/-- Reading a whole text is reading the tree that the text spells. -/
theorem Codec.parse_of_document {α : Type} (codec : Codec α) {v : Value} {text : String}
    (h : v.Document text) : codec.parse text = codec.read v := by
  obtain ⟨hs, ht⟩ := h
  obtain ⟨b, hb, hread⟩ := Parse.document_of_spelled hs ht
  have hblank := Parse.skipSpace_blank_append (s := []) hb (fun _ h => nomatch h)
  rw [List.append_nil] at hblank
  rw [parse, String.toList_ofList, hread]
  cases h : codec.read v with
  | error problem => simp [h]; rfl
  | ok a => simp [h, hblank]

end Footprint.Json
