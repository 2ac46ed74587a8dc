import Footprint.Proofs.Json.Integers
import Footprint.Proofs.Json.Reading

/-!
# Texts that are written

Trees that are composed for writing have no faults; their texts are written character by character and their
numbers are integers (`Value.Plain`). The text of such a tree is a text of the grammar, so that it is read as
the same tree (`document_render`), and it is all on one line (`visible_render`).
-/

namespace Footprint.Json

/-! ## Plain trees -/

/-- Pieces that write a text, one for each character. -/
def PlainText (pieces : List Piece) : Prop :=
  ∃ text, pieces = piecesOf text

mutual

/-- Whether the tree is one that is composed for writing. -/
def Value.Plain : Value → Prop
  | .null | .bool _ => True
  | .number n => ∃ i, n = .ofInt i
  | .string pieces => PlainText pieces
  | .array items => items.Plain
  | .object members => members.Plain
  | .broken => False

/-- Whether the items are there up to the end, and plain. -/
def Items.Plain : Items → Prop
  | .done => True
  | .broken => False
  | .cons item rest => item.Plain ∧ rest.Plain

/-- Whether the members are there up to the end, and plain. -/
def Members.Plain : Members → Prop
  | .done => True
  | .broken => False
  | .cons key v rest => PlainText key ∧ v.Plain ∧ rest.Plain

end

theorem Value.plain_int (i : Int) : (Value.int i).Plain := ⟨i, rfl⟩

theorem Value.plain_text (text : String) : (Value.text text).Plain := ⟨text, rfl⟩

theorem Value.plain_list {items : List Value} (h : ∀ item ∈ items, item.Plain) :
    (Value.list items).Plain := by
  change (Items.ofList items).Plain
  induction items with
  | nil => trivial
  | cons item items ih =>
    exact ⟨h item List.mem_cons_self, ih fun v hv => h v (List.mem_cons_of_mem _ hv)⟩

theorem Value.plain_record {members : List (String × Value)} (h : ∀ m ∈ members, m.2.Plain) :
    (Value.record members).Plain := by
  change (Members.ofList (members.map fun m => (piecesOf m.1, m.2))).Plain
  induction members with
  | nil => trivial
  | cons m members ih =>
    exact ⟨⟨m.1, rfl⟩, h m List.mem_cons_self, ih fun m hm => h m (List.mem_cons_of_mem _ hm)⟩

/-! ## Written strings -/

theorem hexDigit_hexDigit {d : Nat} (hd : d < 16) : HexDigit (Render.hexDigit d) d := by
  refine .inl ?_
  interval_cases d
  all_goals rfl

/-- A unit is written with its four digits. -/
theorem spelled_unit {u : Nat} (hu : u < 0x10000) : (Piece.unit u).Spelled (Render.piece (.unit u)) := by
  have hdigit (n : Nat) : HexDigit (Render.hexDigit (n % 16)) (n % 16) := hexDigit_hexDigit (by omega)
  have hspelled := Piece.Spelled.unit (hdigit (u / 4096)) (hdigit (u / 256)) (hdigit (u / 16)) (hdigit u)
  have hunit : ((u / 4096 % 16 * 16 + u / 256 % 16) * 16 + u / 16 % 16) * 16 + u % 16 = u := by omega
  rw [hunit] at hspelled
  exact hspelled

/-- A character with a short escape is written by it, except for the slash; every other as itself. -/
theorem spelled_char {c : Char} (hc : 0x20 ≤ c.toNat ∨ Piece.shortEscapes.any (·.2 = c) = true) :
    (Piece.char c).Spelled (Render.piece (.char c)) := by
  rw [Render.piece]
  split
  · rename_i letter c' hfind
    have hfound := List.find?_some hfind
    simp only [decide_eq_true_eq] at hfound
    rw [← hfound.1]
    exact .short (List.mem_of_find?_eq_some hfind)
  · rename_i hnone
    have hraw : ∀ e ∈ Piece.shortEscapes, e.2 = c → c = '/' := by
      intro e he heq
      have hno := List.find?_eq_none.1 hnone e he
      by_contra hslash
      exact hno (by simp [heq, hslash])
    refine .raw ?_ ?_ ?_
    · rcases hc with hc | hc
      · exact hc
      · simp only [List.any_eq_true, decide_eq_true_eq] at hc
        obtain ⟨e, he, heq⟩ := hc
        rw [hraw e he heq]
        decide
    · rintro rfl
      exact absurd (hraw ('"', '"') (by decide) rfl) (by decide)
    · rintro rfl
      exact absurd (hraw ('\\', '\\') (by decide) rfl) (by decide)

/-- A character is written by a text of the grammar. -/
theorem spelled_ofChar (c : Char) : (Piece.ofChar c).Spelled (Render.piece (Piece.ofChar c)) := by
  rw [Piece.ofChar]
  split
  · rename_i hcontrol
    exact spelled_unit (by omega)
  · rename_i hvisible
    refine spelled_char ?_
    rw [not_and_or, Decidable.not_not] at hvisible
    exact hvisible.imp_left Nat.not_lt.1

theorem literal_piecesOf (text : String) : Literal (piecesOf text) (Render.string (piecesOf text)) := by
  refine .quoted ?_
  rw [piecesOf]
  induction text.toList with
  | nil => exact .nil
  | cons c cs ih => exact .cons (spelled_ofChar c) ih

/-- The pieces that write a text say it. -/
theorem says_piecesOf (text : String) : Says (piecesOf text) text := by
  rw [Says, piecesOf]
  induction text.toList with
  | nil => exact .nil
  | cons c cs ih =>
    rw [List.map_cons, Piece.ofChar]
    split
    · rename_i hcontrol
      exact .unit (by omega) ih
    · exact .char ih

/-! ## Written trees -/

theorem blank_nil : Blank [] := fun _ h => nomatch h

/-- A part that is written has no spaces around it. -/
theorem spaced_self (s : List Char) : Spaced s s := by
  simpa using Spaced.mk (s := s) blank_nil blank_nil

mutual

/-- The text of a plain tree is a text of the grammar. -/
theorem spelled_render (v : Value) (h : v.Plain) : v.Spelled (Render.value v) := by
  cases v with
  | null => exact .null
  | bool b =>
    cases b with
    | true => exact .yes
    | false => exact .no
  | number n =>
    obtain ⟨i, rfl⟩ := h
    exact .number (Numeral.spelled_ofInt i)
  | string pieces =>
    obtain ⟨text, rfl⟩ := h
    exact .string (literal_piecesOf text)
  | array items =>
    cases items with
    | done => exact .emptyArray blank_nil
    | broken => exact h.elim
    | cons item rest => exact .array (spelled_itemList (.cons item rest) h nofun)
  | object members =>
    cases members with
    | done => exact .emptyObject blank_nil
    | broken => exact h.elim
    | cons key v rest => exact .object (spelled_memberList (.cons key v rest) h nofun)
  | broken => exact h.elim

theorem spelled_itemList (items : Items) (h : items.Plain) (hsome : items ≠ .done) :
    items.Spelled (Render.itemList items) := by
  cases items with
  | done => exact absurd rfl hsome
  | broken => exact h.elim
  | cons item rest =>
    have hitem := spelled_render item h.1
    cases rest with
    | done => exact .last hitem (spaced_self _)
    | broken => exact h.2.elim
    | cons item' rest' => exact .more hitem (spaced_self _) (spelled_itemList (.cons item' rest') h.2 nofun)

theorem spelled_memberList (members : Members) (h : members.Plain) (hsome : members ≠ .done) :
    members.Spelled (Render.memberList members) := by
  cases members with
  | done => exact absurd rfl hsome
  | broken => exact h.elim
  | cons key v rest =>
    obtain ⟨⟨text, rfl⟩, hv, hrest⟩ := h
    have hkey := literal_piecesOf text
    have hvalue := spelled_render v hv
    cases rest with
    | done =>
      have hspelled := Members.Spelled.last hkey (spaced_self _) hvalue (spaced_self _)
      simpa [Render.memberList] using hspelled
    | broken => exact hrest.elim
    | cons key' v' rest' =>
      have hmore := spelled_memberList (.cons key' v' rest') hrest nofun
      have hspelled := Members.Spelled.more hkey (spaced_self _) hvalue (spaced_self _) hmore
      simpa [Render.memberList] using hspelled

end

/-- The text of a plain tree is a whole text of that tree. -/
theorem document_render {v : Value} (h : v.Plain) : v.Document v.render :=
  .mk (spelled_render v h) (spaced_self _)

/-- A plain tree is read off its text, and nothing is left of that. -/
theorem parse_render {v : Value} (h : v.Plain) : Parse.document v.render.toList = (v, some []) := by
  have hfuel : (Render.value v).length ≤ Parse.fuelFor (Render.value v) := by
    rw [Parse.fuelFor]
    omega
  have hread := Parse.value_append v (spelled_render v h) (Parse.ends_of_blank blank_nil) hfuel
  rw [List.append_nil] at hread
  rw [Value.render, String.toList_ofList]
  exact hread

/-! ## One line -/

/-- A text without control characters, and so without line feeds. -/
def Visible (s : List Char) : Prop :=
  ∀ c ∈ s, 0x20 ≤ c.toNat

@[simp]
theorem visible_nil : Visible [] := fun _ h => nomatch h

@[simp]
theorem visible_cons {c : Char} {s : List Char} : Visible (c :: s) ↔ 0x20 ≤ c.toNat ∧ Visible s :=
  List.forall_mem_cons

@[simp]
theorem visible_append {s t : List Char} : Visible (s ++ t) ↔ Visible s ∧ Visible t :=
  List.forall_mem_append

theorem visible_hexDigit {c : Char} {d : Nat} (h : HexDigit c d) : 0x20 ≤ c.toNat := by
  have hlower : "0123456789abcdef".toList.all (0x20 ≤ ·.toNat) = true := rfl
  have hupper : "0123456789ABCDEF".toList.all (0x20 ≤ ·.toNat) = true := rfl
  rcases h with h | h
  · exact of_decide_eq_true (List.all_eq_true.1 hlower c (List.mem_of_getElem? h))
  · exact of_decide_eq_true (List.all_eq_true.1 hupper c (List.mem_of_getElem? h))

/-- No piece is written with a control character. -/
theorem visible_piece {p : Piece} {s : List Char} (h : p.Spelled s) : Visible s := by
  cases h with
  | raw hvisible hquote hescape => simpa using hvisible
  | short hletter =>
    have hall : ∀ e ∈ Piece.shortEscapes, 0x20 ≤ e.1.toNat := by decide
    simp [hall _ hletter]
  | unit ha hb hc hd =>
    simp [visible_hexDigit ha, visible_hexDigit hb, visible_hexDigit hc, visible_hexDigit hd]

theorem visible_literal {pieces : List Piece} {s : List Char} (h : Literal pieces s) : Visible s := by
  obtain ⟨hs⟩ := h
  have hpieces : ∀ {ps s}, Piece.AllSpelled ps s → Visible s := by
    intro ps s hs
    induction hs with
    | nil => exact visible_nil
    | cons hp hps ih => exact visible_append.2 ⟨visible_piece hp, ih⟩
  simp [hpieces hs]

theorem visible_numeral_ofInt (i : Int) : Visible (Render.numeral (.ofInt i)) := by
  have hdigits : Visible (Render.digits (Numeral.digitsOf i.natAbs)) := by
    intro c hc
    obtain ⟨d, hd, rfl⟩ := List.mem_map.1 hc
    have hten := Numeral.lt_of_mem_digitsOf _ d hd
    interval_cases d
    all_goals decide
  have hsign : Visible (if i < 0 then ['-'] else []) := by
    split
    all_goals simp
  simp [Render.numeral, Numeral.ofInt, hdigits, hsign]

mutual

/-- The text of a plain tree is all on one line. -/
theorem visible_render (v : Value) (h : v.Plain) : Visible (Render.value v) := by
  cases v with
  | null => simp [Render.value]
  | bool b =>
    cases b with
    | true => simp [Render.value]
    | false => simp [Render.value]
  | number n =>
    obtain ⟨i, rfl⟩ := h
    exact visible_numeral_ofInt i
  | string pieces =>
    obtain ⟨text, rfl⟩ := h
    exact visible_literal (literal_piecesOf text)
  | array items => simpa [Render.value] using visible_itemList items h
  | object members => simpa [Render.value] using visible_memberList members h
  | broken => exact h.elim

theorem visible_itemList (items : Items) (h : items.Plain) : Visible (Render.itemList items) := by
  cases items with
  | done => simp [Render.itemList]
  | broken => exact h.elim
  | cons item rest =>
    have hitem := visible_render item h.1
    have hrest := visible_itemList rest h.2
    cases rest with
    | done => simp [Render.itemList, hitem]
    | broken => exact h.2.elim
    | cons item' rest' => simpa [Render.itemList, hitem] using hrest

theorem visible_memberList (members : Members) (h : members.Plain) :
    Visible (Render.memberList members) := by
  cases members with
  | done => simp [Render.memberList]
  | broken => exact h.elim
  | cons key v rest =>
    obtain ⟨⟨text, rfl⟩, hv, hrest⟩ := h
    have hkey := visible_literal (literal_piecesOf text)
    have hvalue := visible_render v hv
    have hmore := visible_memberList rest hrest
    cases rest with
    | done => simp [Render.memberList, hkey, hvalue]
    | broken => exact hrest.elim
    | cons key' v' rest' => simpa [Render.memberList, hkey, hvalue] using hmore

end

end Footprint.Json
