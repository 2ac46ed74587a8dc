import Footprint.Proofs.Maps.Bounds

/-!
# What is recovered of a listing with other lines in it

A listing may hold lines that are no rows. Each line is read by itself, so the rows are recovered in their
order whatever stands between them, and every other line that is not blank is complained about once
(`listing_recovered`). A line is no row if it lacks fields or does not begin with a range; nothing else about
it matters (`readWords_eq_none_iff`).
-/

namespace Footprint

namespace Maps

open Text

variable {range : List Char} {ws : List (List Char)} {start stop : Addr} {r : Row}

/-! ## Reading a line -/

/-- A line of five words or more is read if its first word is a range. -/
theorem readWords_cons (range perms offset device inode : List Char) (path : List (List Char)) :
    readWords (range :: perms :: offset :: device :: inode :: path) =
      (readRange range).map fun bounds =>
        { start := bounds.1, stop := bounds.2, perms := String.ofList perms
          path := if (joinWords path).isEmpty then none else some (String.ofList (joinWords path)) } := by
  simp only [readWords, readRange, Option.bind_eq_bind, Option.pure_def, Option.map_bind, Function.comp_def,
    Option.map_some]

/-- Whether words are too few for a row or do not begin with a range. -/
def Lacking (ws : List (List Char)) : Prop :=
  ws.length < 5 ∨ ∀ range, ws.head? = some range → ∀ start stop, ¬IsRange range start stop

theorem readRange_eq_none_iff : readRange range = none ↔ ∀ start stop, ¬IsRange range start stop := by
  rw [Option.eq_none_iff_forall_ne_some]
  simp only [Prod.forall, ne_eq, readRange_eq_some_iff]

theorem readWords_eq_none_iff : readWords ws = none ↔ Lacking ws := by
  unfold Lacking
  match ws with
  | range :: perms :: offset :: device :: inode :: path =>
    have hlong : ¬(range :: perms :: offset :: device :: inode :: path).length < 5 := by
      simp only [List.length_cons]
      omega
    rw [readWords_cons, Option.map_eq_none_iff, readRange_eq_none_iff, or_iff_right hlong]
    simp
  | [] => simp [readWords]
  | [_] => simp [readWords]
  | [_, _] => simp [readWords]
  | [_, _, _] => simp [readWords]
  | [_, _, _, _] => simp [readWords]

instance (ws : List (List Char)) : Decidable (Lacking ws) :=
  decidable_of_iff _ readWords_eq_none_iff

/-! ## Lines of a listing -/

/-- A line of a listing: a row with its range in some spelling, or anything else. -/
inductive Item where
  | row (r : Row) (range : List Char)
  | other (line : List Char)

namespace Item

def line : Item → List Char
  | row r range => r.lineWith range
  | other line => line

/-- An item that takes one line and is what it claims to be. -/
def WellFormed : Item → Prop
  | row r range => r.WellFormed ∧ IsRange range r.start r.stop
  | other line => '\n' ∉ line ∧ Lacking (words line)

instance : (i : Item) → Decidable i.WellFormed
  | row r range => inferInstanceAs (Decidable (r.WellFormed ∧ IsRange range r.start r.stop))
  | other line => inferInstanceAs (Decidable ('\n' ∉ line ∧ Lacking (words line)))

/-- The entry that an item stands for. Of the blanks in a path one is kept between two words. -/
def mapping? : Item → Option MapEntry
  | row r _ =>
    some
      { start := r.start, stop := r.stop, perms := String.ofList r.perms
        path := if words r.path = [] then none else some (String.ofList (List.intercalate [' '] (words r.path))) }
  | other _ => none

/-- What an item is complained about with. -/
def complaint? : Item → Option String
  | row _ _ => none
  | other line => if line.all isBlank then none else some (String.ofList (withoutReturn line))

/-- The text of some items, each of which ends in a line feed. -/
def text (items : List Item) : String :=
  String.ofList ((items.map line).flatMap fun l => l ++ ['\n'])

end Item

/-! ## Reading a listing -/

/-- What a line is complained about with, if it is neither read nor blank. -/
def complaintOf (line : List Char) : Option String :=
  if (readWords (words line)).isNone && !line.all isBlank then some (String.ofList line) else none

theorem entries_eq (text : String) :
    entries text = (lines text.toList).filterMap fun line => readWords (words line) := by
  refine List.filterMap_congr fun line _ => ?_
  unfold readLine
  cases readWords (words line) with
  | some e => rfl
  | none => cases line.all isBlank <;> rfl

theorem malformedLines_eq (text : String) : malformedLines text = (lines text.toList).filterMap complaintOf := by
  refine List.filterMap_congr fun line _ => ?_
  unfold readLine complaintOf
  cases readWords (words line) with
  | some e => rfl
  | none => cases line.all isBlank <;> rfl

/-- What comes before a line feed and what comes behind it are read apart. -/
theorem entries_append (a b : String) : entries (a ++ "\n" ++ b) = entries a ++ entries b := by
  have hchars : (a ++ "\n" ++ b).toList = a.toList ++ '\n' :: b.toList := by simp
  rw [entries_eq, entries_eq, entries_eq, hchars]
  exact filterMap_lines_append rfl (fun l => by rw [words_withoutReturn]) _ _

theorem length_malformedLines_append (a b : String) :
    (malformedLines (a ++ "\n" ++ b)).length = (malformedLines a).length + (malformedLines b).length := by
  -- only the number of the complaints is the same, since their text may have a carriage return or not
  have hcount : ∀ text : String, (malformedLines text).length =
      ((lines text.toList).filterMap fun line => (complaintOf line).map fun _ => ()).length := by
    intro text
    rw [malformedLines_eq, ← List.map_filterMap, List.length_map]
  have hreturn : ∀ l, (complaintOf (withoutReturn l)).map (fun _ => ()) = (complaintOf l).map fun _ => () := by
    intro l
    rw [complaintOf, complaintOf, words_withoutReturn, all_isBlank_withoutReturn]
    split <;> rfl
  have hchars : (a ++ "\n" ++ b).toList = a.toList ++ '\n' :: b.toList := by simp
  rw [hcount, hcount, hcount, hchars, filterMap_lines_append rfl hreturn, List.length_append]

namespace Item

variable {i : Item} {items : List Item}

theorem lineFeed_not_mem_line (h : i.WellFormed) : '\n' ∉ i.line := by
  cases i with
  | row r range => exact Row.not_mem_lineWith h.1 h.2.isWord
  | other line => exact h.1

theorem mapping?_row (r : Row) (range : List Char) : (row r range).mapping? = some r.entry := by
  have hpath : (joinWords (words r.path)).isEmpty = true ↔ words r.path = [] := by
    rw [List.isEmpty_iff, joinWords_words_eq_nil_iff]
  simp only [mapping?, Row.entry, hpath, ← joinWords_eq_intercalate]

theorem readWords_line (h : i.WellFormed) : readWords (words i.line) = i.mapping? := by
  cases i with
  | row r range =>
    rcases h with ⟨hrow, hrange⟩
    rw [line, Row.words_lineWith hrow hrange.isWord, readWords_cons, readRange_eq_some_iff.2 hrange, mapping?_row]
    rfl
  | other line => exact readWords_eq_none_iff.2 h.2

theorem complaintOf_line (h : i.WellFormed) : complaintOf (withoutReturn i.line) = i.complaint? := by
  rw [complaintOf, words_withoutReturn, all_isBlank_withoutReturn, readWords_line h]
  cases i with
  | row r range => rfl
  | other line => cases hblank : line.all isBlank <;> simp [mapping?, complaint?, Item.line, hblank]

theorem lines_text (h : ∀ i ∈ items, i.WellFormed) :
    lines (text items).toList = items.map fun i => withoutReturn i.line := by
  have hlines : ∀ l ∈ items.map line, '\n' ∉ l := by
    intro l hl
    rcases List.mem_map.1 hl with ⟨i, hi, rfl⟩
    exact lineFeed_not_mem_line (h i hi)
  rw [text, String.toList_ofList, lines_flatMap hlines, List.map_map]
  rfl

/-- The rows are recovered in their order, whatever stands between them. -/
theorem entries_text (h : ∀ i ∈ items, i.WellFormed) : entries (text items) = items.filterMap mapping? := by
  rw [entries_eq, lines_text h, List.filterMap_map]
  refine List.filterMap_congr fun i hi => ?_
  rw [Function.comp_apply, words_withoutReturn, readWords_line (h i hi)]

/-- Every other line that is not blank is complained about. -/
theorem malformedLines_text (h : ∀ i ∈ items, i.WellFormed) :
    malformedLines (text items) = items.filterMap complaint? := by
  rw [malformedLines_eq, lines_text h, List.filterMap_map]
  exact List.filterMap_congr fun i hi => complaintOf_line (h i hi)

end Item

/-! ## Listings without other lines -/

/-- A row as a line of a listing. -/
def Row.item (r : Row) : Item :=
  .row r r.range

theorem text_map_item (rows : List Row) : Item.text (rows.map Row.item) = listing rows := by
  rw [Item.text, listing, List.map_map]
  rfl

/-- Everything that a kernel lists is read. -/
theorem entries_listing {rows : List Row} (h : ∀ r ∈ rows, r.WellFormed) :
    entries (listing rows) = rows.map Row.entry := by
  have hitems : ∀ i ∈ rows.map Row.item, i.WellFormed := by
    intro i hi
    rcases List.mem_map.1 hi with ⟨r, hr, rfl⟩
    exact ⟨h r hr, r.isRange_range⟩
  calc
    entries (listing rows) = (rows.map Row.item).filterMap Item.mapping? := by
      rw [← text_map_item, Item.entries_text hitems]
    _ = rows.filterMap fun r => some r.entry := by
      rw [List.filterMap_map]
      exact List.filterMap_congr fun r _ => Item.mapping?_row r r.range
    _ = rows.map Row.entry := by rw [List.filterMap_eq_map']

/-! ## Listings with other lines -/

/-- Of a listing the rows are recovered in their order and nothing else is, the other lines are complained
about unless they are blank, and parts of a listing can be read one after the other. -/
theorem listing_recovered {items : List Item} (h : ∀ i ∈ items, i.WellFormed) :
    entries (Item.text items) = items.filterMap Item.mapping? ∧
    malformedLines (Item.text items) = items.filterMap Item.complaint? ∧
    ∀ a b : String, entries (a ++ "\n" ++ b) = entries a ++ entries b ∧
      (malformedLines (a ++ "\n" ++ b)).length = (malformedLines a).length + (malformedLines b).length := by
  exact ⟨Item.entries_text h, Item.malformedLines_text h,
    fun a b => ⟨entries_append a b, length_malformedLines_append a b⟩⟩

/-- A kernel's row with a path of two words, a row with short bounds in capitals and behind a sign, and between
them lines with too few words, with nothing before the first dash and with a bound that is too great. -/
theorem listing_recovered_of_mixed :
    let kernels : Row :=
      ⟨0x55d0c0a00000, 0x55d0c0a21000, "r--p".toList, "00000000".toList, "08:01".toList, "1048602".toList,
        "                    /tmp/with  space".toList⟩
    let short : Row := ⟨0x1000, 0x1fff, "rw-p".toList, ['0'], "0:0".toList, ['0'], ['\r']⟩
    let items : List Item :=
      [.other "not a maps line".toList, .row kernels kernels.range, .other "  ".toList,
        .other "-1000-2000 rw-p 0 0:0 0".toList, .row short "+1000-1FFF".toList,
        .other "10000000000000000-2 rw-p 0 0:0 0\r".toList, .other []]
    (∀ i ∈ items, i.WellFormed) ∧
      entries (Item.text items) =
        [⟨0x55d0c0a00000, 0x55d0c0a21000, "r--p", some "/tmp/with space"⟩, ⟨0x1000, 0x1fff, "rw-p", none⟩] ∧
      malformedLines (Item.text items) =
        ["not a maps line", "-1000-2000 rw-p 0 0:0 0", "10000000000000000-2 rw-p 0 0:0 0"] := by
  intro kernels short items
  have hitems : ∀ i ∈ items, i.WellFormed := by decide
  rcases listing_recovered hitems with ⟨hentries, hcomplaints, -⟩
  exact ⟨hitems, hentries.trans (by decide), hcomplaints.trans (by decide)⟩

end Maps

end Footprint
