import Mathlib.Data.List.Basic
import Footprint.Text.Blank

/-!
# Words and lines of texts that are put together

A word ends at the blank behind it (`words_append`), a line at its line feed (`lines_flatMap`). A line feed
also divides any text into two parts that can be read one after the other (`filterMap_lines_append`). The line
before it is not quite the same with and without the line feed: a carriage return at its end goes
with the line feed. What is read of a line must not depend on that, nor must an empty line count.
-/

namespace Footprint.Text

variable {word text : List Char} {c : Char}

/-! ## Words -/

/-- Characters of which none is blank, and at least one. -/
structure IsWord (word : List Char) : Prop where
  nonempty : word ≠ []
  solid : ∀ c ∈ word, isBlank c = false

-- A test of the word's characters: a statement about each character could be decided by going through them all.
instance (word : List Char) : Decidable (IsWord word) :=
  decidable_of_iff (word ≠ [] ∧ (word.all fun c => !isBlank c) = true)
    ⟨fun h => ⟨h.1, by simpa using h.2⟩, fun h => ⟨h.nonempty, by simpa using h.solid⟩⟩

/-! What the next character does to the word so far. -/

theorem wordsFrom_cons_of_solid (hc : isBlank c = false) (acc text : List Char) :
    wordsFrom acc (c :: text) = wordsFrom (c :: acc) text :=
  if_neg (by simp [hc])

/-- A blank ends the word so far as the end of the text does. -/
theorem wordsFrom_cons_of_blank (hc : isBlank c = true) (acc text : List Char) :
    wordsFrom acc (c :: text) = wordsFrom acc [] ++ wordsFrom [] text := by
  cases acc with
  | nil => exact if_pos hc
  | cons d acc => exact if_pos hc

theorem wordsFrom_end (hword : word ≠ []) : wordsFrom word [] = [word.reverse] := by
  cases word with
  | nil => exact absurd rfl hword
  | cons c word => rfl

theorem wordsFrom_append_of_solid (hsolid : ∀ c ∈ word, isBlank c = false) (acc rest : List Char) :
    wordsFrom acc (word ++ rest) = wordsFrom (word.reverse ++ acc) rest := by
  induction word generalizing acc with
  | nil => rfl
  | cons c word ih =>
    have hc := hsolid c List.mem_cons_self
    have hword := ih (fun d hd => hsolid d (List.mem_cons_of_mem _ hd)) (c :: acc)
    simpa [wordsFrom_cons_of_solid hc] using hword

/-- A word is read up to the blank behind it. -/
theorem words_append (hword : IsWord word) (hc : isBlank c = true) (rest : List Char) :
    words (word ++ c :: rest) = word :: words rest := by
  rw [words, wordsFrom_append_of_solid hword.solid, wordsFrom_cons_of_blank hc,
    wordsFrom_end (by simpa using hword.nonempty)]
  simp [words]

/-- A blank at the end adds no word. -/
theorem wordsFrom_concat_of_blank (hc : isBlank c = true) (acc text : List Char) :
    wordsFrom acc (text ++ [c]) = wordsFrom acc text := by
  induction text generalizing acc with
  | nil => exact (wordsFrom_cons_of_blank hc acc []).trans (List.append_nil _)
  | cons d text ih =>
    cases hd : isBlank d with
    | true => rw [List.cons_append, wordsFrom_cons_of_blank hd, wordsFrom_cons_of_blank hd, ih]
    | false => rw [List.cons_append, wordsFrom_cons_of_solid hd, wordsFrom_cons_of_solid hd, ih]

theorem wordsFrom_ne_nil (hword : word ≠ []) (text : List Char) : wordsFrom word text ≠ [] := by
  induction text generalizing word with
  | nil => simp [wordsFrom_end hword]
  | cons c text ih =>
    cases hc : isBlank c with
    | true => simp [wordsFrom_cons_of_blank hc, wordsFrom_end hword]
    | false =>
      rw [wordsFrom_cons_of_solid hc]
      exact ih (List.cons_ne_nil c word)

/-- A text without words is blank. -/
theorem words_eq_nil_iff : words text = [] ↔ text.all isBlank = true := by
  induction text with
  | nil => exact iff_of_true rfl rfl
  | cons c text ih =>
    cases hc : isBlank c with
    | true =>
      have hwords : words (c :: text) = words text := wordsFrom_cons_of_blank hc [] text
      simpa [hwords, hc] using ih
    | false =>
      have hwords : words (c :: text) = wordsFrom [c] text := wordsFrom_cons_of_solid hc [] text
      simp [hwords, hc, wordsFrom_ne_nil]

theorem ne_nil_of_mem_wordsFrom {w : List Char} (hw : w ∈ wordsFrom word text) : w ≠ [] := by
  have hend : ∀ {acc : List Char}, w ∈ wordsFrom acc [] → w ≠ [] := by
    intro acc hw
    cases acc with
    | nil => cases hw
    | cons c acc =>
      rw [List.mem_singleton.1 hw]
      exact List.reverse_ne_nil_iff.2 (List.cons_ne_nil c acc)
  induction text generalizing word with
  | nil => exact hend hw
  | cons c text ih =>
    cases hc : isBlank c with
    | true =>
      rw [wordsFrom_cons_of_blank hc] at hw
      rcases List.mem_append.1 hw with hlast | hrest
      · exact hend hlast
      · exact ih hrest
    | false =>
      rw [wordsFrom_cons_of_solid hc] at hw
      exact ih hw

theorem joinWords_eq_intercalate (ws : List (List Char)) : joinWords ws = List.intercalate [' '] ws := by
  induction ws with
  | nil => rfl
  | cons w ws ih =>
    cases ws with
    | nil => simp [joinWords]
    | cons v vs =>
      rw [joinWords, ih, List.intercalate_cons_cons, List.append_assoc, List.singleton_append]
      exact List.cons_ne_nil v vs

theorem joinWords_words_eq_nil_iff : joinWords (words text) = [] ↔ words text = [] := by
  cases hwords : words text with
  | nil => exact iff_of_true rfl rfl
  | cons w ws =>
    have hmem : w ∈ wordsFrom [] text := by
      rw [← words, hwords]
      exact List.mem_cons_self
    have hw : w ≠ [] := ne_nil_of_mem_wordsFrom hmem
    cases ws with
    | nil => simpa [joinWords] using hw
    | cons v vs => simp [joinWords]

/-! ## Lines -/

/-- A line without the carriage return at its end. -/
def withoutReturn (line : List Char) : List Char :=
  (dropReturn line.reverse).reverse

/-- A carriage return at the end of a line is not part of a word anyway. -/
theorem words_withoutReturn (line : List Char) : words (withoutReturn line) = words line := by
  unfold withoutReturn
  cases hline : line.reverse with
  | nil =>
    rw [List.reverse_eq_nil_iff.1 hline]
    rfl
  | cons c before =>
    have heq : line = before.reverse ++ [c] := by
      rw [← List.reverse_reverse line, hline, List.reverse_cons]
    by_cases hreturn : c = '\r'
    · subst hreturn
      rw [heq]
      exact (wordsFrom_concat_of_blank (by decide) [] before.reverse).symm
    · have hkept : dropReturn (c :: before) = c :: before := by
        unfold dropReturn
        split
        next h => exact absurd (List.cons.inj h).1 hreturn
        next => rfl
      rw [hkept, heq, List.reverse_cons]

theorem all_isBlank_withoutReturn (line : List Char) : (withoutReturn line).all isBlank = line.all isBlank := by
  rw [Bool.eq_iff_iff, ← words_eq_nil_iff, ← words_eq_nil_iff, words_withoutReturn]

/-! What the next character does to the line so far. -/

theorem linesFrom_lineFeed (acc text : List Char) :
    linesFrom acc ('\n' :: text) = (dropReturn acc).reverse :: linesFrom [] text :=
  if_pos rfl

theorem linesFrom_cons (hc : c ≠ '\n') (acc text : List Char) :
    linesFrom acc (c :: text) = linesFrom (c :: acc) text :=
  if_neg hc

theorem linesFrom_append {line : List Char} (hline : '\n' ∉ line) (acc rest : List Char) :
    linesFrom acc (line ++ '\n' :: rest) =
      (dropReturn (line.reverse ++ acc)).reverse :: linesFrom [] rest := by
  induction line generalizing acc with
  | nil => exact linesFrom_lineFeed acc rest
  | cons c line ih =>
    rw [List.mem_cons, not_or] at hline
    rcases hline with ⟨hc, hrest⟩
    rw [List.cons_append, linesFrom_cons (Ne.symm hc), ih hrest, List.reverse_cons, List.append_assoc,
      List.singleton_append]

/-- Each line with its line feed is read as one line. -/
theorem lines_flatMap {ls : List (List Char)} (h : ∀ l ∈ ls, '\n' ∉ l) :
    lines (ls.flatMap fun l => l ++ ['\n']) = ls.map withoutReturn := by
  induction ls with
  | nil => rfl
  | cons l ls ih =>
    have hl := linesFrom_append (h l List.mem_cons_self) [] (ls.flatMap fun l => l ++ ['\n'])
    have hrest := ih fun l hl => h l (List.mem_cons_of_mem _ hl)
    simp only [lines, List.append_nil] at hl hrest
    simp [lines, hl, hrest, withoutReturn]

theorem linesFrom_append_lineFeed (line a b : List Char) :
    linesFrom line (a ++ '\n' :: b) = linesFrom line (a ++ ['\n']) ++ lines b := by
  induction a generalizing line with
  | nil =>
    rw [List.nil_append, List.nil_append, linesFrom_lineFeed, linesFrom_lineFeed]
    rfl
  | cons c a ih =>
    rw [List.cons_append, List.cons_append]
    by_cases hc : c = '\n'
    · rw [hc, linesFrom_lineFeed, linesFrom_lineFeed, ih, List.cons_append]
    · rw [linesFrom_cons hc, linesFrom_cons hc, ih]

section Reading

variable {α : Type} {read : List Char → Option α}

/-- A line feed at the end of a text only ends its last line, or adds an empty one. -/
theorem filterMap_linesFrom_concat (hempty : read [] = none) (hreturn : ∀ l, read (withoutReturn l) = read l)
    (line a : List Char) :
    (linesFrom line (a ++ ['\n'])).filterMap read = (linesFrom line a).filterMap read := by
  induction a generalizing line with
  | nil =>
    have hlast : read (dropReturn line).reverse = read line.reverse := by
      simpa [withoutReturn] using hreturn line.reverse
    cases line with
    | nil =>
      change [([] : List Char)].filterMap read = []
      simp [hempty]
    | cons c line =>
      change [(dropReturn (c :: line)).reverse].filterMap read = [(c :: line).reverse].filterMap read
      rw [List.filterMap_cons, hlast, List.filterMap_cons]
  | cons c a ih =>
    rw [List.cons_append]
    by_cases hc : c = '\n'
    · rw [hc, linesFrom_lineFeed, linesFrom_lineFeed, List.filterMap_cons, List.filterMap_cons, ih]
    · rw [linesFrom_cons hc, linesFrom_cons hc, ih]

/-- What is read of two texts with a line feed between them is what is read of each. -/
theorem filterMap_lines_append (hempty : read [] = none) (hreturn : ∀ l, read (withoutReturn l) = read l)
    (a b : List Char) :
    (lines (a ++ '\n' :: b)).filterMap read = (lines a).filterMap read ++ (lines b).filterMap read := by
  rw [lines, linesFrom_append_lineFeed, List.filterMap_append, filterMap_linesFrom_concat hempty hreturn]
  rfl

end Reading

end Footprint.Text
