import Footprint.Maps
import Footprint.Proofs.Text.Lines

/-!
# Rows that a kernel writes

A kernel writes one row for each mapping: its bounds in at least eight hexadecimal digits, four more
words and perhaps a path, with a space behind each word. The bounds are read back as they were
(`readBound_boundText`), and the words of a row can be told apart however its range is spelled
(`words_lineWith`).
-/

namespace Footprint

namespace Maps

open Text

/-! ## Bounds -/

/-- A bound as the kernel writes it: in lower-case hexadecimal, with at least eight digits. -/
def boundText (a : Addr) : List Char :=
  (Nat.toDigits 16 a.toNat).leftpad 8 '0'

/-- A digit and what it stands for. -/
theorem hexValue_digitChar {d : Nat} (hd : d < 16) : hexValue? d.digitChar = some d ∧ d.digitChar ≠ '+' := by
  have hall : ∀ d < 16, hexValue? d.digitChar = some d ∧ d.digitChar ≠ '+' := by decide
  exact hall d hd

/-- The characters of a number are digits. -/
theorem exists_digitChar_of_mem_toDigits {n : Nat} {c : Char} (hc : c ∈ Nat.toDigits 16 n) :
    ∃ d < 16, c = d.digitChar := by
  induction n using Nat.strongRecOn with
  | ind n ih =>
    by_cases hsmall : n < 16
    · rw [Nat.toDigits_of_lt_base hsmall, List.mem_singleton] at hc
      exact ⟨n, hsmall, hc⟩
    · rw [Nat.toDigits_of_base_le (by decide) (Nat.le_of_not_lt hsmall), List.mem_append] at hc
      rcases hc with hc | hc
      · exact ih (n / 16) (Nat.div_lt_self (by omega) (by decide)) hc
      · exact ⟨n % 16, Nat.mod_lt n (by decide), List.mem_singleton.1 hc⟩

theorem exists_digitChar_of_mem_boundText {a : Addr} {c : Char} (hc : c ∈ boundText a) :
    ∃ d < 16, c = d.digitChar := by
  rcases List.mem_append.1 hc with hc | hc
  · exact ⟨0, by decide, List.eq_of_mem_replicate hc⟩
  · exact exists_digitChar_of_mem_toDigits hc

theorem boundText_ne_nil (a : Addr) : boundText a ≠ [] := by
  intro hnil
  have hlength : (boundText a).length = 0 := by rw [hnil]; rfl
  simp only [boundText, List.length_leftpad] at hlength
  omega

theorem hexFrom_append (value : Nat) (text rest : List Char) :
    hexFrom value (text ++ rest) = (hexFrom value text).bind (hexFrom · rest) := by
  induction text generalizing value with
  | nil => rfl
  | cons c text ih =>
    simp only [List.cons_append, hexFrom]
    cases hexValue? c with
    | none => rfl
    | some d =>
      dsimp only
      split
      · exact ih _
      · rfl

/-- A digit continues the number if that stays in range. -/
theorem hexFrom_cons {value d : Nat} {c : Char} (hc : hexValue? c = some d) (hlt : value * 16 + d < UInt64.size)
    (rest : List Char) : hexFrom value (c :: rest) = hexFrom (value * 16 + d) rest := by
  simp only [hexFrom, hc, if_pos hlt]

/-- Digits are read back as the number that they write. -/
theorem hexFrom_toDigits {n : Nat} (hn : n < UInt64.size) : hexFrom 0 (Nat.toDigits 16 n) = some n := by
  induction n using Nat.strongRecOn with
  | ind n ih =>
    by_cases hsmall : n < 16
    · rw [Nat.toDigits_of_lt_base hsmall, hexFrom_cons (hexValue_digitChar hsmall).1 (by omega), Nat.zero_mul,
        Nat.zero_add]
      rfl
    · have hdigit : n % 16 < 16 := Nat.mod_lt n (by decide)
      have hwhole : n / 16 * 16 + n % 16 = n := by omega
      rw [Nat.toDigits_of_base_le (by decide) (Nat.le_of_not_lt hsmall), hexFrom_append,
        ih (n / 16) (by omega) (by omega), Option.bind_some,
        hexFrom_cons (hexValue_digitChar hdigit).1 (by omega), hwhole]
      rfl

theorem hexFrom_replicate_zero (count : Nat) : hexFrom 0 (List.replicate count '0') = some 0 := by
  induction count with
  | zero => rfl
  | succ count ih =>
    have hzero : hexValue? '0' = some 0 := rfl
    rw [List.replicate_succ, hexFrom_cons hzero (by decide)]
    exact ih

theorem readBound_boundText (a : Addr) : readBound (boundText a) = some a := by
  have hplus : ∀ rest, boundText a ≠ '+' :: rest := by
    intro rest heq
    have hmem : '+' ∈ boundText a := by simp [heq]
    rcases exists_digitChar_of_mem_boundText hmem with ⟨d, hd, hc⟩
    exact (hexValue_digitChar hd).2 hc.symm
  have hvalue : hexFrom 0 (boundText a) = some a.toNat := by
    rw [boundText, List.leftpad, hexFrom_append, hexFrom_replicate_zero]
    exact hexFrom_toDigits a.toNat_lt
  unfold readBound
  split
  next rest hrest => exact absurd hrest (hplus rest)
  next =>
    simp [boundText_ne_nil, hvalue]

/-! ## Rows -/

/-- What the kernel writes about a mapping. -/
structure Row where
  start : Addr
  stop : Addr
  perms : List Char
  offset : List Char
  device : List Char
  inode : List Char
  -- The path, with the blanks that it is moved to the right by.
  path : List Char

namespace Row

/-- A row of which each part can be told from the next one. -/
structure WellFormed (r : Row) : Prop where
  perms : IsWord r.perms
  offset : IsWord r.offset
  device : IsWord r.device
  inode : IsWord r.inode
  path : '\n' ∉ r.path

instance (r : Row) : Decidable r.WellFormed :=
  decidable_of_iff
    (IsWord r.perms ∧ IsWord r.offset ∧ IsWord r.device ∧ IsWord r.inode ∧ '\n' ∉ r.path)
    ⟨fun h => ⟨h.1, h.2.1, h.2.2.1, h.2.2.2.1, h.2.2.2.2⟩,
      fun h => ⟨h.perms, h.offset, h.device, h.inode, h.path⟩⟩

def range (r : Row) : List Char :=
  boundText r.start ++ '-' :: boundText r.stop

def line (r : Row) : List Char :=
  r.range ++ ' ' :: (r.perms ++ ' ' :: (r.offset ++ ' ' :: (r.device ++ ' ' :: (r.inode ++ ' ' :: r.path))))

/-- The row with its range spelled in some way. -/
def lineWith (r : Row) (range : List Char) : List Char :=
  range ++ ' ' :: (r.perms ++ ' ' :: (r.offset ++ ' ' :: (r.device ++ ' ' :: (r.inode ++ ' ' :: r.path))))

/-- What is read of a row. -/
def entry (r : Row) : MapEntry where
  start := r.start
  stop := r.stop
  perms := String.ofList r.perms
  path :=
    if (joinWords (words r.path)).isEmpty then none else some (String.ofList (joinWords (words r.path)))

variable {r : Row} {range : List Char}

theorem words_lineWith (h : r.WellFormed) (hrange : IsWord range) :
    words (r.lineWith range) = range :: r.perms :: r.offset :: r.device :: r.inode :: words r.path := by
  have hblank : isBlank ' ' = true := by decide
  rw [lineWith, words_append hrange hblank, words_append h.perms hblank, words_append h.offset hblank,
    words_append h.device hblank, words_append h.inode hblank]

theorem not_mem_lineWith (h : r.WellFormed) (hrange : IsWord range) : '\n' ∉ r.lineWith range := by
  have hword : ∀ word : List Char, IsWord word → '\n' ∉ word := by
    intro word hword hmem
    have hsolid := hword.solid _ hmem
    revert hsolid
    decide
  simp [lineWith, hword _ hrange, hword _ h.perms, hword _ h.offset, hword _ h.device, hword _ h.inode, h.path]

end Row

/-- The listing of some mappings. -/
def listing (rows : List Row) : String :=
  String.ofList ((rows.map Row.line).flatMap fun line => line ++ ['\n'])

end Maps

end Footprint
