/-!
# Texts of lines

A text in which every line ends in a line feed, taken apart at the line feeds. Behind the last of them there
is one more part, which is empty.
-/

namespace Footprint.Text

/-- The parts of a text before, between and behind its line feeds. -/
def atLineFeeds (text : String) : List String :=
  (text.split '\n').toList.map (·.copy)

theorem splitOn_flatMap {ls : List (List Char)} (h : ∀ l ∈ ls, '\n' ∉ l) :
    (ls.flatMap fun l => l ++ ['\n']).splitOn '\n' = ls ++ [[]] := by
  induction ls with
  | nil => rfl
  | cons l ls ih =>
    have hl := List.splitOn_append_cons_self_of_not_mem (h l List.mem_cons_self)
      (ls.flatMap fun l => l ++ ['\n'])
    rw [List.flatMap_cons, List.append_assoc, List.singleton_append, hl,
      ih fun m hm => h m (List.mem_cons_of_mem _ hm)]
    rfl

/-- Lines that were joined are told apart again. -/
theorem atLineFeeds_join {ls : List String} (h : ∀ l ∈ ls, '\n' ∉ l.toList) :
    atLineFeeds (String.join (ls.map (· ++ "\n"))) = ls ++ [""] := by
  have hchars : (String.join (ls.map (· ++ "\n"))).toList =
      (ls.map String.toList).flatMap fun l => l ++ ['\n'] := by
    simp [String.toList_join, List.flatMap_map]
  have hlines : ∀ l ∈ ls.map String.toList, '\n' ∉ l := by
    intro l hl
    obtain ⟨line, hline, rfl⟩ := List.mem_map.1 hl
    exact h line hline
  rw [atLineFeeds, String.toList_split_char, hchars, splitOn_flatMap hlines]
  simp

end Footprint.Text
