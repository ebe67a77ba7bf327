/-!
# Lines of a text

A text is a nonempty list of lines, joined by line feeds: `unlines (lines s) = s`, and `lines` undoes `unlines`
on a nonempty list of lines that hold no line feed themselves.
-/

namespace ResourceWatch.Text

/-- What stands between two line feeds. -/
abbrev Line := List Char

/-- The lines of a text; the empty text is one empty line. -/
def lines (s : List Char) : List Line := s.splitOn '\n'

def unlines (ls : List Line) : List Char := ['\n'].intercalate ls

@[simp] theorem unlines_lines (s : List Char) : unlines (lines s) = s :=
  List.intercalate_splitOn '\n'

theorem lines_unlines {ls : List Line} (hls : ls ≠ []) (h : ∀ l ∈ ls, '\n' ∉ l) : lines (unlines ls) = ls :=
  List.splitOn_intercalate '\n' h hls

theorem lines_ne_nil (s : List Char) : lines s ≠ [] :=
  List.splitOn_ne_nil '\n' s

theorem unlines_cons (l : List Char) {ls : List (List Char)} (h : ls ≠ []) :
    unlines (l :: ls) = l ++ '\n' :: unlines ls := by
  rw [unlines, List.intercalate_cons_of_ne_nil h, List.append_assoc]
  rfl

theorem unlines_append {as bs : List (List Char)} (ha : as ≠ []) (hb : bs ≠ []) :
    unlines (as ++ bs) = unlines as ++ '\n' :: unlines bs := by
  induction as with
  | nil => exact absurd rfl ha
  | cons a as ih =>
    by_cases has : as = []
    · rw [has, List.singleton_append, unlines_cons a hb, unlines, unlines, List.intercalate_singleton]
    · rw [List.cons_append, unlines_cons a (by simp [has]), ih has, unlines_cons a has, List.append_assoc]
      rfl

theorem lines_append (a b : List Char) : lines (a ++ '\n' :: b) = lines a ++ lines b :=
  List.splitOn_append_cons_self a b

theorem lines_of_not_mem {s : List Char} (h : '\n' ∉ s) : lines s = [s] :=
  List.splitOn_eq_singleton h

/-- Joined parts have the lines of each part, one after the other. -/
theorem lines_unlines_flatMap {ls : List (List Char)} (h : ls ≠ []) : lines (unlines ls) = ls.flatMap lines := by
  induction ls with
  | nil => exact absurd rfl h
  | cons l ls ih =>
    by_cases hls : ls = []
    · rw [hls, unlines, List.intercalate_singleton]
      simp
    · rw [unlines_cons l hls, lines_append, ih hls, List.flatMap_cons]

theorem flatMap_lines {ls : List (List Char)} (h : ∀ l ∈ ls, '\n' ∉ l) : ls.flatMap lines = ls := by
  induction ls with
  | nil => rfl
  | cons l ls ih =>
    rw [List.flatMap_cons, lines_of_not_mem (h l (by simp)), ih fun m hm => h m (by simp [hm])]
    rfl

/-- To cut parts into their lines changes nothing for the text. -/
theorem unlines_flatMap_lines (ls : List (List Char)) : unlines (ls.flatMap lines) = unlines ls := by
  cases ls with
  | nil => rfl
  | cons l ls => rw [← lines_unlines_flatMap (List.cons_ne_nil l ls), unlines_lines]

/-- A line holds no line feed. -/
theorem not_mem_of_mem_lines {s l : List Char} (hl : l ∈ lines s) : '\n' ∉ l := by
  induction s generalizing l with
  | nil =>
    rw [lines, List.splitOn_nil, List.mem_singleton] at hl
    rw [hl]
    simp
  | cons c s ih =>
    unfold lines at hl ih
    rw [List.splitOn_cons_eq_if_modifyHead] at hl
    split at hl
    · rcases List.mem_cons.1 hl with rfl | hl
      · simp
      · exact ih hl
    · rename_i hc
      cases hs : s.splitOn '\n' with
      | nil => exact absurd hs (List.splitOn_ne_nil '\n' s)
      | cons m ms =>
        rw [hs, List.modifyHead_cons] at hl
        rcases List.mem_cons.1 hl with rfl | hl
        · have hm := @ih m (by simp [hs])
          have hne : '\n' ≠ c := fun he => hc (by simp [he.symm])
          simp [hm, hne]
        · exact ih (by simp [hs, hl])

theorem flatMap_lines_lines (s : List Char) : (lines s).flatMap lines = lines s :=
  flatMap_lines fun _ => not_mem_of_mem_lines

/-- The text without the line feeds at its two ends. -/
def trimLineFeeds (s : List Char) : List Char :=
  ((s.dropWhile (· == '\n')).reverse.dropWhile (· == '\n')).reverse

end ResourceWatch.Text
