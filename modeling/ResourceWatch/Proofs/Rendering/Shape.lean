import ResourceWatch.Proofs.Region.Frame
import ResourceWatch.Rendering

/-!
# The shape of a rendered region

Between the line feeds at its ends, a text of tagged lines is a start tag line, the lines of the body and an end tag
line (`lines_regionOf`).  Values with line feeds put further lines into the body, so tag lines as well; a text that
has one start and one end tag line all the same is a region (`isRegion_of_counts`).
-/

namespace ResourceWatch.Rendering

open Region (Key TagKind regionOf)
open Text (Line)

/-- A text without line feeds at its ends is what trimming leaves. -/
private theorem trimLineFeeds_of_ends {c d : Char} {s as bs : List Char} (has : s = c :: as) (hbs : s = bs ++ [d])
    (hc : c ≠ '\n') (hd : d ≠ '\n') : Text.trimLineFeeds ('\n' :: (s ++ ['\n'])) = s := by
  have hhead : (s ++ ['\n']).dropWhile (· == '\n') = s ++ ['\n'] := by
    rw [has, List.cons_append, List.dropWhile_cons_of_neg (by simpa using hc)]
  have hlast : s.reverse.dropWhile (· == '\n') = s.reverse := by
    rw [hbs, List.reverse_append, List.reverse_singleton, List.singleton_append,
      List.dropWhile_cons_of_neg (by simpa using hd)]
  rw [Text.trimLineFeeds, List.dropWhile_cons_of_pos (by simp), hhead, List.reverse_append, List.reverse_singleton,
    List.singleton_append, List.dropWhile_cons_of_pos (by simp), hlast, List.reverse_reverse]

private theorem flatMap_lineFeed {ls : List Line} (h : ls ≠ []) :
    ls.flatMap (· ++ ['\n']) = Text.unlines ls ++ ['\n'] := by
  induction ls with
  | nil => exact absurd rfl h
  | cons l ls ih =>
    by_cases hls : ls = []
    · rw [hls]
      simp [Text.unlines]
    · rw [List.flatMap_cons, ih hls, Text.unlines_cons l hls]
      simp

/-- A text of lines is those lines between two line feeds. -/
theorem templateText_eq {ls : List String} (h : ls ≠ []) :
    (templateText ls).toList = '\n' :: (Text.unlines (ls.map String.toList) ++ ['\n']) := by
  rw [← flatMap_lineFeed (by simpa using h), toList_templateText, List.flatMap_map]

variable {key : Key}

theorem tagged_eq (key : Key) (body : List String) :
    (tagged key.text body).map String.toList =
      (key.tag .start).toList :: body.map String.toList ++ [(key.tag .finish).toList] := by
  rw [tagged, List.map_append, List.map_cons, List.map_singleton, Key.toList_tag, Key.toList_tag]
  simp [String.toList_append, TagKind.word]

/-- The region of a text of tagged lines is those lines. -/
theorem regionOf_templateText (key : Key) (body : List String) :
    regionOf (templateText (tagged key.text body)) = Text.unlines ((tagged key.text body).map String.toList) := by
  -- the tags begin and end in characters that are no line feeds, so trimming stops at them
  have hmark : ∃ cs, Region.tagMark.toList = '/' :: cs := ⟨_, rfl⟩
  obtain ⟨cs, hmark⟩ := hmark
  have hfirst : ∃ as, Text.unlines ((tagged key.text body).map String.toList) = '/' :: as := by
    rw [tagged_eq, List.cons_append, Text.unlines_cons _ (by simp), Key.toList_tag, hmark]
    exact ⟨_, rfl⟩
  have hlast : ∃ bs, Text.unlines ((tagged key.text body).map String.toList) = bs ++ ['D'] := by
    have hword : TagKind.finish.word.toList = ['E', 'N'] ++ ['D'] := by decide
    have htag : ∃ cs, (key.tag .finish).toList = cs ++ ['D'] := by
      rw [Key.toList_tag, hword]
      simp only [← List.append_assoc, ← List.cons_append]
      exact ⟨_, rfl⟩
    obtain ⟨cs, htag⟩ := htag
    rw [tagged_eq, Text.unlines_append (by simp) (by simp), Text.unlines, Text.unlines, List.intercalate_singleton,
      htag, ← List.cons_append, ← List.append_assoc]
    exact ⟨_, rfl⟩
  obtain ⟨as, has⟩ := hfirst
  obtain ⟨bs, hbs⟩ := hlast
  rw [regionOf, templateText_eq (by simp [tagged])]
  exact trimLineFeeds_of_ends has hbs (by decide) (by decide)

theorem lines_regionOf (hkey : '\n' ∉ key.text.toList) (body : List String) :
    Text.lines (regionOf (templateText (tagged key.text body))) =
      (key.tag .start).toList :: body.flatMap (fun l => Text.lines l.toList) ++ [(key.tag .finish).toList] := by
  rw [regionOf_templateText, Text.lines_unlines_flatMap (by simp [tagged]), tagged_eq, List.cons_append,
    List.flatMap_cons, List.flatMap_append, List.flatMap_singleton,
      Text.lines_of_not_mem (Key.not_mem_tag hkey .start),
    Text.lines_of_not_mem (Key.not_mem_tag hkey .finish), List.flatMap_map]
  rfl

/-- A text of tagged lines with one start and one end tag line is a region. -/
theorem isRegion_of_counts (hkey : '\n' ∉ key.text.toList) {body : List String}
    (h : key.counts (Text.lines (regionOf (templateText (tagged key.text body)))) = (1, 1)) :
    key.IsRegion (Text.lines (regionOf (templateText (tagged key.text body)))) := by
  rw [lines_regionOf hkey] at h ⊢
  exact Key.isRegion_of_counts hkey (Key.isTag_tag key .start) (Key.isTag_tag key .finish) h

end ResourceWatch.Rendering
