import ResourceWatch.Proofs.Region.TagLines
import ResourceWatch.Region.Injection

/-!
# Patterns and lines

The patterns of tags find what the lines of a text tell.  The pattern of a tag line fails at every place that is not
the beginning of a line (`Matcher.OnLines`), and there it is found exactly if the tag stands on the lines from that
one on (`exists_run_tagLine`).  So tags are counted line by line (`Key.countTags_eq`), and a region is found from its
first start tag to the last end tag behind that (`Key.find?_eq`).
-/

namespace ResourceWatch

namespace Text

/-- Lines that stand behind something: each with the line feed in front of it. -/
def behind (ls : List Line) : List Char := ls.flatMap ('\n' :: ·)

/-- Lines that stand in front of something: each with the line feed behind it. -/
def ahead (ls : List Line) : List Char := ls.flatMap (· ++ ['\n'])

@[simp] theorem behind_nil : behind [] = [] := rfl

@[simp] theorem behind_cons (l : Line) (ls : List Line) : behind (l :: ls) = '\n' :: (l ++ behind ls) := rfl

theorem behind_append (as bs : List Line) : behind (as ++ bs) = behind as ++ behind bs := List.flatMap_append

theorem unlines_cons_eq (l : Line) (ls : List Line) : unlines (l :: ls) = l ++ behind ls := by
  induction ls generalizing l with
  | nil => rw [unlines, List.intercalate_singleton, behind_nil, List.append_nil]
  | cons m ls ih => rw [unlines_cons l (by simp), ih, behind_cons]

theorem unlines_eq_ahead (pre : List Line) (r : List Char) (post : List Line) :
    unlines (pre ++ [r] ++ post) = ahead pre ++ r ++ behind post := by
  induction pre with
  | nil => exact unlines_cons_eq r post
  | cons l pre ih =>
    rw [List.cons_append, List.cons_append, unlines_cons l (by simp), ih]
    simp [ahead]

end Text

open Text (Line behind)

/-- The character in front of the place behind `cs`. -/
def after (before : Option Char) (cs : List Char) : Option Char := cs.foldl (fun _ c => some c) before

variable {α : Type}

/-! ### Matchers that find lines -/

/-- What is looked for is found at beginnings of lines only, and there not in front of a line feed or of the end. -/
structure Matcher.OnLines (k : Matcher α) : Prop where
  inside : ∀ {before cs}, isEdge true before = false → k before cs = none
  blank : ∀ before ls, k before (behind ls) = none

theorem isEdge_some {c : Char} (hc : c ≠ '\n') : isEdge true (some c) = false := by
  simpa [isEdge] using hc

section Walks

variable {k : Matcher α} {p : Pattern} {before : Option Char} {l : Line}

theorem greedy_any_cons (k : Matcher α) (before : Option Char) (c : Char) (cs : List Char) :
    CharSet.any.greedy k before (c :: cs) = (CharSet.any.greedy k (some c) cs).or (k before (c :: cs)) :=
  if_pos rfl

/-- A star over any characters tries the following lines first, and then the line itself. -/
theorem greedy_line (hk : k.OnLines) (hl : '\n' ∉ l) (ls : List Line) :
    CharSet.any.greedy k before (l ++ behind ls) =
      (CharSet.any.greedy k (after before l) (behind ls)).or (k before (l ++ behind ls)) := by
  induction l generalizing before with
  | nil =>
    rw [List.nil_append, hk.blank, Option.or_none]
    rfl
  | cons c l ih =>
    have hc : c ≠ '\n' := fun h => hl (by simp [h])
    rw [List.cons_append, greedy_any_cons, ih fun h => hl (by simp [h]), hk.inside (isEdge_some hc), Option.or_none]
    rfl

theorem greedy_behind (hk : k.OnLines) (l : Line) (ls : List Line) :
    CharSet.any.greedy k before (behind (l :: ls)) = CharSet.any.greedy k (some '\n') (l ++ behind ls) := by
  have hnone := hk.blank before (l :: ls)
  rw [Text.behind_cons] at hnone ⊢
  rw [greedy_any_cons, hnone, Option.or_none]

theorem findFrom_of_matchAt? {cs rest : List Char} (h : p.matchAt? before cs = some rest) :
    p.findFrom before cs = some ([], rest) := by
  unfold Pattern.findFrom
  rw [h]

theorem findFrom_nil (hp : p.matchAt?.OnLines) : p.findFrom before [] = none := by
  have hnone : p.matchAt? before [] = none := hp.blank before []
  rw [Pattern.findFrom, hnone]

theorem findFrom_line (hp : p.matchAt?.OnLines) (hl : '\n' ∉ l) {ls : List Line}
    (hnone : p.matchAt? before (l ++ behind ls) = none) :
    p.findFrom before (l ++ behind ls) =
      (p.findFrom (after before l) (behind ls)).map fun found => (l ++ found.1, found.2) := by
  induction l generalizing before with
  | nil => exact (Option.map_id' (x := p.findFrom before (behind ls))).symm
  | cons c l ih =>
    have hc : c ≠ '\n' := fun h => hl (by simp [h])
    rw [List.cons_append] at hnone ⊢
    rw [Pattern.findFrom, hnone]
    dsimp only
    rw [ih (fun h => hl (by simp [h])) (hp.inside (isEdge_some hc)), Option.map_map]
    rfl

theorem findFrom_behind (hp : p.matchAt?.OnLines) (l : Line) (ls : List Line) :
    p.findFrom before (behind (l :: ls)) =
      (p.findFrom (some '\n') (l ++ behind ls)).map fun found => ('\n' :: found.1, found.2) := by
  have hnone := hp.blank before (l :: ls)
  rw [Text.behind_cons] at hnone ⊢
  rw [Pattern.findFrom, hnone]

theorem countFrom_line (hp : p.matchAt?.OnLines) (hl : '\n' ∉ l) {ls : List Line}
    (hnone : p.matchAt? before (l ++ behind ls) = none) :
    p.countFrom before 0 (l ++ behind ls) = p.countFrom (after before l) 0 (behind ls) := by
  induction l generalizing before with
  | nil => rfl
  | cons c l ih =>
    have hc : c ≠ '\n' := fun h => hl (by simp [h])
    rw [List.cons_append] at hnone ⊢
    rw [Pattern.countFrom, hnone]
    dsimp only
    rw [ih (fun h => hl (by simp [h])) (hp.inside (isEdge_some hc))]
    rfl

theorem countFrom_behind (hp : p.matchAt?.OnLines) (l : Line) (ls : List Line) :
    p.countFrom before 0 (behind (l :: ls)) = p.countFrom (some '\n') 0 (l ++ behind ls) := by
  have hnone := hp.blank before (l :: ls)
  rw [Text.behind_cons] at hnone ⊢
  rw [Pattern.countFrom, hnone]

theorem countFrom_skip (p : Pattern) (before : Option Char) (used cs : List Char) :
    p.countFrom before used.length (used ++ cs) = p.countFrom (after before used) 0 cs := by
  induction used generalizing before with
  | nil => rfl
  | cons c used ih => exact ih (some c)

end Walks

namespace Region

/-! ### The pattern of a tag line -/

private theorem has_blanks (c : Char) : blanks.has c = isBlank c := by
  simp only [blanks, CharSet.has, List.contains_cons, List.contains_nil, Bool.or_false, isBlank]

/-- A star over blanks takes them all if nothing of the rest is found in front of a blank. -/
theorem greedy_blanks {k : Matcher α} (hk : ∀ before c cs, isBlank c = true → k before (c :: cs) = none)
    (before : Option Char) (l : Line) (ls : List Line) :
    blanks.greedy k before (l ++ behind ls) =
      k (after before (l.takeWhile isBlank)) (l.dropWhile isBlank ++ behind ls) := by
  induction l generalizing before with
  | nil =>
    cases ls with
    | nil => rfl
    | cons l ls => rfl
  | cons c l ih =>
    rw [List.cons_append, CharSet.greedy, has_blanks]
    by_cases hc : isBlank c = true
    · rw [if_pos hc, ih, hk _ _ _ hc, Option.or_none, List.takeWhile_cons_of_pos hc, List.dropWhile_cons_of_pos hc]
      rfl
    · rw [if_neg hc, List.takeWhile_cons_of_neg hc, List.dropWhile_cons_of_neg hc]
      rfl

/-- What may stand behind a tag on its line, as a pattern. -/
def tagTail : Pattern := [.many blanks, .optional (.of ['\r']), .finish true]

section TagTail

variable (k : Matcher α) (before : Option Char)

private theorem finish_behind (ls : List Line) :
    (PatternItem.finish true).run k before (behind ls) = k before (behind ls) := by
  cases ls with
  | nil => rfl
  | cons l ls => rfl

private theorem finish_cons {c : Char} (hc : c ≠ '\n') (cs : List Char) :
    (PatternItem.finish true).run k before (c :: cs) = none := by
  have hedge : isEdge true (c :: cs).head? = false := isEdge_some hc
  simp only [PatternItem.run, hedge, Bool.false_eq_true, if_false]

/-- A carriage return, if there is one, and the end of the line. -/
private def lineEnd : Matcher α := Pattern.run [.optional (.of ['\r']), .finish true] k

private theorem lineEnd_behind (ls : List Line) : lineEnd k before (behind ls) = k before (behind ls) := by
  cases ls with
  | nil => rfl
  | cons l ls => rfl

private theorem lineEnd_return {cs : List Char} :
    lineEnd k before ('\r' :: cs) = (PatternItem.finish true).run k (some '\r') cs := by
  have hnone : (PatternItem.finish true).run k before ('\r' :: cs) = none := finish_cons k before (by decide) cs
  change ((PatternItem.finish true).run k (some '\r') cs).or ((PatternItem.finish true).run k before ('\r' :: cs)) = _
  rw [hnone, Option.or_none]

private theorem lineEnd_cons {c : Char} (hc : c ≠ '\n') (hreturn : c ≠ '\r') (cs : List Char) :
    lineEnd k before (c :: cs) = none := by
  have hsingle : (CharSet.of ['\r']).single ((PatternItem.finish true).run k) (c :: cs) = none := by
    simp [CharSet.single, CharSet.has, hreturn]
  have hnone : (PatternItem.finish true).run k before (c :: cs) = none := finish_cons k before hc cs
  change ((CharSet.of ['\r']).single ((PatternItem.finish true).run k) (c :: cs)).or
    ((PatternItem.finish true).run k before (c :: cs)) = none
  rw [hsingle, hnone, Option.or_none]

/-- Behind the tag, the pattern is found if the rest of the line is a tag tail, and then it goes on behind the
line. -/
theorem run_tagTail {l : Line} (hl : '\n' ∉ l) (ls : List Line) :
    tagTail.run k before (l ++ behind ls) = if isTagTail l then k (after before l) (behind ls) else none := by
  have hrun : tagTail.run k before (l ++ behind ls) = blanks.greedy (lineEnd k) before (l ++ behind ls) := rfl
  have hblank : ∀ before c cs, isBlank c = true → lineEnd k before (c :: cs) = none := by
    intro before c cs hc
    refine lineEnd_cons k before ?_ ?_ cs
    · rintro rfl
      simp [isBlank] at hc
    · rintro rfl
      simp [isBlank] at hc
  have hafter : after before l = after (after before (l.takeWhile isBlank)) (l.dropWhile isBlank) := by
    rw [after, after, after, ← List.foldl_append, List.takeWhile_append_dropWhile]
  have hrest : '\n' ∉ l.dropWhile isBlank := fun h => hl ((List.dropWhile_sublist _).subset h)
  rw [hrun, greedy_blanks hblank, hafter, isTagTail]
  generalize l.dropWhile isBlank = rest at hrest
  generalize after before (l.takeWhile isBlank) = before
  rcases rest with _ | ⟨c, rest⟩
  · exact lineEnd_behind k before ls
  · by_cases hc : c = '\r'
    · subst hc
      rw [List.cons_append, lineEnd_return]
      rcases rest with _ | ⟨d, rest⟩
      · exact finish_behind k _ ls
      · have hd : d ≠ '\n' := fun h => hrest (by simp [h])
        rw [List.cons_append, finish_cons k _ hd]
        simp
    · have hfeed : c ≠ '\n' := fun h => hrest (by simp [h])
      rw [List.cons_append, lineEnd_cons k before hfeed hc]
      simp [hc]

end TagTail

/-! ### The pattern of a text -/

/-- A text of one line is found where the line begins with it. -/
theorem run_literal (k : Matcher α) (before : Option Char) {t : Line} (ht : '\n' ∉ t) (l : Line) (ls : List Line) :
    (Pattern.literal t).run k before (l ++ behind ls) =
      if t.isPrefixOf l then k (after before t) (l.drop t.length ++ behind ls) else none := by
  induction t generalizing before l with
  | nil => rfl
  | cons c t ih =>
    have hrun : ∀ cs, (Pattern.literal (c :: t)).run k before cs =
        (CharSet.of [c]).single ((Pattern.literal t).run k) cs := fun _ => rfl
    rw [hrun]
    cases l with
    | nil =>
      cases ls with
      | nil => rfl
      | cons l ls =>
        have hc : '\n' ≠ c := fun h => ht (h ▸ List.mem_cons_self)
        simp [CharSet.single, CharSet.has, hc]
    | cons d l =>
      have ht' : '\n' ∉ t := fun h => ht (by simp [h])
      rw [List.cons_append, CharSet.single, ih (some d) ht', List.isPrefixOf_cons_cons]
      by_cases hd : d = c
      · simp [CharSet.has, hd, after]
      · simp [CharSet.has, hd, Ne.symm hd]

/-- A tag, given as its lines, and the tag tail are found where the lines of the text begin so. -/
theorem exists_run_tag (ts : List Line) (before : Option Char) {t l : Line} (ls : List Line)
    (ht : ∀ x ∈ t :: ts, '\n' ∉ x) (hl : ∀ x ∈ l :: ls, '\n' ∉ x) : ∃ before', ∀ k : Matcher α,
      (Pattern.literal (t ++ behind ts) ++ tagTail).run k before (l ++ behind ls) =
        if spansHead (t :: ts) (l :: ls) then k before' (behind ((l :: ls).drop (ts.length + 1))) else none := by
  induction ts generalizing before t l ls with
  | nil =>
    refine ⟨after (after before t) (l.drop t.length), fun k => ?_⟩
    have hdrop : '\n' ∉ l.drop t.length := fun h => hl l (by simp) (List.mem_of_mem_drop h)
    rw [Text.behind_nil, List.append_nil, Pattern.run_append, run_literal _ _ (ht t (by simp)), run_tagTail _ _ hdrop,
      spansHead]
    cases t.isPrefixOf l with
    | true => rfl
    | false => rfl
  | cons t' ts ih =>
    have hsplit : Pattern.literal (t ++ behind (t' :: ts)) ++ tagTail =
        Pattern.literal t ++ (.one (.of ['\n']) :: (Pattern.literal (t' ++ behind ts) ++ tagTail)) := by
      simp [Pattern.literal]
    have hrun : ∀ (k : Matcher α) before cs,
        Pattern.run (.one (.of ['\n']) :: (Pattern.literal (t' ++ behind ts) ++ tagTail)) k before cs =
          (CharSet.of ['\n']).single ((Pattern.literal (t' ++ behind ts) ++ tagTail).run k) cs := fun _ _ _ => rfl
    have ht' : ∀ x ∈ t' :: ts, '\n' ∉ x := fun x hx => ht x (List.mem_cons_of_mem t hx)
    -- the line feed is found only if the line ends with the first line of the tag, and if there is another line
    have hfirst : ∀ k : Matcher α,
        (Pattern.literal (t ++ behind (t' :: ts)) ++ tagTail).run k before (l ++ behind ls) = if l == t then
          (CharSet.of ['\n']).single ((Pattern.literal (t' ++ behind ts) ++ tagTail).run k) (behind ls)
        else none := by
      intro k
      rw [hsplit, Pattern.run_append, run_literal _ _ (ht t (by simp)), hrun]
      by_cases hprefix : t <+: l
      · obtain ⟨rest, rfl⟩ := hprefix
        rw [if_pos (by simp), List.drop_left]
        rcases rest with _ | ⟨c, rest⟩
        · simp
        · have hc : c ≠ '\n' := fun h => hl (t ++ c :: rest) (by simp) (by simp [h])
          simp [CharSet.single, CharSet.has, hc]
      · have hne : l ≠ t := fun h => hprefix (h ▸ List.prefix_refl l)
        rw [if_neg (by simpa using hprefix), if_neg (by simpa using hne)]
    cases ls with
    | nil =>
      refine ⟨none, fun k => ?_⟩
      rw [hfirst, spansHead]
      · simp [spansHead, CharSet.single]
      · simp
    | cons l' ls =>
      obtain ⟨before', hrest⟩ := ih (some '\n') ls ht' fun x hx => hl x (List.mem_cons_of_mem l hx)
      refine ⟨before', fun k => ?_⟩
      have hfeed : (CharSet.of ['\n']).single ((Pattern.literal (t' ++ behind ts) ++ tagTail).run k)
          (behind (l' :: ls)) =
          (Pattern.literal (t' ++ behind ts) ++ tagTail).run k (some '\n') (l' ++ behind ls) := rfl
      have hspan : spansHead (t :: t' :: ts) (l :: l' :: ls) = (l == t && spansHead (t' :: ts) (l' :: ls)) := rfl
      rw [hfirst, hfeed, hrest, hspan]
      cases l == t with
      | true => rfl
      | false => rfl

/-! ### Tags -/

private theorem run_tagLine_eq (tag : List Char) (k : Matcher α) (before : Option Char) (cs : List Char) :
    (tagLine tag).run k before cs =
      if isEdge true before then blanks.greedy ((Pattern.literal tag ++ tagTail).run k) before cs else none := rfl

private theorem run_slash (k : Matcher α) (body : List Char) (before : Option Char) {c : Char} (hc : c ≠ '/')
    (cs : List Char) : (Pattern.literal ('/' :: body) ++ tagTail).run k before (c :: cs) = none := by
  change (CharSet.of ['/']).single ((Pattern.literal body ++ tagTail).run k) (c :: cs) = none
  simp [CharSet.single, CharSet.has, hc]

private theorem run_slash_blank (k : Matcher α) (body : List Char) (before : Option Char) (c : Char) (cs : List Char)
    (hc : isBlank c = true) : (Pattern.literal ('/' :: body) ++ tagTail).run k before (c :: cs) = none := by
  refine run_slash k body before ?_ cs
  rintro rfl
  simp [isBlank] at hc

/-- The pattern of a tag line is found at the beginning of a line if the tag stands on the lines from that one on, and
then it goes on behind the last of them. -/
theorem exists_run_tagLine (body : List Char) {before : Option Char} (hbefore : isEdge true before = true) {l : Line}
    {ls : List Line} (hl : ∀ x ∈ l :: ls, '\n' ∉ x) : ∃ before', ∀ k : Matcher α,
      (tagLine ('/' :: body)).run k before (l ++ behind ls) =
        if tagAtHead (Text.lines ('/' :: body)) (l :: ls) then
          k before' (behind ((l :: ls).drop (Text.lines ('/' :: body)).length))
        else none := by
  obtain ⟨t, ts, hlines⟩ := List.exists_cons_of_ne_nil (Text.lines_ne_nil ('/' :: body))
  have htag : '/' :: body = t ++ behind ts := by rw [← Text.unlines_cons_eq, ← hlines, Text.unlines_lines]
  have ht : ∀ x ∈ t :: ts, '\n' ∉ x := fun x hx => Text.not_mem_of_mem_lines (hlines ▸ hx)
  have hbody : ∀ x ∈ l.dropWhile isBlank :: ls, '\n' ∉ x := by
    intro x hx
    rcases List.mem_cons.1 hx with rfl | hx
    · exact fun h => hl l (by simp) ((List.dropWhile_sublist _).subset h)
    · exact hl x (List.mem_cons_of_mem l hx)
  obtain ⟨before', hrun⟩ := exists_run_tag (α := α) ts (after before (l.takeWhile isBlank)) ls ht hbody
  refine ⟨before', fun k => ?_⟩
  rw [run_tagLine_eq, if_pos hbefore, greedy_blanks (run_slash_blank k body), hlines, htag, hrun]
  rfl

theorem onLines_tagLine (body : List Char) (k : Matcher α) : Matcher.OnLines ((tagLine ('/' :: body)).run k) where
  inside := by
    intro before cs hbefore
    rw [run_tagLine_eq, hbefore]
    rfl
  blank := by
    intro before ls
    rw [run_tagLine_eq]
    have hnone := greedy_blanks (run_slash_blank k body) before [] ls
    rw [List.nil_append] at hnone
    split
    · rw [hnone]
      cases ls with
      | nil => rfl
      | cons l ls => exact run_slash k body _ (by decide) _
    · rfl

/-! ### Counting and finding -/

private theorem countFrom_eq_drop (tag : List Line) (skip : Nat) (ls : List Line) :
    countFrom tag skip ls = countFrom tag 0 (ls.drop skip) := by
  induction ls generalizing skip with
  | nil => simp [countFrom]
  | cons l ls ih =>
    cases skip with
    | zero => rfl
    | succ skip => exact ih skip

private theorem matchAt?_tagLine (body : List Char) {before : Option Char} (hbefore : isEdge true before = true)
    {l : Line} {ls : List Line} (hl : ∀ x ∈ l :: ls, '\n' ∉ x) :
    (tagLine ('/' :: body)).matchAt? before (l ++ behind ls) =
      if tagAtHead (Text.lines ('/' :: body)) (l :: ls) then
        some (behind ((l :: ls).drop (Text.lines ('/' :: body)).length))
      else none := by
  obtain ⟨before', hrun⟩ := exists_run_tagLine (α := List Char) body hbefore hl
  exact hrun _

/-- Behind a tag that was found the text is read on behind its lines. -/
private theorem countFrom_of_found {p : Pattern} (hp : p.matchAt?.OnLines) {before : Option Char} {l : Line}
    {ls : List Line} {n : Nat} (hfound : p.matchAt? before (l ++ behind ls) = some (behind (ls.drop n))) :
    ∃ before', p.countFrom before 0 (l ++ behind ls) = 1 + p.countFrom before' 0 (behind (ls.drop n)) := by
  have hsplit : l ++ behind ls = (l ++ behind (ls.take n)) ++ behind (ls.drop n) := by
    rw [List.append_assoc, ← Text.behind_append, List.take_append_drop]
  rw [hsplit] at hfound ⊢
  -- the pattern took something, since it is not found in front of a line feed
  generalize l ++ behind (ls.take n) = used at hfound ⊢
  rcases used with _ | ⟨c, used⟩
  · rw [List.nil_append, hp.blank] at hfound
    simp at hfound
  · refine ⟨after (some c) used, ?_⟩
    rw [List.cons_append] at hfound ⊢
    rw [Pattern.countFrom, hfound]
    dsimp only
    rw [List.length_append, Nat.add_sub_cancel, countFrom_skip]

/-- The line that is next is counted as it should be if the lines behind it are. -/
private theorem countFrom_head (body : List Char) {before : Option Char} (hbefore : isEdge true before = true)
    {l : Line} {ls : List Line} (hl : ∀ x ∈ l :: ls, '\n' ∉ x)
    (hrest : ∀ n before, (tagLine ('/' :: body)).countFrom before 0 (behind (ls.drop n)) =
      countFrom (Text.lines ('/' :: body)) 0 (ls.drop n)) :
    (tagLine ('/' :: body)).countFrom before 0 (l ++ behind ls) =
      countFrom (Text.lines ('/' :: body)) 0 (l :: ls) := by
  have honLines : (tagLine ('/' :: body)).matchAt?.OnLines := onLines_tagLine body _
  have hmatch := matchAt?_tagLine body hbefore hl
  obtain ⟨t, ts, hlines⟩ := List.exists_cons_of_ne_nil (Text.lines_ne_nil ('/' :: body))
  have hdrop : (l :: ls).drop (Text.lines ('/' :: body)).length = ls.drop ts.length := by rw [hlines]; rfl
  rw [countFrom]
  by_cases htag : tagAtHead (Text.lines ('/' :: body)) (l :: ls) = true
  · rw [if_pos htag, hdrop] at hmatch
    obtain ⟨before', hcount⟩ := countFrom_of_found honLines hmatch
    rw [if_pos htag, hcount, hrest, countFrom_eq_drop _ ((Text.lines ('/' :: body)).length - 1), hlines]
    rfl
  · rw [if_neg htag] at hmatch
    rw [if_neg htag, countFrom_line honLines (hl l (by simp)) hmatch]
    exact hrest 0 _

private theorem countFrom_tagLine (body : List Char) (n : Nat) {ls : List Line} (hn : ls.length ≤ n)
    (hls : ∀ x ∈ ls, '\n' ∉ x) (before : Option Char) : (tagLine ('/' :: body)).countFrom before 0 (behind ls) =
      countFrom (Text.lines ('/' :: body)) 0 ls := by
  induction n generalizing ls before with
  | zero => rw [List.eq_nil_of_length_eq_zero (Nat.le_zero.1 hn)]; rfl
  | succ n ih =>
    cases ls with
    | nil => rfl
    | cons l ls =>
      rw [countFrom_behind (onLines_tagLine body _)]
      refine countFrom_head body rfl hls fun m before => ih ?_ ?_ before
      · rw [List.length_cons] at hn
        rw [List.length_drop]
        omega
      · exact fun x hx => hls x (List.mem_cons_of_mem l (List.mem_of_mem_drop hx))

/-- A tag is counted line by line. -/
theorem count_tagLine (body text : List Char) :
    (tagLine ('/' :: body)).count text = countTag (Text.lines ('/' :: body)) (Text.lines text) := by
  obtain ⟨l, ls, hlines⟩ := List.exists_cons_of_ne_nil (Text.lines_ne_nil text)
  have hl : ∀ x ∈ l :: ls, '\n' ∉ x := fun x hx => Text.not_mem_of_mem_lines (hlines ▸ hx)
  have htext : text = l ++ behind ls := by rw [← Text.unlines_cons_eq, ← hlines, Text.unlines_lines]
  rw [Pattern.count, countTag, hlines, htext]
  refine countFrom_head body rfl hl fun n before => countFrom_tagLine body _ (Nat.le_refl _) ?_ before
  exact fun x hx => hl x (List.mem_cons_of_mem l (List.mem_of_mem_drop hx))

/-- A star over any characters in front of a tag goes to the last one. -/
private theorem greedy_tagLine (body : List Char) (before : Option Char) {ls : List Line} (hls : ∀ x ∈ ls, '\n' ∉ x) :
    CharSet.any.greedy (tagLine ('/' :: body)).matchAt? before (behind ls) =
      (behindLast? (Text.lines ('/' :: body)) ls).map behind := by
  have honLines : (tagLine ('/' :: body)).matchAt?.OnLines := onLines_tagLine body _
  induction ls generalizing before with
  | nil => exact honLines.blank before []
  | cons l ls ih =>
    have hfeed : isEdge true (some '\n') = true := rfl
    have hmatch := matchAt?_tagLine body hfeed hls
    rw [greedy_behind honLines, greedy_line honLines (hls l (by simp)),
      ih _ fun x hx => hls x (List.mem_cons_of_mem l hx), hmatch, behindLast?, Option.map_or]
    split
    · rfl
    · rfl

section Region

variable (startBody endBody : List Char)

private def regionLines : Pattern := tagLine ('/' :: startBody) ++ .many .any :: tagLine ('/' :: endBody)

private theorem onLines_regionLines : (regionLines startBody endBody).matchAt?.OnLines := by
  rw [Pattern.matchAt?, regionLines, Pattern.run_append]
  exact onLines_tagLine startBody _

private theorem matchAt?_regionLines {before : Option Char} (hbefore : isEdge true before = true) {l : Line}
    {ls : List Line} (hl : ∀ x ∈ l :: ls, '\n' ∉ x) :
    (regionLines startBody endBody).matchAt? before (l ++ behind ls) =
      (behindRegion? (Text.lines ('/' :: startBody)) (Text.lines ('/' :: endBody)) (l :: ls)).map behind := by
  obtain ⟨before', hrun⟩ := exists_run_tagLine (α := List Char) startBody hbefore hl
  rw [Pattern.matchAt?, regionLines, Pattern.run_append, hrun, behindRegion?]
  split
  · exact greedy_tagLine endBody before' fun x hx => hl x (List.mem_of_mem_drop hx)
  · rfl

/-- A region that begins with the next line is found there, or else it is looked for behind that line. -/
private theorem findFrom_head {before : Option Char} (hbefore : isEdge true before = true) {l : Line} {ls : List Line}
    (hl : ∀ x ∈ l :: ls, '\n' ∉ x) : (regionLines startBody endBody).findFrom before (l ++ behind ls) =
      match behindRegion? (Text.lines ('/' :: startBody)) (Text.lines ('/' :: endBody)) (l :: ls) with
      | some post => some ([], behind post)
      | none => ((regionLines startBody endBody).findFrom (after before l) (behind ls)).map
          fun found => (l ++ found.1, found.2) := by
  have hmatch := matchAt?_regionLines startBody endBody hbefore hl
  cases hregion : behindRegion? (Text.lines ('/' :: startBody)) (Text.lines ('/' :: endBody)) (l :: ls) with
  | some post =>
    rw [hregion] at hmatch
    exact findFrom_of_matchAt? hmatch
  | none =>
    rw [hregion] at hmatch
    exact findFrom_line (onLines_regionLines startBody endBody) (hl l (by simp)) hmatch

private theorem findFrom_regionLines {before : Option Char} (hbefore : isEdge true before = true) {l : Line}
    {ls : List Line} (hl : ∀ x ∈ l :: ls, '\n' ∉ x) :
    (regionLines startBody endBody).findFrom before (l ++ behind ls) =
      (cut? (Text.lines ('/' :: startBody)) (Text.lines ('/' :: endBody)) (l :: ls)).map
        fun frame => (Text.ahead frame.1, behind frame.2) := by
  have honLines := onLines_regionLines startBody endBody
  induction ls generalizing before l with
  | nil =>
    rw [findFrom_head _ _ hbefore hl, Text.behind_nil, findFrom_nil honLines, cut?]
    cases behindRegion? (Text.lines ('/' :: startBody)) (Text.lines ('/' :: endBody)) [l] with
    | some post => rfl
    | none => rfl
  | cons m ls ih =>
    rw [findFrom_head _ _ hbefore hl, cut?]
    cases behindRegion? (Text.lines ('/' :: startBody)) (Text.lines ('/' :: endBody)) (l :: m :: ls) with
    | some post => rfl
    | none =>
      dsimp only
      rw [findFrom_behind honLines, ih rfl fun x hx => hl x (List.mem_cons_of_mem l hx)]
      simp [Option.map_map, Function.comp_def, Text.ahead]

/-- A region is found from its first start tag to the last end tag behind that. -/
theorem find?_regionLines (text : List Char) :
    (tagLine ('/' :: startBody) ++ .many .any :: tagLine ('/' :: endBody)).find? text =
      (cut? (Text.lines ('/' :: startBody)) (Text.lines ('/' :: endBody)) (Text.lines text)).map
        fun frame => (Text.ahead frame.1, behind frame.2) := by
  obtain ⟨l, ls, hlines⟩ := List.exists_cons_of_ne_nil (Text.lines_ne_nil text)
  have htext : text = l ++ behind ls := by rw [← Text.unlines_cons_eq, ← hlines, Text.unlines_lines]
  rw [Pattern.find?, hlines, htext]
  exact findFrom_regionLines startBody endBody rfl fun x hx => Text.not_mem_of_mem_lines (hlines ▸ hx)

end Region

/-! ### The tags of a key -/

namespace Key

theorem exists_tag_eq (key : Key) (kind : TagKind) : ∃ body, (key.tag kind).toList = '/' :: body := by
  have hmark : ∃ cs, tagMark.toList = '/' :: cs := ⟨_, rfl⟩
  obtain ⟨cs, hmark⟩ := hmark
  exact ⟨_, by rw [tag, String.toList_append, String.toList_append, String.toList_append, String.toList_append, hmark,
    List.cons_append, List.cons_append, List.cons_append, List.cons_append]⟩

/-- The pattern of a tag is found as often as the tag stands in the lines of the text. -/
theorem countTags_eq (key : Key) (text : List Char) : key.countTags text = key.counts (Text.lines text) := by
  have hcount : ∀ kind, (key.tagPattern kind).count text = countTag (key.tagLines kind) (Text.lines text) := by
    intro kind
    obtain ⟨body, hbody⟩ := key.exists_tag_eq kind
    rw [tagPattern_eq, tagLines, hbody, count_tagLine]
  rw [countTags, counts, hcount, hcount]

/-- The lines in front of the key's region and those behind it. -/
def cut? (key : Key) (text : List Line) : Option (List Line × List Line) :=
  Region.cut? (key.tagLines .start) (key.tagLines .finish) text

/-- The pattern of a region is found where the lines of the text can be cut. -/
theorem find?_eq (key : Key) (text : List Char) :
    key.regionPattern.find? text =
      (key.cut? (Text.lines text)).map fun frame => (Text.ahead frame.1, Text.behind frame.2) := by
  obtain ⟨startBody, hstart⟩ := key.exists_tag_eq .start
  obtain ⟨endBody, hend⟩ := key.exists_tag_eq .finish
  rw [regionPattern_eq, cut?, tagLines, tagLines, hstart, hend, find?_regionLines]

end Key

end Region

end ResourceWatch
