import ResourceWatch.Proofs.Region.Tags

/-!
# The frame of a region

What injection keeps of a text is its frame: the lines in front of the key's region and those behind it.  The frame
does not depend on what is injected (`inject_eq`), holds no tag line of the key (`frame?_clean`), and a text made of a
frame and a region has that frame again (`frame?_append`).  So what is injected last stands alone between the same
lines.  A text with one start and one end tag line is refused only if the two stand the other way round
(`frame?_of_isCrossed`).
-/

namespace ResourceWatch.Region

open Text (Line)

namespace Key

/-- The lines that stay in front of the key's region and behind it; a text without a region gets one behind a blank
line. -/
def frame? (key : Key) (text : List Line) : Except InjectionError (List Line × List Line) :=
  match key.counts text with
  | (0, 0) => .ok (text ++ [[]], [])
  | (1, 1) =>
    match key.cut? text with
    | some frame => .ok frame
    | none => .error (.malformed key 1 1)
  | (starts, ends) => .error (.malformed key starts ends)

/-- A start tag line, an end tag line, and no tag line between them. -/
def IsRegion (key : Key) (ls : List Line) : Prop :=
  ∃ s mid e, ls = s :: mid ++ [e] ∧ key.isTag .start s = true ∧ key.isTag .finish e = true ∧ key.Clean mid

/-- An end tag line, a start tag line, and no tag line between them. -/
def IsCrossed (key : Key) (ls : List Line) : Prop :=
  ∃ e mid s, ls = e :: mid ++ [s] ∧ key.isTag .finish e = true ∧ key.isTag .start s = true ∧ key.Clean mid

end Key

/-- Injection puts the region into the frame. -/
theorem inject_eq (existing : String) (key : Key) (rendered : String) :
    inject existing key rendered =
      if key.counts (Text.lines (regionOf rendered)) ≠ (1, 1) then .error (.untagged key)
      else (key.frame? (Text.lines existing.toList)).map fun f =>
        String.ofList (Text.unlines (f.1 ++ [regionOf rendered] ++ f.2)) := by
  have hne := Text.lines_ne_nil existing.toList
  have happend : Text.unlines (Text.lines existing.toList ++ [[]] ++ [regionOf rendered] ++ []) =
      existing.toList ++ '\n' :: '\n' :: regionOf rendered := by
    rw [List.append_nil, List.append_assoc, Text.unlines_append hne (by simp), Text.unlines_lines,
      List.singleton_append, Text.unlines_cons [] (by simp), Text.unlines, List.intercalate_singleton]
    rfl
  unfold inject Key.frame?
  dsimp only
  rw [Key.countTags_eq, Key.countTags_eq, Key.find?_eq]
  split
  · rfl
  · rcases hc : key.counts (Text.lines existing.toList) with ⟨starts, ends⟩
    have htext : String.ofList (existing.toList ++ '\n' :: '\n' :: regionOf rendered) =
        existing ++ "\n\n" ++ String.ofList (regionOf rendered) := by
      rw [show '\n' :: '\n' :: regionOf rendered = ['\n', '\n'] ++ regionOf rendered from rfl, String.ofList_append,
        String.ofList_append, String.ofList_toList, String.append_assoc]
    rcases starts with _ | _ | n
    · cases ends with
      | zero => simp only [Except.map, happend, htext]
      | succ m => rfl
    · rcases ends with _ | _ | m
      · rfl
      · cases key.cut? (Text.lines existing.toList) with
        | none => rfl
        | some frame => simp only [Option.map_some, Except.map, Text.unlines_eq_ahead]
      · rfl
    · rfl

/-- A text without tags of the key gets the region at its end. -/
theorem inject_append {existing rendered : String} {key : Key}
    (hone : key.counts (Text.lines (regionOf rendered)) = (1, 1))
    (hnone : key.counts (Text.lines existing.toList) = (0, 0)) :
    inject existing key rendered = .ok (existing ++ "\n\n" ++ String.ofList (regionOf rendered)) := by
  simp only [inject, Key.countTags_eq, hone, hnone, ne_eq, not_true_eq_false, if_false]

/-- Only a rendering with one start and one end tag line of the key is injected. -/
theorem counts_of_inject {existing rendered updated : String} {key : Key}
    (h : inject existing key rendered = .ok updated) : key.counts (Text.lines (regionOf rendered)) = (1, 1) := by
  rw [inject_eq] at h
  split at h
  · simp at h
  · rename_i hcounts
    exact Decidable.not_not.1 hcounts

namespace Key

variable {key : Key}

/-! ### Texts with one region -/

theorem clean_iff {ls : List Line} : key.Clean ls ↔ ∀ kind, ls.countP (key.isTag kind) = 0 := by
  constructor
  · intro h kind
    rw [List.countP_eq_zero]
    intro l hl
    simp [h l hl kind]
  · intro h l hl kind
    simpa using List.countP_eq_zero.1 (h kind) l hl

theorem counts_of_clean (hkey : '\n' ∉ key.text.toList) {ls : List Line} (h : key.Clean ls) :
    key.counts ls = (0, 0) := by
  rw [counts_eq hkey, clean_iff.1 h, clean_iff.1 h]

/-- A tag line of one kind, one of the other, and no tag line between them. -/
private theorem countP_pair {kind kind' : TagKind} (hne : kind ≠ kind') {a b : Line} {mid : List Line}
    (ha : key.isTag kind a = true) (hb : key.isTag kind' b = true) (hmid : key.Clean mid) (k : TagKind) :
    (a :: mid ++ [b]).countP (key.isTag k) = 1 := by
  have hk : k = kind ∨ k = kind' := by
    cases k <;> cases kind <;> cases kind' <;> simp at hne ⊢
  rcases hk with rfl | rfl
  · simp [clean_iff.1 hmid, ha, isTag_of_ne hb hne.symm]
  · simp [clean_iff.1 hmid, hb, isTag_of_ne ha hne]

/-- Between its tag lines, a text with one start and one end tag line has none. -/
theorem isRegion_of_counts (hkey : '\n' ∉ key.text.toList) {s e : Line} {mid : List Line}
    (hs : key.isTag .start s = true) (he : key.isTag .finish e = true) (hc : key.counts (s :: mid ++ [e]) = (1, 1)) :
    key.IsRegion (s :: mid ++ [e]) := by
  refine ⟨s, mid, e, rfl, hs, he, clean_iff.2 fun kind => ?_⟩
  rw [counts_eq hkey, Prod.mk.injEq] at hc
  obtain ⟨hstart, hfinish⟩ := hc
  simp only [List.cons_append, List.countP_cons, List.countP_append, List.countP_nil, hs, he, if_true]
    at hstart hfinish
  cases kind with
  | start => omega
  | finish => omega

/-- Lines that are no tag lines do not count. -/
theorem counts_between (hkey : '\n' ∉ key.text.toList) {pre post : List Line} (hpre : key.Clean pre)
    (hpost : key.Clean post) (ls : List Line) : key.counts (pre ++ ls ++ post) = key.counts ls := by
  rw [counts_eq hkey, counts_eq hkey]
  simp only [List.countP_append, clean_iff.1 hpre, clean_iff.1 hpost, Nat.zero_add,
    Nat.add_zero]

theorem counts_of_isRegion (hkey : '\n' ∉ key.text.toList) {region : List Line} (hr : key.IsRegion region) :
    key.counts region = (1, 1) := by
  obtain ⟨s, mid, e, rfl, hs, he, hmid⟩ := hr
  have hcount := countP_pair (by decide) hs he hmid
  rw [counts_eq hkey, hcount, hcount]

theorem counts_of_isCrossed (hkey : '\n' ∉ key.text.toList) {crossed : List Line} (hc : key.IsCrossed crossed) :
    key.counts crossed = (1, 1) := by
  obtain ⟨e, mid, s, rfl, he, hs, hmid⟩ := hc
  have hcount := countP_pair (by decide) he hs hmid
  rw [counts_eq hkey, hcount, hcount]

theorem frame?_append (hkey : '\n' ∉ key.text.toList) {pre region post : List Line} (hr : key.IsRegion region)
    (hpre : key.Clean pre) (hpost : key.Clean post) : key.frame? (pre ++ region ++ post) = .ok (pre, post) := by
  have hcounts := (counts_between hkey hpre hpost region).trans (counts_of_isRegion hkey hr)
  obtain ⟨s, mid, e, rfl, hs, he, hmid⟩ := hr
  have hcut : key.cut? (pre ++ (s :: mid ++ [e]) ++ post) = some (pre, post) := by
    rw [cut?, tagLines_eq hkey, tagLines_eq hkey, show pre ++ (s :: mid ++ [e]) ++ post =
      pre ++ s :: (mid ++ e :: post) by simp]
    exact cut?_of_pair hs he (fun l hl => hpre l hl .start) (fun l hl => hpost l hl .finish) mid
  simp only [frame?, hcounts, hcut]

/-- A start tag line behind the end tag line makes no region. -/
theorem frame?_of_isCrossed (hkey : '\n' ∉ key.text.toList) {pre crossed post : List Line}
    (hc : key.IsCrossed crossed) (hpre : key.Clean pre) (hpost : key.Clean post) :
    key.frame? (pre ++ crossed ++ post) = .error (.malformed key 1 1) := by
  have hcounts := (counts_between hkey hpre hpost crossed).trans (counts_of_isCrossed hkey hc)
  obtain ⟨e, mid, s, rfl, he, hs, hmid⟩ := hc
  have hcut : key.cut? (pre ++ (e :: mid ++ [s]) ++ post) = none := by
    rw [cut?, tagLines_eq hkey, tagLines_eq hkey, show pre ++ (e :: mid ++ [s]) ++ post =
      (pre ++ e :: mid) ++ s :: post by simp]
    refine cut?_eq_none hs (fun l hl => ?_) fun l hl => ⟨hpost l hl .start, hpost l hl .finish⟩
    rcases List.mem_append.1 hl with hl | hl
    · exact hpre l hl .start
    · rcases List.mem_cons.1 hl with rfl | hl
      · exact isTag_of_ne he (by decide)
      · exact hmid l hl .start
  simp only [frame?, hcounts, hcut]

/-! ### The frame is clean -/

private theorem exists_split {p : Line → Bool} {ls : List Line} (h : ls.countP p = 1) :
    ∃ as l bs, ls = as ++ l :: bs ∧ p l = true ∧ (∀ x ∈ as, p x = false) ∧ ∀ x ∈ bs, p x = false := by
  induction ls with
  | nil => simp at h
  | cons l ls ih =>
    by_cases hl : p l = true
    · rw [List.countP_cons_of_pos hl] at h
      have hzero : ls.countP p = 0 := by omega
      exact ⟨[], l, ls, rfl, hl, by simp, by simpa using hzero⟩
    · rw [List.countP_cons_of_neg hl] at h
      obtain ⟨as, m, bs, rfl, hm, has, hbs⟩ := ih h
      refine ⟨l :: as, m, bs, rfl, hm, ?_, hbs⟩
      intro x hx
      rcases List.mem_cons.1 hx with rfl | hx
      · simpa using hl
      · exact has x hx

theorem clean_nil_line : key.Clean [[]] := by
  intro l hl kind
  rw [List.mem_singleton.1 hl]
  exact isTag_eq_false (by simp) kind

theorem clean_of_counts (hkey : '\n' ∉ key.text.toList) {ls : List Line} (h : key.counts ls = (0, 0)) :
    key.Clean ls := by
  rw [counts_eq hkey, Prod.mk.injEq] at h
  refine clean_iff.2 fun kind => ?_
  cases kind with
  | start => exact h.1
  | finish => exact h.2

/-- One start and one end tag line stand in either order, and every other line of the text is in front of both,
between them or behind both. -/
theorem isRegion_or_isCrossed (hkey : '\n' ∉ key.text.toList) {text : List Line} (h : key.counts text = (1, 1)) :
    ∃ pre tagged post, text = pre ++ tagged ++ post ∧ key.Clean pre ∧ key.Clean post ∧
      (key.IsRegion tagged ∨ key.IsCrossed tagged) := by
  rw [counts_eq hkey, Prod.mk.injEq] at h
  obtain ⟨hstart, hfinish⟩ := h
  obtain ⟨as, s, bs, rfl, hs, has, hbs⟩ := exists_split hstart
  have hs' : key.isTag .finish s = false := isTag_of_ne hs (by decide)
  simp only [List.countP_append, List.countP_cons, hs', Bool.false_eq_true, if_false] at hfinish
  have hclean : ∀ ls : List Line, (∀ l ∈ ls, key.isTag .start l = false) → (∀ l ∈ ls, key.isTag .finish l = false) →
      key.Clean ls := by
    intro ls hstart hfinish l hl kind
    cases kind with
    | start => exact hstart l hl
    | finish => exact hfinish l hl
  by_cases hzero : as.countP (key.isTag .finish) = 0
  · -- the end tag line stands behind the start tag line
    have hone : bs.countP (key.isTag .finish) = 1 := by omega
    obtain ⟨mid, e, cs, rfl, he, hmid, hcs⟩ := exists_split hone
    have has' : ∀ l ∈ as, key.isTag .finish l = false := by simpa using hzero
    refine ⟨as, s :: mid ++ [e], cs, by simp, hclean as has has', ?_, Or.inl ⟨s, mid, e, rfl, hs, he, ?_⟩⟩
    · exact hclean cs (fun l hl => hbs l (by simp [hl])) hcs
    · exact hclean mid (fun l hl => hbs l (by simp [hl])) hmid
  · have hone : as.countP (key.isTag .finish) = 1 := by omega
    have hnone : bs.countP (key.isTag .finish) = 0 := by omega
    obtain ⟨as, e, mid, rfl, he, has', hmid⟩ := exists_split hone
    have hbs' : ∀ l ∈ bs, key.isTag .finish l = false := by simpa using hnone
    refine ⟨as, e :: mid ++ [s], bs, by simp, ?_, hclean bs hbs hbs', Or.inr ⟨e, mid, s, rfl, he, hs, ?_⟩⟩
    · exact hclean as (fun l hl => has l (by simp [hl])) has'
    · exact hclean mid (fun l hl => has l (by simp [hl])) hmid

/-- The frame holds no tag line of the key. -/
theorem frame?_clean (hkey : '\n' ∉ key.text.toList) {text pre post : List Line}
    (h : key.frame? text = .ok (pre, post)) : key.Clean pre ∧ key.Clean post := by
  rcases hc : key.counts text with ⟨starts, ends⟩
  have h' := h
  unfold frame? at h'
  rw [hc] at h'
  split at h'
  · rename_i heq
    simp only [Prod.mk.injEq] at heq
    simp only [Except.ok.injEq, Prod.mk.injEq] at h'
    obtain ⟨rfl, rfl⟩ := heq
    obtain ⟨rfl, rfl⟩ := h'
    exact ⟨(clean_of_counts hkey hc).append clean_nil_line, fun l hl => by simp at hl⟩
  · rename_i heq
    simp only [Prod.mk.injEq] at heq
    obtain ⟨rfl, rfl⟩ := heq
    obtain ⟨as, tagged, bs, rfl, has, hbs, hregion | hcrossed⟩ := isRegion_or_isCrossed hkey hc
    · rw [frame?_append hkey hregion has hbs] at h
      simp only [Except.ok.injEq, Prod.mk.injEq] at h
      obtain ⟨rfl, rfl⟩ := h
      exact ⟨has, hbs⟩
    · rw [frame?_of_isCrossed hkey hcrossed has hbs] at h
      simp at h
  · simp at h'

theorem not_mem_of_mem_frame? {s : List Char} {pre post : List Line}
    (h : key.frame? (Text.lines s) = .ok (pre, post)) : ∀ l ∈ pre ++ post, '\n' ∉ l := by
  have hlines : ∀ l ∈ Text.lines s, '\n' ∉ l := fun l => Text.not_mem_of_mem_lines
  unfold frame? at h
  split at h
  · simp only [Except.ok.injEq, Prod.mk.injEq] at h
    obtain ⟨rfl, rfl⟩ := h
    intro l hl
    rw [List.append_nil, List.mem_append, List.mem_singleton] at hl
    rcases hl with hl | rfl
    · exact hlines l hl
    · simp
  · split at h
    · rename_i hcut
      simp only [Except.ok.injEq] at h
      exact fun l hl => hlines l (mem_of_cut? (h ▸ hcut) hl)
    · simp at h
  · simp at h

end Key

/-! ### Injection after injection -/

theorem lines_inject {existing rendered updated : String} {key : Key}
    (h : inject existing key rendered = .ok updated) :
    ∃ pre post, key.frame? (Text.lines existing.toList) = .ok (pre, post) ∧
      updated = String.ofList (Text.unlines (pre ++ [regionOf rendered] ++ post)) ∧
      Text.lines updated.toList = pre ++ Text.lines (regionOf rendered) ++ post := by
  rw [inject_eq] at h
  split at h
  · simp at h
  · cases hf : key.frame? (Text.lines existing.toList) with
    | error e => simp [hf, Except.map] at h
    | ok frame =>
      obtain ⟨pre, post⟩ := frame
      simp only [hf, Except.map, Except.ok.injEq] at h
      have hmem := Key.not_mem_of_mem_frame? hf
      have hpre := Text.flatMap_lines fun l hl => hmem l (List.mem_append_left _ hl)
      have hpost := Text.flatMap_lines fun l hl => hmem l (List.mem_append_right _ hl)
      refine ⟨pre, post, rfl, h.symm, ?_⟩
      rw [← h, String.toList_ofList, Text.lines_unlines_flatMap (by simp), List.flatMap_append, List.flatMap_append,
        hpre, hpost, List.flatMap_singleton]

/-- What is injected last counts: the injection before it leaves no trace, if it left a region. -/
theorem inject_inject {existing first updated : String} {key : Key} (hkey : '\n' ∉ key.text.toList)
    (hregion : key.IsRegion (Text.lines (regionOf first))) (h : inject existing key first = .ok updated)
    (second : String) : inject updated key second = inject existing key second := by
  obtain ⟨pre, post, hframe, -, hlines⟩ := lines_inject h
  obtain ⟨hpre, hpost⟩ := Key.frame?_clean hkey hframe
  rw [inject_eq, inject_eq, hlines, Key.frame?_append hkey hregion hpre hpost, hframe]

/-- Between parts without tag lines of the key, a region gives way to what is injected. -/
theorem inject_of_isRegion {existing rendered : String} {key : Key} (hkey : '\n' ∉ key.text.toList)
    {as bs : List (List Char)} {old : List Char} (hexisting : existing.toList = Text.unlines (as ++ [old] ++ bs))
    (hold : key.IsRegion (Text.lines old)) (has : key.Clean (as.flatMap Text.lines))
    (hbs : key.Clean (bs.flatMap Text.lines)) (hcounts : key.counts (Text.lines (regionOf rendered)) = (1, 1)) :
    inject existing key rendered = .ok (String.ofList (Text.unlines (as ++ [regionOf rendered] ++ bs))) := by
  have hlines : Text.lines existing.toList = as.flatMap Text.lines ++ Text.lines old ++ bs.flatMap Text.lines := by
    rw [hexisting, Text.lines_unlines_flatMap (by simp), List.flatMap_append, List.flatMap_append,
      List.flatMap_singleton]
  have htwice : ∀ cs : List (List Char), (cs.flatMap Text.lines).flatMap Text.lines = cs.flatMap Text.lines := by
    intro cs
    rw [List.flatMap_assoc]
    simp only [Text.flatMap_lines_lines]
  rw [inject_eq, if_neg (by simp [hcounts]), hlines, Key.frame?_append hkey hold has hbs]
  simp only [Except.map]
  -- the frame is known as lines, the result is wanted in parts
  rw [← Text.unlines_flatMap_lines, ← Text.unlines_flatMap_lines (as ++ [regionOf rendered] ++ bs)]
  simp only [List.flatMap_append, htwice]

end ResourceWatch.Region
