import ResourceWatch.Proofs.Region.Frame

/-!
# Injection, line by line

What injection does to a text, told by the lines of the text and without the way in which tags are counted and found:
a line is a tag line if it consists of blanks, the tag, blanks and at most one carriage return (`Key.TagLine`), and a
region is cut out of a text from the beginning of its start tag line to the end of its end tag line (`Key.Cuts`),
which can be done exactly if the start tag line comes first (`Key.exists_cuts_iff`).

`inject_line_by_line` says for every text and every rendering which of the four outcomes there is: the rendering is
refused, appended, put in place of the region, or the text is refused with the numbers of its tag lines.
-/

namespace ResourceWatch

/-! ### Whole lines of a text -/

namespace Text

/-- What may stand in front of whole lines: nothing, or a text that ends with a line feed. -/
def IsFront (front : List Char) : Prop := front = [] ∨ ∃ f, front = f ++ ['\n']

/-- What may stand behind whole lines: nothing, or a text that begins with a line feed. -/
def IsBack (back : List Char) : Prop := back = [] ∨ ∃ b, back = '\n' :: b

theorem IsFront.append {a b : List Char} (ha : IsFront a) (hb : IsFront b) : IsFront (a ++ b) := by
  rcases hb with rfl | ⟨f, rfl⟩
  · rwa [List.append_nil]
  · exact Or.inr ⟨a ++ f, by rw [List.append_assoc]⟩

theorem IsBack.append {a b : List Char} (ha : IsBack a) (hb : IsBack b) : IsBack (a ++ b) := by
  rcases ha with rfl | ⟨f, rfl⟩
  · exact hb
  · exact Or.inr ⟨f ++ b, rfl⟩

theorem IsFront.exists_lines {front : List Char} (h : IsFront front) :
    ∃ pre : List Line, ∀ r, lines (front ++ r) = pre ++ lines r := by
  rcases h with rfl | ⟨f, rfl⟩
  · exact ⟨[], fun r => rfl⟩
  · refine ⟨lines f, fun r => ?_⟩
    rw [List.append_assoc, List.singleton_append, lines_append]

theorem IsBack.exists_lines {back : List Char} (h : IsBack back) :
    ∃ post : List Line, ∀ r, lines (r ++ back) = lines r ++ post := by
  rcases h with rfl | ⟨b, rfl⟩
  · exact ⟨[], fun r => by rw [List.append_nil, List.append_nil]⟩
  · exact ⟨lines b, fun r => lines_append r b⟩

/-- Between whole lines any text has its own lines. -/
theorem exists_lines {front back : List Char} (hfront : IsFront front) (hback : IsBack back) :
    ∃ pre post : List Line, ∀ r, lines (front ++ r ++ back) = pre ++ lines r ++ post := by
  obtain ⟨pre, hpre⟩ := hfront.exists_lines
  obtain ⟨post, hpost⟩ := hback.exists_lines
  exact ⟨pre, post, fun r => by rw [hpost, hpre]⟩

theorem unlines_between {front back : List Char} {pre post : List Line}
    (h : ∀ r, lines (front ++ r ++ back) = pre ++ lines r ++ post) (r : List Char) :
    unlines (pre ++ [r] ++ post) = front ++ r ++ back := by
  have hmem : ∀ l ∈ pre ++ lines r ++ post, '\n' ∉ l := fun l hl => not_mem_of_mem_lines (h r ▸ hl)
  have hpre : pre.flatMap lines = pre := flatMap_lines fun l hl => hmem l (by simp [hl])
  have hpost : post.flatMap lines = post := flatMap_lines fun l hl => hmem l (by simp [hl])
  rw [← unlines_flatMap_lines, List.flatMap_append, List.flatMap_append, hpre, hpost, List.flatMap_singleton, ← h r,
    unlines_lines]

/-- Lines cut a text where a line begins and where one ends. -/
theorem exists_unlines_eq {part : List Line} (hpart : part ≠ []) (pre post : List Line) :
    ∃ front back, IsFront front ∧ IsBack back ∧ unlines (pre ++ part ++ post) = front ++ unlines part ++ back := by
  obtain ⟨front, hfront, hpre⟩ : ∃ front, IsFront front ∧ unlines (pre ++ part) = front ++ unlines part := by
    by_cases h : pre = []
    · exact ⟨[], Or.inl rfl, by rw [h]; rfl⟩
    · refine ⟨unlines pre ++ ['\n'], Or.inr ⟨_, rfl⟩, ?_⟩
      rw [unlines_append h hpart, List.append_assoc, List.singleton_append]
  by_cases h : post = []
  · exact ⟨front, [], hfront, Or.inl rfl, by rw [h, List.append_nil, List.append_nil, hpre]⟩
  · refine ⟨front, '\n' :: unlines post, hfront, Or.inr ⟨_, rfl⟩, ?_⟩
    rw [unlines_append (by simp [hpart]) h, hpre]

end Text

namespace Region

open Text (Line IsFront IsBack)

namespace Key

variable {key : Key} {kind : TagKind}

/-! ### Tag lines -/

/-- The line consists of blanks and tabs, the tag, blanks and tabs, and at most one carriage return. -/
def TagLine (key : Key) (kind : TagKind) (line : Line) : Prop :=
  ∃ indent gap cr, line = indent ++ (key.tag kind).toList ++ gap ++ cr ∧
    (∀ c ∈ indent ++ gap, c = ' ' ∨ c = '\t') ∧ (cr = [] ∨ cr = ['\r'])

private theorem isBlank_iff {c : Char} : isBlank c = true ↔ c = ' ' ∨ c = '\t' := by
  simp [isBlank]

private theorem isTagTail_iff {cs : List Char} :
    isTagTail cs = true ↔ ∃ gap cr, cs = gap ++ cr ∧ (∀ c ∈ gap, c = ' ' ∨ c = '\t') ∧ (cr = [] ∨ cr = ['\r']) := by
  constructor
  · intro h
    refine ⟨cs.takeWhile isBlank, cs.dropWhile isBlank, List.takeWhile_append_dropWhile.symm, fun c hc => ?_, ?_⟩
    · exact isBlank_iff.1 (List.all_eq_true.1 List.all_takeWhile c hc)
    · simpa [isTagTail] using h
  · rintro ⟨gap, cr, rfl, hgap, hcr⟩
    have hdrop : (gap ++ cr).dropWhile isBlank = cr := by
      rw [List.dropWhile_append_of_pos fun c hc => isBlank_iff.2 (hgap c hc)]
      rcases hcr with rfl | rfl <;> rfl
    simpa [isTagTail, hdrop] using hcr

theorem isTag_eq_true_iff {line : Line} : key.isTag kind line = true ↔ key.TagLine kind line := by
  unfold isTag isTagLine
  rw [Bool.and_eq_true, List.isPrefixOf_iff_prefix, isTagTail_iff]
  constructor
  · rintro ⟨⟨rest, hbody⟩, gap, cr, htail, hgap, hcr⟩
    rw [← hbody, List.drop_left] at htail
    refine ⟨line.takeWhile isBlank, gap, cr, ?_, fun c hc => ?_, hcr⟩
    · rw [List.append_assoc, List.append_assoc, ← htail, hbody, List.takeWhile_append_dropWhile]
    · rcases List.mem_append.1 hc with hc | hc
      · exact isBlank_iff.1 (List.all_eq_true.1 List.all_takeWhile c hc)
      · exact hgap c hc
  · rintro ⟨indent, gap, cr, rfl, hblank, hcr⟩
    have hindent : ∀ c ∈ indent, isBlank c = true := fun c hc => isBlank_iff.2 (hblank c (by simp [hc]))
    have hbody : (indent ++ (key.tag kind).toList ++ gap ++ cr).dropWhile isBlank =
        (key.tag kind).toList ++ (gap ++ cr) := by
      have htag : (key.tag kind).toList ≠ [] := by simp [toList_tag]
      rw [List.append_assoc, List.append_assoc, List.dropWhile_append_of_pos hindent, List.dropWhile_append,
        dropWhile_tag, if_neg (by simpa using htag)]
    rw [hbody, List.drop_left]
    exact ⟨List.prefix_append _ _, gap, cr, rfl, fun c hc => hblank c (by simp [hc]), hcr⟩

instance : DecidablePred (key.TagLine kind) := fun _ => decidable_of_iff _ isTag_eq_true_iff

/-- How many lines of the text are tag lines of the key. -/
def tagCount (key : Key) (kind : TagKind) (text : List Char) : Nat :=
  (Text.lines text).countP fun line => key.TagLine kind line

/-- The text has exactly one start and one end tag line of the key. -/
def HasOne (key : Key) (text : List Char) : Prop := ∀ kind, key.tagCount kind text = 1

/-- The text has no tag line of the key. -/
def HasNone (key : Key) (text : List Char) : Prop := ∀ kind, key.tagCount kind text = 0

theorem tagCount_eq (key : Key) (kind : TagKind) (text : List Char) :
    key.tagCount kind text = (Text.lines text).countP (key.isTag kind) := by
  refine List.countP_congr fun line _ => ?_
  rw [decide_eq_true_eq, isTag_eq_true_iff]

theorem counts_lines (hkey : '\n' ∉ key.text.toList) (text : List Char) :
    key.counts (Text.lines text) = (key.tagCount .start text, key.tagCount .finish text) := by
  rw [counts_eq hkey, tagCount_eq, tagCount_eq]

theorem hasOne_iff {text : List Char} :
    key.HasOne text ↔ key.tagCount .start text = 1 ∧ key.tagCount .finish text = 1 := by
  constructor
  · exact fun h => ⟨h .start, h .finish⟩
  · rintro ⟨hstart, hfinish⟩ kind
    cases kind with
    | start => exact hstart
    | finish => exact hfinish

theorem counts_eq_one_iff (hkey : '\n' ∉ key.text.toList) {text : List Char} :
    key.counts (Text.lines text) = (1, 1) ↔ key.HasOne text := by
  rw [counts_lines hkey, Prod.mk.injEq, hasOne_iff]

/-! ### Regions of a text -/

/-- The first line of the text is a start tag line of the key, and its last line an end tag line. -/
structure Delimits (key : Key) (region : List Char) : Prop where
  first : ∃ line, (Text.lines region).head? = some line ∧ key.TagLine .start line
  last : ∃ line, (Text.lines region).getLast? = some line ∧ key.TagLine .finish line

/-- Between `front` and `back` the text has whole lines, from a start tag line of the key to an end tag line. -/
structure Cuts (key : Key) (text front region back : List Char) : Prop where
  text_eq : text = front ++ region ++ back
  isFront : IsFront front
  isBack : IsBack back
  delimits : key.Delimits region

/-- A region of a part is a region of the text, if the part is made of whole lines. -/
theorem Cuts.between {part head span tail front back : List Char} (h : key.Cuts part head span tail)
    (hfront : IsFront front) (hback : IsBack back) :
    key.Cuts (front ++ part ++ back) (front ++ head) span (tail ++ back) where
  text_eq := by
    rw [h.text_eq]
    simp only [List.append_assoc]
  isFront := hfront.append h.isFront
  isBack := h.isBack.append hback
  delimits := h.delimits

theorem delimits_iff {region : List Char} : key.Delimits region ↔
    ∃ s mid e, Text.lines region = s :: mid ++ [e] ∧ key.isTag .start s = true ∧ key.isTag .finish e = true := by
  constructor
  · rintro ⟨⟨s, hfirst, hs⟩, ⟨e, hlast, he⟩⟩
    rw [← isTag_eq_true_iff] at hs he
    obtain ⟨ls, hls⟩ := List.head?_eq_some_iff.1 hfirst
    rw [hls] at hlast ⊢
    -- one line alone is not a start and an end tag line
    rcases List.eq_nil_or_concat ls with rfl | ⟨mid, e', rfl⟩
    · obtain rfl : s = e := by simpa using hlast
      simp [isTag_of_ne hs (show TagKind.start ≠ .finish by decide)] at he
    · obtain rfl : e' = e := by simpa [List.getLast?_cons] using hlast
      exact ⟨s, mid, e', by simp, hs, he⟩
  · rintro ⟨s, mid, e, hlines, hs, he⟩
    rw [isTag_eq_true_iff] at hs he
    exact ⟨⟨s, by rw [hlines]; rfl, hs⟩, ⟨e, by rw [hlines, List.getLast?_concat], he⟩⟩

/-- What is cut out of a text with one start and one end tag line is its region, and all else is clean. -/
theorem Cuts.exists_frame (hkey : '\n' ∉ key.text.toList) {text front region back : List Char}
    (h : key.Cuts text front region back) (hone : key.HasOne text) :
    ∃ pre post, (∀ r, Text.lines (front ++ r ++ back) = pre ++ Text.lines r ++ post) ∧
      key.IsRegion (Text.lines region) ∧ key.Clean pre ∧ key.Clean post := by
  obtain ⟨pre, post, hlines⟩ := Text.exists_lines h.isFront h.isBack
  obtain ⟨s, mid, e, hregion, hs, he⟩ := delimits_iff.1 h.delimits
  have hcount : ∀ kind, pre.countP (key.isTag kind) + (s :: mid ++ [e]).countP (key.isTag kind) +
      post.countP (key.isTag kind) = 1 := by
    intro kind
    have := hone kind
    rwa [tagCount_eq, h.text_eq, hlines, hregion, List.countP_append, List.countP_append] at this
  have htagged : ∀ kind, 0 < (s :: mid ++ [e]).countP (key.isTag kind) := by
    intro kind
    refine List.countP_pos_iff.2 ?_
    cases kind with
    | start => exact ⟨s, by simp, hs⟩
    | finish => exact ⟨e, by simp, he⟩
  have hone' : key.counts (s :: mid ++ [e]) = (1, 1) := by
    have hstart := hcount .start
    have hfinish := hcount .finish
    have hstart' := htagged .start
    have hfinish' := htagged .finish
    rw [counts_eq hkey, Prod.mk.injEq]
    omega
  refine ⟨pre, post, hlines, ?_, clean_iff.2 fun kind => ?_, clean_iff.2 fun kind => ?_⟩
  · rw [hregion]
    exact isRegion_of_counts hkey hs he hone'
  · have := hcount kind
    have := htagged kind
    omega
  · have := hcount kind
    have := htagged kind
    omega

/-- A region can be cut out exactly if a start tag line stands in front of an end tag line. -/
theorem exists_cuts_iff {text : List Char} : (∃ front region back, key.Cuts text front region back) ↔
    ∃ pre s mid e post, Text.lines text = pre ++ (s :: mid ++ [e]) ++ post ∧ key.TagLine .start s ∧
      key.TagLine .finish e := by
  constructor
  · rintro ⟨front, region, back, h⟩
    obtain ⟨pre, post, hlines⟩ := Text.exists_lines h.isFront h.isBack
    obtain ⟨s, mid, e, hregion, hs, he⟩ := delimits_iff.1 h.delimits
    exact ⟨pre, s, mid, e, post, by rw [h.text_eq, hlines, hregion], isTag_eq_true_iff.1 hs, isTag_eq_true_iff.1 he⟩
  · rintro ⟨pre, s, mid, e, post, hlines, hs, he⟩
    have hne : s :: mid ++ [e] ≠ [] := by simp
    have hmem : ∀ l ∈ s :: mid ++ [e], '\n' ∉ l := by
      intro l hl
      have hl : l ∈ pre ++ (s :: mid ++ [e]) ++ post := List.mem_append_left _ (List.mem_append_right _ hl)
      exact Text.not_mem_of_mem_lines (hlines ▸ hl)
    obtain ⟨front, back, hfront, hback, htext⟩ := Text.exists_unlines_eq hne pre post
    refine ⟨front, Text.unlines (s :: mid ++ [e]), back, ?_, hfront, hback, delimits_iff.2 ?_⟩
    · rw [← htext, ← hlines, Text.unlines_lines]
    · exact ⟨s, mid, e, Text.lines_unlines hne hmem, isTag_eq_true_iff.2 hs, isTag_eq_true_iff.2 he⟩

/-- The end tag line of a text with one of each stands in front of the start tag line, unless a region can be cut
out. -/
theorem isCrossed_of_not_cuts (hkey : '\n' ∉ key.text.toList) {text : List Char} (hone : key.HasOne text)
    (h : ¬ ∃ front region back, key.Cuts text front region back) :
    ∃ pre crossed post, Text.lines text = pre ++ crossed ++ post ∧ key.IsCrossed crossed ∧ key.Clean pre ∧
      key.Clean post := by
  obtain ⟨pre, tagged, post, hlines, hpre, hpost, hregion | hcrossed⟩ :=
    isRegion_or_isCrossed hkey ((counts_eq_one_iff hkey).2 hone)
  · obtain ⟨s, mid, e, rfl, hs, he, -⟩ := hregion
    exact absurd (exists_cuts_iff.2 ⟨pre, s, mid, e, post, hlines, isTag_eq_true_iff.1 hs, isTag_eq_true_iff.1 he⟩) h
  · exact ⟨pre, tagged, post, hlines, hcrossed, hpre, hpost⟩

end Key

/-! ### The outcomes of an injection -/

section

variable {existing rendered : String} {key : Key}

/-- Only a rendering with one start and one end tag line is accepted. -/
theorem inject_eq_untagged_iff (hkey : '\n' ∉ key.text.toList) :
    inject existing key rendered = .error (.untagged key) ↔ ¬ key.HasOne (regionOf rendered) := by
  rw [inject_eq, ← Key.counts_eq_one_iff hkey]
  split
  · rename_i hcounts
    exact ⟨fun _ => hcounts, fun _ => rfl⟩
  · rename_i hcounts
    refine ⟨fun h => ?_, fun h => absurd h hcounts⟩
    -- the frame of a text is refused for its own tag lines only
    unfold Key.frame? at h
    split at h
    · simp [Except.map] at h
    · split at h <;> simp [Except.map] at h
    · simp [Except.map] at h

theorem inject_of_absent (hkey : '\n' ∉ key.text.toList) (hone : key.HasOne (regionOf rendered))
    (hnone : key.counts (Text.lines existing.toList) = (0, 0)) :
    inject existing key rendered = .ok (existing ++ "\n\n" ++ String.ofList (regionOf rendered)) :=
  inject_append ((Key.counts_eq_one_iff hkey).2 hone) hnone

/-- A region gives way to the rendering, and the text around it stays. -/
theorem inject_of_cuts (hkey : '\n' ∉ key.text.toList) (hone : key.HasOne (regionOf rendered))
    (htext : key.HasOne existing.toList) {front region back : List Char}
    (h : key.Cuts existing.toList front region back) :
    inject existing key rendered = .ok (String.ofList (front ++ regionOf rendered ++ back)) := by
  obtain ⟨pre, post, hlines, hregion, hpre, hpost⟩ := h.exists_frame hkey htext
  have hframe : key.frame? (Text.lines existing.toList) = .ok (pre, post) := by
    rw [h.text_eq, hlines]
    exact Key.frame?_append hkey hregion hpre hpost
  have hcounts := (Key.counts_eq_one_iff hkey).2 hone
  rw [inject_eq, if_neg (by simp [hcounts]), hframe, Except.map, Text.unlines_between hlines]

/-- An end tag line in front of the start tag line makes no region. -/
theorem inject_of_isCrossed (hkey : '\n' ∉ key.text.toList) (hone : key.HasOne (regionOf rendered))
    {pre crossed post : List Line} (htext : Text.lines existing.toList = pre ++ crossed ++ post)
    (hcrossed : key.IsCrossed crossed) (hpre : key.Clean pre) (hpost : key.Clean post) :
    inject existing key rendered = .error (.malformed key 1 1) := by
  have hcounts := (Key.counts_eq_one_iff hkey).2 hone
  rw [inject_eq, if_neg (by simp [hcounts]), htext, Key.frame?_of_isCrossed hkey hcrossed hpre hpost]
  rfl

/-- Any other numbers of tag lines are told in the refusal. -/
theorem inject_of_counts_ne (hkey : '\n' ∉ key.text.toList) (hone : key.HasOne (regionOf rendered))
    {starts ends : Nat} (hcounts : key.counts (Text.lines existing.toList) = (starts, ends))
    (hzero : ¬ (starts = 0 ∧ ends = 0)) (hne : ¬ (starts = 1 ∧ ends = 1)) :
    inject existing key rendered = .error (.malformed key starts ends) := by
  have hframe : key.frame? (Text.lines existing.toList) = .error (.malformed key starts ends) := by
    unfold Key.frame?
    rw [hcounts]
    split
    · simp_all
    · simp_all
    · simp_all
  have hone := (Key.counts_eq_one_iff hkey).2 hone
  rw [inject_eq, if_neg (by simp [hone]), hframe]
  rfl

end

/-- A rendering is refused unless what is left of it without the line feeds at its ends has exactly one start and one
end tag line.  Otherwise it goes behind a text without tag lines, after a blank line; it takes the place of the
region, and of nothing else, if the text has one start tag line and one end tag line behind that; and every other text
is refused with the numbers of its tag lines. -/
theorem inject_line_by_line (existing : String) {key : Key} (hkey : '\n' ∉ key.text.toList) (rendered : String) :
    let region := regionOf rendered
    let starts := key.tagCount .start existing.toList
    let ends := key.tagCount .finish existing.toList
    (inject existing key rendered = .error (.untagged key) ↔
      ¬ (key.tagCount .start region = 1 ∧ key.tagCount .finish region = 1)) ∧
    (key.tagCount .start region = 1 ∧ key.tagCount .finish region = 1 →
      (starts = 0 → ends = 0 → inject existing key rendered = .ok (existing ++ "\n\n" ++ String.ofList region)) ∧
      (starts = 1 → ends = 1 → ∀ front span back, key.Cuts existing.toList front span back →
        inject existing key rendered = .ok (String.ofList (front ++ region ++ back))) ∧
      (¬ (starts = 0 ∧ ends = 0) →
        ¬ (starts = 1 ∧ ends = 1 ∧ ∃ front span back, key.Cuts existing.toList front span back) →
        inject existing key rendered = .error (.malformed key starts ends))) := by
  intro region starts ends
  have hcounts : key.counts (Text.lines existing.toList) = (starts, ends) := Key.counts_lines hkey existing.toList
  refine ⟨(inject_eq_untagged_iff hkey).trans (not_congr Key.hasOne_iff), fun htagged => ⟨?_, ?_, ?_⟩⟩
  · intro hstarts hends
    exact inject_of_absent hkey (Key.hasOne_iff.2 htagged) (by rw [hcounts, hstarts, hends])
  · intro hstarts hends front span back hcuts
    exact inject_of_cuts hkey (Key.hasOne_iff.2 htagged) (Key.hasOne_iff.2 ⟨hstarts, hends⟩) hcuts
  · intro hzero hcrossed
    have hone : key.HasOne region := Key.hasOne_iff.2 htagged
    by_cases hpair : starts = 1 ∧ ends = 1
    · have hnone : ¬ ∃ front span back, key.Cuts existing.toList front span back :=
        fun h => hcrossed ⟨hpair.1, hpair.2, h⟩
      obtain ⟨pre, crossed, post, hlines, hline, hpre, hpost⟩ :=
        Key.isCrossed_of_not_cuts hkey (Key.hasOne_iff.2 hpair) hnone
      rw [hpair.1, hpair.2]
      exact inject_of_isCrossed hkey hone hlines hline hpre hpost
    · exact inject_of_counts_ne hkey hone hcounts hzero hpair

/-- A region whose tag lines are indented and end in blanks and carriage returns, between lines that end so too. -/
theorem region_between_crlf_lines :
    let existing := "a\r\n \t// CODE GENERATION Pod START \r\nold\n// CODE GENERATION Pod END\t\r\nb\r"
    let rendered := "\n// CODE GENERATION Pod START\nnew\n// CODE GENERATION Pod END\n"
    '\n' ∉ (Key.name "Pod").text.toList ∧
      inject existing (.name "Pod") rendered =
        .ok "a\r\n// CODE GENERATION Pod START\nnew\n// CODE GENERATION Pod END\nb\r" := by
  intro existing rendered
  have hkey : '\n' ∉ (Key.name "Pod").text.toList := by decide
  have hcuts : (Key.name "Pod").Cuts existing.toList "a\r\n".toList
      " \t// CODE GENERATION Pod START \r\nold\n// CODE GENERATION Pod END\t\r".toList "\nb\r".toList :=
    { text_eq := by decide +kernel
      isFront := Or.inr ⟨['a', '\r'], rfl⟩
      isBack := Or.inr ⟨['b', '\r'], rfl⟩
      delimits :=
        { first := ⟨" \t// CODE GENERATION Pod START \r".toList, by decide +kernel, by decide +kernel⟩
          last := ⟨"// CODE GENERATION Pod END\t\r".toList, by decide +kernel, by decide +kernel⟩ } }
  obtain ⟨-, h⟩ := inject_line_by_line existing hkey rendered
  obtain ⟨-, hreplaced, -⟩ := h ⟨by decide +kernel, by decide +kernel⟩
  have hinject := hreplaced (by decide +kernel) (by decide +kernel) _ _ _ hcuts
  exact ⟨hkey, hinject.trans (congrArg Except.ok (by decide +kernel))⟩

end Region

end ResourceWatch
