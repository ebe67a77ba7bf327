import ResourceWatch.Proofs.Region.Matching

/-!
# Tag lines

A key whose text is one line has tags of one line each, so that its tags can be counted and found line by line
(`countTag_singleton`, `cut?_of_pair`).  A line carries one tag at most (`tag_eq_of_isTag`), which tells its
kind and the text of its key (`eq_of_tag_eq`).
-/

namespace ResourceWatch.Region

open Text (Line)

/-! ### Tags of one line -/

theorem countTag_singleton (t : Line) (text : List Line) : countTag [t] text = text.countP (isTagLine t) := by
  unfold countTag
  induction text with
  | nil => rfl
  | cons l ls ih =>
    rw [countFrom, tagAtHead_singleton, List.countP_cons]
    simp only [List.length_singleton, Nat.sub_self]
    rw [ih]
    split <;> omega

theorem mem_of_behindLast? {tag text rest : List Line} (h : behindLast? tag text = some rest) {l : Line}
    (hl : l ∈ rest) : l ∈ text := by
  induction text with
  | nil => simp [behindLast?] at h
  | cons m text ih =>
    rw [behindLast?, Option.or_eq_some_iff] at h
    rcases h with h | ⟨-, h⟩
    · exact List.mem_cons_of_mem m (ih h)
    · split at h
      · rw [Option.some.injEq] at h
        exact List.mem_of_mem_drop (h ▸ hl)
      · simp at h

/-- What is cut off is made of lines of the text. -/
theorem mem_of_cut? {startTag endTag text pre post : List Line} (h : cut? startTag endTag text = some (pre, post))
    {l : Line} (hl : l ∈ pre ++ post) : l ∈ text := by
  induction text generalizing pre with
  | nil => simp [cut?] at h
  | cons m text ih =>
    rw [cut?] at h
    split at h
    · rename_i rest hrest
      obtain ⟨rfl, rfl⟩ : [] = pre ∧ rest = post := by simpa using h
      rw [behindRegion?] at hrest
      split at hrest
      · exact List.mem_of_mem_drop (mem_of_behindLast? hrest hl)
      · simp at hrest
    · obtain ⟨⟨pre', post'⟩, hcut, hframe⟩ := Option.map_eq_some_iff.1 h
      obtain ⟨rfl, rfl⟩ : m :: pre' = pre ∧ post' = post := by simpa using hframe
      rcases List.mem_cons.1 hl with rfl | hl
      · exact List.mem_cons_self
      · exact List.mem_cons_of_mem m (ih hcut hl)

section Cut

variable {s e l : Line} {as bs ls : List Line}

theorem behindLast?_of_clean (h : ∀ l ∈ ls, isTagLine e l = false) : behindLast? [e] ls = none := by
  induction ls with
  | nil => rfl
  | cons l ls ih =>
    rw [behindLast?, tagAtHead_singleton, h l (by simp), ih fun l hl => h l (by simp [hl])]
    rfl

theorem behindLast?_append (hl : isTagLine e l = true) (hbs : ∀ l ∈ bs, isTagLine e l = false) :
    behindLast? [e] (as ++ l :: bs) = some bs := by
  induction as with
  | nil =>
    rw [List.nil_append, behindLast?, behindLast?_of_clean hbs, tagAtHead_singleton, hl]
    rfl
  | cons a as ih => rw [List.cons_append, behindLast?, ih, Option.some_or]

theorem behindRegion?_of_isTagLine (hs : isTagLine s l = true) :
    behindRegion? [s] [e] (l :: ls) = behindLast? [e] ls := by
  rw [behindRegion?, tagAtHead_singleton, hs]
  rfl

/-- Lines without a start tag stay in front of a region. -/
theorem cut?_append (has : ∀ l ∈ as, isTagLine s l = false) (ls : List Line) :
    cut? [s] [e] (as ++ ls) = (cut? [s] [e] ls).map fun frame => (as ++ frame.1, frame.2) := by
  induction as with
  | nil => exact (Option.map_id' (x := cut? [s] [e] ls)).symm
  | cons a as ih =>
    rw [List.cons_append, cut?, behindRegion?, tagAtHead_singleton, has a (by simp),
      ih fun l hl => has l (by simp [hl])]
    simp [Option.map_map, Function.comp_def]

/-- The region goes from the first start tag to the last end tag. -/
theorem cut?_of_pair (hs : isTagLine s l = true) {l' : Line} (he : isTagLine e l' = true)
    (has : ∀ l ∈ as, isTagLine s l = false) (hbs : ∀ l ∈ bs, isTagLine e l = false) (mid : List Line) :
    cut? [s] [e] (as ++ l :: (mid ++ l' :: bs)) = some (as, bs) := by
  rw [cut?_append has, cut?, behindRegion?_of_isTagLine hs, behindLast?_append he hbs]
  simp

/-- There is no region if no end tag stands behind the only start tag. -/
theorem cut?_eq_none (hs : isTagLine s l = true) (has : ∀ l ∈ as, isTagLine s l = false)
    (hbs : ∀ l ∈ bs, isTagLine s l = false ∧ isTagLine e l = false) : cut? [s] [e] (as ++ l :: bs) = none := by
  have hrest := cut?_append (e := e) (fun l hl => (hbs l hl).1) []
  rw [List.append_nil] at hrest
  rw [cut?_append has, cut?, behindRegion?_of_isTagLine hs, behindLast?_of_clean fun l hl => (hbs l hl).2, hrest]
  rfl

end Cut

/-! ### The tags of a key -/

namespace Key

/-- The line is a tag line of the key. -/
def isTag (key : Key) (kind : TagKind) (line : Line) : Bool := isTagLine (key.tag kind).toList line

/-- None of the lines is a tag line of the key. -/
def Clean (key : Key) (ls : List Line) : Prop := ∀ l ∈ ls, ∀ kind, key.isTag kind l = false

variable {key : Key}

theorem Clean.append {as bs : List Line} (ha : key.Clean as) (hb : key.Clean bs) : key.Clean (as ++ bs) := by
  intro l hl
  rcases List.mem_append.1 hl with hl | hl
  · exact ha l hl
  · exact hb l hl

theorem toList_tag (key : Key) (kind : TagKind) :
    (key.tag kind).toList = tagMark.toList ++ ' ' :: (key.text.toList ++ ' ' :: kind.word.toList) := by
  simp [tag, String.toList_append]

theorem not_mem_tag (h : '\n' ∉ key.text.toList) (kind : TagKind) : '\n' ∉ (key.tag kind).toList := by
  have hmark : '\n' ∉ tagMark.toList := by decide
  have hword : '\n' ∉ kind.word.toList := by cases kind <;> decide
  rw [toList_tag]
  simp [h, hmark, hword]

theorem tagLines_eq (h : '\n' ∉ key.text.toList) (kind : TagKind) : key.tagLines kind = [(key.tag kind).toList] :=
  Text.lines_of_not_mem (not_mem_tag h kind)

theorem counts_eq (h : '\n' ∉ key.text.toList) (text : List Line) :
    key.counts text = (text.countP (key.isTag .start), text.countP (key.isTag .finish)) := by
  rw [counts, tagLines_eq h, tagLines_eq h, countTag_singleton, countTag_singleton]
  rfl

theorem dropWhile_tag (key : Key) (kind : TagKind) :
    (key.tag kind).toList.dropWhile isBlank = (key.tag kind).toList := by
  obtain ⟨body, hbody⟩ := key.exists_tag_eq kind
  rw [hbody, List.dropWhile_cons_of_neg (by decide)]

theorem isTag_tag (key : Key) (kind : TagKind) : key.isTag kind (key.tag kind).toList = true := by
  rw [isTag, isTagLine, dropWhile_tag, List.drop_length, Bool.and_eq_true, List.isPrefixOf_iff_prefix]
  exact ⟨List.prefix_refl _, rfl⟩

/-- A tag opens with a slash, so a line with anything else behind its indentation is no tag line. -/
theorem isTag_eq_false {l : Line} (h : (l.dropWhile isBlank).head? ≠ some '/') (kind : TagKind) :
    key.isTag kind l = false := by
  obtain ⟨body, hbody⟩ := key.exists_tag_eq kind
  have hprefix : ¬ (key.tag kind).toList <+: l.dropWhile isBlank := by
    rintro ⟨rest, hrest⟩
    rw [hbody] at hrest
    exact h (by rw [← hrest]; rfl)
  rw [isTag, isTagLine, Bool.and_eq_false_iff]
  exact Or.inl (by rwa [Bool.eq_false_iff, ne_eq, List.isPrefixOf_iff_prefix])

/-! ### What a tag line tells -/

/-- A character that may stand behind a tag on its line. -/
private def isTail (c : Char) : Bool := isBlank c || c == '\r'

private theorem isTail_of_isTagTail {cs : List Char} (h : isTagTail cs = true) : ∀ c ∈ cs, isTail c = true := by
  intro c hc
  rw [← List.takeWhile_append_dropWhile (p := isBlank) (l := cs), List.mem_append] at hc
  rcases hc with hc | hc
  · rw [isTail, List.all_eq_true.1 List.all_takeWhile c hc, Bool.true_or]
  · simp only [isTagTail, Bool.or_eq_true, beq_iff_eq] at h
    rcases h with h | h
    · simp [h] at hc
    · rw [h, List.mem_singleton] at hc
      rw [hc]
      rfl

/-- A tag ends in a letter, so it can be told from what stands behind it. -/
private theorem dropWhile_reverse_tag (key : Key) (kind : TagKind) {tail : List Char} (h : isTagTail tail = true) :
    ((key.tag kind).toList ++ tail).reverse.dropWhile isTail = (key.tag kind).toList.reverse := by
  have hlast : ∃ c cs, (key.tag kind).toList.reverse = c :: cs ∧ isTail c = false := by
    have hword : ∃ c cs, kind.word.toList = cs ++ [c] ∧ isTail c = false := by
      cases kind with
      | start => exact ⟨'T', ['S', 'T', 'A', 'R'], by decide, by decide⟩
      | finish => exact ⟨'D', ['E', 'N'], by decide, by decide⟩
    obtain ⟨c, cs, hword, hc⟩ := hword
    rw [toList_tag, hword]
    simp only [← List.cons_append, ← List.append_assoc, List.reverse_append, List.reverse_singleton,
      List.singleton_append]
    exact ⟨c, _, rfl, hc⟩
  obtain ⟨c, cs, hlast, hc⟩ := hlast
  have htail : ∀ d ∈ tail.reverse, isTail d = true := fun d hd => isTail_of_isTagTail h d (List.mem_reverse.1 hd)
  rw [List.reverse_append, List.dropWhile_append_of_pos htail, hlast, List.dropWhile_cons_of_neg (by simp [hc])]

variable {other : Key} {kind kind' : TagKind}

/-- A line carries one tag. -/
theorem tag_eq_of_isTag {l : Line} (h : key.isTag kind l = true) (h' : other.isTag kind' l = true) :
    key.tag kind = other.tag kind' := by
  have hcut : ∀ (k : Key) (w : TagKind), k.isTag w l = true →
      (l.dropWhile isBlank).reverse.dropWhile isTail = (k.tag w).toList.reverse := by
    intro k w hk
    rw [isTag, isTagLine, Bool.and_eq_true, List.isPrefixOf_iff_prefix] at hk
    obtain ⟨⟨tail, hbody⟩, htail⟩ := hk
    rw [← hbody, List.drop_left] at htail
    rw [← hbody, dropWhile_reverse_tag k w htail]
  rw [← String.toList_inj, ← List.reverse_inj, ← hcut key kind h, hcut other kind' h']

/-- A tag tells the text of its key and its kind. -/
theorem eq_of_tag_eq (h : key.tag kind = other.tag kind') : key.text = other.text ∧ kind = kind' := by
  rw [← String.toList_inj, toList_tag, toList_tag, List.append_cancel_left_eq, List.cons.injEq] at h
  have hword : (TagKind.start).word.toList = ['S', 'T', 'A', 'R', 'T'] ∧
      (TagKind.finish).word.toList = ['E', 'N', 'D'] := by decide
  have hlast := congrArg List.getLast? h.2
  have hkind : kind = kind' := by
    cases kind <;> cases kind' <;> simp [hword] at hlast ⊢
  rw [hkind, List.append_cancel_right_eq, String.toList_inj] at h
  exact ⟨h.2, hkind⟩

/-- A tag is no tag line of a key with another text. -/
theorem isTag_tag_of_ne (hne : other.text ≠ key.text) (kind kind' : TagKind) :
    other.isTag kind (key.tag kind').toList = false := by
  rw [Bool.eq_false_iff]
  intro h
  exact hne (eq_of_tag_eq (tag_eq_of_isTag h (key.isTag_tag kind'))).1

/-- No line is a tag line of both kinds. -/
theorem isTag_of_ne {l : Line} (h : key.isTag kind l = true) (hne : kind ≠ kind') : key.isTag kind' l = false := by
  rw [Bool.eq_false_iff]
  intro h'
  exact hne (eq_of_tag_eq (tag_eq_of_isTag h h')).2

end Key

end ResourceWatch.Region
