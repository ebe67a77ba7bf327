import ResourceWatch.Proofs.Region.Cuts

/-!
# Regions of different keys

A text that holds the regions of two keys, one behind the other, is cut into five parts: the text in front of the
first region, the region, the text between them, the other region, and the text behind it (`pairText`).  Injection for
one key changes that key's part alone, so the other region stays where it is between the other parts, and two
injections lead to the same text in either order (`regions_are_independent`).
-/

namespace ResourceWatch.Region

open Text (Line IsFront IsBack)

namespace Key

variable {key : Key} {kind : TagKind}

/-! ### Counting tag lines part by part -/

theorem hasNone_of_clean {text : List Char} (h : key.Clean (Text.lines text)) : key.HasNone text := by
  intro kind
  rw [tagCount_eq, List.countP_eq_zero]
  intro line hline
  simp [h line hline kind]

theorem tagCount_nil (key : Key) (kind : TagKind) : key.tagCount kind [] = 0 :=
  hasNone_of_clean clean_nil_line kind

theorem tagCount_append (key : Key) (kind : TagKind) (a b : List Char) :
    key.tagCount kind (a ++ '\n' :: b) = key.tagCount kind a + key.tagCount kind b := by
  rw [tagCount_eq, tagCount_eq, tagCount_eq, Text.lines_append, List.countP_append]

/-- Whole lines around a text count apart from it. -/
theorem tagCount_between (key : Key) (kind : TagKind) {front back : List Char} (hfront : IsFront front)
    (hback : IsBack back) (r : List Char) :
    key.tagCount kind (front ++ r ++ back) =
      key.tagCount kind front + key.tagCount kind r + key.tagCount kind back := by
  have hleft : ∀ x, key.tagCount kind (front ++ x) = key.tagCount kind front + key.tagCount kind x := by
    intro x
    rcases hfront with rfl | ⟨f, rfl⟩
    · rw [tagCount_nil, List.nil_append, Nat.zero_add]
    · rw [List.append_assoc, List.singleton_append, tagCount_append, tagCount_append, tagCount_nil, Nat.add_zero]
  have hright : ∀ x, key.tagCount kind (x ++ back) = key.tagCount kind x + key.tagCount kind back := by
    intro x
    rcases hback with rfl | ⟨b, rfl⟩
    · rw [tagCount_nil, List.append_nil, Nat.add_zero]
    · have hback := key.tagCount_append kind [] b
      rw [tagCount_nil, Nat.zero_add, List.nil_append] at hback
      rw [tagCount_append, hback]
  rw [hright, hleft]

/-! ### Regions and renderings -/

theorem Delimits.tagCount_pos {region : List Char} (h : key.Delimits region) (kind : TagKind) :
    0 < key.tagCount kind region := by
  obtain ⟨s, mid, e, hlines, hs, he⟩ := delimits_iff.1 h
  rw [tagCount_eq, List.countP_pos_iff, hlines]
  cases kind with
  | start => exact ⟨s, by simp, hs⟩
  | finish => exact ⟨e, by simp, he⟩

theorem TagLine.ne_nil {line : Line} (h : key.TagLine kind line) : line ≠ [] := by
  obtain ⟨indent, gap, cr, rfl, -⟩ := h
  simp [toList_tag]

/-- A region does not begin with a line feed. -/
theorem Delimits.exists_cons {region : List Char} (h : key.Delimits region) :
    ∃ c cs, region = c :: cs ∧ c ≠ '\n' := by
  obtain ⟨line, hline, htag⟩ := h.first
  cases region with
  | nil =>
    have hnil : Text.lines [] = [[]] := rfl
    simp only [hnil, List.head?_cons, Option.some.injEq] at hline
    exact absurd hline.symm htag.ne_nil
  | cons c cs =>
    refine ⟨c, cs, rfl, ?_⟩
    rintro rfl
    have hcons : Text.lines ('\n' :: cs) = [] :: Text.lines cs := Text.lines_append [] cs
    simp only [hcons, List.head?_cons, Option.some.injEq] at hline
    exact htag.ne_nil hline.symm

/-- A region does not end with a line feed. -/
theorem Delimits.exists_concat {region : List Char} (h : key.Delimits region) :
    ∃ cs c, region = cs ++ [c] ∧ c ≠ '\n' := by
  obtain ⟨line, hline, htag⟩ := h.last
  rcases List.eq_nil_or_concat region with rfl | ⟨cs, c, rfl⟩
  · obtain ⟨c, cs, hregion, -⟩ := h.exists_cons
    exact absurd hregion (by simp)
  · refine ⟨cs, c, List.concat_eq_append, ?_⟩
    rintro rfl
    have hconcat : Text.lines (cs.concat '\n') = Text.lines cs ++ [[]] := by
      rw [List.concat_eq_append]
      exact Text.lines_append cs []
    simp only [hconcat, List.getLast?_concat, Option.some.injEq] at hline
    exact htag.ne_nil hline.symm

/-- A rendering that begins with its start tag line and ends with its end tag line goes into a file as it is. -/
theorem Delimits.regionOf_ofList {region : List Char} (h : key.Delimits region) :
    regionOf (String.ofList region) = region := by
  obtain ⟨c, cs, hcons, hc⟩ := h.exists_cons
  obtain ⟨ds, d, hconcat, hd⟩ := h.exists_concat
  have hfront : region.dropWhile (· == '\n') = region := by
    rw [hcons, List.dropWhile_cons_of_neg (by simpa using hc)]
  rw [regionOf, String.toList_ofList, Text.trimLineFeeds, hfront, hconcat, List.reverse_append,
    List.reverse_singleton, List.singleton_append, List.dropWhile_cons_of_neg (by simpa using hd), List.reverse_cons,
    List.reverse_reverse]

/-- The text has one start tag line of the key and one end tag line behind that; the region goes from the one to the
other. -/
structure Owns (key : Key) (text front region back : List Char) : Prop extends key.Cuts text front region back where
  hasOne : key.HasOne text

/-- The text begins with a start tag line of the key and ends with an end tag line, and has no further tag line of
either key. -/
structure Fits (key other : Key) (region : List Char) : Prop where
  delimits : key.Delimits region
  hasOne : key.HasOne region
  hasNone : other.HasNone region

/-- The bare tags of a key around lines without tags of either key. -/
theorem fits_tags {other : Key} (hkey : '\n' ∉ key.text.toList) (hne : other.text ≠ key.text) {body : List Line}
    (hbody : ∀ l ∈ body, '\n' ∉ l) (hclean : key.Clean body) (hclean' : other.Clean body) :
    key.Fits other (Text.unlines ((key.tag .start).toList :: body ++ [(key.tag .finish).toList])) := by
  have hlines : Text.lines (Text.unlines ((key.tag .start).toList :: body ++ [(key.tag .finish).toList])) =
      (key.tag .start).toList :: body ++ [(key.tag .finish).toList] := by
    refine Text.lines_unlines (by simp) fun l hl => ?_
    simp only [List.cons_append, List.mem_cons, List.mem_append, List.not_mem_nil, or_false] at hl
    rcases hl with rfl | hl | rfl
    · exact not_mem_tag hkey .start
    · exact hbody l hl
    · exact not_mem_tag hkey .finish
  have hstart := key.isTag_tag .start
  have hfinish := key.isTag_tag .finish
  refine ⟨delimits_iff.2 ⟨_, body, _, hlines, hstart, hfinish⟩, ?_, fun kind => ?_⟩
  · rw [← counts_eq_one_iff hkey, hlines]
    exact counts_of_isRegion hkey ⟨_, body, _, rfl, hstart, hfinish, hclean⟩
  · rw [tagCount_eq, hlines, List.countP_eq_zero]
    intro l hl
    simp only [List.cons_append, List.mem_cons, List.mem_append, List.not_mem_nil, or_false] at hl
    rcases hl with rfl | hl | rfl
    · simp [isTag_tag_of_ne hne]
    · simp [hclean' l hl]
    · simp [isTag_tag_of_ne hne]

end Key

/-! ### Two regions in one text -/

/-- Two regions, the text in front of them, between them and behind them. -/
def pairText (front region gap region' back : List Char) : List Char :=
  front ++ region ++ '\n' :: (gap ++ region' ++ back)

section

variable {front gap back : List Char}

theorem tagCount_pairText (hfront : IsFront front) (hgap : IsFront gap) (hback : IsBack back) (key : Key)
    (kind : TagKind) (region region' : List Char) :
    key.tagCount kind (pairText front region gap region' back) = key.tagCount kind front + key.tagCount kind region +
      (key.tagCount kind gap + key.tagCount kind region' + key.tagCount kind back) := by
  have hbehind := key.tagCount_append kind [] (gap ++ region' ++ back)
  rw [Key.tagCount_nil, Nat.zero_add, List.nil_append] at hbehind
  rw [pairText, key.tagCount_between kind hfront (Or.inr ⟨_, rfl⟩), hbehind, key.tagCount_between kind hgap hback]

/-- Either region can be cut out of the text. -/
theorem cuts_pairText {key other : Key} {region region' : List Char} (hfront : IsFront front) (hgap : IsFront gap)
    (hback : IsBack back) (hregion : key.Delimits region) (hregion' : other.Delimits region') :
    key.Cuts (pairText front region gap region' back) front region ('\n' :: (gap ++ region' ++ back)) ∧
      other.Cuts (pairText front region gap region' back) (front ++ region ++ '\n' :: gap) region' back := by
  have hmiddle : IsFront (front ++ region ++ '\n' :: gap) := by
    rcases hgap with rfl | ⟨g, rfl⟩
    · exact Or.inr ⟨front ++ region, rfl⟩
    · exact Or.inr ⟨front ++ region ++ '\n' :: g, by simp⟩
  exact ⟨⟨rfl, hfront, Or.inr ⟨_, rfl⟩, hregion⟩, ⟨by simp [pairText], hmiddle, hback, hregion'⟩⟩

/-- Of two regions that do not overlap, the one behind the other begins on a line behind it. -/
theorem exists_gap {key other : Key} {text span back front' span' back' : List Char}
    (h : key.Cuts text front span back) (h' : other.Cuts text front' span' back')
    (hle : front.length + span.length ≤ front'.length) :
    ∃ gap, IsFront gap ∧ front' = front ++ span ++ '\n' :: gap ∧ back = '\n' :: (gap ++ span' ++ back') := by
  obtain ⟨between, hfront'⟩ : front ++ span <+: front' := by
    have hbegins : front ++ span <+: text := ⟨back, h.text_eq.symm⟩
    have hbegins' : front' <+: text := ⟨span' ++ back', by rw [h'.text_eq, List.append_assoc]⟩
    exact List.prefix_of_prefix_length_le hbegins hbegins' (by simpa using hle)
  have hback : back = between ++ (span' ++ back') := by
    have htext := h.text_eq.symm.trans h'.text_eq
    rw [← hfront'] at htext
    simpa only [List.append_assoc, List.append_cancel_left_eq] using htext
  obtain ⟨c, cs, hspan', hc⟩ := h'.delimits.exists_cons
  -- a line feed ends the first region, and it does not belong to the second
  obtain ⟨gap, rfl⟩ : ∃ gap, between = '\n' :: gap := by
    rcases h.isBack with hnil | ⟨b, hb⟩
    · rw [hnil, hspan'] at hback
      simp at hback
    · rw [hb] at hback
      cases between with
      | nil =>
        rw [hspan', List.nil_append, List.cons_append, List.cons.injEq] at hback
        exact absurd hback.1.symm hc
      | cons d gap =>
        rw [List.cons_append, List.cons.injEq] at hback
        exact ⟨gap, by rw [hback.1]⟩
  refine ⟨gap, ?_, hfront'.symm, by rw [hback, List.cons_append, List.append_assoc]⟩
  rcases List.eq_nil_or_concat gap with rfl | ⟨g, d, rfl⟩
  · exact Or.inl rfl
  · rcases h'.isFront with hnil | ⟨f, hf⟩
    · simp [hnil] at hfront'
    · have hlast := congrArg List.getLast? (hfront'.trans hf)
      have hd : d = '\n' := by simpa [List.getLast?_append, List.getLast?_cons] using hlast
      exact Or.inr ⟨g, by rw [hd, List.concat_eq_append]⟩

variable {key other : Key} {region region' : List Char}

/-- Where the text around and between holds no tag line of either key, each key owns its region. -/
theorem owns_pairText (hfront : IsFront front) (hgap : IsFront gap) (hback : IsBack back)
    (hnone : ∀ part ∈ [front, gap, back], key.HasNone part ∧ other.HasNone part)
    (hregion : key.Fits other region) (hregion' : other.Fits key region') :
    key.Owns (pairText front region gap region' back) front region ('\n' :: (gap ++ region' ++ back)) ∧
      other.Owns (pairText front region gap region' back) (front ++ region ++ '\n' :: gap) region' back := by
  obtain ⟨hcuts, hcuts'⟩ := cuts_pairText hfront hgap hback hregion.delimits hregion'.delimits
  have hcount := fun (k : Key) (kind : TagKind) => tagCount_pairText hfront hgap hback k kind region region'
  obtain ⟨hfrontNone, hfrontNone'⟩ := hnone front (by simp)
  obtain ⟨hgapNone, hgapNone'⟩ := hnone gap (by simp)
  obtain ⟨hbackNone, hbackNone'⟩ := hnone back (by simp)
  refine ⟨⟨hcuts, fun kind => ?_⟩, ⟨hcuts', fun kind => ?_⟩⟩
  · rw [hcount, hfrontNone, hgapNone, hbackNone, hregion.hasOne, hregion'.hasNone]
  · rw [hcount, hfrontNone', hgapNone', hbackNone', hregion.hasNone, hregion'.hasOne]

/-- If the text has one start and one end tag line of either key, they are those of the two regions. -/
theorem hasNone_of_pairText (hfront : IsFront front) (hgap : IsFront gap) (hback : IsBack back)
    (hregion : key.Delimits region) (hregion' : other.Delimits region')
    (hone : key.HasOne (pairText front region gap region' back))
    (hone' : other.HasOne (pairText front region gap region' back)) :
    (∀ part ∈ [front, gap, back], key.HasNone part ∧ other.HasNone part) ∧ key.Fits other region ∧
      other.Fits key region' := by
  have hcount := fun (k : Key) (kind : TagKind) => tagCount_pairText hfront hgap hback k kind region region'
  -- each region has the tag lines of its key, so nothing is left for the other parts
  have hparts : ∀ kind, key.tagCount kind front = 0 ∧ key.tagCount kind region = 1 ∧ key.tagCount kind gap = 0 ∧
      key.tagCount kind region' = 0 ∧ key.tagCount kind back = 0 := by
    intro kind
    have hsum := (hcount key kind).symm.trans (hone kind)
    have hpos := hregion.tagCount_pos kind
    omega
  have hparts' : ∀ kind, other.tagCount kind front = 0 ∧ other.tagCount kind region = 0 ∧
      other.tagCount kind gap = 0 ∧ other.tagCount kind region' = 1 ∧ other.tagCount kind back = 0 := by
    intro kind
    have hsum := (hcount other kind).symm.trans (hone' kind)
    have hpos := hregion'.tagCount_pos kind
    omega
  refine ⟨fun part hpart => ?_, ?_, ?_⟩
  · simp only [List.mem_cons, List.not_mem_nil, or_false] at hpart
    rcases hpart with rfl | rfl | rfl
    · exact ⟨fun kind => (hparts kind).1, fun kind => (hparts' kind).1⟩
    · exact ⟨fun kind => (hparts kind).2.2.1, fun kind => (hparts' kind).2.2.1⟩
    · exact ⟨fun kind => (hparts kind).2.2.2.2, fun kind => (hparts' kind).2.2.2.2⟩
  · exact ⟨hregion, fun kind => (hparts kind).2.1, fun kind => (hparts' kind).2.1⟩
  · exact ⟨hregion', fun kind => (hparts' kind).2.2.2.1, fun kind => (hparts kind).2.2.2.1⟩

/-! ### Injections for both keys -/

variable {rendered rendered' : String}

theorem inject_pairText_left (hkey : '\n' ∉ key.text.toList)
    (h : key.Owns (pairText front region gap region' back) front region ('\n' :: (gap ++ region' ++ back)))
    (hone : key.HasOne (regionOf rendered)) :
    inject (String.ofList (pairText front region gap region' back)) key rendered =
      .ok (String.ofList (pairText front (regionOf rendered) gap region' back)) := by
  rw [← String.toList_ofList (l := pairText _ _ _ _ _)] at h
  exact inject_of_cuts hkey hone h.hasOne h.toCuts

theorem inject_pairText_right (hother : '\n' ∉ other.text.toList)
    (h : other.Owns (pairText front region gap region' back) (front ++ region ++ '\n' :: gap) region' back)
    (hone : other.HasOne (regionOf rendered')) :
    inject (String.ofList (pairText front region gap region' back)) other rendered' =
      .ok (String.ofList (pairText front region gap (regionOf rendered') back)) := by
  have htext : pairText front region gap (regionOf rendered') back =
      front ++ region ++ '\n' :: gap ++ regionOf rendered' ++ back := by
    simp [pairText]
  rw [htext]
  rw [← String.toList_ofList (l := pairText _ _ _ _ _)] at h
  exact inject_of_cuts hother hone h.hasOne h.toCuts

/-- Each injection changes the part of its key, whether the other one has been made before or not. -/
theorem inject_pairText (hkey : '\n' ∉ key.text.toList) (hother : '\n' ∉ other.text.toList)
    (hfront : IsFront front) (hgap : IsFront gap) (hback : IsBack back)
    (hregion : key.Delimits region) (hregion' : other.Delimits region')
    (hone : key.HasOne (pairText front region gap region' back))
    (hone' : other.HasOne (pairText front region gap region' back))
    (hr : key.Fits other (regionOf rendered)) (hr' : other.Fits key (regionOf rendered')) :
    let text := fun r r' => String.ofList (pairText front r gap r' back)
    let new := regionOf rendered
    let new' := regionOf rendered'
    (inject (text region region') key rendered = .ok (text new region') ∧
      inject (text region region') other rendered' = .ok (text region new')) ∧
    (inject (text new region') other rendered' = .ok (text new new') ∧
      inject (text region new') key rendered = .ok (text new new')) ∧
    other.Owns (text new region').toList (front ++ new ++ '\n' :: gap) region' back ∧
      key.Owns (text region new').toList front region ('\n' :: (gap ++ new' ++ back)) := by
  intro text new new'
  obtain ⟨hnone, hfits, hfits'⟩ := hasNone_of_pairText hfront hgap hback hregion hregion' hone hone'
  obtain ⟨hleft, hright⟩ := owns_pairText hfront hgap hback hnone hfits hfits'
  obtain ⟨-, hright'⟩ := owns_pairText hfront hgap hback hnone hr hfits'
  obtain ⟨hleft', -⟩ := owns_pairText hfront hgap hback hnone hfits hr'
  refine ⟨⟨?_, ?_⟩, ⟨?_, ?_⟩, ?_, ?_⟩
  · exact inject_pairText_left hkey hleft hr.hasOne
  · exact inject_pairText_right hother hright hr'.hasOne
  · exact inject_pairText_right hother hright' hr'.hasOne
  · exact inject_pairText_left hkey hleft' hr.hasOne
  · rw [String.toList_ofList]
    exact hright'
  · rw [String.toList_ofList]
    exact hleft'

end

/-- The regions of two keys that do not overlap are independent of each other: an injection for the one key succeeds
and changes nothing but its region, so the other key owns the same region as before, and injections for both keys lead
to the same text in either order.  Each rendering has to be a region of its key without tag lines of the other; line
feeds at its ends do not count. -/
theorem regions_are_independent {existing : String} {key other : Key} (hkey : '\n' ∉ key.text.toList)
    (hother : '\n' ∉ other.text.toList) {front span back front' span' back' : List Char}
    (h : key.Owns existing.toList front span back) (h' : other.Owns existing.toList front' span' back')
    (hdisjoint : front.length + span.length ≤ front'.length ∨ front'.length + span'.length ≤ front.length)
    {rendered rendered' : String} (hr : key.Fits other (regionOf rendered))
    (hr' : other.Fits key (regionOf rendered')) :
    ∃ updated updated' both,
      inject existing key rendered = .ok updated ∧
      updated = String.ofList (front ++ regionOf rendered ++ back) ∧
      (∃ front₁ back₁, other.Owns updated.toList front₁ span' back₁) ∧
      inject existing other rendered' = .ok updated' ∧
      inject updated other rendered' = .ok both ∧ inject updated' key rendered = .ok both := by
  rcases hdisjoint with hle | hle
  · obtain ⟨gap, hgap, rfl, rfl⟩ := exists_gap h.toCuts h'.toCuts hle
    have htext : existing = String.ofList (pairText front span gap span' back') := by
      rw [pairText, ← h.text_eq, String.ofList_toList]
    have hone := h.hasOne
    have hone' := h'.hasOne
    rw [htext, String.toList_ofList] at hone hone'
    obtain ⟨⟨hfirst, hfirst'⟩, ⟨hsecond, hsecond'⟩, howns, -⟩ := inject_pairText hkey hother h.isFront hgap h'.isBack
      h.delimits h'.delimits hone hone' hr hr'
    rw [htext]
    exact ⟨_, _, _, hfirst, rfl, ⟨_, _, howns⟩, hfirst', hsecond, hsecond'⟩
  · obtain ⟨gap, hgap, rfl, rfl⟩ := exists_gap h'.toCuts h.toCuts hle
    have htext : existing = String.ofList (pairText front' span' gap span back) := by
      rw [pairText, ← h'.text_eq, String.ofList_toList]
    have hone := h.hasOne
    have hone' := h'.hasOne
    rw [htext, String.toList_ofList] at hone hone'
    obtain ⟨⟨hfirst', hfirst⟩, ⟨hsecond', hsecond⟩, -, howns⟩ := inject_pairText hother hkey h'.isFront hgap h.isBack
      h'.delimits h.delimits hone' hone hr' hr
    rw [htext]
    exact ⟨_, _, _, hfirst, by simp [pairText], ⟨_, _, howns⟩, hfirst', hsecond, hsecond'⟩

/-- Region `1` behind region `12`: neither injection touches the other's region, and both lead to the same text. -/
theorem regions_one_and_twelve :
    let tags := fun (key : Key) (body : List Line) =>
      Text.unlines ((key.tag .start).toList :: body ++ [(key.tag .finish).toList])
    let existing := String.ofList (pairText ['a', '\n'] (tags (.index 12) []) [] (tags (.index 1) []) ['\n', 'b'])
    let rendered := String.ofList (tags (.index 1) [['y', '\r']])
    let rendered' := String.ofList (tags (.index 12) [['x']])
    ∃ updated updated' both,
      inject existing (.index 1) rendered = .ok updated ∧
      updated.toList = pairText ['a', '\n'] (tags (.index 12) []) [] rendered.toList ['\n', 'b'] ∧
      inject existing (.index 12) rendered' = .ok updated' ∧
      inject updated (.index 12) rendered' = .ok both ∧ inject updated' (.index 1) rendered = .ok both := by
  intro tags existing rendered rendered'
  have hkey : '\n' ∉ (Key.index 1).text.toList := by decide +kernel
  have hother : '\n' ∉ (Key.index 12).text.toList := by decide +kernel
  have hne : (Key.index 12).text ≠ (Key.index 1).text := by decide +kernel
  have hclean : ∀ key : Key, ∀ body ∈ [[], [['x']], [['y', '\r']]], key.Clean body := by
    have hhead : ∀ body ∈ [[], [['x']], [['y', '\r']]], ∀ l ∈ body, (l.dropWhile isBlank).head? ≠ some '/' := by
      decide
    exact fun key body hbody l hl => Key.isTag_eq_false (hhead body hbody l hl)
  have hfits : ∀ body ∈ [[], [['x']], [['y', '\r']]], (Key.index 1).Fits (.index 12) (tags (.index 1) body) ∧
      (Key.index 12).Fits (.index 1) (tags (.index 12) body) := by
    intro body hbody
    have hmem : ∀ body ∈ [[], [['x']], [['y', '\r']]], ∀ l ∈ body, '\n' ∉ l := by decide
    exact ⟨Key.fits_tags hkey hne (hmem body hbody) (hclean _ body hbody) (hclean _ body hbody),
      Key.fits_tags hother hne.symm (hmem body hbody) (hclean _ body hbody) (hclean _ body hbody)⟩
  have hnone : ∀ part ∈ [['a', '\n'], [], ['\n', 'b']], (Key.index 12).HasNone part ∧ (Key.index 1).HasNone part := by
    have hhead : ∀ part ∈ [['a', '\n'], [], ['\n', 'b']], ∀ l ∈ Text.lines part,
        (l.dropWhile isBlank).head? ≠ some '/' := by decide
    intro part hpart
    exact ⟨Key.hasNone_of_clean fun l hl => Key.isTag_eq_false (hhead part hpart l hl),
      Key.hasNone_of_clean fun l hl => Key.isTag_eq_false (hhead part hpart l hl)⟩
  obtain ⟨howns', howns⟩ := owns_pairText (Or.inr ⟨['a'], rfl⟩) (Or.inl rfl) (Or.inr ⟨['b'], rfl⟩) hnone
    (hfits [] (by simp)).2 (hfits [] (by simp)).1
  have hr := (hfits [['y', '\r']] (by simp)).1
  have hr' := (hfits [['x']] (by simp)).2
  have hregion : regionOf rendered = tags (.index 1) [['y', '\r']] := hr.delimits.regionOf_ofList
  have hregion' : regionOf rendered' = tags (.index 12) [['x']] := hr'.delimits.regionOf_ofList
  have hdisjoint : ['a', '\n'].length + (tags (.index 12) []).length ≤
      (['a', '\n'] ++ tags (.index 12) [] ++ '\n' :: []).length := by
    simp only [List.length_append, List.length_cons, List.length_nil]
    omega
  rw [← String.toList_ofList (l := pairText _ _ _ _ _)] at howns howns'
  rw [← hregion] at hr
  rw [← hregion'] at hr'
  obtain ⟨updated, updated', both, hupdated, htext, -, hupdated', hboth, hboth'⟩ :=
    regions_are_independent hkey hother howns howns' (Or.inr hdisjoint) hr hr'
  refine ⟨updated, updated', both, hupdated, ?_, hupdated', hboth, hboth'⟩
  rw [htext, hregion, String.toList_ofList, String.toList_ofList]
  simp [pairText]

end ResourceWatch.Region
