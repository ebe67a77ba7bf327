import Mathlib
import ResourceWatch.Proofs.Region.Cuts
import ResourceWatch.Proofs.Rendering.Code

/-!
# Whose tag line a line is

A tag is found in a text at the lines that consist of it and of blanks (`Key.mem_tagPositions_iff`).  Such a line
tells the text of its key and its kind, so two keys share a tag line exactly if they have one text (`Key.apart_iff`).
The keys of renderings have different texts unless they are the same: a resource's name is no number, and numbers are
written in different ways.
-/

namespace ResourceWatch

/-! ### Texts of keys -/

/-- A name starts with a capital letter, and a number with a digit. -/
theorem Resource.name_ne_repr (r : Resource) (n : Nat) : r.name ≠ n.repr := by
  intro heq
  have hname := r.name_valid
  cases hs : r.name.toList with
  | nil => simp [isResourceName, hs, Text.isIdent] at hname
  | cons ch chs =>
    simp only [isResourceName, hs, Bool.and_eq_true] at hname
    have hdigit : ch.isDigit = true := by
      refine Nat.isDigit_of_mem_toDigits (b := 10) (n := n) (by decide) (by decide) ?_
      rw [← Nat.toList_repr, ← heq, hs]
      simp
    have hupper := Text.isUpper_iff.1 hname.2
    simp only [Char.isDigit, Bool.and_eq_true, decide_eq_true_eq, UInt32.le_iff_toNat_le] at hdigit
    have hnine : ('9' : Char).val.toNat = 57 := rfl
    have hval : ch.toNat = ch.val.toNat := rfl
    omega

theorem Region.Key.index_text_inj {i j : UInt32} (h : (Region.Key.index i).text = (Region.Key.index j).text) :
    i = j :=
  UInt32.toNat_inj.1 (Nat.repr_injective h)

/-! ### Lines that two keys share -/

namespace Region

open Text (Line)

namespace Key

variable {key other : Key} {kind kind' : TagKind}

theorem mem_tagPositions_iff (hkey : '\n' ∉ key.text.toList) {ls : List Line} {n : Nat} :
    n ∈ tagPositions (key.tagLines kind) ls ↔ ∃ line, ls[n]? = some line ∧ key.TagLine kind line := by
  rw [tagLines_eq hkey, tagPositions, List.mem_filter, List.mem_range]
  by_cases hn : n < ls.length
  · rw [List.drop_eq_getElem_cons hn, tagAtHead_singleton, List.getElem?_eq_getElem hn]
    simp [hn, ← isTag_eq_true_iff, isTag]
  · simp [hn]

/-- Both keys have a tag, of whatever kind, on the line of that number. -/
def ShareLine (key other : Key) (text : String) (n : Nat) : Prop :=
  ∃ kind kind', n ∈ tagPositions (key.tagLines kind) (Text.lines text.toList) ∧
    n ∈ tagPositions (other.tagLines kind') (Text.lines text.toList)

/-- No line of any text is a tag line of both keys. -/
def Apart (key other : Key) : Prop := ∀ text n, ¬ key.ShareLine other text n

/-- A tag line tells the text of its key and its kind. -/
theorem eq_of_mem_tagPositions (hkey : '\n' ∉ key.text.toList) (hother : '\n' ∉ other.text.toList) {ls : List Line}
    {n : Nat} (h : n ∈ tagPositions (key.tagLines kind) ls) (h' : n ∈ tagPositions (other.tagLines kind') ls) :
    key.text = other.text ∧ kind = kind' := by
  obtain ⟨line, hline, htag⟩ := (mem_tagPositions_iff hkey).1 h
  obtain ⟨line', hline', htag'⟩ := (mem_tagPositions_iff hother).1 h'
  obtain rfl : line = line' := Option.some.inj (hline.symm.trans hline')
  exact eq_of_tag_eq (tag_eq_of_isTag (isTag_eq_true_iff.2 htag) (isTag_eq_true_iff.2 htag'))

/-- The tag alone is a line that keys of one text share. -/
theorem shareLine_of_text_eq (hkey : '\n' ∉ key.text.toList) (htext : key.text = other.text) :
    key.ShareLine other key.startTag 0 := by
  have hlines : Text.lines key.startTag.toList = [key.startTag.toList] :=
    Text.lines_of_not_mem (not_mem_tag hkey .start)
  have htag : other.tagLines .start = key.tagLines .start := by rw [tagLines, tagLines, tag, tag, htext]
  have hmem : 0 ∈ tagPositions (key.tagLines .start) (Text.lines key.startTag.toList) := by
    rw [mem_tagPositions_iff hkey, hlines]
    exact ⟨_, rfl, isTag_eq_true_iff.1 (key.isTag_tag .start)⟩
  exact ⟨.start, .start, hmem, htag ▸ hmem⟩

theorem apart_iff (hkey : '\n' ∉ key.text.toList) (hother : '\n' ∉ other.text.toList) :
    key.Apart other ↔ key.text ≠ other.text := by
  constructor
  · exact fun h htext => h _ _ (shareLine_of_text_eq hkey htext)
  · rintro hne text n ⟨kind, kind', h, h'⟩
    exact hne (eq_of_mem_tagPositions hkey hother h h').1

-- a tag with a line feed can begin with the tag of another key
example : (Key.name "a").ShareLine (.name "a START\n// CODE GENERATION b")
    "// CODE GENERATION a START\n// CODE GENERATION b END" 0 := ⟨.start, .finish, by decide, by decide⟩

end Key

end Region

/-! ### Keys of renderings -/

namespace Rendering

open Region (Key TagKind tagPositions)

variable (r : Resource) (i : UInt32)

theorem lineFeed_not_mem_clientKey : '\n' ∉ (clientKey r).text.toList := oneLine_of_isIdent r.isIdent_name

theorem lineFeed_not_mem_serverKey : '\n' ∉ (serverKey i).text.toList := oneLine_repr i.toNat

theorem clientKey_text_ne_serverKey_text : (clientKey r).text ≠ (serverKey i).text := r.name_ne_repr i.toNat

/-- A line is a tag line of a key whose text is one line if it consists of blanks, the tag, blanks and at most one
carriage return.  It tells the text of the key and the kind of the tag, so it is never the start for one key and the
end for another.  Hence keys share a tag line only if their texts are the same: never the keys of a client and of a
server region, of resources with different names, or of different numbers. -/
theorem tag_lines_tell_keys :
    (∀ (key other : Key) (kind kind' : TagKind) (text : String) (n : Nat),
      '\n' ∉ key.text.toList → '\n' ∉ other.text.toList →
      (n ∈ tagPositions (key.tagLines kind) (Text.lines text.toList) ↔
        ∃ line, (Text.lines text.toList)[n]? = some line ∧ key.TagLine kind line) ∧
      (n ∈ tagPositions (key.tagLines kind) (Text.lines text.toList) →
        n ∈ tagPositions (other.tagLines kind') (Text.lines text.toList) → key.text = other.text ∧ kind = kind')) ∧
    (∀ r i, (clientKey r).Apart (serverKey i)) ∧
    (∀ r r', r.name ≠ r'.name → (clientKey r).Apart (clientKey r')) ∧
    ∀ i j, i ≠ j → (serverKey i).Apart (serverKey j) := by
  refine ⟨fun key other kind kind' text n hkey hother => ⟨Key.mem_tagPositions_iff hkey, ?_⟩, fun r i => ?_,
    fun r r' hne => ?_, fun i j hne => ?_⟩
  · exact Key.eq_of_mem_tagPositions hkey hother
  · rw [Key.apart_iff (lineFeed_not_mem_clientKey r) (lineFeed_not_mem_serverKey i)]
    exact clientKey_text_ne_serverKey_text r i
  · rw [Key.apart_iff (lineFeed_not_mem_clientKey r) (lineFeed_not_mem_clientKey r')]
    exact hne
  · rw [Key.apart_iff (lineFeed_not_mem_serverKey i) (lineFeed_not_mem_serverKey j)]
    exact fun htext => hne (Key.index_text_inj htext)

/-- An indented tag line of number one, read for a key with that number and for one with that name. -/
theorem tag_line_of_number_one :
    let text := "a\n \t// CODE GENERATION 1 START \t\r\nb"
    '\n' ∉ (Key.index 1).text.toList ∧ '\n' ∉ (Key.name "1").text.toList ∧
      1 ∈ tagPositions ((Key.index 1).tagLines .start) (Text.lines text.toList) ∧
      1 ∈ tagPositions ((Key.name "1").tagLines .start) (Text.lines text.toList) ∧
      (Key.index 1).text = (Key.name "1").text ∧
      (∃ r r' : Resource, r.name = "Pod" ∧ r'.name = "PodGroup" ∧ (clientKey r).Apart (clientKey r')) ∧
      (1 : UInt32) ≠ 12 ∧ (serverKey 1).Apart (serverKey 12) := by
  intro text
  have hkey : '\n' ∉ (Key.index 1).text.toList := by decide +kernel
  have hother : '\n' ∉ (Key.name "1").text.toList := by decide
  have hmem : 1 ∈ tagPositions ((Key.index 1).tagLines .start) (Text.lines text.toList) := by decide +kernel
  have hmem' : 1 ∈ tagPositions ((Key.name "1").tagLines .start) (Text.lines text.toList) := by decide +kernel
  obtain ⟨hone, -, hnames, hnumbers⟩ := tag_lines_tell_keys
  obtain ⟨htext, -⟩ := (hone _ _ .start .start text 1 hkey hother).2 hmem hmem'
  refine ⟨hkey, hother, hmem, hmem', htext, ⟨⟨"Pod", none, by decide, by simp⟩,
    ⟨"PodGroup", none, by decide, by simp⟩, rfl, rfl, hnames _ _ (by decide)⟩, by decide, hnumbers _ _ (by decide)⟩

end Rendering

end ResourceWatch
