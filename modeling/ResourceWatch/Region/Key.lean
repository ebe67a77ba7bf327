import ResourceWatch.Text.Pattern

/-!
# Region keys and their tags

A region of a file is owned by a key: a name (client side) or a number (server side).  Its first line is a start tag
line and its last an end tag line.  In a tag the key's text is followed by a blank, so the tags of `1` are not those
of `12`.  Tags are counted and regions are found by patterns: a tag line may be indented and may have blanks and one
carriage return behind the tag.
-/

namespace ResourceWatch.Region

inductive Key where
  | name (text : String)
  | index (number : UInt32)
deriving DecidableEq, Repr

def Key.text : Key → String
  | .name text => text
  | .index number => number.toNat.repr

inductive TagKind where
  | start
  | finish
deriving DecidableEq, Repr

def TagKind.word : TagKind → String
  | .start => "START"
  | .finish => "END"

/-- The words that open every tag. -/
def tagMark : String := "// CODE GENERATION"

def Key.tag (key : Key) (kind : TagKind) : String :=
  tagMark ++ " " ++ key.text ++ " " ++ kind.word

def Key.startTag (key : Key) : String := key.tag .start

def Key.endTag (key : Key) : String := key.tag .finish

/-! ### Patterns of tags -/

/-- A tag line: the tag, with blanks around it and at most one carriage return at the end. -/
def tagLinePattern (tag : String) : String := "^[ \\t]*" ++ Pattern.escape tag ++ "[ \\t]*\\r?$"

def blanks : CharSet := .of [' ', '\t']

/-- What is read of the pattern of a tag line. -/
def tagLine (tag : List Char) : Pattern :=
  .start true :: .many blanks :: (Pattern.literal tag ++ [.many blanks, .optional (.of ['\r']), .finish true])

open Pattern (Flags Reader)

theorem readAll_tagLinePattern {flags : Flags} (h : flags.lines = true) (items : Pattern) (tag : String) :
    Reader.readAll flags ⟨items, .plain⟩ (tagLinePattern tag) =
      some ⟨(tagLine tag.toList).reverse ++ items, .plain⟩ := by
  obtain ⟨lines, dots⟩ := flags
  obtain rfl : lines = true := h
  have hhead : Reader.readAll ⟨true, dots⟩ ⟨items, .plain⟩ "^[ \\t]*" =
      some ⟨.many blanks :: .start true :: items, .plain⟩ := rfl
  have htail : ∀ items : Pattern, Reader.readAll ⟨true, dots⟩ ⟨items, .plain⟩ "[ \\t]*\\r?$" =
      some ⟨.finish true :: .optional (.of ['\r']) :: .many blanks :: items, .plain⟩ := fun _ => rfl
  rw [tagLinePattern, Reader.readAll_append, Reader.readAll_append, hhead, Option.bind_some, Reader.readAll_escape,
    Option.bind_some, htail]
  simp [tagLine]

theorem read?_tagLinePattern (tag : String) :
    Pattern.read? ("(?m)" ++ tagLinePattern tag) = some (tagLine tag.toList) := by
  have hlines : (Flags.mk true false).lines = true := rfl
  have hread := readAll_tagLinePattern hlines [] tag
  have hflags : Pattern.readFlags? ("(?m)" ++ tagLinePattern tag).toList =
      some (⟨true, false⟩, (tagLinePattern tag).toList) := by
    rw [String.toList_append]
    rfl
  rw [Pattern.read?, hflags]
  simp [hread, Reader.finish]

/-- A region: a start tag line, anything, and an end tag line. -/
def regionPattern (startTag endTag : String) : String :=
  "(?ms)" ++ tagLinePattern startTag ++ ".*" ++ tagLinePattern endTag

theorem read?_regionPattern (startTag endTag : String) :
    Pattern.read? (regionPattern startTag endTag) =
      some (tagLine startTag.toList ++ .many .any :: tagLine endTag.toList) := by
  have hlines : (Flags.mk true true).lines = true := rfl
  have hread := readAll_tagLinePattern hlines
  have hdots : ∀ items : Pattern, Reader.readAll ⟨true, true⟩ ⟨items, .plain⟩ ".*" =
      some ⟨.many .any :: items, .plain⟩ := fun _ => rfl
  have hflags : Pattern.readFlags? (regionPattern startTag endTag).toList =
      some (⟨true, true⟩, (tagLinePattern startTag ++ ".*" ++ tagLinePattern endTag).toList) := by
    rw [regionPattern, String.append_assoc, String.append_assoc, String.toList_append, ← String.append_assoc]
    rfl
  have hbody : Reader.readAll ⟨true, true⟩ {} (tagLinePattern startTag ++ ".*" ++ tagLinePattern endTag) =
      some ⟨(tagLine endTag.toList).reverse ++ .many .any :: ((tagLine startTag.toList).reverse ++ []), .plain⟩ := by
    rw [Reader.readAll_append, Reader.readAll_append, hread, Option.bind_some, hdots, Option.bind_some, hread]
  rw [Pattern.read?, hflags]
  simp only [Option.bind_eq_bind, Option.bind_some, String.ofList_toList, hbody, Reader.finish]
  simp

def Key.tagPattern (key : Key) (kind : TagKind) : Pattern :=
  (Pattern.read? ("(?m)" ++ tagLinePattern (key.tag kind))).get (by rw [read?_tagLinePattern]; rfl)

def Key.regionPattern (key : Key) : Pattern :=
  (Pattern.read? (Region.regionPattern key.startTag key.endTag)).get (by rw [read?_regionPattern]; rfl)

/-- How many start and end tags of the key the text has. -/
def Key.countTags (key : Key) (text : List Char) : Nat × Nat :=
  ((key.tagPattern .start).count text, (key.tagPattern .finish).count text)

theorem Key.tagPattern_eq (key : Key) (kind : TagKind) : key.tagPattern kind = tagLine (key.tag kind).toList := by
  simp only [tagPattern, read?_tagLinePattern, Option.get_some]

theorem Key.regionPattern_eq (key : Key) :
    key.regionPattern = tagLine (key.tag .start).toList ++ .many .any :: tagLine (key.tag .finish).toList := by
  simp only [regionPattern, read?_regionPattern, Option.get_some]
  rfl

end ResourceWatch.Region
