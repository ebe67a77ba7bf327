import ResourceWatch.Region.Key
import ResourceWatch.Text.Line

/-!
# Tags, line by line

Where the tags of a key stand in a text, told by the lines of the text.  A tag without a line feed stands where a line
consists of indentation, the tag, blanks and at most one carriage return (`isTagLine`); a tag with line feeds goes
over several lines, all but the last of them exact.
-/

namespace ResourceWatch.Region

open Text (Line)

def isBlank (c : Char) : Bool := c == ' ' || c == '\t'

/-- What may stand behind a tag on its line: blanks and at most one carriage return. -/
def isTagTail (cs : List Char) : Bool :=
  let rest := cs.dropWhile isBlank
  rest == [] || rest == ['\r']

/-- The line holds the tag and nothing else but indentation and a tag tail. -/
def isTagLine (tag line : List Char) : Bool :=
  let body := line.dropWhile isBlank
  tag.isPrefixOf body && isTagTail (body.drop tag.length)

/-- The lines of a tag stand at the head of the text, the first one behind its indentation: for a tag with a line
feed, all lines but the last are exact. -/
def spansHead : List Line → List Line → Bool
  | [], _ => true
  | _, [] => false
  | [t], l :: _ => t.isPrefixOf l && isTagTail (l.drop t.length)
  | t :: ts, l :: ls => l == t && spansHead ts ls

/-- The tag, given as its lines, stands on the first lines of the text. -/
def tagAtHead (tag : List Line) : List Line → Bool
  | [] => false
  | l :: ls => spansHead tag (l.dropWhile isBlank :: ls)

/-- How often the tag stands in the text, reading on behind each one found; `skip` lines belong to the last one. -/
def countFrom (tag : List Line) (skip : Nat) : List Line → Nat
  | [] => 0
  | l :: ls =>
    match skip with
    | skip + 1 => countFrom tag skip ls
    | 0 => if tagAtHead tag (l :: ls) then 1 + countFrom tag (tag.length - 1) ls else countFrom tag 0 ls

def countTag (tag : List Line) (text : List Line) : Nat := countFrom tag 0 text

/-- The numbers of the lines on which the tag stands, in order. -/
def tagPositions (tag : List Line) (text : List Line) : List Nat :=
  (List.range text.length).filter fun i => tagAtHead tag (text.drop i)

/-- The lines behind the last tag of the text. -/
def behindLast? (tag : List Line) : List Line → Option (List Line)
  | [] => none
  | l :: ls =>
    (behindLast? tag ls).or (if tagAtHead tag (l :: ls) then some ((l :: ls).drop tag.length) else none)

/-- The lines behind the region that the text begins with: from a start tag to the last end tag. -/
def behindRegion? (startTag endTag text : List Line) : Option (List Line) :=
  if tagAtHead startTag text then behindLast? endTag (text.drop startTag.length) else none

/-- The lines in front of the region of a text and those behind it. -/
def cut? (startTag endTag : List Line) : List Line → Option (List Line × List Line)
  | [] => none
  | l :: ls =>
    match behindRegion? startTag endTag (l :: ls) with
    | some post => some ([], post)
    | none => (cut? startTag endTag ls).map fun frame => (l :: frame.1, frame.2)

def Key.tagLines (key : Key) (kind : TagKind) : List Line := Text.lines (key.tag kind).toList

/-- The numbers of start and end tag lines of the key. -/
def Key.counts (key : Key) (text : List Line) : Nat × Nat :=
  (countTag (key.tagLines .start) text, countTag (key.tagLines .finish) text)

/-- For a tag without line feeds, a tag stands where a tag line stands. -/
theorem tagAtHead_singleton (t l : Line) (ls : List Line) : tagAtHead [t] (l :: ls) = isTagLine t l := rfl

end ResourceWatch.Region
