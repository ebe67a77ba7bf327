/-!
# White space

A character is white space if it stands in one of the ranges below, which cover the blanks, tabs, line ends and
fixed-width spaces of all scripts.
-/

namespace ResourceWatch.Text

def spaceRanges : List (Nat × Nat) :=
  [(0x9, 0xd), (0x20, 0x20), (0x85, 0x85), (0xa0, 0xa0), (0x1680, 0x1680), (0x2000, 0x200a), (0x2028, 0x2029),
    (0x202f, 0x202f), (0x205f, 0x205f), (0x3000, 0x3000)]

def isSpace (c : Char) : Bool := spaceRanges.any fun r => r.1 ≤ c.toNat && c.toNat ≤ r.2

/-- The text holds a character that is not white space. -/
def hasInk (s : String) : Bool := s.toList.any fun c => !isSpace c

end ResourceWatch.Text
