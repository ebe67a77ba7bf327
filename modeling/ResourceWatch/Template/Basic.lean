/-!
# Templates

A template is text with slots: a name between two pairs of braces, with blanks around it if wanted.  A backslash in
front of two opening braces makes text of them.
-/

namespace ResourceWatch

/-- Line and column of a character, both from one. -/
structure Position where
  line : Nat := 1
  column : Nat := 1
deriving DecidableEq, Repr

def Position.next (p : Position) (c : Char) : Position :=
  if c = '\n' then ⟨p.line + 1, 1⟩ else ⟨p.line, p.column + 1⟩

inductive Piece where
  | text (chars : List Char)
  | slot (name : List Char) (position : Position)
deriving DecidableEq, Repr

abbrev Template := List Piece

namespace Template

/-! ### Slots -/

def isSlotBlank (c : Char) : Bool := c == ' ' || c == '\t' || c == '\n' || c == '\r'

/-- Letters, digits, `_`, `-`, `$`, `:` and every character beyond ASCII may stand in a slot's name. -/
def isSlotChar (c : Char) : Bool :=
  c.isAlphanum || c == '_' || c == '-' || c == '$' || c == ':' || 0x80 ≤ c.toNat

/-- The word that parts the branches of a choice. -/
def branchWord : List Char := "else".toList

/-- A slot has a name, which does not start with the word that parts branches. -/
def isSlotName (name : List Char) : Bool := name != [] && !branchWord.isPrefixOf name

/-- Reads what follows the opening braces of a slot: its name and the rest behind the closing braces. -/
def slot? (cs : List Char) : Option (List Char × List Char) :=
  let body := cs.dropWhile isSlotBlank
  let name := body.takeWhile isSlotChar
  match (body.dropWhile isSlotChar).dropWhile isSlotBlank with
  | '\x7d' :: '\x7d' :: rest => if isSlotName name then some (name, rest) else none
  | _ => none

private theorem length_dropWhile_le {p : Char → Bool} (cs : List Char) : (cs.dropWhile p).length ≤ cs.length :=
  (List.dropWhile_sublist p).length_le

theorem length_rest_of_slot? {cs name rest : List Char} (h : slot? cs = some (name, rest)) :
    rest.length < cs.length := by
  unfold slot? at h
  simp only at h
  split at h
  · rename_i r hr
    split at h
    · have h1 := length_dropWhile_le (p := isSlotBlank) ((cs.dropWhile isSlotBlank).dropWhile isSlotChar)
      have h2 := length_dropWhile_le (p := isSlotChar) (cs.dropWhile isSlotBlank)
      have h3 := length_dropWhile_le (p := isSlotBlank) cs
      rw [hr] at h1
      simp only [Option.some.injEq, Prod.mk.injEq] at h
      obtain ⟨-, rfl⟩ := h
      simp only [List.length_cons] at h1
      omega
    · exact absurd h (by simp)
  · exact absurd h (by simp)

/-! ### Braces that are text -/

/-- Reads what follows a backslash: the text that stands for it and the rest, if two opening braces come next, perhaps
behind more backslashes.  A single backslash makes text of the braces, and of two more that follow; of several
backslashes one is dropped, and the braces stay what they are. -/
def escaped? (cs : List Char) : Option (List Char × List Char) :=
  let more := cs.takeWhile (· == '\\')
  match cs.dropWhile (· == '\\') with
  | '\x7b' :: '\x7b' :: rest =>
    if more ≠ [] then some (more, '\x7b' :: '\x7b' :: rest)
    else
      match rest with
      | '\x7b' :: '\x7b' :: rest => some (['\x7b', '\x7b', '\x7b', '\x7b'], rest)
      | _ => some (['\x7b', '\x7b'], rest)
  | _ => none

theorem length_rest_of_escaped? {cs text rest : List Char} (h : escaped? cs = some (text, rest)) :
    rest.length ≤ cs.length := by
  unfold escaped? at h
  simp only at h
  have hle := length_dropWhile_le (p := (· == '\\')) cs
  split at h
  · rename_i r hr
    rw [hr] at hle
    simp only [List.length_cons] at hle
    split at h
    · simp only [Option.some.injEq, Prod.mk.injEq] at h
      obtain ⟨-, rfl⟩ := h
      simpa using hle
    · split at h <;> simp only [Option.some.injEq, Prod.mk.injEq] at h <;> obtain ⟨-, rfl⟩ := h
      · simp only [List.length_cons] at hle
        omega
      · omega
  · exact absurd h (by simp)

/-! ### Reading -/

/-- Puts text in front of the first text piece. -/
def consText (text : List Char) : Template → Template
  | .text cs :: ps => .text (text ++ cs) :: ps
  | ps => .text text :: ps

/-- The pieces of a text that starts at the given position; none if two opening braces start no slot. -/
def parseFrom (p : Position) : List Char → Option Template
  | [] => some []
  | '\x7b' :: '\x7b' :: cs =>
    match h : slot? cs with
    | none => none
    | some (name, rest) =>
      have := length_rest_of_slot? h
      let behind := ('\x7b' :: '\x7b' :: cs.take (cs.length - rest.length)).foldl Position.next p
      (parseFrom behind rest).map (.slot name p :: ·)
  | '\\' :: cs =>
    match h : escaped? cs with
    | none => (parseFrom (p.next '\\') cs).map (consText ['\\'])
    | some (text, rest) =>
      have := length_rest_of_escaped? h
      let behind := ('\\' :: cs.take (cs.length - rest.length)).foldl Position.next p
      (parseFrom behind rest).map (consText text)
  | c :: cs => (parseFrom (p.next c) cs).map (consText [c])
termination_by cs => cs.length
decreasing_by all_goals simp only [List.length_cons]; omega

def parse? (s : String) : Option Template := parseFrom {} s.toList

end Template

end ResourceWatch
