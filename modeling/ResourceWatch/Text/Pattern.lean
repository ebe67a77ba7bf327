/-!
# Patterns

A pattern is a list of items that have to be found one behind the other: an edge of a line or of the text, one
character of a set, or any number of them.  It is read from its own text (`Pattern.read?`), of which the following has
a meaning:

* `(?ms)` in front: with `m` the edges are those of lines, with `s` a dot stands for a line feed too;
* `^` and `$`, a place behind which and in front of which a line or the text stands;
* a dot, for any character, and brackets around the characters that may stand there;
* a star and a question mark behind one of these, for any number of characters and for at most one;
* a backslash in front of a character that has a meaning, and in `\t`, `\r` and `\n`.

Every other character stands for itself.  A text with groups, alternatives, other numbers or anything else in brackets
is not read.

Of the ways in which a pattern can be found at a place the first one counts, where a star tries more characters before
fewer (`CharSet.greedy`) and a question mark one before none; and of all places the first one counts
(`Pattern.find?`).
-/

namespace ResourceWatch

inductive CharSet where
  | any
  | inLine
  | of (chars : List Char)
deriving DecidableEq, Repr

def CharSet.has : CharSet → Char → Bool
  | .any, _ => true
  | .inLine, c => c != '\n'
  | .of chars, c => chars.contains c

inductive PatternItem where
  | start (ofLine : Bool)
  | finish (ofLine : Bool)
  | one (set : CharSet)
  | many (set : CharSet)
  | optional (set : CharSet)
deriving DecidableEq, Repr

abbrev Pattern := List PatternItem

/-! ### Matching -/

/-- What is still to be found from a place of a text on, told by the character in front of the place and by what
stands behind it. -/
abbrev Matcher (α : Type) := Option Char → List Char → Option α

/-- The text ends at a place with this character next to it, or a line does. -/
def isEdge (ofLine : Bool) (next : Option Char) : Bool := next.all fun c => ofLine && c == '\n'

variable {α : Type}

/-- As many characters of the set as leave the rest to be found. -/
def CharSet.greedy (set : CharSet) (k : Matcher α) (before : Option Char) : List Char → Option α
  | [] => k before []
  | c :: cs => if set.has c then (set.greedy k (some c) cs).or (k before (c :: cs)) else k before (c :: cs)

/-- One character of the set. -/
def CharSet.single (set : CharSet) (k : Matcher α) : List Char → Option α
  | [] => none
  | c :: cs => if set.has c then k (some c) cs else none

def PatternItem.run (item : PatternItem) (k : Matcher α) : Matcher α := fun before cs =>
  match item with
  | .start ofLine => if isEdge ofLine before then k before cs else none
  | .finish ofLine => if isEdge ofLine cs.head? then k before cs else none
  | .one set => set.single k cs
  | .many set => set.greedy k before cs
  | .optional set => (set.single k cs).or (k before cs)

namespace Pattern

/-- The pattern, and then the rest. -/
def run (p : Pattern) (k : Matcher α) : Matcher α := p.foldr PatternItem.run k

/-- What stands behind the pattern, if it is found at this place. -/
def matchAt? (p : Pattern) : Matcher (List Char) := p.run fun _ behind => some behind

/-- What stands in front of the first place where the pattern is found, and what stands behind it there. -/
def findFrom (p : Pattern) (before : Option Char) (cs : List Char) : Option (List Char × List Char) :=
  match p.matchAt? before cs with
  | some behind => some ([], behind)
  | none =>
    match cs with
    | [] => none
    | c :: cs => (p.findFrom (some c) cs).map fun found => (c :: found.1, found.2)

def find? (p : Pattern) (text : List Char) : Option (List Char × List Char) := p.findFrom none text

/-- How often the pattern is found, each time behind the one before; `skip` characters belong to the last one.  This
is for patterns that take at least one character. -/
def countFrom (p : Pattern) (before : Option Char) (skip : Nat) : List Char → Nat
  | [] => 0
  | c :: cs =>
    match skip with
    | skip + 1 => p.countFrom (some c) skip cs
    | 0 =>
      match p.matchAt? before (c :: cs) with
      | some behind => 1 + p.countFrom (some c) (cs.length - behind.length) cs
      | none => p.countFrom (some c) 0 cs

def count (p : Pattern) (text : List Char) : Nat := p.countFrom none 0 text

theorem run_append (p q : Pattern) (k : Matcher α) : (p ++ q).run k = p.run (q.run k) :=
  List.foldr_append

/-! ### Reading -/

structure Flags where
  lines : Bool := false
  dots : Bool := false

/-- The flags in front of a pattern, and what stands behind them. -/
def readFlags? : List Char → Option (Flags × List Char)
  | '(' :: '?' :: cs =>
    let letters := cs.takeWhile (· != ')')
    if letters.all ['m', 's'].contains then
      some (⟨letters.contains 'm', letters.contains 's'⟩, (cs.drop letters.length).drop 1)
    else none
  | cs => some ({}, cs)

/-- The characters that have a meaning, here or elsewhere in the language of patterns. -/
def special : List Char :=
  ['\\', '.', '+', '*', '?', '(', ')', '|', '[', ']', '\x7b', '\x7d', '^', '$', '#', '&', '-', '~']

/-- The text of a pattern that is found where `text` stands. -/
def escape (text : String) : String :=
  String.ofList (text.toList.flatMap fun c => if special.contains c then ['\\', c] else [c])

/-- The character that is meant behind a backslash. -/
def unescape? (c : Char) : Option Char :=
  if special.contains c then some c
  else if c = 't' then some '\t'
  else if c = 'r' then some '\r'
  else if c = 'n' then some '\n'
  else none

/-- Where the reader is: between items, behind a backslash, in brackets, or behind a backslash in brackets. -/
inductive Mode where
  | plain
  | escaped
  | set (chars : List Char)
  | setEscaped (chars : List Char)

/-- What is read of a pattern, the last item first. -/
structure Reader where
  items : Pattern := []
  mode : Mode := .plain

namespace Reader

def push (r : Reader) (item : PatternItem) : Option Reader := some ⟨item :: r.items, .plain⟩

/-- The last item may stand there in another number. -/
def repeated (r : Reader) (item : CharSet → PatternItem) : Option Reader :=
  match r.items with
  | .one set :: items => some ⟨item set :: items, .plain⟩
  | _ => none

/-- One character further. -/
def step (flags : Flags) (r : Reader) (c : Char) : Option Reader :=
  match r.mode with
  | .plain =>
    if c = '\\' then some ⟨r.items, .escaped⟩
    else if c = '[' then some ⟨r.items, .set []⟩
    else if c = '^' then r.push (.start flags.lines)
    else if c = '$' then r.push (.finish flags.lines)
    else if c = '.' then r.push (.one (if flags.dots then .any else .inLine))
    else if c = '*' then r.repeated .many
    else if c = '?' then r.repeated .optional
    else if ['(', ')', '|', '+', '\x7b'].contains c then none
    else r.push (.one (.of [c]))
  | .escaped => (unescape? c).bind fun c => r.push (.one (.of [c]))
  | .set chars =>
    if c = '\\' then some ⟨r.items, .setEscaped chars⟩
    else if c = ']' then if chars.isEmpty then none else r.push (.one (.of chars))
    else if ['[', '^', '-', '&', '~'].contains c then none
    else some ⟨r.items, .set (chars ++ [c])⟩
  | .setEscaped chars => (unescape? c).map fun c => ⟨r.items, .set (chars ++ [c])⟩

def readAll (flags : Flags) (r : Reader) (text : String) : Option Reader := text.toList.foldlM (step flags) r

def finish : Reader → Option Pattern
  | ⟨items, .plain⟩ => some items.reverse
  | _ => none

theorem readAll_append (flags : Flags) (r : Reader) (a b : String) :
    r.readAll flags (a ++ b) = (r.readAll flags a).bind fun r => r.readAll flags b := by
  rw [readAll, String.toList_append, List.foldlM_append]
  rfl

end Reader

def read? (text : String) : Option Pattern := do
  let (flags, body) ← readFlags? text.toList
  let r ← Reader.readAll flags {} (String.ofList body)
  r.finish

/-- The characters of the text, one behind the other. -/
def literal (text : List Char) : Pattern := text.map fun c => .one (.of [c])

private theorem foldlM_escape (flags : Flags) (items : Pattern) (c : Char) :
    (if special.contains c then ['\\', c] else [c]).foldlM (Reader.step flags) ⟨items, .plain⟩ =
      some ⟨.one (.of [c]) :: items, .plain⟩ := by
  by_cases hc : special.contains c = true
  · have hmeant : unescape? c = some c := if_pos hc
    rw [if_pos hc, List.foldlM_cons]
    change (unescape? c).bind (fun c => some (Reader.mk (.one (.of [c]) :: items) .plain)) >>= pure = _
    rw [hmeant]
    rfl
  · rw [if_neg hc]
    simp only [special, List.contains_eq_mem, List.mem_cons, List.not_mem_nil, or_false, decide_eq_true_eq,
      not_or] at hc
    simp [Reader.step, Reader.push, hc]

/-- An escaped text is read as its characters. -/
theorem Reader.readAll_escape (flags : Flags) (items : Pattern) (text : String) :
    Reader.readAll flags ⟨items, .plain⟩ (escape text) =
      some ⟨(literal text.toList).reverse ++ items, .plain⟩ := by
  rw [readAll, escape, String.toList_ofList, literal]
  induction text.toList generalizing items with
  | nil => rfl
  | cons c cs ih =>
    rw [List.flatMap_cons, List.foldlM_append, foldlM_escape, Option.bind_eq_bind, Option.bind_some, ih]
    simp

end Pattern

end ResourceWatch
