import ResourceWatch.Number.Literal
import ResourceWatch.Settings.ValueTree

/-!
# Keys as paths

A key such as `client.watch_queue_size` or `a[0].b` names a path: a name, then names behind dots and numbers in
brackets.  A name holds ASCII letters, digits, blanks, underscores and hyphens.  A key of any other form is a single
name.
-/

namespace ResourceWatch.ValueTree.Path

open Text (isLetter isDigit)

def isNameChar (c : Char) : Bool := isLetter c || isDigit c || c == ' ' || c == '_' || c == '-'

def isBlank (c : Char) : Bool := c == ' ' || c == '\t'

/-- A nonempty name and the rest. -/
def name? (cs : List Char) : Option (String × List Char) :=
  let name := cs.takeWhile isNameChar
  if name = [] then none else some (String.ofList name, cs.drop name.length)

/-- A whole number, perhaps below zero, of 64 bits; blanks may stand around it. -/
def number? (cs : List Char) : Option Int := do
  let body := ((cs.dropWhile isBlank).reverse.dropWhile isBlank).reverse
  let n ← match body with
    | '-' :: digits => (Number.readNatural? digits).map fun n => -(n : Int)
    | digits => (Number.readNatural? digits).map fun n => (n : Int)
  if Number.inSigned64 n then some n else none

/-- The steps behind the first name, at most `n`. -/
def steps? : Nat → List Char → Option Path
  | _, [] => some []
  | 0, _ => none
  | n + 1, '.' :: cs => do
    let (name, rest) ← name? cs
    return .key name :: (← steps? n rest)
  | n + 1, '[' :: cs => do
    let body := cs.takeWhile (· != ']')
    let i ← number? body
    match cs.drop body.length with
    | _ :: rest => return .index i :: (← steps? n rest)
    | [] => none
  | _, _ => none

def parse? (key : String) : Option Path := do
  let (name, rest) ← name? key.toList
  return .key name :: (← steps? rest.length rest)

/-- The path that a key names. -/
def ofKey (key : String) : Path := (parse? key).getD [.key key]

end ResourceWatch.ValueTree.Path
