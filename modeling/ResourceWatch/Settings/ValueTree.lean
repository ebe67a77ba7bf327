import ResourceWatch.Dictionary
import ResourceWatch.Number.Double
import ResourceWatch.Text.Ident

/-!
# Value trees

Layers of settings are merged as trees of values that still know where they come from.  A table that is put over a
table goes into it entry by entry; anything else takes the place of what was there.  Keys do not distinguish capital
letters.
-/

namespace ResourceWatch

inductive Scalar where
  | unit
  | boolean (b : Bool)
  | integer (n : Int)
  | float (d : Number.Double)
  | text (s : String)
deriving DecidableEq, Repr

/-- A tree of values; a table that came about by merging has no origin. -/
inductive ValueTree where
  | scalar (origin : Option String) (value : Scalar)
  | array (origin : Option String) (items : List ValueTree)
  | table (origin : Option String) (entries : List (String × ValueTree))
deriving Repr

namespace ValueTree

def empty : ValueTree := .table none []

def unit : ValueTree := .scalar none .unit

/-- The entries of a table; nothing else has any. -/
def entries : ValueTree → Dictionary String ValueTree
  | .table _ es => es
  | _ => []

/-- The items of an array; nothing else has any. -/
def items : ValueTree → List ValueTree
  | .array _ xs => xs
  | _ => []

def entry? (t : ValueTree) (key : String) : Option ValueTree := t.entries.lookup (Text.lowerAscii key)

/-- Sets one entry; what is no table becomes one. -/
def withEntry (t : ValueTree) (key : String) (value : ValueTree) : ValueTree :=
  let es := Dictionary.put (Text.lowerAscii key) value t.entries
  match t with
  | .table origin _ => .table origin es
  | _ => .table none es

/-- Sets one item; what is no array becomes one, and an array that is too short is filled up. -/
def withItem (t : ValueTree) (i : Nat) (value : ValueTree) : ValueTree :=
  let xs := t.items
  let ys := (xs ++ List.replicate (i + 1 - xs.length) unit).set i value
  match t with
  | .array origin _ => .array origin ys
  | _ => .array none ys

/-! ### Merging -/

mutual

/-- Puts a value under a key of a tree. -/
def merge (key : String) : ValueTree → ValueTree → ValueTree
  | .table _ es, t => t.withEntry key (mergeAll es ((t.entry? key).getD empty))
  | .array origin xs, t => t.withEntry key (.array origin xs)
  | .scalar origin v, t => t.withEntry key (.scalar origin v)

/-- Puts entries into a tree, one after the other. -/
def mergeAll : List (String × ValueTree) → ValueTree → ValueTree
  | [], t => t
  | e :: es, t => mergeAll es (mergeOne e t)

def mergeOne : String × ValueTree → ValueTree → ValueTree
  | (key, value), t => merge key value t

end

/-! ### Values under a path -/

/-- One step down a tree: to an entry, or to an item, which a negative number counts from the end. -/
inductive Step where
  | key (name : String)
  | index (i : Int)
deriving DecidableEq, Repr

abbrev Path := List Step

def place (i : Int) (length : Nat) : Nat := if 0 ≤ i then i.toNat else length - i.natAbs

/-- Puts a value at the end of a path, and makes the tables and arrays on the way. -/
def mergeAt (value : ValueTree) : Path → ValueTree → ValueTree
  | [], _ => value
  | [.key name], t => merge name value t
  | .key name :: path, t => t.withEntry name (mergeAt value path ((t.entry? name).getD unit))
  | .index i :: path, t =>
    let i := place i t.items.length
    t.withItem i (mergeAt value path (t.items.getD i unit))

/-- A layer: values with the paths they belong to. -/
abbrev Layer := List (Path × ValueTree)

def mergeLayer (t : ValueTree) (layer : Layer) : ValueTree :=
  layer.foldl (fun t e => mergeAt e.2 e.1 t) t

end ValueTree

end ResourceWatch
