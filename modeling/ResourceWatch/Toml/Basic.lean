import ResourceWatch.Dictionary
import ResourceWatch.Number.Double

/-!
# TOML values

The values of a TOML document.  A table remembers how it came about, because that decides what may still be added to
it; an array of tables is kept apart from an array that is written out.
-/

namespace ResourceWatch

/-- How a table came about. -/
inductive TableStyle where
  /-- Under a header of its own, or as the whole document. -/
  | headed
  /-- On the way to a deeper header. -/
  | implied
  /-- On the way of a dotted key. -/
  | dotted
  /-- Written out in braces. -/
  | inlined
deriving DecidableEq, Repr

inductive Toml where
  | string (text : String)
  | integer (n : Int)
  | float (d : Number.Double)
  | boolean (b : Bool)
  /-- A date, a time or both, in canonical form. -/
  | datetime (text : String)
  | array (items : List Toml)
  | table (style : TableStyle) (entries : List (String × Toml))
  /-- The tables under repeated headers, the latest last. -/
  | tables (items : List Toml)
deriving Repr

namespace Toml

abbrev Entries := Dictionary String Toml

/-! ### Adding to tables -/

/-- A change of a table, which may be refused. -/
abbrev Change := TableStyle → Entries → Option Entries

/-- Changes the table at the end of a path of keys.  Tables that are missing on the way are made; a repeated header is
passed through its latest table.  On the way of a dotted key no headed table may lie. -/
def descend (dotted : Bool) (change : Change) : List String → TableStyle → Entries → Option Entries
  | [], style, es => change style es
  | key :: path, _, es =>
    match es.lookup key with
    | none =>
      let style : TableStyle := if dotted then .dotted else .implied
      (descend dotted change path style []).map fun es' => es.put key (.table style es')
    | some (.table style inner) =>
      if style = .inlined ∨ (dotted ∧ style = .headed) then none
      else (descend dotted change path style inner).map fun es' => es.put key (.table style es')
    | some (.tables items) =>
      match items.getLast? with
      | some (.table style inner) => (descend dotted change path style inner).map fun es' =>
          es.put key (.tables (items.dropLast ++ [.table style es']))
      | _ => none
    | some _ => none

/-- Adds one key to a table, which must not have it. -/
def insertNew (key : String) (value : Toml) : Change := fun _ es =>
  if (es.lookup key).isSome then none else some (es ++ [(key, value)])

/-- Adds the value of a dotted key to a table: the tables before the last key may only have come about by dots. -/
def insertDotted (path : List String) (value : Toml) : Change := fun style es => do
  let key ← path.getLast?
  let way := path.dropLast
  let insert : Change := fun style es => if way ≠ [] ∧ style ≠ .dotted then none else insertNew key value style es
  descend true insert way style es

/-- Makes the table of a header: a new one, or one that deeper headers have only passed through so far. -/
def openTable (key : String) : Change := fun _ es =>
  match es.lookup key with
  | none => some (es.put key (.table .headed []))
  | some (.table .implied inner) => some (es.put key (.table .headed inner))
  | some _ => none

/-- Adds a table to those of a repeated header. -/
def appendTable (key : String) : Change := fun _ es =>
  match es.lookup key with
  | none => some (es.put key (.tables [.table .headed []]))
  | some (.tables items) => some (es.put key (.tables (items ++ [.table .headed []])))
  | some _ => none

end Toml

end ResourceWatch
