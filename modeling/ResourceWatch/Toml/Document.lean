import ResourceWatch.Toml.Statement

/-!
# TOML documents

A document is the table that its statements build, one after the other.  A header names the table that the entries
behind it go to; before the first header they go to the document itself.  At the end, tables that stand for a date or
time give way to it.
-/

namespace ResourceWatch.Toml

/-- A document under construction. -/
structure Draft where
  /-- The keys of the table that entries go to. -/
  here : List String := []
  root : Entries := []

/-- Changes the table at the end of a path of headers. -/
def Draft.change? (d : Draft) (path : List String) (change : Change) : Option Entries :=
  descend false change path .headed d.root

def Draft.add? (d : Draft) : Statement → Option Draft
  | .entry path value => do return ⟨d.here, ← d.change? d.here (insertDotted path value)⟩
  | .header path => do return ⟨path, ← d.change? path.dropLast (openTable (← path.getLast?))⟩
  | .repeatedHeader path => do return ⟨path, ← d.change? path.dropLast (appendTable (← path.getLast?))⟩

/-! ### Dates and times in tables -/

/-- A table that starts with this key stands for a date or time, which the value of the key spells out. -/
def momentKey : String := "$__toml_private_datetime"

/-- The date or time that a table stands for, if it stands for one; none inside if that is not well written. -/
def moment? (es : Entries) : Option (Option Toml) :=
  match es.head? with
  | none => none
  | some (key, value) =>
    if key = momentKey then
      match value with
      | .string s => some ((datetime? s.toList).map .datetime)
      | _ => some none
    else none

mutual

/-- The value that a value stands for, with the dates and times of tables in place. -/
def settle? : Toml → Option Toml
  | .array items => (settleItems? items).map .array
  | .tables items => (settleItems? items).map .array
  | .table style es =>
    match moment? es with
    | some moment => moment
    | none => (settleEntries? es).map (.table style)
  | v => some v

def settleItems? : List Toml → Option (List Toml)
  | [] => some []
  | v :: vs => do return (← settle? v) :: (← settleItems? vs)

def settleEntries? : List (String × Toml) → Option (List (String × Toml))
  | [] => some []
  | e :: es => do return (← settleEntry? e) :: (← settleEntries? es)

def settleEntry? : String × Toml → Option (String × Toml)
  | (key, v) => do return (key, ← settle? v)

end

/-! ### Documents -/

/-- The entries of a document; none if the text is no TOML document. -/
def parse? (text : String) : Option Entries := do
  let draft ← (← statementsOf? text).foldlM Draft.add? {}
  match ← settle? (.table .headed draft.root) with
  | .table _ es => return es
  | _ => none

end ResourceWatch.Toml
