/-!
# Store events

What a store tells the subscribers of a key: a new value, a deletion, which carries the empty value, or a failure.
-/

namespace ResourceWatch

inductive EventKind (V : Type) where
  | put (value : V)
  | delete (empty : V)
  | error (text : String)
deriving DecidableEq, Repr

namespace EventKind

variable {V : Type}

def isError : EventKind V → Bool
  | .error _ => true
  | _ => false

/-- The value that a reply is made of. -/
def value? : EventKind V → Option V
  | .put v => some v
  | .delete v => some v
  | .error _ => none

end EventKind

/-- An event with its modification index and the key it concerns. -/
structure Event (V : Type) where
  id : Nat
  key : String
  kind : EventKind V
deriving DecidableEq, Repr

end ResourceWatch
