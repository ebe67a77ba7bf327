/-!
# Cancellation tokens

Tokens form a forest.  A token is its path: its own number in front of the path of its parent.  Cancelling a token
cancels all tokens below it and no other: a token is cancelled if a token on its way to the root has been fired.
-/

namespace ResourceWatch

abbrev Token := List Nat

/-- The numbers handed out and the tokens fired so far. -/
structure Tokens where
  next : Nat := 0
  fired : List Token := []
deriving DecidableEq, Repr

namespace Tokens

def isCancelled (ts : Tokens) (t : Token) : Bool := ts.fired.any fun f => f.isSuffixOf t

def cancel (ts : Tokens) (t : Token) : Tokens := { ts with fired := t :: ts.fired }

/-- A fresh child of the token. -/
def child (ts : Tokens) (parent : Token) : Token × Tokens := (ts.next :: parent, { ts with next := ts.next + 1 })

/-- A fresh token without a parent. -/
def root (ts : Tokens) : Token × Tokens := ts.child []

@[simp] theorem next_cancel (ts : Tokens) (t : Token) : (ts.cancel t).next = ts.next := rfl

@[simp] theorem isCancelled_cancel (ts : Tokens) (t u : Token) :
    (ts.cancel t).isCancelled u = (t.isSuffixOf u || ts.isCancelled u) := rfl

theorem isCancelled_cancel_self (ts : Tokens) (t : Token) : (ts.cancel t).isCancelled t = true := by
  rw [isCancelled_cancel, List.isSuffixOf_iff_suffix.2 (List.suffix_refl t), Bool.true_or]

@[simp] theorem isCancelled_child (ts : Tokens) (parent t : Token) :
    (ts.child parent).2.isCancelled t = ts.isCancelled t := rfl

end Tokens

end ResourceWatch
