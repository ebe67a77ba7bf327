import ResourceWatch.Dictionary

/-!
# Change caches

A change cache remembers one reply for each key and tells whether a new reply differs from it.  A reply that equals
the remembered one does not take its place.  Equality is that of the replies' `BEq` instance and need not be
reflexive.
-/

namespace ResourceWatch

/-- The remembered replies, at most one for each key. -/
structure ChangeCache (R : Type) where
  entries : Dictionary String R := []
deriving Repr

namespace ChangeCache

variable {R : Type}

def get? (c : ChangeCache R) (key : String) : Option R := c.entries.lookup key

def forget (c : ChangeCache R) (key : String) : ChangeCache R := ⟨c.entries.erase key⟩

def insert (c : ChangeCache R) (key : String) (reply : R) : ChangeCache R := ⟨c.entries.put key reply⟩

/-- Whether the reply is a change, and the cache that has seen it. -/
def observe [BEq R] (c : ChangeCache R) (key : String) (reply : R) : Bool × ChangeCache R :=
  match c.get? key with
  | none => (true, c.insert key reply)
  | some cached => if cached == reply then (false, c) else (true, c.insert key reply)

def size (c : ChangeCache R) : Nat := c.entries.length

def isEmpty (c : ChangeCache R) : Bool := c.entries.isEmpty

/-! ### The view `get?` after each operation -/

@[simp] theorem get?_forget (c : ChangeCache R) (key k : String) :
    (c.forget key).get? k = if k = key then none else c.get? k := by
  simp [forget, get?]

@[simp] theorem get?_insert (c : ChangeCache R) (key k : String) (r : R) :
    (c.insert key r).get? k = if k = key then some r else c.get? k := by
  simp [insert, get?]

/-- What equals the remembered reply is no change, and need not be remembered anew. -/
theorem get?_observe [BEq R] [LawfulBEq R] (c : ChangeCache R) (key k : String) (r : R) :
    (c.observe key r).2.get? k = if k = key then some r else c.get? k := by
  unfold observe
  cases hc : c.get? key with
  | none => exact c.get?_insert key k r
  | some cached =>
    dsimp only
    by_cases he : (cached == r) = true
    · rw [if_pos he]
      split
      · rename_i hk
        rw [hk, hc, eq_of_beq he]
      · rfl
    · rw [if_neg he]
      exact c.get?_insert key k r

theorem observe_eq_false_iff [BEq R] [LawfulBEq R] (c : ChangeCache R) (key : String) (r : R) :
    (c.observe key r).1 = false ↔ c.get? key = some r := by
  unfold observe
  cases hc : c.get? key with
  | none => simp
  | some cached =>
    by_cases he : cached = r
    · simp [he]
    · simp [he]

end ChangeCache

end ResourceWatch
