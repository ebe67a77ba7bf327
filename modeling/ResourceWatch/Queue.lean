/-!
# Bounded queues between tasks

A queue holds at most `capacity` items in the order of sending.  A sender that finds no room waits outside; a receiver
takes what is queued before it is told that no sender is left.  Once the receiving end is gone nothing can be sent and
what was queued is lost.
-/

namespace ResourceWatch

structure Queue (α : Type) where
  capacity : Nat
  items : List α := []
  /-- Whether the receiving end is still held. -/
  receiving : Bool := true
deriving DecidableEq, Repr

/-- What a receiver that does not wait gets. -/
inductive Received (α : Type) where
  | item (a : α)
  /-- Nothing is there yet. -/
  | pending
  /-- Nothing is there and no sender is left. -/
  | ended
deriving DecidableEq, Repr

namespace Queue

variable {α : Type}

/-- The largest capacity a queue can have. -/
def maxCapacity : Nat := Nat.pow 2 61 - 1

/-- An empty queue; none if the capacity is zero or beyond the largest. -/
def make? (capacity : Nat) : Option (Queue α) :=
  if 0 < capacity ∧ capacity ≤ maxCapacity then some { capacity } else none

/-- Zero acts as one where a capacity is raised to one at least. -/
theorem make?_max {capacity : Nat} (h : capacity ≤ maxCapacity) :
    (make? (max capacity 1) : Option (Queue α)) = some { capacity := max capacity 1 } := by
  have hbound : 0 < max capacity 1 ∧ max capacity 1 ≤ maxCapacity :=
    ⟨Nat.le_max_right capacity 1, Nat.max_le.2 ⟨h, by decide⟩⟩
  rw [make?, if_pos hbound]

theorem eq_of_make? {capacity : Nat} {q : Queue α} (h : make? capacity = some q) :
    0 < capacity ∧ q = { capacity } := by
  unfold make? at h
  split at h
  · rename_i hcapacity
    exact ⟨hcapacity.1, (Option.some.inj h).symm⟩
  · simp at h

def hasRoom (q : Queue α) : Bool := q.items.length < q.capacity

def push (q : Queue α) (a : α) : Queue α := { q with items := q.items ++ [a] }

/-- Receives without waiting; `open_` tells whether a sender is left. -/
def receive (q : Queue α) (open_ : Bool) : Received α × Queue α :=
  match q.items with
  | a :: rest => (.item a, { q with items := rest })
  | [] => (if open_ then .pending else .ended, q)

/-- Lets go of the receiving end. -/
def drop (q : Queue α) : Queue α := { q with items := [], receiving := false }

@[simp] theorem items_push (q : Queue α) (a : α) : (q.push a).items = q.items ++ [a] := rfl

@[simp] theorem items_drop (q : Queue α) : q.drop.items = [] := rfl

@[simp] theorem capacity_push (q : Queue α) (a : α) : (q.push a).capacity = q.capacity := rfl

/-- What is received stood at the head. -/
theorem items_of_receive_item {q r : Queue α} {open_ : Bool} {a : α} (h : q.receive open_ = (.item a, r)) :
    q.items = a :: r.items := by
  unfold receive at h
  split at h
  · simp only [Prod.mk.injEq, Received.item.injEq] at h
    obtain ⟨rfl, rfl⟩ := h
    assumption
  · split at h <;> simp at h

end Queue

end ResourceWatch
