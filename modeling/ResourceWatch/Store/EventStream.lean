import ResourceWatch.Event
import ResourceWatch.Queue
import ResourceWatch.Token

/-!
# Event streams

One subscription to a key: a bounded queue of events and, behind it, room for one parked event.  An event that finds
the queue full is parked and a flush task is started, which moves it into the queue once there is room.  While an
event is parked, a newer one takes its place, unless the parked one is a failure, which is never replaced.

The stream is attached while the store can still send to it.  A guard task waits for the subscription's token.
-/

namespace ResourceWatch

structure EventStream (V : Type) where
  key : String
  token : Token
  queue : Queue (Event V)
  parked : Option (Event V) := none
  /-- A flush task waits for room in the queue. -/
  flushing : Bool := false
  /-- The store holds the sending end. -/
  attached : Bool := true
  /-- The guard task waits for the token. -/
  guarding : Bool := true
deriving DecidableEq, Repr

namespace EventStream

variable {V : Type}

/-- Whether anyone can still put an event into the queue. -/
def isOpen (s : EventStream V) : Bool := s.attached || s.flushing

def receive (s : EventStream V) : Received (Event V) × EventStream V :=
  let (got, queue) := s.queue.receive s.isOpen
  (got, { s with queue })

/-- Lets go of the receiving end. -/
def drop (s : EventStream V) : EventStream V := { s with queue := s.queue.drop }

/-- The store lets go of the sending end. -/
def detach (s : EventStream V) : EventStream V := { s with attached := false }

/-- What stands in the parking place when a newer event comes. -/
def supersede (parked new : Event V) : Event V := if parked.kind.isError then parked else new

/-- The store sends an event; it lets go of a stream whose receiver is gone. -/
def offer (s : EventStream V) (e : Event V) : EventStream V :=
  match s.parked with
  | some p => { s with parked := some (supersede p e), attached := s.queue.receiving }
  | none =>
    if !s.queue.receiving then s.detach
    else if s.queue.hasRoom then { s with queue := s.queue.push e }
    else { s with parked := some e, flushing := true }

/-- The flush task goes on: it moves the parked event into the queue, or gives up if the receiver is gone. -/
def flush? (s : EventStream V) : Option (EventStream V) :=
  if !s.flushing then none
  else if !s.queue.receiving then some { s with flushing := false }
  else if !s.queue.hasRoom then none
  else
    match s.parked with
    | none => some { s with flushing := false }
    | some e => some { s with queue := s.queue.push e, parked := none, flushing := false }

/-- The events that are still to be received, in order. -/
def ahead (s : EventStream V) : List (Event V) := s.queue.items ++ s.parked.toList

theorem ahead_of_receive_item {s t : EventStream V} {e : Event V} (h : s.receive = (.item e, t)) :
    s.ahead = e :: t.ahead := by
  unfold receive at h
  simp only [Prod.mk.injEq] at h
  obtain ⟨h1, rfl⟩ := h
  have hq : s.queue.receive s.isOpen = (.item e, (s.queue.receive s.isOpen).2) := Prod.ext h1 rfl
  simp [ahead, Queue.items_of_receive_item hq]

/-- The flush task changes neither the events ahead nor their order, as long as there is a receiver. -/
theorem ahead_of_flush? {s t : EventStream V} (h : s.flush? = some t) : t.ahead = s.ahead := by
  unfold flush? at h
  split at h
  · simp at h
  · split at h
    · simp only [Option.some.injEq] at h
      subst h
      rfl
    · split at h
      · simp at h
      · split at h <;> simp only [Option.some.injEq] at h <;> subst h <;> simp_all [ahead]

end EventStream

end ResourceWatch
