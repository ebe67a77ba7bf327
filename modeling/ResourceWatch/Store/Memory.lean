import ResourceWatch.Dictionary
import ResourceWatch.Failure
import ResourceWatch.Settings.Basic
import ResourceWatch.Store.EventStream

/-!
# The memory store

Values by key, a modification index, and the subscribers of each key in the order of subscription.  Every change takes
the next index and is offered to the key's subscribers without waiting for any of them.  The number of a subscriber is
the place of its event stream among all streams ever opened.

Every operation is one step, and none overlaps another.  Where callers run side by side this is more than locks grant:
a failure excludes changes of values, but no other failure, so two of them can reach a subscriber in the other order
than that of their indices; and nothing is held between the check that the store is open and the entry of a new
subscriber, so one may be entered behind a shutdown.
-/

namespace ResourceWatch

/-- Why a subscription failed. -/
inductive SubscribeError where
  | refused (failure : StoreFailure)
  /-- No queue can be that large. -/
  | tooLarge
deriving DecidableEq, Repr

/-- The subscribers of each key. -/
abbrev Registry := Dictionary String (List Nat)

namespace Registry

def get (r : Registry) (key : String) : List Nat := (r.lookup key).getD []

/-- Gives the key these subscribers; a key without subscribers is left out. -/
def set (r : Registry) (key : String) (ids : List Nat) : Registry :=
  if ids = [] then r.erase key else r.put key ids

@[simp] theorem get_set (r : Registry) (key k : String) (ids : List Nat) :
    (r.set key ids).get k = if k = key then ids else r.get k := by
  unfold set get
  split <;> by_cases h : k = key <;> simp_all

end Registry

structure MemoryStore (V : Type) where
  /-- The capacity of every event queue. -/
  capacity : Nat
  values : Dictionary String V := []
  revision : Nat := 0
  closed : Bool := false
  registry : Registry := []
  streams : List (EventStream V) := []
deriving Repr

namespace MemoryStore

variable {V : Type}

/-- An empty store; an event buffer of zero acts as one. -/
def make (eventBuffer : Nat) : MemoryStore V := { capacity := max eventBuffer 1 }

/-- An empty store with the event buffer of the settings. -/
def ofSettings (settings : WatchSettings) : MemoryStore V := make settings.eventBuffer

def subscribers (s : MemoryStore V) (key : String) : List Nat := s.registry.get key

def subscriberCount (s : MemoryStore V) (key : String) : Nat := (s.subscribers key).length

def isAttached (s : MemoryStore V) (id : Nat) : Bool := s.streams[id]?.any (·.attached)

/-- Changes the streams with these numbers. -/
def updateStreams (s : MemoryStore V) (ids : List Nat) (f : EventStream V → EventStream V) : MemoryStore V :=
  { s with streams := s.streams.mapIdx fun i st => if i ∈ ids then f st else st }

/-- Takes the next index, offers the event to the key's subscribers, and forgets those whose receivers are gone. -/
def publish (s : MemoryStore V) (key : String) (kind : EventKind V) : Nat × MemoryStore V :=
  let id := s.revision + 1
  let ids := s.subscribers key
  let s := s.updateStreams ids (·.offer ⟨id, key, kind⟩)
  (id, { s with revision := id, registry := s.registry.set key (ids.filter s.isAttached) })

def put (s : MemoryStore V) (key : String) (value : V) : Nat × MemoryStore V :=
  { s with values := s.values.put key value }.publish key (.put value)

/-- Removes the value and tells the subscribers; nothing happens to a key without a value. -/
def delete [Inhabited V] (s : MemoryStore V) (key : String) : Option Nat × MemoryStore V :=
  match s.values.lookup key with
  | none => (none, s)
  | some _ =>
    let (id, s) := { s with values := s.values.erase key }.publish key (.delete default)
    (some id, s)

/-- Tells the subscribers of a failure, which changes no value. -/
def fail (s : MemoryStore V) (key text : String) : Nat × MemoryStore V := s.publish key (.error text)

/-- Lets go of all subscribers of the key. -/
def close (s : MemoryStore V) (key : String) : MemoryStore V :=
  let s' := s.updateStreams (s.subscribers key) (·.detach)
  { s' with registry := s.registry.set key [] }

/-- Lets go of all subscribers, and of no value; reading and subscribing end. -/
def shutdown (s : MemoryStore V) : MemoryStore V :=
  let s' := s.updateStreams (s.registry.flatMap (·.2)) (·.detach)
  { s' with registry := [], closed := true }

def get (s : MemoryStore V) (key : String) : Except StoreFailure V :=
  if s.closed then .error .closed
  else
    match s.values.lookup key with
    | none => .error (.missing key)
    | some v => .ok v

/-- Opens an event stream on the key; its number.  The check and the entry are one step. -/
def watch (s : MemoryStore V) (key : String) (token : Token) : Except SubscribeError (Nat × MemoryStore V) :=
  if s.closed then .error (.refused .closed)
  else
    match Queue.make? s.capacity with
    | none => .error .tooLarge
    | some queue =>
      let id := s.streams.length
      .ok (id, { s with
        streams := s.streams ++ [{ key, token, queue }]
        registry := s.registry.set key (s.subscribers key ++ [id]) })

/-- The guard task of a stream goes on once the token is cancelled: it takes the stream off the registry. -/
def release? (s : MemoryStore V) (tokens : Tokens) (id : Nat) : Option (MemoryStore V) := do
  let st ← s.streams[id]?
  if st.guarding && tokens.isCancelled st.token then
    let s' := s.updateStreams [id] fun st => { st.detach with guarding := false }
    return { s' with registry := s.registry.set st.key ((s.subscribers st.key).filter (· != id)) }
  else none

end MemoryStore

end ResourceWatch
