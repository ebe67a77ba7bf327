import ResourceWatch.Store.Memory
import ResourceWatch.Store.Scripted

/-!
# Backends

What a session needs of a store, for either kind: a read that may have to wait, a subscription, and the event streams.
-/

namespace ResourceWatch

inductive Backend (V : Type) where
  | memory (store : MemoryStore V)
  | scripted (store : ScriptedStore V)

namespace Backend

variable {V : Type}

def streams : Backend V → List (EventStream V)
  | .memory s => s.streams
  | .scripted s => s.streams

def modifyStream (b : Backend V) (id : Nat) (f : EventStream V → EventStream V) : Backend V :=
  match b with
  | .memory s => .memory { s with streams := s.streams.modify id f }
  | .scripted s => .scripted (s.modifyStream id f)

/-- Begins a read. -/
def call (b : Backend V) (key : String) : Backend V :=
  match b with
  | .memory s => .memory s
  | .scripted s => .scripted (s.note (.get key))

/-- The answer to a read; none while it has to wait. -/
def answer? (b : Backend V) (key : String) : Option (Except StoreFailure V) :=
  match b with
  | .memory s => some (s.get key)
  | .scripted s => if s.gateShut then none else some s.onGet

def watch (b : Backend V) (key : String) (token : Token) : Except SubscribeError Nat × Backend V :=
  match b with
  | .memory s =>
    match s.watch key token with
    | .error e => (.error e, .memory s)
    | .ok (id, s) => (.ok id, .memory s)
  | .scripted s =>
    let (r, s) := s.watch key token
    (r, .scripted s)

/-- Receives from an event stream without waiting. -/
def receive (b : Backend V) (id : Nat) : Received (Event V) × Backend V :=
  match b.streams[id]? with
  | none => (.ended, b)
  | some st => (st.receive.1, b.modifyStream id fun st => st.receive.2)

/-- Lets go of the receiving end of an event stream. -/
def dropReceiver (b : Backend V) (id : Nat) : Backend V := b.modifyStream id (·.drop)

/-- The flush task of a stream goes on. -/
def flush? (b : Backend V) (id : Nat) : Option (Backend V) := do
  let st ← b.streams[id]?
  let st' ← st.flush?
  return b.modifyStream id fun _ => st'

/-- The guard task of a stream goes on. -/
def release? (b : Backend V) (tokens : Tokens) (id : Nat) : Option (Backend V) :=
  match b with
  | .memory s => (s.release? tokens id).map .memory
  | .scripted _ => none

end Backend

end ResourceWatch
