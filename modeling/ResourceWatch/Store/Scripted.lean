import ResourceWatch.Store.Memory

/-!
# The scripted store

A store that answers as it is told: any answer to a read, behind a gate that can be shut, any answer to a
subscription, and any events.  It takes down the calls made to it.
-/

namespace ResourceWatch

inductive StoreCall where
  | get (key : String)
  | watch (key : String)
deriving DecidableEq, Repr

inductive Sent where
  | sent
  | full
  /-- The receiving end is gone. -/
  | closed
  /-- There is nothing to send to. -/
  | absent
deriving DecidableEq, Repr

structure ScriptedStore (V : Type) where
  onGet : Except StoreFailure V
  /-- A failure, or the capacity of the event queue to open. -/
  onWatch : Except StoreFailure Nat
  gateShut : Bool := false
  calls : List StoreCall := []
  streams : List (EventStream V) := []
  /-- The stream that events are sent to. -/
  feeding : Option Nat := none
  /-- The token of the latest subscription, granted or not. -/
  latestToken : Option Token := none

namespace ScriptedStore

variable {V : Type}

def note (s : ScriptedStore V) (call : StoreCall) : ScriptedStore V := { s with calls := s.calls ++ [call] }

def modifyStream (s : ScriptedStore V) (id : Nat) (f : EventStream V → EventStream V) : ScriptedStore V :=
  { s with streams := s.streams.modify id f }

/-- Lets go of the sending end of the stream that is fed; whether there was one. -/
def endEvents (s : ScriptedStore V) : Bool × ScriptedStore V :=
  match s.feeding with
  | none => (false, s)
  | some id => (true, { s.modifyStream id (·.detach) with feeding := none })

/-- Grants or refuses a subscription as told; a new stream takes the place of the one fed so far. -/
def watch (s : ScriptedStore V) (key : String) (token : Token) : Except SubscribeError Nat × ScriptedStore V :=
  let s := { s.note (.watch key) with latestToken := some token }
  match s.onWatch with
  | .error f => (.error (.refused f), s)
  | .ok capacity =>
    match Queue.make? capacity with
    | none => (.error .tooLarge, s)
    | some queue =>
      let s := s.endEvents.2
      let id := s.streams.length
      (.ok id, { s with streams := s.streams ++ [{ key, token, queue, guarding := false }], feeding := some id })

/-- Sends an event without waiting. -/
def emit (s : ScriptedStore V) (e : Event V) : Sent × ScriptedStore V :=
  match s.feeding.bind fun id => (s.streams[id]?).map fun st => (id, st) with
  | none => (.absent, s)
  | some (id, st) =>
    if !st.queue.receiving then (.closed, s)
    else if !st.queue.hasRoom then (.full, s)
    else (.sent, s.modifyStream id fun st => { st with queue := st.queue.push e })

/-- Whether the stream that is fed still has its receiver; none if no stream is fed. -/
def feedHeld? (s : ScriptedStore V) : Option Bool := do
  let st ← s.streams[← s.feeding]?
  return st.queue.receiving

end ScriptedStore

end ResourceWatch
