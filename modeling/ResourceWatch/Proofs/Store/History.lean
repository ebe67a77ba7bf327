import ResourceWatch.Store.Backend

/-!
# Histories of a memory store

A history is a list of acts in any order: changes of the store, subscriptions, receives, and the turns of the flush
and guard tasks.  A chronicle is a store with a log of what was seen of it, the latest occurrence first.  Two lists
are read off a log for each event stream, both since the stream was opened and in the order of time:

* `Log.told`, the events published on a key;
* `Log.taken`, the events received from the stream.
-/

namespace ResourceWatch

variable {V : Type}

/-! ### Streams of a store -/

namespace MemoryStore

/-- Receives from an event stream without waiting. -/
def receive (s : MemoryStore V) (id : Nat) : Received (Event V) × MemoryStore V :=
  match s.streams[id]? with
  | none => (.ended, s)
  | some st => (st.receive.1, { s with streams := s.streams.modify id (·.receive.2) })

/-- Lets go of the receiving end of an event stream. -/
def dropReceiver (s : MemoryStore V) (id : Nat) : MemoryStore V :=
  { s with streams := s.streams.modify id (·.drop) }

/-- The flush task of a stream goes on. -/
def flush? (s : MemoryStore V) (id : Nat) : Option (MemoryStore V) := do
  let st ← s.streams[id]?
  let st' ← st.flush?
  return { s with streams := s.streams.modify id fun _ => st' }

/-- No flush task can go on. -/
def IsFlushed (s : MemoryStore V) : Prop := ∀ id, s.flush? id = none

end MemoryStore

namespace Backend

theorem receive_memory (s : MemoryStore V) (id : Nat) :
    (Backend.memory s).receive id = ((s.receive id).1, .memory (s.receive id).2) := by
  unfold Backend.receive MemoryStore.receive
  simp only [streams]
  cases s.streams[id]? <;> rfl

theorem flush?_memory (s : MemoryStore V) (id : Nat) :
    (Backend.memory s).flush? id = (s.flush? id).map .memory := by
  unfold Backend.flush? MemoryStore.flush?
  simp only [streams]
  cases s.streams[id]? with
  | none => rfl
  | some st => cases h : st.flush? <;> simp [h, modifyStream]

variable {s : MemoryStore V} {b b' : Backend V} {key : String} {token : Token} {id : Nat}

theorem of_receive (hb : b = .memory s) {got : Received (Event V)} (h : b.receive id = (got, b')) :
    b' = .memory (s.receive id).2 := by
  rw [hb, receive_memory, Prod.mk.injEq] at h
  exact h.2.symm

theorem of_flush? (hb : b = .memory s) (h : b.flush? id = some b') : b' = .memory ((s.flush? id).getD s) := by
  rw [hb, flush?_memory, Option.map_eq_some_iff] at h
  obtain ⟨t, ht, rfl⟩ := h
  rw [ht, Option.getD_some]

theorem of_release? (hb : b = .memory s) {tokens : Tokens} (h : b.release? tokens id = some b') :
    b' = .memory ((s.release? tokens id).getD s) := by
  rw [hb, release?, Option.map_eq_some_iff] at h
  obtain ⟨t, ht, rfl⟩ := h
  rw [ht, Option.getD_some]

theorem of_watch_ok (hb : b = .memory s) (h : b.watch key token = (.ok id, b')) :
    ∃ t, s.watch key token = .ok (id, t) ∧ b' = .memory t := by
  rw [hb, watch] at h
  split at h
  · simp at h
  · rename_i id' t ht
    simp only [Prod.mk.injEq, Except.ok.injEq] at h
    obtain ⟨rfl, rfl⟩ := h
    exact ⟨t, ht, rfl⟩

theorem of_watch_error (hb : b = .memory s) {e : SubscribeError} (h : b.watch key token = (.error e, b')) :
    s.watch key token = .error e ∧ b' = .memory s := by
  rw [hb, watch] at h
  split at h
  · rename_i e' he
    simp only [Prod.mk.injEq, Except.error.injEq] at h
    obtain ⟨rfl, rfl⟩ := h
    exact ⟨he, rfl⟩
  · simp at h

end Backend

/-! ### Logs -/

/-- What is seen of a store from outside. -/
inductive Occurrence (V : Type) where
  | published (e : Event V)
  | opened (stream : Nat)
  | taken (stream : Nat) (e : Event V)

/-- Occurrences, the latest first. -/
abbrev Log (V : Type) := List (Occurrence V)

namespace Log

/-- The events published on the key since the stream was opened. -/
def told (id : Nat) (key : String) : Log V → List (Event V)
  | [] => []
  | .published e :: log => if e.key = key then told id key log ++ [e] else told id key log
  | .opened stream :: log => if stream = id then [] else told id key log
  | .taken _ _ :: log => told id key log

/-- The events received from the stream since it was opened. -/
def taken (id : Nat) : Log V → List (Event V)
  | [] => []
  | .published _ :: log => taken id log
  | .opened stream :: log => if stream = id then [] else taken id log
  | .taken stream e :: log => if stream = id then taken id log ++ [e] else taken id log

end Log

/-! ### Acts -/

inductive StoreAct (V : Type) where
  | put (key : String) (value : V)
  | delete (key : String)
  | fail (key text : String)
  | close (key : String)
  | shutdown
  | watch (key : String) (token : Token)
  /-- The guard task of a stream goes on, if its token is among the cancelled ones. -/
  | release (tokens : Tokens) (stream : Nat)
  | flush (stream : Nat)
  | receive (stream : Nat)
  | dropReceiver (stream : Nat)

/-- What is seen of a receive. -/
def MemoryStore.taking (s : MemoryStore V) (id : Nat) : Log V :=
  match (s.receive id).1 with
  | .item e => [.taken id e]
  | _ => []

/-- The store after an act, and what was seen of it.  A task that has to wait leaves the store as it is. -/
def MemoryStore.act [Inhabited V] (s : MemoryStore V) : StoreAct V → MemoryStore V × Log V
  | .put key value => ((s.put key value).2, [.published ⟨(s.put key value).1, key, .put value⟩])
  | .delete key =>
    match s.delete key with
    | (none, s) => (s, [])
    | (some id, s) => (s, [.published ⟨id, key, .delete default⟩])
  | .fail key text => ((s.fail key text).2, [.published ⟨(s.fail key text).1, key, .error text⟩])
  | .close key => (s.close key, [])
  | .shutdown => (s.shutdown, [])
  | .watch key token =>
    match s.watch key token with
    | .error _ => (s, [])
    | .ok (id, s) => (s, [.opened id])
  | .release tokens id => ((s.release? tokens id).getD s, [])
  | .flush id => ((s.flush? id).getD s, [])
  | .receive id => ((s.receive id).2, s.taking id)
  | .dropReceiver id => (s.dropReceiver id, [])

theorem MemoryStore.act_watch [Inhabited V] {s t : MemoryStore V} {key : String} {token : Token} {id : Nat}
    (h : s.watch key token = .ok (id, t)) : s.act (.watch key token) = (t, [.opened id]) := by
  simp only [act, h]

/-! ### Chronicles -/

/-- A store and its log. -/
structure Chronicle (V : Type) where
  store : MemoryStore V
  log : Log V := []

namespace Chronicle

/-- An empty store of which nothing has been seen. -/
def opening (eventBuffer : Nat) : Chronicle V := { store := .make eventBuffer }

def act [Inhabited V] (c : Chronicle V) (a : StoreAct V) : Chronicle V :=
  ⟨(c.store.act a).1, (c.store.act a).2 ++ c.log⟩

def acts [Inhabited V] (c : Chronicle V) (history : List (StoreAct V)) : Chronicle V := history.foldl act c

/-- The events received from a stream, those still to be received behind them. -/
def delivered (c : Chronicle V) (id : Nat) (st : EventStream V) : List (Event V) :=
  Log.taken id c.log ++ st.ahead

end Chronicle

end ResourceWatch
