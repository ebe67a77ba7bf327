import ResourceWatch.Store.Backend
import ResourceWatch.Watch.Endpoint
import ResourceWatch.Watch.Watcher

/-!
# The world of tasks

The state of everything that runs: tokens, a store with its event streams, the states of endpoints, sessions with
their reply queues, and watchers.  A `Turn` is one step of one task; `turn?` takes it, or gives none if that task has
to wait.  Whatever order the tasks run in is a sequence of turns.
-/

namespace ResourceWatch

/-- A watcher and the session whose replies it reads. -/
structure Attachment (R : Type) where
  session : Nat
  watcher : Watcher R

structure World (V R σ : Type) where
  store : Backend V
  tokens : Tokens := {}
  makers : List σ := []
  sessions : List (Session R) := []
  watchers : List (Attachment R) := []

inductive Turn where
  /-- The flush task of an event stream. -/
  | flush (stream : Nat)
  /-- The guard task of an event stream. -/
  | release (stream : Nat)
  /-- A session, or the task that reports its failure, goes on. -/
  | advance (session : Nat)
  /-- A session heeds its token. -/
  | abandon (session : Nat)
  | monitor (session : Nat)
  /-- The receive task of a watcher goes on. -/
  | pull (watcher : Nat)
  /-- The receive task of a watcher heeds its token. -/
  | quit (watcher : Nat)
deriving DecidableEq, Repr

namespace World

variable {V R σ : Type}

def setSession (w : World V R σ) (i : Nat) (s : Session R) : World V R σ := { w with sessions := w.sessions.set i s }

/-- Ends a session: it lets go of its event stream, its token is fired, and a served one goes on to report a
failure. -/
def endSession (w : World V R σ) (i : Nat) (s : Session R) (o : Outcome) : World V R σ :=
  let store := s.phase.stream?.elim w.store w.store.dropReceiver
  { w with store, tokens := w.tokens.cancel s.token }.setSession i { s with phase := s.afterEnd o }

/-- The task of a session fails as it subscribes, and as it unwinds the session's token is fired.  Nothing is left to
report it. -/
def crashSession (w : World V R σ) (i : Nat) (s : Session R) : World V R σ :=
  { w with tokens := w.tokens.cancel s.token }.setSession i { s with phase := .crashed }

/-- Sends an item if there is room and goes on as told; fails if the receiver is gone. -/
def send? (w : World V R σ) (i : Nat) (s : Session R) (item : Item R) (next : Phase R) : Option (World V R σ) :=
  if !s.replies.receiving then some (w.endSession i s (.failed .disconnected))
  else if s.replies.hasRoom then some (w.setSession i (s.send item next))
  else none

/-- Makes a reply of a value and goes on as told, or fails. -/
def transform? (make : Maker V R σ) (w : World V R σ) (i : Nat) (s : Session R) (value : V)
    (next : R → Bool → Phase R) : Option (World V R σ) := do
  let maker ← w.makers[s.maker]?
  let (maker, made) := make maker s.key value
  let w := { w with makers := w.makers.set s.maker maker }
  match made with
  | .error status => return w.endSession i s (.failed (.transform status))
  | .ok (reply, changed) => return w.setSession i { s with phase := next reply changed }

/-- What a session does with an event. -/
def onEvent? (make : Maker V R σ) (w : World V R σ) (i : Nat) (s : Session R) (stream : Nat) (e : Event V) :
    Option (World V R σ) :=
  match e.kind with
  | .error text => some (w.endSession i s (.failed (.event s.key e.id text)))
  | .put value | .delete value =>
    transform? make w i s value fun reply changed => if changed then .sending stream reply else .awaiting stream

/-- An event that tells a value, a deletion among them, is answered with the reply made of that value. -/
theorem onEvent?_of_value {make : Maker V R σ} (w : World V R σ) {e : Event V} {u : V} (hu : e.kind.value? = some u)
    (i : Nat) (s : Session R) (stream : Nat) :
    onEvent? make w i s stream e =
      transform? make w i s u fun reply changed => if changed then .sending stream reply else .awaiting stream := by
  unfold onEvent?
  cases hk : e.kind with
  | put v =>
    rw [hk, EventKind.value?, Option.some.injEq] at hu
    rw [hu]
  | delete v =>
    rw [hk, EventKind.value?, Option.some.injEq] at hu
    rw [hu]
  | error text => simp [hk, EventKind.value?] at hu

/-- A session takes what its event stream has for it. -/
def awaitEvent? (make : Maker V R σ) (w : World V R σ) (i : Nat) (s : Session R) (stream : Nat) :
    Option (World V R σ) :=
  let (got, store) := w.store.receive stream
  match got with
  | .item e => onEvent? make { w with store } i s stream e
  | .ended => some (w.endSession i s .done)
  | .pending => none

def subscribe (w : World V R σ) (i : Nat) (s : Session R) : World V R σ :=
  let (granted, store) := w.store.watch s.key s.token
  let w := { w with store }
  match granted with
  | .ok id => w.setSession i { s with phase := .awaiting id }
  | .error (.refused f) => w.endSession i s (.failed (.subscribe s.key f))
  | .error .tooLarge => w.crashSession i s

/-- The task that reports a failure puts it behind the replies, unless the receiver is gone. -/
def report? (w : World V R σ) (i : Nat) (s : Session R) (e : WatchFailure) : Option (World V R σ) :=
  let reported : Phase R := .finished (.failed e)
  if !s.replies.receiving then some (w.setSession i { s with phase := reported })
  else if s.replies.hasRoom then some (w.setSession i (s.send (.error e.status) reported))
  else none

def advance? (make : Maker V R σ) (w : World V R σ) (i : Nat) (s : Session R) : Option (World V R σ) :=
  match s.phase with
  | .idle | .finished _ | .crashed => none
  | .starting => some ({ w with store := w.store.call s.key }.setSession i { s with phase := .reading })
  | .reading =>
    match w.store.answer? s.key with
    | none => none
    | some (.error f) => some (w.endSession i s (.failed (.read s.key f)))
    | some (.ok value) => transform? make w i s value fun reply _ => .sendingSnapshot reply
  | .sendingSnapshot reply => w.send? i s (.ok reply) .subscribing
  | .subscribing => some (w.subscribe i s)
  | .awaiting stream => awaitEvent? make w i s stream
  | .sending stream reply => w.send? i s (.ok reply) (.awaiting stream)
  | .reporting e => w.report? i s e

def abandon? (w : World V R σ) (i : Nat) (s : Session R) : Option (World V R σ) :=
  if s.phase.isAbandonable && w.tokens.isCancelled s.token then some (w.endSession i s .done) else none

/-- The monitor cancels the session if the receiver of its replies is gone, and ends when it is cancelled. -/
def monitor? (w : World V R σ) (i : Nat) (s : Session R) : Option (World V R σ) :=
  if !s.monitored then none
  else if !s.replies.receiving then
    some ({ w with tokens := w.tokens.cancel s.token }.setSession i { s with monitored := false })
  else if w.tokens.isCancelled s.token then some (w.setSession i { s with monitored := false })
  else none

/-- Puts back a watcher and the stream that it reads. -/
def setWatched (w : World V R σ) (k : Nat) (a : Attachment R) (s : Session R) (watcher : Watcher R)
    (source : Queue (Item R)) : World V R σ :=
  { w with watchers := w.watchers.set k { a with watcher } }.setSession a.session { s with replies := source }

/-- One step of one task; none if it has to wait or is no more. -/
def turn? (make : Maker V R σ) (w : World V R σ) : Turn → Option (World V R σ)
  | .flush id => (w.store.flush? id).map fun store => { w with store }
  | .release id => (w.store.release? w.tokens id).map fun store => { w with store }
  | .advance i => w.sessions[i]?.bind (advance? make w i)
  | .abandon i => w.sessions[i]?.bind (w.abandon? i)
  | .monitor i => w.sessions[i]?.bind (w.monitor? i)
  | .pull k => do
    let a ← w.watchers[k]?
    let s ← w.sessions[a.session]?
    let (watcher, source) ← a.watcher.pull? s.replies s.isOpen
    return w.setWatched k a s watcher source
  | .quit k => do
    let a ← w.watchers[k]?
    let s ← w.sessions[a.session]?
    let (watcher, source) ← a.watcher.quit? s.replies (w.tokens.isCancelled a.watcher.token)
    return w.setWatched k a s watcher source

theorem turn?_advance {make : Maker V R σ} {w : World V R σ} {i : Nat} {s : Session R}
    (hs : w.sessions[i]? = some s) : w.turn? make (.advance i) = advance? make w i s := by
  rw [turn?, hs, Option.bind_some]

theorem turn?_abandon {make : Maker V R σ} {w : World V R σ} {i : Nat} {s : Session R}
    (hs : w.sessions[i]? = some s) : w.turn? make (.abandon i) = w.abandon? i s := by
  rw [turn?, hs, Option.bind_some]

/-- Any number of turns in any order. -/
inductive Runs (make : Maker V R σ) : World V R σ → World V R σ → Prop where
  | refl (w) : Runs make w w
  | turn {u v w} (t : Turn) (h : turn? make u t = some v) (rest : Runs make v w) : Runs make u w

/-- No task can go on. -/
def AtRest (make : Maker V R σ) (w : World V R σ) : Prop := ∀ t, turn? make w t = none

end World

end ResourceWatch
