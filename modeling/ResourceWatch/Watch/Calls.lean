import ResourceWatch.Watch.Schedule

/-!
# Calls

What callers and consumers do to the world between the turns of its tasks: open sessions, serve watches, get values,
receive, attach watchers, subscribe to the store directly, cancel, and let go.
-/

namespace ResourceWatch

/-- No queue can be as large as asked for. -/
inductive TooLarge where
  | tooLarge
deriving DecidableEq, Repr

namespace World

variable {Q V R σ : Type}

/-! ### Tokens -/

def newToken (w : World V R σ) (parent : Token) : Token × World V R σ :=
  let (token, tokens) := w.tokens.child parent
  (token, { w with tokens })

def cancel (w : World V R σ) (token : Token) : World V R σ := { w with tokens := w.tokens.cancel token }

/-! ### Endpoint states -/

def newMaker (w : World V R σ) (state : σ) : Nat × World V R σ :=
  (w.makers.length, { w with makers := w.makers ++ [state] })

/-- Finds the key, reads the store and makes the reply; none while the store's answer has to be waited for. -/
def get? (endpoint : Endpoint Q V R σ) (maker : Nat) (w : World V R σ) (request : Q) (ctx : CallContext) :
    Option (Except Status R × World V R σ) :=
  match endpoint.keyOf request ctx with
  | .error status => some (.error status, w)
  | .ok key =>
    let w := { w with store := w.store.call key }
    match w.store.answer? key with
    | none => none
    | some (.error f) => some (.error (WatchFailure.read key f).status, w)
    | some (.ok value) => do
      let state ← w.makers[maker]?
      let (state, made) := endpoint.make state key value
      return (made.map (·.1), { w with makers := w.makers.set maker state })

/-! ### Sessions -/

/-- A session for the request on a queue of replies, not yet started; its number. -/
def openSession (endpoint : Endpoint Q V R σ) (maker : Nat) (w : World V R σ) (request : Q) (ctx : CallContext)
    (replies : Queue (Item R)) : Except WatchFailure (Nat × World V R σ) :=
  match endpoint.keyOf request ctx with
  | .error status => .error (.resolve status)
  | .ok key =>
    let (token, w) := w.newToken ctx.token
    let s : Session R := { key, token, maker, served := false, phase := .idle, replies, monitored := false }
    .ok (w.sessions.length, { w with sessions := w.sessions ++ [s] })

def modifySession (w : World V R σ) (i : Nat) (f : Session R → Session R) : World V R σ :=
  { w with sessions := w.sessions.modify i f }

def startSession (w : World V R σ) (i : Nat) : World V R σ :=
  w.modifySession i fun s => { s with phase := .starting }

/-- Serves a watch: a session on a queue of its own, started, with a monitor and a report of its failure.  The inner
result is the caller's; the outer one fails if no queue can be that large. -/
def serve (endpoint : Endpoint Q V R σ) (maker replyBuffer : Nat) (w : World V R σ) (request : Q)
    (ctx : CallContext) : Except TooLarge (Except Status (Nat × World V R σ)) :=
  match Queue.make? (max replyBuffer 1) with
  | none => .error .tooLarge
  | some replies =>
    match w.openSession endpoint maker request ctx replies with
    | .error e => .ok (.error e.status)
    | .ok (i, w) =>
      .ok (.ok (i, w.modifySession i fun s => { s with served := true, monitored := true, phase := .starting }))

/-- The receiver of a session's replies takes the next one without waiting. -/
def receiveReply (w : World V R σ) (i : Nat) : Received (Item R) × World V R σ :=
  match w.sessions[i]? with
  | none => (.ended, w)
  | some s =>
    let (got, replies) := s.replies.receive s.isOpen
    (got, w.setSession i { s with replies })

/-- What the reader of session `x` is told next, and what becomes of the world. -/
theorem receiveReply_cases {w : World V R σ} {i : Nat} {x : Session R} (hx : w.sessions[i]? = some x) :
    (∃ item rest, x.replies.items = item :: rest ∧ w.receiveReply i =
      (.item item, w.setSession i { x with replies := { x.replies with items := rest } })) ∨
    (x.replies.items = [] ∧ w.receiveReply i = (if x.isOpen then .pending else .ended, w)) := by
  unfold receiveReply Queue.receive
  rw [hx]
  cases hitems : x.replies.items with
  | cons item rest => exact Or.inl ⟨item, rest, rfl, by simp only [hitems]⟩
  | nil =>
    have hset : w.setSession i x = w := by
      obtain ⟨hi, rfl⟩ := List.getElem?_eq_some_iff.1 hx
      rw [setSession, List.set_getElem_self]
    exact Or.inr ⟨rfl, by simp only [hitems, hset]⟩

/-- The receiver of a session's replies goes. -/
def dropReplies (w : World V R σ) (i : Nat) : World V R σ :=
  w.modifySession i fun s => { s with replies := s.replies.drop }

/-! ### Watchers -/

/-- Attaches a watcher to the replies of a session; its number. -/
def attach (w : World V R σ) (i capacity : Nat) (token : Token) : Except TooLarge (Nat × World V R σ) :=
  match Watcher.make? token capacity with
  | none => .error .tooLarge
  | some watcher => .ok (w.watchers.length, { w with watchers := w.watchers ++ [⟨i, watcher⟩] })

def nextReply (w : World V R σ) (k : Nat) : Told R × World V R σ :=
  match w.watchers[k]? with
  | none => (.ended, w)
  | some a =>
    let (told, watcher) := a.watcher.next
    (told, { w with watchers := w.watchers.set k { a with watcher } })

/-- The consumer of a watcher goes, which cancels the watcher's token. -/
def dropWatcher (w : World V R σ) (k : Nat) : World V R σ :=
  match w.watchers[k]? with
  | none => w
  | some a => { w with watchers := w.watchers.set k { a with watcher := a.watcher.drop } }.cancel a.watcher.token

/-! ### The store -/

/-- Subscribes to the store directly; the number of the event stream. -/
def subscribeStore (w : World V R σ) (key : String) (token : Token) : Except SubscribeError Nat × World V R σ :=
  let (granted, store) := w.store.watch key token
  (granted, { w with store })

def receiveEvent (w : World V R σ) (id : Nat) : Received (Event V) × World V R σ :=
  let (got, store) := w.store.receive id
  (got, { w with store })

def dropEvents (w : World V R σ) (id : Nat) : World V R σ := { w with store := w.store.dropReceiver id }

/-- Reads the store directly; none while the answer has to be waited for. -/
def read? (w : World V R σ) (key : String) : Option (Except StoreFailure V) × World V R σ :=
  let store := w.store.call key
  (store.answer? key, { w with store })

/-- Whether a task failed to make its event queue. -/
def isCrashed (w : World V R σ) : Bool :=
  w.sessions.any fun s => match s.phase with
    | .crashed => true
    | _ => false

end World

end ResourceWatch
