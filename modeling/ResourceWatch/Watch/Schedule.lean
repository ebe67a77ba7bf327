import ResourceWatch.Watch.World

/-!
# Running to rest

`settle` lets all tasks go on, one after the other and each until it has to wait, until none can.  Sessions come
first, in the order in which they subscribed, so those woken by one event make their replies in that order.  A task
that is cancelled heeds its token before anything else.

Every turn lowers `work`, which bounds the number of turns that a run to rest can take.
-/

namespace ResourceWatch

inductive Task where
  | session (i : Nat)
  | flush (stream : Nat)
  | release (stream : Nat)
  | monitor (i : Nat)
  | watcher (k : Nat)
deriving DecidableEq, Repr

/-- The turns of a task, the one to be preferred first. -/
def Task.turns : Task → List Turn
  | .session i => [.abandon i, .advance i]
  | .flush id => [.flush id]
  | .release id => [.release id]
  | .monitor i => [.monitor i]
  | .watcher k => [.quit k, .pull k]

/-! ### The work ahead -/

/-- More than the turns that follow on a queued event, and on one that is parked. -/
def queuedEventWork : Nat := 4

def EventStream.work {V : Type} (s : EventStream V) : Nat :=
  queuedEventWork * s.queue.items.length + (if s.parked.isSome then queuedEventWork + 1 else 0) +
    (if s.flushing then 1 else 0) + (if s.guarding then 1 else 0)

def Phase.work {R : Type} : Phase R → Nat
  | .idle | .finished _ | .crashed => 0
  | .starting => 9
  | .reading => 8
  | .sendingSnapshot _ => 7
  | .subscribing => 4
  | .awaiting _ => 1
  | .sending _ _ => 4
  | .reporting _ => 3

def Session.work {R : Type} (s : Session R) : Nat :=
  s.phase.work + 2 * s.replies.items.length + (if s.monitored then 1 else 0)

def Watcher.work {R : Type} (w : Watcher R) : Nat :=
  (if w.held.isSome then 1 else 0) + (if w.finished then 0 else 1)

namespace World

variable {V R σ : Type}

/-- The work of all members of a list. -/
def totalWork {α : Type} (work : α → Nat) (xs : List α) : Nat := xs.foldr (fun x n => work x + n) 0

/-- A bound on the turns that can be taken without anything happening from outside. -/
def work (w : World V R σ) : Nat :=
  totalWork (·.work) w.store.streams + totalWork (·.work) w.sessions + totalWork (·.watcher.work) w.watchers

/-! ### The order of tasks -/

/-- The sessions in the order of their subscriptions, those without one behind. -/
def sessionOrder (w : World V R σ) : List Nat :=
  let numbers := List.range w.sessions.length
  let streamOf := fun i => w.sessions[i]?.bind (·.phase.stream?)
  (List.range w.store.streams.length).flatMap (fun id => numbers.filter fun i => streamOf i == some id) ++
    numbers.filter fun i => streamOf i == none

def tasks (w : World V R σ) : List Task :=
  w.sessionOrder.map .session ++ (List.range w.store.streams.length).map .flush ++
    (List.range w.store.streams.length).map .release ++ (List.range w.sessions.length).map .monitor ++
    (List.range w.watchers.length).map .watcher

/-! ### Settling -/

/-- One step of a task. -/
def step? (make : Maker V R σ) (w : World V R σ) (t : Task) : Option (World V R σ) :=
  t.turns.findSome? (turn? make w)

/-- Lets one task go on until it has to wait, for so many steps at most. -/
def runTask (make : Maker V R σ) (t : Task) : Nat → World V R σ → World V R σ
  | 0, w => w
  | n + 1, w =>
    match step? make w t with
    | none => w
    | some w' => runTask make t n w'

/-- Lets every task go on once. -/
def round (make : Maker V R σ) (w : World V R σ) : World V R σ :=
  w.tasks.foldl (fun w t => runTask make t w.work w) w

def isAtRest (make : Maker V R σ) (w : World V R σ) : Bool := w.tasks.all fun t => (step? make w t).isNone

def settleFor (make : Maker V R σ) : Nat → World V R σ → World V R σ
  | 0, w => w
  | n + 1, w => if isAtRest make w then w else settleFor make n (round make w)

/-- Lets all tasks go on until each has to wait. -/
def settle (make : Maker V R σ) (w : World V R σ) : World V R σ := settleFor make w.work w

end World

end ResourceWatch
