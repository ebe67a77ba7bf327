import ResourceWatch.Settings.Basic
import ResourceWatch.Watch.Session

/-!
# Watchers

A watcher reads a stream of replies on behalf of a consumer.  Its receive task takes items off the stream into a small
bounded queue, holding one reply while there is no room, until the stream ends or fails, the watcher's token is
cancelled, or its consumer goes.  A failure is kept and told to the consumer behind all replies before it.
-/

namespace ResourceWatch

structure Watcher (R : Type) where
  token : Token
  queue : Queue R
  /-- The reply that the receive task waits to put into the queue. -/
  held : Option R := none
  error : Option Status := none
  /-- The receive task has stopped. -/
  finished : Bool := false

/-- What a consumer that does not wait is told. -/
inductive Told (R : Type) where
  | reply (r : R)
  | pending
  | failed (status : Status)
  | ended
deriving DecidableEq, Repr

namespace Watcher

variable {R : Type}

/-- A new watcher; none if no queue can be that large.  A capacity of zero acts as one. -/
def make? (token : Token) (capacity : Nat) : Option (Watcher R) :=
  (Queue.make? (max capacity 1)).map fun queue => { token, queue }

/-- A new watcher with the queue of the settings. -/
def ofSettings? (token : Token) (settings : ClientSettings) : Option (Watcher R) := make? token settings.watchQueue

/-- The receive task stops and lets go of what it holds. -/
def stop (w : Watcher R) : Watcher R := { w with held := none, finished := true }

/-- The receive task puts the reply it holds into the queue, or stops if the consumer is gone. -/
def deliver? (w : Watcher R) (r : R) : Option (Watcher R) :=
  if !w.queue.receiving then some w.stop
  else if w.queue.hasRoom then some { w with held := none, queue := w.queue.push r }
  else none

/-- The receive task takes what the stream has for it. -/
def accept? (w : Watcher R) : Received (Item R) → Option (Watcher R)
  | .item (.ok r) => some { w with held := some r }
  | .item (.error status) => some { w with error := some status }.stop
  | .ended => some w.stop
  | .pending => none

/-- The stream after the receive task took a step: it lets go of the stream when it stops. -/
def sourceAfter (w : Watcher R) (source : Queue (Item R)) : Queue (Item R) :=
  if w.finished then source.drop else source

/-- One step of the receive task on the stream that it reads; none if it has to wait. -/
def pull? (w : Watcher R) (source : Queue (Item R)) (open_ : Bool) : Option (Watcher R × Queue (Item R)) :=
  if w.finished then none
  else
    match w.held with
    | some r => (w.deliver? r).map fun w' => (w', w'.sourceAfter source)
    | none =>
      let (got, source) := source.receive open_
      (w.accept? got).map fun w' => (w', w'.sourceAfter source)

/-- The receive task stops because the token is cancelled. -/
def quit? (w : Watcher R) (source : Queue (Item R)) (cancelled : Bool) : Option (Watcher R × Queue (Item R)) :=
  if w.finished || !cancelled then none else some (w.stop, source.drop)

/-- The consumer asks for the next reply. -/
def next (w : Watcher R) : Told R × Watcher R :=
  match w.queue.receive (!w.finished) with
  | (.item r, queue) => (.reply r, { w with queue })
  | (.pending, _) => (.pending, w)
  | (.ended, _) =>
    match w.error with
    | some status => (.failed status, w)
    | none => (.ended, w)

/-- Whether the receive task has stopped or is told to. -/
def isClosed (w : Watcher R) (tokens : Tokens) : Bool := tokens.isCancelled w.token || w.finished

/-- The consumer goes. -/
def drop (w : Watcher R) : Watcher R := { w with queue := w.queue.drop }

end Watcher

/-! ### A watcher and its stream alone -/

/-- A watcher on a stream that is fed from outside, or that has all its items from the start. -/
structure WatchedStream (R : Type) where
  source : Queue (Item R)
  /-- Whether the sending end of the stream is held. -/
  feeding : Bool
  watcher : Watcher R

namespace WatchedStream

variable {R : Type}

def pull? (s : WatchedStream R) : Option (WatchedStream R) :=
  (s.watcher.pull? s.source s.feeding).map fun (watcher, source) => { s with watcher, source }

def quit? (s : WatchedStream R) (tokens : Tokens) : Option (WatchedStream R) :=
  let cancelled := tokens.isCancelled s.watcher.token
  (s.watcher.quit? s.source cancelled).map fun (watcher, source) => { s with watcher, source }

/-- One step of the receive task, which heeds its token first. -/
def step? (s : WatchedStream R) (tokens : Tokens) : Option (WatchedStream R) := s.quit? tokens <|> s.pull?

/-- More than the steps that the receive task can take. -/
def work (s : WatchedStream R) : Nat :=
  2 * s.source.items.length + (if s.watcher.held.isSome then 1 else 0) + (if s.watcher.finished then 0 else 1)

def settleFor (tokens : Tokens) : Nat → WatchedStream R → WatchedStream R
  | 0, s => s
  | n + 1, s =>
    match s.step? tokens with
    | none => s
    | some s' => settleFor tokens n s'

/-- Lets the receive task go on until it has to wait. -/
def settle (s : WatchedStream R) (tokens : Tokens) : WatchedStream R := settleFor tokens s.work s

/-- Sends an item into the stream without waiting. -/
def send (s : WatchedStream R) (item : Item R) : Bool × WatchedStream R :=
  if s.source.hasRoom then (true, { s with source := s.source.push item }) else (false, s)

/-- Lets go of the sending end. -/
def endSource (s : WatchedStream R) : WatchedStream R := { s with feeding := false }

def next (s : WatchedStream R) : Told R × WatchedStream R :=
  let (told, watcher) := s.watcher.next
  (told, { s with watcher })

def drop (s : WatchedStream R) : WatchedStream R := { s with watcher := s.watcher.drop }

end WatchedStream

end ResourceWatch
