import ResourceWatch.Failure
import ResourceWatch.Queue
import ResourceWatch.Token

/-!
# Watch sessions

A session serves one watch: it reads the value of its key and sends the reply made of it, subscribes, and sends the
replies made of the events that follow, as far as they are changes.  Its replies go into a bounded queue.  It ends
when it is cancelled or the store ends the events, and fails where reading, making, sending or subscribing fails.

A served session has two tasks beside it: one reports its failure as the last item of the queue, and a monitor cancels
it when the receiver of the queue is gone.
-/

namespace ResourceWatch

/-- How a session ended. -/
inductive Outcome where
  | done
  | failed (failure : WatchFailure)
deriving DecidableEq, Repr

/-- What a session does next. -/
inductive Phase (R : Type) where
  /-- It has not been started. -/
  | idle
  /-- It calls the store for the snapshot. -/
  | starting
  /-- It waits for the snapshot. -/
  | reading
  /-- It waits for room for the snapshot's reply. -/
  | sendingSnapshot (reply : R)
  | subscribing
  /-- It waits for an event of the stream. -/
  | awaiting (stream : Nat)
  /-- It waits for room for the reply made of an event. -/
  | sending (stream : Nat) (reply : R)
  /-- It has failed, and its task waits for room to say so. -/
  | reporting (failure : WatchFailure)
  | finished (outcome : Outcome)
  /-- Its event queue was too large to be made. -/
  | crashed
deriving DecidableEq, Repr

namespace Phase

variable {R : Type}

/-- The stream that the session receives from. -/
def stream? : Phase R → Option Nat
  | .awaiting id => some id
  | .sending id _ => some id
  | _ => none

/-- Whether cancellation ends the session at once: wherever it waits, except for the store's answer to its
subscription and for room to report a failure. -/
def isAbandonable : Phase R → Bool
  | .starting | .reading | .sendingSnapshot _ | .awaiting _ | .sending _ _ => true
  | _ => false

/-- How the session ended, if it has. -/
def outcome? : Phase R → Option Outcome
  | .finished o => some o
  | .reporting e => some (.failed e)
  | _ => none

/-- Whether the session, or the task that reports for it, may still send. -/
def isOpen : Phase R → Bool
  | .finished _ | .crashed => false
  | _ => true

end Phase

/-- What streams of replies carry: replies, and as the last item perhaps a status. -/
abbrev Item (R : Type) := Except Status R

structure Session (R : Type) where
  key : String
  /-- The token of the session and of its subscription. -/
  token : Token
  /-- The number of the endpoint state that makes its replies. -/
  maker : Nat
  /-- Whether its failure is reported to the receiver. -/
  served : Bool
  phase : Phase R
  replies : Queue (Item R)
  /-- The monitor waits for the receiver to go or the token to be cancelled. -/
  monitored : Bool

namespace Session

variable {R : Type}

/-- Whether anyone holds the sending end of the replies. -/
def isOpen (s : Session R) : Bool := s.phase.isOpen || s.monitored

/-- Where the session stands after it ended. -/
def afterEnd (s : Session R) (o : Outcome) : Phase R :=
  match o with
  | .failed .disconnected => .finished o
  | .failed e => if s.served then .reporting e else .finished o
  | .done => .finished o

/-- Only a failure of a served session leaves something to do. -/
theorem afterEnd_eq (s : Session R) (o : Outcome) :
    s.afterEnd o = .finished o ∨ s.served = true ∧ ∃ e, o = .failed e ∧ s.afterEnd o = .reporting e := by
  unfold afterEnd
  split
  · exact Or.inl rfl
  · rename_i e _
    split
    · rename_i hserved
      exact Or.inr ⟨hserved, e, rfl, rfl⟩
    · exact Or.inl rfl
  · exact Or.inl rfl

theorem outcome?_afterEnd (s : Session R) (o : Outcome) : (s.afterEnd o).outcome? = some o := by
  rcases s.afterEnd_eq o with h | ⟨-, e, rfl, h⟩ <;> rw [h] <;> rfl

theorem stream?_afterEnd (s : Session R) (o : Outcome) : (s.afterEnd o).stream? = none := by
  rcases s.afterEnd_eq o with h | ⟨-, e, -, h⟩ <;> rw [h] <;> rfl

def send (s : Session R) (item : Item R) (next : Phase R) : Session R :=
  { s with replies := s.replies.push item, phase := next }

end Session

end ResourceWatch
