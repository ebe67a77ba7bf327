import ResourceWatch.Status

/-!
# Unary calls with a time limit

A call that ends within the limit, the last moment included, gives its own outcome; otherwise the caller is told that
the limit was exceeded.
-/

namespace ResourceWatch

/-- A call as its caller sees it: when it ends, if ever, and with what. -/
structure UnaryCall (R : Type) where
  /-- The time until it ends; none if it never does. -/
  delay : Option Nat
  outcome : Except Status R

def timeoutStatus : Status := ⟨.deadlineExceeded, "RPC timeout exceeded"⟩

def UnaryCall.within {R : Type} (call : UnaryCall R) (limit : Nat) : Except Status R :=
  match call.delay with
  | none => .error timeoutStatus
  | some delay => if delay ≤ limit then call.outcome else .error timeoutStatus

end ResourceWatch
