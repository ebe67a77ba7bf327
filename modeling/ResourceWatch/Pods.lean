import ResourceWatch.Watch.Endpoint

/-!
# The pods endpoint

Serves the specifications of pods by id, or of the calling node by the address of the peer.  A reply holds the key and
the specification.
-/

namespace ResourceWatch

structure PodReply where
  key : String
  spec : String
deriving DecidableEq, Repr

namespace Pods

/-- Which replies count as changes. -/
inductive Changes where
  /-- Those that differ from the one before. -/
  | compared
  | always
  | never
deriving DecidableEq, Repr

/-- Who is asked for: the pod of the request's id, or the node that calls. -/
inductive Subject where
  | pod
  | node
deriving DecidableEq, Repr

def keyOf (subject : Subject) (id : String) (ctx : CallContext) : Except Status String :=
  match subject with
  | .node => ctx.remoteAddress.map fun a => "/nodes/" ++ a.ip.text
  | .pod => if id = "" then .error ⟨.invalidArgument, "pod id is required"⟩ else .ok ("/pods/" ++ id)

def malformed : Status := ⟨.dataLoss, "malformed pod spec"⟩

def make (changes : Changes) : Maker String PodReply (ChangeCache PodReply) := fun cache key value =>
  if value = "<malformed>" then (cache, .error malformed)
  else
    match changes with
    | .compared => Endpoint.deduplicating PodReply.mk cache key value
    | .always => (cache, .ok (⟨key, value⟩, true))
    | .never => (cache, .ok (⟨key, value⟩, false))

def endpoint (subject : Subject) (changes : Changes) : Endpoint String String PodReply (ChangeCache PodReply) :=
  ⟨keyOf subject, make changes⟩

end Pods

end ResourceWatch
