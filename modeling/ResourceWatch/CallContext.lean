import ResourceWatch.Address
import ResourceWatch.Status
import ResourceWatch.Text.Ident
import ResourceWatch.Token

/-!
# Call contexts

What an endpoint knows about a call besides its request: the peer's address, the metadata and the token that ends it.
-/

namespace ResourceWatch

/-- Metadata in the order of arrival; a key may have several values, and its case does not count. -/
abbrev Metadata := List (String × String)

namespace Metadata

def ofPairs (pairs : List (String × String)) : Metadata := pairs.map fun p => (Text.lowerAscii p.1, p.2)

/-- The keys, each once, in the order of their first values. -/
def keys (m : Metadata) : List String := (m.map (·.1)).eraseDups

def values (m : Metadata) (key : String) : List String := (m.filter (·.1 == key)).map (·.2)

end Metadata

/-- What a call brings along. -/
structure CallRequest where
  peer : Option SocketAddress := none
  metadata : Metadata := []
deriving DecidableEq, Repr

structure CallContext where
  peer : Option SocketAddress := none
  metadata : Metadata := []
  token : Token
deriving DecidableEq, Repr

namespace CallContext

/-- The context of a call, under a token of its own. -/
def ofRequest (request : CallRequest) (token : Token) : CallContext := ⟨request.peer, request.metadata, token⟩

def withPeer (c : CallContext) (peer : SocketAddress) : CallContext := { c with peer := some peer }

def withMetadata (c : CallContext) (metadata : Metadata) : CallContext := { c with metadata }

def noPeer : Status := ⟨.unavailable, "failed to get peer address"⟩

def remoteAddress (c : CallContext) : Except Status SocketAddress :=
  match c.peer with
  | none => .error noPeer
  | some peer => .ok peer

end CallContext

end ResourceWatch
