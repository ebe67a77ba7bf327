import ResourceWatch.CallContext
import ResourceWatch.ChangeCache

/-!
# Endpoints

An endpoint finds the key of a request and makes replies of values.  It may keep a state of its own between replies,
`σ`, and tells for each reply whether it is a change; a state that is a change cache does so by comparing replies.
-/

namespace ResourceWatch

/-- Makes a reply of a value, and tells whether it is a change. -/
abbrev Maker (V R σ : Type) := σ → String → V → σ × Except Status (R × Bool)

structure Endpoint (Q V R σ : Type) where
  keyOf : Q → CallContext → Except Status String
  make : Maker V R σ

namespace Endpoint

/-- Replies that depend on key and value alone and are changes where the cache says so. -/
def deduplicating {V R : Type} [BEq R] (reply : String → V → R) : Maker V R (ChangeCache R) :=
  fun cache key value =>
    let r := reply key value
    let (changed, cache) := cache.observe key r
    (cache, .ok (r, changed))

end Endpoint

end ResourceWatch
