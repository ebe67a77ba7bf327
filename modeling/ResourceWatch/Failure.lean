import ResourceWatch.Status

/-!
# Failures of stores and watches

What can go wrong between a store and a caller, the wording of each case, and the status that the caller gets for it.
-/

namespace ResourceWatch

inductive StoreFailure where
  | missing (key : String)
  | backend (text : String)
  | closed
deriving DecidableEq, Repr

namespace StoreFailure

def message : StoreFailure → String
  | .missing key => "Key not found: " ++ key
  | .backend text => "Store backend error: " ++ text
  | .closed => "Store is closed"

def status : StoreFailure → Status
  | .missing key => ⟨.notFound, "key not found: " ++ key⟩
  | .backend text => ⟨.internal, text⟩
  | .closed => ⟨.unavailable, "store is closed"⟩

end StoreFailure

inductive WatchFailure where
  /-- The endpoint found no key for the request. -/
  | resolve (status : Status)
  /-- The snapshot could not be read. -/
  | read (key : String) (source : StoreFailure)
  | subscribe (key : String) (source : StoreFailure)
  /-- The store reported a failure among its events. -/
  | event (key : String) (id : Nat) (text : String)
  /-- The endpoint made no reply of the value. -/
  | transform (status : Status)
  /-- The receiving end of the replies is gone. -/
  | disconnected
deriving DecidableEq, Repr

namespace WatchFailure

def message : WatchFailure → String
  | .resolve status => "Failed to resolve key: " ++ status.describe
  | .read key source => "Failed to read " ++ key ++ " from store: " ++ source.message
  | .subscribe key source => "Fail to watch " ++ key ++ ", " ++ source.message
  | .event key id text =>
    "got an error from store, Key: " ++ key ++ ", ID: " ++ id.repr ++ ", Data: " ++ text
  | .transform status => "Failed to transform value: " ++ status.describe
  | .disconnected => "Watch peer disconnected"

/-- What the caller is told: statuses of the endpoint as they are, all else by kind. -/
def status : WatchFailure → Status
  | .resolve status => status
  | .transform status => status
  | .read _ source => source.status
  | e@(.subscribe _ _) => ⟨.unavailable, e.message⟩
  | e@(.event _ _ _) => ⟨.internal, e.message⟩
  | e@.disconnected => ⟨.cancelled, e.message⟩

end WatchFailure

end ResourceWatch
