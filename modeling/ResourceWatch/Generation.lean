import ResourceWatch.FileTree.Replacement
import ResourceWatch.Region.Injection
import ResourceWatch.Rendering

/-!
# Generation

To generate a region is to render it, to inject it into the text of a file, and to replace the file if that changed
its text.  Every failure leaves the tree as it was, but for a temporary file that it keeps until it is let go of.
-/

namespace ResourceWatch

inductive GenerationFailure where
  | template (e : TemplateError)
  | injection (e : Region.InjectionError)
  | file (e : FileFailure)
deriving DecidableEq, Repr

def GenerationFailure.message : GenerationFailure → String
  | .template e => e.message
  | .injection e => e.message
  | .file e => e.message

/-- The temporary file that the failure keeps. -/
def GenerationFailure.temporary? : GenerationFailure → Option Place
  | .file e => e.temporary?
  | _ => none

/-- What became of the file. -/
inductive Generated where
  | replaced
  | upToDate
deriving DecidableEq, Repr

namespace Generation

abbrev Action (α : Type) := EStateM GenerationFailure FileTree α

/-- Brings the region of a key in a file up to a rendering. -/
def refresh (path : String) (key : Region.Key) (rendered : String) : Action Generated := fun t =>
  match t.text path with
  | .error o => .error (.file (.read path o)) t
  | .ok existing =>
    match Region.inject existing key rendered with
    | .error e => .error (.injection e) t
    | .ok updated =>
      if updated = existing then .ok .upToDate t
      else
        match FileTree.replaceText path updated t with
        | .ok _ t => .ok .replaced t
        | .error e t => .error (.file e) t

/-- Goes on with a rendering. -/
def refreshWith (path : String) (key : Region.Key) (rendering : Except TemplateError String) : Action Generated :=
  match rendering with
  | .error e => throw (.template e)
  | .ok rendered => refresh path key rendered

/-- Generates the client region of a resource. -/
def client (path : String) (r : Resource) (naming : Naming) : Action Generated :=
  refreshWith path (Rendering.clientKey r) (Rendering.client r naming)

/-- Generates the server region of that number for a resource. -/
def server (path : String) (index : UInt32) (r : Resource) (naming : Naming) : Action Generated :=
  refreshWith path (Rendering.serverKey index) (Rendering.server index r naming)

end Generation

end ResourceWatch
