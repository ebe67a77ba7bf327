import ResourceWatch.Region.Key
import ResourceWatch.Text.Line

/-!
# Injection of a rendered region

`inject` puts a rendering into a text: in place of the key's region if the text has exactly one, behind a blank line
at the end if it has no tag line of the key.  The rendering has to hold exactly one start and one end tag line of the
key, so a second injection finds the region that the first one left.
-/

namespace ResourceWatch.Region

/-- The pattern of a tag can always be read.  What a library for patterns may refuse is one that grows too large for
it, as with keys of some hundred thousand characters; there is no such limit here and so no such error. -/
inductive InjectionError where
  | untagged (key : Key)
  | malformed (key : Key) (starts ends : Nat)
deriving DecidableEq, Repr

def InjectionError.message : InjectionError → String
  | .untagged key => "Rendered region is not tagged for `" ++ key.text ++ "`"
  | .malformed key starts ends =>
    "Malformed region `" ++ key.text ++ "`: found " ++ starts.repr ++ " start tag(s) and " ++ ends.repr ++
      " end tag(s)"

/-- What is left of a rendering in a file: all but the line feeds at its ends. -/
def regionOf (rendered : String) : List Char := Text.trimLineFeeds rendered.toList

def inject (existing : String) (key : Key) (rendered : String) : Except InjectionError String :=
  let region := regionOf rendered
  if key.countTags region ≠ (1, 1) then .error (.untagged key)
  else
    match key.countTags existing.toList with
    | (0, 0) => .ok (existing ++ "\n\n" ++ String.ofList region)
    | (1, 1) =>
      match key.regionPattern.find? existing.toList with
      | some (front, behind) => .ok (String.ofList (front ++ region ++ behind))
      | none => .error (.malformed key 1 1)
    | (starts, ends) => .error (.malformed key starts ends)

end ResourceWatch.Region
