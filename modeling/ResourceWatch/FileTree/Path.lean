import ResourceWatch.FileTree.Basic

/-!
# Paths as texts

The directory of a path, a path written from the top, and a path written from the working directory.  Empty parts and
single dots at the end of a path do not count.
-/

namespace ResourceWatch.FileTree

/-- The part of a path between two slashes leads nowhere else. -/
def staysHere (part : List Char) : Bool := part == [] || part == ['.']

def trimEnd (parts : List (List Char)) : List (List Char) := (parts.reverse.dropWhile staysHere).reverse

/-- The parts of a path between its slashes. -/
def parts (path : String) : List (List Char) := trimEnd (path.toList.splitOn '/')

def ofParts (parts : List (List Char)) : String := String.ofList (['/'].intercalate parts)

/-- The path of the directory that holds what a path means. -/
def directoryPath (path : String) : String :=
  let above := trimEnd (parts path).dropLast
  if above = [] then (if isAbsolute path then "/" else ".") else ofParts above

/-- The path with an extension added; none if it ends in no name. -/
def withExtension? (extension path : String) : Option String :=
  match (parts path).getLast? with
  | none => none
  | some last => if last = ['.', '.'] then none else some (ofParts (parts path) ++ "." ++ extension)

/-- The path from the top. -/
def absolutePath (t : FileTree) (path : String) : String :=
  if isAbsolute path then path else String.join (t.workingDirectory.map ("/" ++ ·)) ++ "/" ++ path

/-- Two lists behind what they have in common at the start. -/
def afterCommon : List String → List String → List String × List String
  | a :: as, b :: bs => if a = b then afterCommon as bs else (a :: as, b :: bs)
  | as, bs => (as, bs)

/-- The path from the working directory. -/
def relativePath (t : FileTree) (path : String) : String :=
  let (down, up) := afterCommon (t.start path ++ plainNames path) t.workingDirectory
  joinNames (up.map (fun _ => "..") ++ down)

end ResourceWatch.FileTree
