import ResourceWatch.FileTree.Path

/-!
# Replacing a file as a whole

A new text for a file is first written to a temporary file in the same directory, which then takes the file's place.
So the file is either as it was or as it is wanted.  Where the temporary file cannot take its place, the failure that
says so keeps it, and it goes when that failure is let go of.
-/

namespace ResourceWatch

inductive FileFailure where
  /-- The variable that should give the path is missing or empty. -/
  | unnamed (key : String)
  | read (path : String) (obstacle : Obstacle)
  | write (path : String) (obstacle : Obstacle)
  /-- The failure keeps the temporary file. -/
  | replace (path : String) (obstacle : Obstacle) (temporary : Place)
deriving DecidableEq, Repr

def FileFailure.message : FileFailure → String
  | .unnamed key => "Target file path is not set, expected environment variable " ++ key
  | .read path _ => "Failed to read " ++ path
  | .write path _ => "Failed to write " ++ path
  | .replace path _ _ => "Failed to replace " ++ path

def FileFailure.obstacle? : FileFailure → Option Obstacle
  | .unnamed _ => none
  | .read _ o | .write _ o | .replace _ o _ => some o

/-- The temporary file that the failure keeps. -/
def FileFailure.temporary? : FileFailure → Option Place
  | .replace _ _ temporary => some temporary
  | _ => none

namespace FileTree

/-- The tree when a failure that keeps this temporary file is let go of. -/
def letGo (t : FileTree) (temporary? : Option Place) : FileTree := temporary?.elim t t.erase

/-! ### Temporary files -/

/-- The mode of a file that only its owner may use. -/
def privateMode : Nat := 0o600

/-- The names of the places that the tree speaks of. -/
def knownNames (t : FileTree) : List String := t.workingDirectory ++ t.nodes.flatMap (·.1)

/-- A name longer than the path and than all names of the tree, so that neither has it. -/
def freshName (t : FileTree) (path : String) : String :=
  String.ofList ('.' :: List.replicate ((path :: t.knownNames).foldr (fun s n => max s.length n) 0) 't')

/-- What the name of a temporary file looks like in a path. -/
def temporaryName : String := ".tmpXXXXXX"

/-- The place of a new file in the directory of a path. -/
def temporaryPlace (t : FileTree) (path : String) : Except Obstacle Place := do
  let p ← t.resolve (t.absolutePath (directoryPath path) ++ "/" ++ temporaryName)
  return p.dropLast ++ [t.freshName path]

def setMode (t : FileTree) (p : Place) (mode : Nat) : FileTree :=
  match t.find? p with
  | some (.file _ content) => t.put p (.file mode content)
  | _ => t

/-- Gives the mode of the file at a path, if there is one, to the file at a place. -/
def copyMode (t : FileTree) (path : String) (p : Place) : FileTree :=
  match t.file path with
  | .ok (mode, _) => t.setMode p mode
  | .error _ => t

/-! ### Renaming -/

/-- The place that a file may be renamed to: the path's last name is no mere step, and no directory has it. -/
def renameTarget (t : FileTree) (path : String) : Except Obstacle Place := do
  let target ← t.resolve path
  match (names path).getLast? with
  | none => .error .busy
  | some last =>
    if last = "." ∨ last = ".." then .error .busy
    else if endsInSlash path then .error .notDirectory
    else match t.find? target with
      | some .directory => .error .isDirectory
      | _ => .ok target

/-- Moves what is at a place to a path; what is there already stays where it is. -/
def rename (t : FileTree) (p : Place) (path : String) : Except Obstacle FileTree := do
  let target ← t.renameTarget path
  match t.find? p with
  | none => .error .notFound
  | some node => return if target = p then t else (t.put target node).erase p

/-! ### The replacement -/

/-- Makes the path a file with the given text, of the mode that it had before. -/
def replaceText (path text : String) : EStateM FileFailure FileTree Unit := fun t =>
  match t.temporaryPlace path with
  | .error o => .error (.write path o) t
  | .ok temporary =>
    let t := t.put temporary (.file privateMode (.text text))
    let t := t.copyMode path temporary
    match t.rename temporary path with
    | .ok t => .ok () t
    | .error o => .error (.replace path o temporary) t

end FileTree

end ResourceWatch
