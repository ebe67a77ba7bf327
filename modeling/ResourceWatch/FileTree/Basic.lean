import ResourceWatch.Dictionary

/-!
# File trees

A tree of directories and files.  Its top is a directory and its own parent.  A path is walked from the top or from
the working directory, name by name and each from a directory, so that it fails in the way of its first bad name.
-/

namespace ResourceWatch

/-- Why a path cannot be used as wanted. -/
inductive Obstacle where
  | notFound
  | isDirectory
  | notDirectory
  /-- The file is no text. -/
  | notText
  /-- The path holds a zero character. -/
  | zeroInPath
  | nameTooLong
  /-- The place cannot be given to something else. -/
  | busy
deriving DecidableEq, Repr

/-- What a file holds: text, or bytes that are no text. -/
inductive Content where
  | text (s : String)
  | binary (bytes : List UInt8)
deriving DecidableEq, Repr

namespace Content

def ofBytes (bytes : List UInt8) : Content :=
  match String.fromUTF8? ⟨bytes.toArray⟩ with
  | some s => .text s
  | none => .binary bytes

/-- The number of bytes. -/
def size : Content → Nat
  | .text s => s.utf8ByteSize
  | .binary bytes => bytes.length

end Content

inductive Node where
  | directory
  | file (mode : Nat) (content : Content)
deriving DecidableEq, Repr

/-- The names on the way down from the top. -/
abbrev Place := List String

structure FileTree where
  /-- Everything below the top, by its place. -/
  nodes : Dictionary Place Node := []
  workingDirectory : Place := []
deriving DecidableEq, Repr

namespace FileTree

def find? (t : FileTree) (p : Place) : Option Node :=
  if p = [] then some .directory else t.nodes.lookup p

def put (t : FileTree) (p : Place) (node : Node) : FileTree := { t with nodes := t.nodes.put p node }

def erase (t : FileTree) (p : Place) : FileTree := { t with nodes := t.nodes.erase p }

@[simp] theorem find?_put (t : FileTree) (p q : Place) (node : Node) :
    (t.put p node).find? q = if q = [] then some .directory else if q = p then some node else t.find? q := by
  by_cases hq : q = []
  · simp [find?, hq]
  · by_cases h : q = p <;> simp [find?, put, hq, h]

/-! ### Paths -/

/-- The names of a path. -/
def names (path : String) : List String :=
  ((path.toList.splitOn '/').filter (· != [])).map String.ofList

/-- The names of a path without those that stay where they are. -/
def plainNames (path : String) : List String := (names path).filter (· != ".")

def joinNames (ns : List String) : String := String.intercalate "/" ns

/-- A path that ends so means a directory. -/
def endsInSlash (path : String) : Bool := path.toList.getLast? == some '/'

/-- A path that starts so is walked from the top. -/
def isAbsolute (path : String) : Bool := path.toList.head? == some '/'

/-- The bytes that a name may have. -/
def maxName : Nat := 255

/-- The bytes that a path may have. -/
def maxPath : Nat := 4095

/-- The place that a name leads to from another place. -/
def enter (t : FileTree) (here : Place) (name : String) : Except Obstacle Place :=
  match t.find? here with
  | none => .error .notFound
  | some (.file _ _) => .error .notDirectory
  | some .directory =>
    if name = "." then .ok here
    else if name = ".." then .ok here.dropLast
    else if maxName < name.utf8ByteSize then .error .nameTooLong
    else .ok (here ++ [name])

/-- Where the walk of a path starts. -/
def start (t : FileTree) (path : String) : Place := if isAbsolute path then [] else t.workingDirectory

/-- The place at the end of a walk, where nothing need be. -/
def walk (t : FileTree) (here : Place) (ns : List String) : Except Obstacle Place := ns.foldlM t.enter here

def resolve (t : FileTree) (path : String) : Except Obstacle Place :=
  if '\x00' ∈ path.toList then .error .zeroInPath
  else if path = "" then .error .notFound
  else if maxPath < path.utf8ByteSize then .error .nameTooLong
  else t.walk (t.start path) (names path)

/-! ### Reading -/

/-- Mode and content of the file at a path. -/
def file (t : FileTree) (path : String) : Except Obstacle (Nat × Content) := do
  match t.find? (← t.resolve path) with
  | none => .error .notFound
  | some .directory => .error .isDirectory
  | some (.file mode content) => if endsInSlash path then .error .notDirectory else .ok (mode, content)

def text (t : FileTree) (path : String) : Except Obstacle String := do
  match (← t.file path).2 with
  | .text s => .ok s
  | .binary _ => .error .notText

def isFile (t : FileTree) (path : String) : Bool := (t.file path).isOk

/-! ### Building -/

/-- Puts directories along a walk where nothing is yet. -/
def withDirectories (t : FileTree) (p : Place) : FileTree :=
  ((List.range (p.length + 1)).map p.take).foldl (fun t q => if (t.find? q).isSome then t else t.put q .directory) t

/-- Puts a file and the directories above it. -/
def withFile (t : FileTree) (path : String) (mode : Nat) (content : Content) : FileTree :=
  let p := plainNames path
  (t.withDirectories p.dropLast).put p (.file mode content)

def withDirectory (t : FileTree) (path : String) : FileTree :=
  t.withDirectories (plainNames path)

end FileTree

end ResourceWatch
