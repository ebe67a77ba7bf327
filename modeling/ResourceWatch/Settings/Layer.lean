import ResourceWatch.FileTree.Path
import ResourceWatch.Settings.Failure
import ResourceWatch.Settings.KeyText
import ResourceWatch.Toml.Document

/-!
# Layers of settings

Settings come in layers: a file, and the variables of the environment that start with `GETWATCH__`.  Each layer is a
list of values with the paths they belong to.
-/

namespace ResourceWatch

/-- The variables by name, in the order in which a load comes to them.  That order is made up anew at each load, so
two loads may have different ones. -/
abbrev Environment := List (String × String)

/-! ### The environment -/

/-- Two underscores in the name of a variable part the names on a path. -/
def dotted : List Char → List Char
  | '_' :: '_' :: cs => '.' :: dotted cs
  | c :: cs => c :: dotted cs
  | [] => []

def variablePrefix : List Char := "getwatch__".toList

/-- The key that a variable stands for.  Of several variables with one key the last stands. -/
def variableKey? (name : String) : Option String :=
  let name := (Text.lowerAscii name).toList
  if variablePrefix.isPrefixOf name then some (String.ofList (dotted (name.drop variablePrefix.length))) else none

/-- The path that a variable sets. -/
def variablePath? (name : String) : Option ValueTree.Path := (variableKey? name).map .ofKey

/-- The value that a text stands for: a truth value, a whole number of 64 bits, another number, or itself. -/
def Scalar.ofText (s : String) : Scalar :=
  let word := Text.lowerAscii s
  if word = "true" then .boolean true
  else if word = "false" then .boolean false
  else match (Number.readInteger? s.toList).filter Number.inSigned64 with
    | some n => .integer n
    | none =>
      match Number.Double.read? s.toList with
      | some d => .float d
      | none => .text s

def environmentOrigin : String := "the environment"

/-- The layer of the environment, in the order of its variables; an empty variable is as good as none. -/
def Environment.layer (env : Environment) : ValueTree.Layer :=
  env.filterMap fun (name, value) =>
    if value = "" then none
    else (variablePath? name).map fun path => (path, .scalar (some environmentOrigin) (.ofText value))

/-! ### Files -/

namespace ValueTree

mutual

/-- The tree of a value in a file. -/
def ofToml (origin : Option String) : Toml → ValueTree
  | .string s => .scalar origin (.text s)
  | .integer n => .scalar origin (.integer n)
  | .float d => .scalar origin (.float d)
  | .boolean b => .scalar origin (.boolean b)
  | .datetime s => .scalar origin (.text s)
  | .array items => .array origin (ofItems origin items)
  | .table _ es => .table origin (ofEntries origin es)
  | .tables items => .array origin (ofItems origin items)

def ofItems (origin : Option String) : List Toml → List ValueTree
  | [] => []
  | v :: vs => ofToml origin v :: ofItems origin vs

def ofEntries (origin : Option String) : List (String × Toml) → List (String × ValueTree)
  | [] => []
  | e :: es => ofEntry origin e :: ofEntries origin es

def ofEntry (origin : Option String) : String × Toml → String × ValueTree
  | (key, v) => (key, ofToml origin v)

end

/-- The layer of a document. -/
def Layer.ofDocument (origin : String) (es : Toml.Entries) : Layer :=
  es.map fun e => (.ofKey e.1, ofToml (some origin) e.2)

end ValueTree

/-! ### Finding a file -/

/-- What stands behind the last dot of a name, unless the name starts with it. -/
def extension? (name : String) : Option String :=
  let tail := (name.toList.reverse.takeWhile (· != '.')).reverse
  if tail.length + 1 < name.toList.length then some (String.ofList tail) else none

def settingsExtension : String := "toml"

/-- The path of the file that a name of settings means: one of exactly that name, or else with the extension added. -/
def settingsPath (t : FileTree) (name : String) : Except LoadFailure String :=
  let path := t.absolutePath name
  if t.isFile path then
    if (FileTree.plainNames name).getLast?.bind extension? = some settingsExtension then .ok path
    else .error (.unknownFormat path)
  else
    match (FileTree.withExtension? settingsExtension path).filter t.isFile with
    | some path => .ok path
    | none => .error (.missing name)

/-- The layer of the file that a name of settings means. -/
def fileLayer (t : FileTree) (name : String) : Except LoadFailure ValueTree.Layer := do
  let path ← settingsPath t name
  let origin := t.relativePath path
  match t.text path with
  | .error _ => .error .unreadable
  | .ok text =>
    match Toml.parse? text with
    | none => .error (.malformed origin)
    | some es => .ok (.ofDocument origin es)

end ResourceWatch
