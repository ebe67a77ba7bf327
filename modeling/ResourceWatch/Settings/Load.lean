import ResourceWatch.Settings.Layer

/-!
# Loading settings

Settings are loaded from layers, the later over the earlier: settings that are there already, a file, and the
environment.  The layers are merged before any value is read, so that a value which does not fit its field does no
harm under one that does.
-/

namespace ResourceWatch

/-- The variable that names a file of settings. -/
def settingsVariable : String := "GETWATCH_CONFIG"

/-! ### Reading a value tree -/

namespace ValueTree

def origin : ValueTree → Option String
  | .scalar origin _ | .array origin _ | .table origin _ => origin

/-- The number that a value stands for. -/
def number : ValueTree → Except (Misfit × Wanted) Nat
  | .scalar _ .unit => .error (.unit, .integer)
  | .scalar _ (.boolean b) => .ok (if b then 1 else 0)
  | .scalar _ (.integer n) => if n < 0 then .error (.negative n, .unsigned) else .ok n.toNat
  | .scalar _ (.float d) => .ok d.toUnsigned64
  | .scalar _ (.text s) =>
    let word := Text.lowerAscii s
    if word ∈ ["true", "on", "yes"] then .ok 1
    else if word ∈ ["false", "off", "no"] then .ok 0
    else match (Number.readUnsigned64? s.toList) with
      | some n => .ok n
      | none => .error (.text s, .integer)
  | .array _ _ => .error (.array, .integer)
  | .table _ _ => .error (.table, .integer)

/-- The text that a value stands for. -/
def string : ValueTree → Except (Misfit × Wanted) String
  | .scalar _ .unit => .error (.unit, .string)
  | .scalar _ (.boolean b) => .ok (if b then "true" else "false")
  | .scalar _ (.integer n) => .ok n.repr
  | .scalar _ (.float d) => .ok (d.write .plain)
  | .scalar _ (.text s) => .ok s
  | .array _ _ => .error (.array, .string)
  | .table _ _ => .error (.table, .string)

/-- The value of a field in its section, with the rest of its key: by name in a table, by position in an array. -/
def field? (t : ValueTree) (name : String) (position : Nat) : Option (String × ValueTree) :=
  match t with
  | .table _ es => (es.lookup name).map fun v => ("." ++ name, v)
  | .array _ xs => xs[position]?.map fun v => ("[" ++ position.repr ++ "]", v)
  | .scalar _ _ => none

end ValueTree

/-- A section of a tree: what is missing is as good as empty. -/
def ValueTree.sectionTree (t : ValueTree) (home : Section) : Except LoadFailure ValueTree :=
  match t.entry? home.key with
  | none => .ok .empty
  | some (.scalar _ value) => .error (.notSection home value)
  | some s => .ok s

def NameField.position : NameField → Nat
  | .targetEnv => 0
  | .protoModule => 1
  | .runtimeCrate => 2
  | .clientType => 3

def NumberField.position : NumberField → Nat
  | .requestTimeout | .eventBuffer => 0
  | .watchQueue | .replyBuffer => 1

/-- Reads a field of a section, or takes its default. -/
def readField {α : Type} (read : ValueTree → Except (Misfit × Wanted) α) (home : Section) (s : ValueTree)
    (name : String) (position : Nat) (default : α) : Except LoadFailure α :=
  match s.field? name position with
  | none => .ok default
  | some (rest, v) => (read v).mapError fun (found, wanted) => .misfit found wanted (home.key ++ rest) v.origin

def readName (s : ValueTree) (f : NameField) : Except LoadFailure String :=
  readField ValueTree.string .codegen s f.key f.position (f.get {})

def readNumber (s : ValueTree) (f : NumberField) : Except LoadFailure Nat :=
  readField ValueTree.number f.home s f.key f.position (f.get {})

/-- Reads settings; a field that is missing has its default. -/
def Settings.ofTree (t : ValueTree) : Except LoadFailure Settings := do
  let codegen ← t.sectionTree .codegen
  let naming : Naming := ⟨← readName codegen .targetEnv, ← readName codegen .protoModule,
    ← readName codegen .runtimeCrate, ← readName codegen .clientType⟩
  let client ← t.sectionTree .client
  let client : ClientSettings := ⟨← readNumber client .requestTimeout, ← readNumber client .watchQueue⟩
  let watch ← t.sectionTree .watch
  let watch : WatchSettings := ⟨← readNumber watch .eventBuffer, ← readNumber watch .replyBuffer⟩
  return ⟨naming, client, watch⟩

/-! ### Settings as the lowest layer -/

def numberTree (n : Nat) : Except LoadFailure ValueTree :=
  if greatestNumber < n then .error (.tooLarge n) else .ok (.scalar none (.integer n))

def Settings.toTree (s : Settings) : Except LoadFailure ValueTree := do
  let name := fun (f : NameField) => (f.key, ValueTree.scalar none (.text (f.get s.codegen)))
  let number := fun (f : NumberField) => (numberTree (f.get s)).map fun v => (f.key, v)
  return .table none [
    (Section.codegen.key, .table none ([.targetEnv, .protoModule, .runtimeCrate, .clientType].map name)),
    (Section.client.key, .table none (← [.requestTimeout, .watchQueue].mapM number)),
    (Section.watch.key, .table none (← [.eventBuffer, .replyBuffer].mapM number))]

/-! ### Loading -/

/-- Settings with a file, if one is named, and the environment over them. -/
def Settings.layered (s : Settings) (file : Option String) (env : Environment) (t : FileTree) :
    Except LoadFailure Settings := do
  let base ← s.toTree
  let layer ← match file with
    | none => pure []
    | some name => fileLayer t name
  Settings.ofTree ((base.mergeLayer layer).mergeLayer env.layer)

/-- The defaults under the file that the environment names and the environment itself. -/
def Settings.load (env : Environment) (t : FileTree) : Except LoadFailure Settings :=
  Settings.layered {} (env.lookup settingsVariable) env t

/-- The settings with a file and the environment over them. -/
def Settings.override (s : Settings) (name : String) (env : Environment) (t : FileTree) :
    Except LoadFailure Settings :=
  s.layered (some name) env t

end ResourceWatch
