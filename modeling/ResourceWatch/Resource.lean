import ResourceWatch.Text.Quoted
import ResourceWatch.Text.SnakeCase

/-!
# Resources

A resource has a name and, unless there is only one of its kind, a key parameter.  The name is an identifier that
starts with a capital letter; the key parameter is an identifier that holds a letter or a digit, so that it has a
field name.  `fieldName` is that field name: the parameter in snake case, made safe where it is a reserved word.
-/

namespace ResourceWatch

open Text

def isResourceName (s : String) : Bool :=
  isIdent s.toList && match s.toList with
    | c :: _ => isUpper c
    | [] => false

def isKeyParameter (s : String) : Bool :=
  isIdent s.toList && snakeCase s.toList != []

structure Resource where
  name : String
  key : Option String
  name_valid : isResourceName name = true
  key_valid : ∀ k, key = some k → isKeyParameter k = true

inductive ResourceError where
  | name (text : String)
  | key (text : String)
deriving DecidableEq, Repr

def ResourceError.message : ResourceError → String
  | .name text =>
    "Invalid resource descriptor: resource name " ++ quote text ++
      " must be an identifier starting with an uppercase letter"
  | .key text => "Invalid resource descriptor: key parameter " ++ quote text ++ " must be an identifier"

namespace Resource

/-- The resource of that name and key parameter; the name is checked first. -/
def make (name : String) (key : Option String) : Except ResourceError Resource :=
  if hn : isResourceName name then
    match key with
    | none => .ok ⟨name, none, hn, by simp⟩
    | some k =>
      if hk : isKeyParameter k then .ok ⟨name, some k, hn, by simpa using hk⟩
      else .error (.key k)
  else .error (.name name)

theorem isIdent_name (r : Resource) : isIdent r.name.toList = true := by
  have := r.name_valid
  rw [isResourceName, Bool.and_eq_true] at this
  exact this.1

theorem isIdent_key (r : Resource) {k : String} (h : r.key = some k) : isIdent k.toList = true := by
  have := r.key_valid k h
  rw [isKeyParameter, Bool.and_eq_true] at this
  exact this.1

def snakeName (r : Resource) : String := String.ofList (snakeCase r.name.toList)

end Resource

/-! ### Field names -/

/-- Reserved words that cannot be written in raw form. -/
def pathWords : List String := ["self", "super", "extern", "crate"]

/-- Reserved words that can be written in raw form. -/
def rawableWords : List String := [
  "as", "async", "await", "break", "const", "continue", "dyn", "else", "enum", "false", "fn", "for", "if", "impl",
  "in", "let", "loop", "match", "mod", "move", "mut", "pub", "ref", "return", "static", "struct", "trait", "true",
  "type", "unsafe", "use", "where", "while", "abstract", "become", "box", "do", "final", "gen", "macro", "override",
  "priv", "try", "typeof", "unsized", "virtual", "yield"]

/-- The field that holds the key: a trailing underscore or the raw form keeps a reserved word legal. -/
def fieldName (key : String) : String :=
  let field := String.ofList (snakeCase key.toList)
  if field ∈ pathWords then field ++ "_"
  else if field ∈ rawableWords then "r#" ++ field
  else field

end ResourceWatch
