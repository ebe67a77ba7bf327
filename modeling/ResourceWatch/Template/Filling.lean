import ResourceWatch.Dictionary
import ResourceWatch.Template.Basic
import ResourceWatch.Text.Quoted

/-!
# Filling templates

Filling is strict and literal: every slot needs a value, and a value goes into the result as it is, braces included.
A few names mean no value of their own: operations, which have nothing to work on in a slot, and all values together.
-/

namespace ResourceWatch

/-- Why a slot cannot be filled. -/
inductive SlotFault where
  | unbound (name : String)
  /-- An operation lacks the argument at a position. -/
  | missingAt (operation : String) (index : Nat)
  /-- An operation lacks the argument of a name. -/
  | missingNamed (operation argument : String)
deriving DecidableEq, Repr

def SlotFault.words : SlotFault → String
  | .unbound name => "Failed to access variable in strict mode Some(" ++ Text.quote name ++ ")"
  | .missingAt operation index =>
    "Helper/Decorator " ++ operation ++ " param at index " ++ index.repr ++ " required but not found"
  | .missingNamed operation argument =>
    "Helper/Decorator " ++ operation ++ " param with name " ++ argument ++ " required but not found"

namespace Template

/-- The values of the slots; the first entry of a name counts. -/
abbrev Bindings := Dictionary String String

/-- Operations on two values. -/
def relations : List String := ["eq", "ne", "gt", "gte", "lt", "lte", "and", "or"]

/-- The names that mean no value of their own, and what they come to in a slot. -/
def reservedNames : Dictionary String (Except SlotFault String) :=
  [("this", .ok "[object]"), ("raw", .ok ""), ("log", .ok ""), ("if", .error (.missingAt "if" 0)),
    ("unless", .error (.missingAt "if" 0)), ("each", .error (.missingAt "each" 0)),
    ("with", .error (.missingAt "with" 0)), ("lookup", .error (.missingAt "lookup" 0))] ++
  (relations ++ ["not", "len"]).map fun operation => (operation, .error (.missingNamed operation "x"))

/-- What goes into the slot of a name. -/
def Bindings.slotText (bindings : Bindings) (name : String) : Except SlotFault String :=
  match reservedNames.lookup name with
  | some meaning => meaning
  | none =>
    match bindings.lookup name with
    | none => .error (.unbound name)
    | some value => .ok value

/-- The pieces with each slot filled, or the first slot that cannot be filled. -/
def fill (bindings : Bindings) : Template → Except (SlotFault × Position) (List Char)
  | [] => .ok []
  | .text cs :: ps => (fill bindings ps).map (cs ++ ·)
  | .slot name p :: ps =>
    match bindings.slotText (String.ofList name) with
    | .error fault => .error (fault, p)
    | .ok value => (fill bindings ps).map (value.toList ++ ·)

end Template

/-! ### Named templates -/

inductive TemplateError where
  | malformed
  | unknown (template : String)
  | unfilled (template : String) (fault : SlotFault) (position : Position)
deriving DecidableEq, Repr

/-- Why the rendering failed, without the template's name in front. -/
def TemplateError.cause : TemplateError → String
  | .malformed => "malformed template"
  | .unknown template => "Template not found " ++ template
  | .unfilled template fault p =>
    "Error rendering \"" ++ template ++ "\" line " ++ p.line.repr ++ ", col " ++ p.column.repr ++ ": " ++ fault.words

def TemplateError.message : TemplateError → String
  | .malformed => "Failed to register template: malformed template"
  | e@(.unknown template) => "Failed to render template `" ++ template ++ "`: " ++ e.cause
  | e@(.unfilled template _ _) => "Failed to render template `" ++ template ++ "`: " ++ e.cause

/-- Templates by name, the latest first. -/
abbrev TemplateSet := List (String × Template)

namespace TemplateSet

/-- Reads a template and puts it in front, so that it hides an earlier one of the same name. -/
def register (set : TemplateSet) (name text : String) : Except TemplateError TemplateSet :=
  match Template.parse? text with
  | none => .error .malformed
  | some template => .ok ((name, template) :: set)

def ofTexts (texts : List (String × String)) : Except TemplateError TemplateSet :=
  texts.foldlM (fun set entry => register set entry.1 entry.2) []

def render (set : TemplateSet) (name : String) (bindings : Template.Bindings) : Except TemplateError String :=
  match set.lookup name with
  | none => .error (.unknown name)
  | some template =>
    match template.fill bindings with
    | .error (fault, p) => .error (.unfilled name fault p)
    | .ok cs => .ok (String.ofList cs)

end TemplateSet

end ResourceWatch
