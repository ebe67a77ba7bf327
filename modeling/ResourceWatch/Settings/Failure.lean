import ResourceWatch.Settings.Basic
import ResourceWatch.Settings.ValueTree

/-!
# Failures of loading settings

Why settings could not be loaded, and the words for it: a file that is missing or no TOML, a value in place of a
section, a value that does not fit its field, or a number too large for a layer.
-/

namespace ResourceWatch

/-- What a value is that does not fit. -/
inductive Misfit where
  | unit
  | negative (n : Int)
  | text (s : String)
  | array
  | table
deriving DecidableEq, Repr

def Misfit.words : Misfit → String
  | .unit => "unit value"
  | .negative n => "64-bit integer `" ++ n.repr ++ "`"
  | .text s => "string " ++ Text.quote s
  | .array => "sequence"
  | .table => "map"

/-- What a field wants. -/
inductive Wanted where
  | integer
  | unsigned
  | string
deriving DecidableEq, Repr

def Wanted.words : Wanted → String
  | .integer => "an integer"
  | .unsigned => "an unsigned 64 bit or less integer"
  | .string => "a string"

inductive LoadFailure where
  | missing (name : String)
  | unknownFormat (name : String)
  | unreadable
  | malformed (path : String)
  | notSection (home : Section) (value : Scalar)
  | misfit (found : Misfit) (wanted : Wanted) (key : String) (origin : Option String)
  | tooLarge (n : Nat)
deriving DecidableEq, Repr

/-- What stands for a section in messages. -/
def Section.typeName : Section → String
  | .codegen => "CodegenConfig"
  | .client => "ClientConfig"
  | .watch => "WatchConfig"

/-- A floating point number is written with at least one place. -/
def Scalar.words : Scalar → String
  | .unit => "unit value"
  | .boolean b => "boolean `" ++ (if b then "true" else "false") ++ "`"
  | .integer n => "integer `" ++ n.repr ++ "`"
  | .float d => "floating point `" ++ d.write ⟨1, false⟩ ++ "`"
  | .text s => "string " ++ Text.quote s

def greatestNumber : Nat := Number.signedEnd - 1

def LoadFailure.message : LoadFailure → String
  | .missing name => "configuration file \"" ++ name ++ "\" not found"
  | .unknownFormat name => "configuration file \"" ++ name ++ "\" is not of a registered file format"
  | .unreadable => "stream did not contain valid UTF-8"
  | .malformed path => "malformed TOML in " ++ path
  | .notSection home value => "invalid type: " ++ value.words ++ ", expected struct " ++ home.typeName
  | .misfit found wanted key origin =>
    "invalid type: " ++ found.words ++ ", expected " ++ wanted.words ++ " for key `" ++ key ++ "`" ++
      origin.elim "" (" in " ++ ·)
  | .tooLarge n => "value " ++ n.repr ++ " is greater than the max " ++ greatestNumber.repr

end ResourceWatch
