import ResourceWatch.Generation
import ResourceWatch.Settings.Load

/-!
# Command line

A command generates one region in the file that the environment names.  The arguments are read from left to right:
what does not belong there, a missing argument and an unfit one are misuse, and a wish for help or for the version is
granted where it is reached.  Then settings, target, resource and region follow, each only if all before it went well.
-/

namespace ResourceWatch

/-! ### Arguments -/

namespace CommandLine

inductive Command where
  | client (name : String) (key : Option String)
  | server (index : UInt32) (name : String)
deriving DecidableEq, Repr

/-- What is asked for instead of a command. -/
inductive Aside where
  | help
  | version
  | misuse
deriving DecidableEq, Repr

/-- An argument with a hyphen in front is an option, the hyphen alone is none. -/
def isOption (arg : String) : Bool :=
  match arg.toList with
  | '-' :: _ :: _ => true
  | _ => false

/-- The first letter of an option in its short form. -/
def shortOption? (arg : String) : Option Char :=
  match arg.toList with
  | '-' :: c :: _ => if c = '-' then none else some c
  | _ => none

def asksHelp (arg : String) : Bool := arg == "--help" || shortOption? arg == some 'h'

def asksVersion (arg : String) : Bool := arg == "--version" || shortOption? arg == some 'V'

/-- Reads arguments that have to pass the given tests, as far as they go; behind `--` nothing is an option. -/
def values : List (String → Bool) → Bool → List String → Except Aside (List String)
  | _, _, [] => .ok []
  | tests, literal, arg :: args =>
    if !literal && arg == "--" then values tests true args
    else if !literal && isOption arg then .error (if asksHelp arg then .help else .misuse)
    else
      match tests with
      | [] => .error .misuse
      | test :: tests => if test arg then (values tests literal args).map (arg :: ·) else .error .misuse

/-- A number of 32 bits; a plus and zeros may stand in front. -/
def index? (arg : String) : Option UInt32 :=
  match Number.readInteger? arg.toList with
  | some n => if 0 ≤ n ∧ n < 0x100000000 then some (UInt32.ofNat n.toNat) else none
  | none => none

def clientWord : String := "generate-client"

def serverWord : String := "generate-server"

def helpWord : String := "help"

def clientCommand (args : List String) : Except Aside Command := do
  match ← values [fun _ => true, fun _ => true] false args with
  | [name] => return .client name none
  | [name, key] => return .client name (some key)
  | _ => throw .misuse

def serverCommand (args : List String) : Except Aside Command := do
  match ← values [fun arg => (index? arg).isSome, fun _ => true] false args with
  | [index, name] =>
    match index? index with
    | some i => return .server i name
    | none => throw .misuse
  | _ => throw .misuse

/-- Help may be wanted for one of the commands or for help itself. -/
def helpAbout : List String → Aside
  | [] => .help
  | [word] => if word ∈ [clientWord, serverWord, helpWord] then .help else .misuse
  | _ => .misuse

def parse : List String → Except Aside Command
  | [] => .error .misuse
  | word :: args =>
    if word = clientWord then clientCommand args
    else if word = serverWord then serverCommand args
    else if word = helpWord then .error (helpAbout args)
    else if asksHelp word then .error .help
    else if asksVersion word then .error .version
    else .error .misuse

/-! ### Running -/

inductive Failure where
  | load (e : LoadFailure)
  | flaw (e : Flaw)
  | resource (e : ResourceError)
  | generation (e : GenerationFailure)
deriving DecidableEq, Repr

def Failure.message : Failure → String
  | .load e => e.message
  | .flaw e => e.message
  | .resource e => e.message
  | .generation e => e.message

/-- The temporary file that the failure keeps. -/
def Failure.temporary? : Failure → Option Place
  | .generation e => e.temporary?
  | _ => none

/-- The path of the target file: the value of a variable of the environment, which may not be empty. -/
def targetPath (env : Environment) (key : String) : Except FileFailure String :=
  match env.lookup key with
  | none => .error (.unnamed key)
  | some path => if path = "" then .error (.unnamed key) else .ok path

/-- The settings of a command, checked. -/
def settings (env : Environment) (t : FileTree) : Except Failure Settings := do
  let s ← (Settings.load env t).mapError .load
  s.validate.mapError .flaw

/-- What a command generates: the path of the target, and the action on it. -/
def plan (command : Command) (env : Environment) (t : FileTree) :
    Except Failure (Generation.Action Generated) := do
  let s ← settings env t
  let path ← (targetPath env s.codegen.targetEnv).mapError fun e => .generation (.file e)
  match command with
  | .client name key =>
    let r ← (Resource.make name key).mapError .resource
    return Generation.client path r s.codegen
  | .server index name =>
    let r ← (Resource.make name none).mapError .resource
    return Generation.server path index r s.codegen

def perform (command : Command) (env : Environment) : EStateM Failure FileTree Generated := fun t =>
  match plan command env t with
  | .error e => .error e t
  | .ok action =>
    match action t with
    | .ok outcome t => .ok outcome t
    | .error e t => .error (.generation e) t

/-! ### Reports -/

/-- What a run tells the caller. -/
structure Report where
  code : UInt32
  output : String := ""
  message : Option String := none
deriving DecidableEq, Repr

def programName : String := "getwatch"

def versionText : String := programName ++ " 0.1.0\n"

def helpText : String := String.join [
  "Injects Get/Watch regions into the file named by `GETWATCH_FILE`\n\n",
  "Usage: ", programName, " <COMMAND>\n\nCommands:\n",
  "  ", clientWord, " <NAME> [KEY_PARAM]  Generate the client accessors for a resource\n",
  "  ", serverWord, " <INDEX> <NAME>      Generate the server handlers for a resource\n",
  "  ", helpWord, "                                 Print this message\n\nOptions:\n",
  "  -h, --help     Print help\n",
  "  -V, --version  Print version\n"]

def Aside.report : Aside → Report
  | .help => ⟨0, helpText, none⟩
  | .version => ⟨0, versionText, none⟩
  | .misuse => ⟨2, "", none⟩

/-- The report of a run with the given arguments, and the tree that it leaves: a failure is reported and let go of. -/
def run (args : List String) (env : Environment) (t : FileTree) : Report × FileTree :=
  match parse args with
  | .error a => (a.report, t)
  | .ok command =>
    match perform command env t with
    | .ok _ t => (⟨0, "", none⟩, t)
    | .error e t => (⟨1, "", some e.message⟩, t.letGo e.temporary?)

end CommandLine

end ResourceWatch
