import ResourceWatch.Rendering
import ResourceWatch.Text.Blank

/-!
# Settings

The settings of the generator and of the runtime, in three sections, with their defaults and the check that they make
sense: a target variable that is not blank, paths of identifiers for the names, and no number that is zero.
-/

namespace ResourceWatch

def defaultWatchQueue : Nat := 1

def defaultReplyBuffer : Nat := 1

def defaultEventBuffer : Nat := 16

structure ClientSettings where
  /-- The time limit of unary calls, in milliseconds. -/
  requestTimeout : Nat := 3000
  /-- How many replies a watcher holds ready. -/
  watchQueue : Nat := defaultWatchQueue
deriving DecidableEq, Repr

structure WatchSettings where
  eventBuffer : Nat := defaultEventBuffer
  replyBuffer : Nat := defaultReplyBuffer
deriving DecidableEq, Repr

structure Settings where
  codegen : Naming := {}
  client : ClientSettings := {}
  watch : WatchSettings := {}
deriving DecidableEq, Repr

/-- The time limit in nanoseconds. -/
def ClientSettings.requestTimeoutNanos (c : ClientSettings) : Nat := c.requestTimeout * 1000000

/-! ### Paths of identifiers -/

/-- Splits at every `::`, from left to right. -/
def splitColons : List Char → List (List Char)
  | [] => [[]]
  | ':' :: ':' :: cs => [] :: splitColons cs
  | c :: cs =>
    match splitColons cs with
    | [] => [[c]]
    | part :: parts => (c :: part) :: parts

def isPath (s : String) : Bool := (splitColons s.toList).all Text.isIdent

/-! ### The fields by name -/

inductive Section where
  | codegen
  | client
  | watch
deriving DecidableEq, Repr

def Section.key : Section → String
  | .codegen => "codegen"
  | .client => "client"
  | .watch => "watch"

inductive NameField where
  | targetEnv
  | protoModule
  | runtimeCrate
  | clientType
deriving DecidableEq, Repr

inductive NumberField where
  | requestTimeout
  | watchQueue
  | eventBuffer
  | replyBuffer
deriving DecidableEq, Repr

inductive Field where
  | name (field : NameField)
  | number (field : NumberField)
deriving DecidableEq, Repr

namespace NameField

def key : NameField → String
  | .targetEnv => "target_env"
  | .protoModule => "proto_module"
  | .runtimeCrate => "runtime_crate"
  | .clientType => "client_type"

def get (n : Naming) : NameField → String
  | .targetEnv => n.targetEnv
  | .protoModule => n.protoModule
  | .runtimeCrate => n.runtimeCrate
  | .clientType => n.clientType

end NameField

namespace NumberField

def home : NumberField → Section
  | .requestTimeout | .watchQueue => .client
  | .eventBuffer | .replyBuffer => .watch

def key : NumberField → String
  | .requestTimeout => "request_timeout_in_ms"
  | .watchQueue => "watch_queue_size"
  | .eventBuffer => "event_buffer_size"
  | .replyBuffer => "reply_buffer_size"

def get (s : Settings) : NumberField → Nat
  | .requestTimeout => s.client.requestTimeout
  | .watchQueue => s.client.watchQueue
  | .eventBuffer => s.watch.eventBuffer
  | .replyBuffer => s.watch.replyBuffer

/-- The field with its section, as messages name it. -/
def path (f : NumberField) : String := f.home.key ++ "." ++ f.key

end NumberField

/-! ### The check -/

inductive Flaw where
  | blankTarget
  | notPath (field : NameField) (value : String)
  | zero (field : NumberField)
deriving DecidableEq, Repr

def Flaw.message : Flaw → String
  | .blankTarget => "codegen.target_env cannot be empty"
  | .notPath field value => "codegen." ++ field.key ++ " must be a Rust path, got " ++ Text.quote value
  | .zero .requestTimeout => NumberField.requestTimeout.path ++ " must be at least 1ms"
  | .zero field => field.path ++ " must be greater than 0"

/-- The first flaw in the order of the checks below. -/
def Settings.flaw? (s : Settings) : Option Flaw :=
  if !Text.hasInk s.codegen.targetEnv then some .blankTarget
  else
    ([.protoModule, .runtimeCrate, .clientType].findSome? fun (f : NameField) =>
      if isPath (f.get s.codegen) then none else some (.notPath f (f.get s.codegen))) <|>
    ([.requestTimeout, .watchQueue, .eventBuffer, .replyBuffer].findSome? fun (f : NumberField) =>
      if f.get s = 0 then some (.zero f) else none)

/-- The settings themselves if they pass the check. -/
def Settings.validate (s : Settings) : Except Flaw Settings :=
  match s.flaw? with
  | none => .ok s
  | some flaw => .error flaw

end ResourceWatch
