import Bindery.Command.Arguments
import Bindery.Data.Basic
import Bindery.Text.Integer

/-! Commands, and the command lines that give them. A command line begins with options for the whole
run, then names a command; the words after that are the command's own. -/

namespace Bindery

/-- What is asked for in place of the settings when a document is assembled. -/
structure AssemblyOptions where
  directory : Option Text
  format : Option Text
  workers : Option Int
  deriving DecidableEq, Repr

inductive Command where
  | prepare (reset : Bool)
  | load (path : Text)
  | parse (link : Text)
  | lookUp (link : Text)
  | assemble (root : Text) (options : AssemblyOptions)
  deriving DecidableEq, Repr

/-- A command line asks for something to be done, or only how to ask. -/
inductive Wanted (α : Type) where
  | help
  | action (value : α)

namespace AssemblyOptions

/-- The settings asked for. -/
def settings (options : AssemblyOptions) : List (Text × Data) :=
  let field (name : Text) (value : Option Data) : Text × Data := (name, value.getD .null)
  [field "output_dir" (options.directory.map .text), field "output_format" (options.format.map .text),
   field "max_workers" (options.workers.map .int)]

end AssemblyOptions

namespace Command

def helpFlag : Flag := ⟨"--help", none⟩
def verboseFlag : Flag := ⟨"--verbose", some 'v'⟩
def resetFlag : Flag := ⟨"--reset", none⟩
def directoryOption : Text := "--out-dir"
def formatOption : Text := "--format"
def workersOption : Text := "--max-workers"

inductive Name where
  | prepare
  | load
  | parse
  | lookUp
  | assemble
  deriving DecidableEq, Repr

namespace Name

def all : List Name :=
  [.prepare, .load, .parse, .lookUp, .assemble]

def text : Name → Text
  | .prepare => "init"
  | .load => "load"
  | .parse => "parse"
  | .lookUp => "lookup"
  | .assemble => "assemble"

def ofText? (text : Text) : Option Name :=
  all.find? (·.text = text)

def options : Name → Options
  | .prepare => ⟨[helpFlag, resetFlag], [], true⟩
  | .assemble => ⟨[helpFlag], [directoryOption, formatOption, workersOption], true⟩
  | _ => ⟨[helpFlag], [], true⟩

end Name

/-- No plain word. -/
def nothing : List Text → Except Misuse Unit
  | [] => .ok ()
  | word :: _ => .error (.argumentUnwanted word)

/-- Just one plain word. -/
def only (name : Text) : List Text → Except Misuse Text
  | [] => .error (.argumentMissing name)
  | [word] => .ok word
  | _ :: word :: _ => .error (.argumentUnwanted word)

def workers (arguments : Arguments) : Except Misuse (Option Int) :=
  (arguments.value? workersOption).mapM fun value =>
    (Text.readInt value).mapError fun _ => .notInteger workersOption value

def ofArguments (name : Name) (arguments : Arguments) : Except Misuse Command :=
  match name with
  | .prepare => do
    nothing arguments.plain
    return .prepare (arguments.has resetFlag.name)
  | .load => .load <$> only "PATH" arguments.plain
  | .parse => .parse <$> only "MACRO" arguments.plain
  | .lookUp => .lookUp <$> only "MACRO" arguments.plain
  | .assemble => do
    let root ← only "ROOT" arguments.plain
    let workers ← workers arguments
    return .assemble root ⟨arguments.value? directoryOption, arguments.value? formatOption, workers⟩

/-- The command of the words after its name. -/
def ofWords (name : Name) (words : List Text) : Except Misuse (Wanted Command) := do
  let arguments ← name.options.sort words
  if arguments.has helpFlag.name then return .help
  return .action (← ofArguments name arguments)

end Command

/-- A command line up to the name of the command. -/
structure Invocation where
  isVerbose : Bool
  name : Command.Name
  words : List Text
  deriving DecidableEq, Repr

namespace Invocation
open Command

def options : Options := ⟨[helpFlag, verboseFlag], [], false⟩

def ofWords (words : List Text) : Except Misuse (Wanted Invocation) := do
  let arguments ← options.sort words
  if arguments.has helpFlag.name then return .help
  match arguments.plain with
  | [] => throw .commandMissing
  | name :: words => match Name.ofText? name with
    | none => throw (.unknownCommand name)
    | some name => return .action ⟨arguments.has verboseFlag.name, name, words⟩

end Invocation
end Bindery
