import Bindery.Graph.Trace
import Bindery.Storage.Workspace

/-! A run of a command: what it prints, what it reports, and how it ends. -/

namespace Bindery
open Bindery.Graph

/-- What a run leaves behind for the user. -/
structure Report where
  output : Text
  errors : Text
  deriving DecidableEq, Repr

/-- How a run ends. -/
inductive Ending where
  | done
  | failed
  | misused
  deriving DecidableEq, Repr

def Ending.exitCode : Ending → Nat
  | .done => 0
  | .failed => 1
  | .misused => 2

/-- Steps of a run, in which the first that fails is the last. -/
abbrev Session (m : Type → Type) := ExceptT Ending (StateT Report m)

namespace Session

variable {m : Type → Type} [Monad m] {α : Type}

/-- A run works on what its steps work on. -/
instance [Workspace m] : Workspace (Session m) where
  environment := monadLift (Workspace.environment : m (Text → Option Text))
  isDirectory path := monadLift (Workspace.isDirectory path : m Bool)
  read path := monadLift (Workspace.read path : m Source)
  makeOne path := monadLift (Workspace.makeOne path : m (Except FileError Unit))
  write path content := monadLift (Workspace.write path content : m (Except FileError Unit))

def line (text : Text) : Text :=
  text ++ ['\n']

/-- Prints a line. -/
def say (text : Text) : Session m Unit :=
  modify fun report => { report with output := report.output ++ line text }

def tell (text : Text) : Session m Unit :=
  modify fun report => { report with errors := report.errors ++ line text }

/-- Ends a run with an error that the user can mend, and what it comes from if that is another error. -/
def fail (message : Text) (cause : Option Text) : Session m α := do
  tell ("Error: " ++ message)
  if let some cause := cause then tell ("  " ++ cause)
  throw .failed

/-- Ends a run that could not be foreseen to fail. -/
def abandon (message : Text) : Session m α := do
  tell ("Stopped: " ++ message)
  throw .failed

/-- Reports what happened in a part of the program, if it is as grave as what is asked for. -/
def note (least severity : Severity) (part message : Text) : Session m Unit :=
  if least.rank ≤ severity.rank then tell (severity.name ++ " " ++ part ++ ": " ++ message) else pure ()

/-- Runs a session from the beginning. -/
def start (session : Session m Unit) : m (Ending × Report) := do
  let (result, report) ← (session.run).run ⟨[], []⟩
  return match result with
    | .ok () => (.done, report)
    | .error ending => (ending, report)

end Session
end Bindery
