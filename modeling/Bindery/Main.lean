import Bindery.Command.Run

/-! The program: its files are those of the machine it runs on. -/

namespace Bindery

def FileFault.ofError : IO.Error → FileFault
  | .noFileOrDirectory .. => .missing
  | .alreadyExists .. => .exists
  | .inappropriateType _ code _ => if code = 21 then .isDirectory else .notDirectory
  | .invalidArgument _ code _ => if code = 36 then .nameTooLong else .denied
  | .resourceExhausted _ code _ => if code = 36 then .nameTooLong else .denied
  | _ => .denied

/-- The result of a step on the file at a path. -/
def onFile {α : Type} (path : Text) (step : String → IO α) : IO (Except FileError α) := do
  if path.contains '\x00' then return .error ⟨path, .nullInPath⟩
  try
    return .ok (← step (String.ofList path))
  catch error =>
    return .error ⟨path, .ofError error⟩

instance : Workspace IO where
  environment := do
    let values ← Settings.fieldNames.mapM fun field => do
      let name := Settings.variableName field
      return (name, (← IO.getEnv (String.ofList name)).map String.toList)
    return fun name => (values.lookup name).join
  isDirectory path := do
    match ← onFile path fun path => IO.FS.readBinFile path with
    | .error ⟨_, .isDirectory⟩ => return true
    | _ => return false
  read path := onFile path fun path => do return (← IO.FS.readBinFile path).toList
  makeOne path := onFile path fun path => IO.FS.createDir path
  write path content := onFile path fun path => IO.FS.writeBinFile path ⟨content.toArray⟩

def Complaint.text (complaint : Complaint) : Text :=
  complaint.name.map fun c => if c = '_' then ' ' else c

/-- How the program speaks of what it cannot read. -/
def programPhrases : Phrases where
  malformed
    | .yaml => "not well-formed YAML"
    | .json => "not well-formed JSON"
  refused invalid := Text.unlines <| invalid.headline :: invalid.errors.map fun error =>
    Text.join ['.'] error.path ++ ": " ++ error.complaint.text

end Bindery

def main (words : List String) : IO UInt32 := do
  let session : Bindery.Session IO Unit :=
    Bindery.Invocation.run Bindery.programPhrases (words.map String.toList)
  let (ending, report) ← session.start
  (← IO.getStdout).putStr (String.ofList report.output)
  (← IO.getStderr).putStr (String.ofList report.errors)
  return ending.exitCode.toUInt32
