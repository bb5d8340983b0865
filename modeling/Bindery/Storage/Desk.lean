import Bindery.Storage.Workspace

/-! A workspace that is a value: directories and files by the steps that lead to them from the current
directory. Of what lies above the current directory only the way there is known. -/

namespace Bindery

/-- The steps that lead to a directory or a file; those that lead upwards come first. -/
abbrev Place := List Text

structure Desk where
  environment : List (Text × Text)
  directories : List Place
  files : List (Place × Bytes)

namespace Place

def up : Text := ".."

/-- The first step of a place that is not reached from the current directory. -/
def top : Text := "/"

/-- One step on from a directory. -/
def enter (place : Place) (step : Text) : Place :=
  if step ≠ up then place ++ [step]
  else match place.getLast? with
    | none => [up]
    | some last => if last = up then place ++ [up] else if last = top then place else place.dropLast

/-- Whether a place is the current directory or one above it. -/
def isAbove (place : Place) : Bool :=
  place.all (· = up) || place = [top]

/-- Whether a place is found by going down only. -/
def isInside (place : Place) : Bool :=
  !place.any fun step => step = up || step = top

end Place

namespace Desk

/-- What is found at a place. -/
inductive Item where
  | directory
  | file (content : Bytes)

def empty : Desk := ⟨[], [], []⟩

def item? (desk : Desk) (place : Place) : Option Item :=
  if place.isAbove || desk.directories.contains place then some .directory
  else (desk.files.lookup place).map .file

/-- The most bytes that a step may have. -/
def longestStep : Nat := 255

def follow (desk : Desk) (place : Place) : List Text → Except FileFault Place
  | [] => .ok place
  | step :: steps =>
    match desk.item? place with
    | none => .error .missing
    | some (.file _) => .error .notDirectory
    | some .directory =>
      if longestStep < (Utf8.encode step).length then .error .nameTooLong
      else desk.follow (place.enter step) steps

/-- The place that a path leads to. All but the last of its steps must be there. -/
def place (desk : Desk) (path : Text) : Except FileFault Place :=
  if path.contains '\x00' then .error .nullInPath
  else desk.follow (if (Path.root path).isEmpty then [] else [Place.top]) (Path.steps path)

def isDirectory (desk : Desk) (path : Text) : Bool :=
  match desk.place path with
  | .error _ => false
  | .ok place => match desk.item? place with
    | some .directory => true
    | _ => false

def readFault (desk : Desk) (path : Text) : Except FileFault Bytes := do
  match desk.item? (← desk.place path) with
  | some (.file content) => return content
  | some .directory => throw .isDirectory
  | none => throw .missing

def read (desk : Desk) (path : Text) : Source :=
  (desk.readFault path).mapError fun fault => ⟨path, fault⟩

/-- A desk with one more directory. -/
def makeOne (desk : Desk) (path : Text) : Except FileFault Desk := do
  let place ← desk.place path
  match desk.item? place with
  | some _ => throw .exists
  | none => return { desk with directories := desk.directories ++ [place] }

/-- Files in the order in which they first came. -/
def keep (files : List (Place × Bytes)) (place : Place) (content : Bytes) : List (Place × Bytes) :=
  if (files.lookup place).isSome then
    files.map fun file => if file.1 = place then (place, content) else file
  else files ++ [(place, content)]

def write (desk : Desk) (path : Text) (content : Bytes) : Except FileFault Desk := do
  let place ← desk.place path
  match desk.item? place with
  | some .directory => throw .isDirectory
  | _ => return { desk with files := keep desk.files place content }

/-- A change to a desk; a desk that cannot be changed stays as it is. -/
def change (path : Text) (step : Desk → Except FileFault Desk) : StateM Desk (Except FileError Unit) := do
  match step (← get) with
  | .ok desk =>
    set desk
    return .ok ()
  | .error fault => return .error ⟨path, fault⟩

instance : Workspace (StateM Desk) where
  environment := do
    let values := (← get).environment
    return fun name => values.lookup name
  isDirectory path := do return (← get).isDirectory path
  read path := do return (← get).read path
  makeOne path := change path (·.makeOne path)
  write path content := change path (·.write path content)

/-- A desk with a file on it, in directories made for it. -/
def withFile (desk : Desk) (path : Text) (content : Bytes) : Desk :=
  let steps : StateM Desk Unit := do
    let _ ← Workspace.makeDirectory (Path.parent path)
    let _ ← Workspace.write path content
  (steps.run desk).2

/-- The paths and contents of the files below the current directory. -/
def contents (desk : Desk) : List (Text × Bytes) :=
  (desk.files.filter (·.1.isInside)).map fun (place, content) => (Path.ofSteps [] place, content)

end Desk
end Bindery
