import Bindery.Data.ValueFault
import Bindery.Json.Reader
import Bindery.Text.Utf8
import Bindery.Validation
import Bindery.Yaml.Reader

/-! Data in files: what reading a file gives, and what may be wrong with it. -/

namespace Bindery

inductive FileFault where
  | missing
  | denied
  | exists
  | notDirectory
  | isDirectory
  | nameTooLong
  | nullInPath
  deriving DecidableEq, Repr

namespace FileFault

/-- The number under which a file system knows a fault; a path that it would not even look at has none. -/
def number? : FileFault → Option Nat
  | .missing => some 2
  | .denied => some 13
  | .exists => some 17
  | .notDirectory => some 20
  | .isDirectory => some 21
  | .nameTooLong => some 36
  | .nullInPath => none

def text : FileFault → Text
  | .missing => "No such file or directory"
  | .denied => "Permission denied"
  | .exists => "File exists"
  | .notDirectory => "Not a directory"
  | .isDirectory => "Is a directory"
  | .nameTooLong => "File name too long"
  | .nullInPath => "embedded null byte"

end FileFault

structure FileError where
  path : Text
  fault : FileFault
  deriving DecidableEq, Repr

def FileError.message (error : FileError) : Text :=
  match error.fault.number? with
  | some number =>
    "[Errno " ++ Text.ofNat number ++ "] " ++ error.fault.text ++ ": " ++ Text.quoted error.path
  | none => error.fault.text

inductive DataFormat where
  | yaml
  | json
  deriving DecidableEq, Repr

/-- How to speak of a text that is not well-formed and of a record that was refused. -/
structure Phrases where
  malformed : DataFormat → Text
  refused : Invalid → Text

/-- The content of a file, if it could be read at all. -/
abbrev Source := Except FileError Bytes

inductive SourceError where
  | file (error : FileError)
  | encoding (error : EncodingError)
  | malformed (format : DataFormat)
  | value (fault : ValueFault)
  deriving DecidableEq, Repr

namespace SourceError

def message (phrases : Phrases) : SourceError → Text
  | .file error => error.message
  | .encoding error => error.message
  | .malformed format => phrases.malformed format
  | .value fault => fault.message

/-- Whether an error is one of content, which the writer of a file can mend. A file that cannot be read
is not, and not every value that there is none of. -/
def isOfContent : SourceError → Bool
  | .file error => error.fault.number?.isNone
  | .value fault => fault.isOfContent
  | _ => true

end SourceError

namespace Source

/-- The text in a file; all line ends are line feeds. -/
def text (source : Source) : Except SourceError Text := do
  let bytes ← source.mapError SourceError.file
  let text ← (Utf8.decode bytes).mapError SourceError.encoding
  return Text.unifyLineEnds text

def readYaml (text : Text) : Except SourceError Data :=
  (Yaml.read text).mapError fun
    | .malformed => .malformed .yaml
    | .value fault => .value fault

def readJson (text : Text) : Except SourceError Data :=
  (Json.read text).mapError fun
    | .malformed => .malformed .json
    | .number error => .value (.number error)

def data (format : DataFormat) (source : Source) : Except SourceError Data := do
  let text ← source.text
  match format with
  | .yaml => readYaml text
  | .json => readJson text

end Source
end Bindery
