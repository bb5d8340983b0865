import Bindery.Storage.Source
import Bindery.Title.Canon

/-! Tables of titles kept in files: a list of mappings, each with the three forms of one title. -/

namespace Bindery

/-- Why an entry has no form of a given name. -/
inductive TitleFault where
  | missing (name : Text)
  | noMapping (value : Data)
  deriving Repr

inductive TitleTableError where
  | source (path : Text) (error : SourceError)
  | notList (path : Text) (value : Data)
  | entry (path : Text) (position : Nat) (fault : TitleFault)
  | number (error : NumberError)
  deriving Repr

namespace TitleFault

def message : TitleFault → Text
  | .missing name => Text.quoted name
  | .noMapping (.list _) => "list indices must be integers or slices, not str"
  | .noMapping (.text _) => "string indices must be integers, not 'str'"
  | .noMapping value => Text.quoted value.qualifiedTypeName ++ " object is not subscriptable"

end TitleFault

namespace TitleTableError

def label (path : Text) : Text :=
  "Invalid title map " ++ path ++ ": "

/-- Only a text that is not well-formed, and what is wrong with its entries, is laid to the table. -/
def message (phrases : Phrases) : TitleTableError → Text
  | .source path (.malformed format) => label path ++ phrases.malformed format
  | .source _ error => error.message phrases
  | .notList path value => label path ++ "expected a list, got " ++ value.typeName
  | .entry path position fault =>
    label path ++ "entry " ++ Text.ofNat position ++ " is missing " ++ fault.message
  | .number error => error.message

def isOfContent : TitleTableError → Bool
  | .source _ error => error.isOfContent
  | _ => true

end TitleTableError

namespace TitleEntry

/-- One form of a title, whatever value it is given as. -/
def form (path : Text) (position : Nat) (entry : Data) (name : Text) : Except TitleTableError Text :=
  match entry with
  | .map fields =>
    match Data.fieldOf? fields name with
    | some value => value.toText.mapError TitleTableError.number
    | none => .error (.entry path position (.missing name))
  | _ => .error (.entry path position (.noMapping entry))

def ofData (path : Text) (position : Nat) (entry : Data) : Except TitleTableError TitleEntry := do
  let form := form path position entry
  return ⟨← form "display", ← form "canonical-long", ← form "canonical-short"⟩

def ofItems (path : Text) (position : Nat) : List Data → Except TitleTableError (List TitleEntry)
  | [] => return []
  | item :: items => do
    let first ← ofData path position item
    return first :: (← ofItems path (position + 1) items)

/-- The table in a file; an empty file holds an empty table. -/
def ofSource (path : Text) (source : Source) : Except TitleTableError (List TitleEntry) := do
  let data ← (source.data .yaml).mapError (.source path)
  match data with
  | .list items => ofItems path 0 items
  | value => if value.isPresent then throw (.notList path value) else return []

end TitleEntry
end Bindery
