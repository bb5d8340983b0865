import Bindery.Node.Check

/-! Nodes as they come over the wire: records with loosely typed fields. The owner and the body go by two
names each; of a tag all but its key and value is dropped. -/

namespace Bindery

inductive RecordError where
  | missing (name : Text)
  | noNumber (value : Data)
  | number (error : NumberError)
  | undefinedNumber
  | infiniteNumber
  | noSequence (value : Data)
  | malformedTag (shown : Text)
  | refused (invalid : Invalid)
  deriving Repr

namespace RecordError

def message (refused : Invalid → Text) : RecordError → Text
  | .missing name => Text.quoted name
  | .noNumber value =>
    "int() argument must be a string, a bytes-like object or a real number, not "
      ++ Text.quoted value.qualifiedTypeName
  | .number error => error.message
  | .undefinedNumber => "cannot convert float NaN to integer"
  | .infiniteNumber => "cannot convert float infinity to integer"
  | .noSequence value => Text.quoted value.qualifiedTypeName ++ " object is not iterable"
  | .malformedTag shown => "tag must be a [key, value] list, got " ++ shown
  | .refused invalid => refused invalid

end RecordError

namespace Record
open Check

/-- A whole number, for which texts and floats may stand; a fraction is cut off. -/
def integer : Data → Except RecordError Int
  | .bool value => .ok (if value then 1 else 0)
  | .int value => .ok value
  | .float .undefined => .error .undefinedNumber
  | .float value => match value.truncate? with
    | some n => .ok n
    | none => .error .infiniteNumber
  | .text value => (Text.readInt value).mapError .number
  | value => .error (.noNumber value)

/-- Any value as text. -/
def textOf (value : Data) : Except RecordError Text :=
  value.toText.mapError .number

def field (fields : Fields) (name : Text) : Except RecordError Data :=
  match Data.fieldOf? fields name with
  | some value => .ok value
  | none => .error (.missing name)

/-- A field with a value that counts as present. -/
def presentField? (fields : Fields) (name : Text) : Option Data :=
  (Data.fieldOf? fields name).filter Data.isPresent

/-- What a value that is gone through item by item yields: a text its characters, a mapping its keys. -/
def items : Data → Except RecordError (List Data)
  | .list items => .ok items
  | .text value => .ok (value.map fun c => .text [c])
  | .map fields => .ok (fields.map (·.1))
  | value => .error (.noSequence value)

def tag (value : Data) : Except RecordError Tag :=
  match value with
  | .list (key :: value :: _) => do return ⟨← textOf key, ← textOf value⟩
  | _ =>
    match value.shown with
    | .ok shown => .error (.malformedTag shown)
    | .error error => .error (.number error)

def tags (fields : Fields) : Except RecordError (List Tag) := do
  match presentField? fields "tags" with
  | none => return []
  | some value => (← items value).mapM tag

def owner (fields : Fields) : Except RecordError Text := do
  match presentField? fields "owner_key" with
  | some value => textOf value
  | none => textOf (← field fields "pubkey")

/-- The body under its own name, even if empty, else the content. -/
def body (fields : Fields) : Data :=
  let value := ((Data.fieldOf? fields "body").or (Data.fieldOf? fields "content")).getD .null
  if value.isPresent then value else .text []

def createdAt (fields : Fields) : Except RecordError Int :=
  integer ((presentField? fields "created_at").getD (.int 0))

end Record

namespace Node
open Check Checked

/-- A node from its record. The kinds of index nodes decide which nodes are branches. -/
def ofRecord (indexKinds : List Int) (fields : Fields) : Except RecordError Node := do
  let kind ← Record.integer (← Record.field fields "kind")
  let tags ← Record.tags fields
  let id ← Record.textOf (← Record.field fields "id")
  let owner ← Record.owner fields
  let createdAt ← Record.createdAt fields
  let body ← (Checked.named "ContentNode" (within "body" (text (Record.body fields)))).mapError .refused
  return ⟨id, owner, .ofNumber indexKinds kind, some kind, tags, body, createdAt⟩

end Node
end Bindery
