import Bindery.Node.Basic

/-! An archive keeps nodes, one for each id. A node is kept with the identifier that its tags give it. -/

namespace Bindery

structure Row where
  id : Text
  kind : Int
  owner : Text
  name : Option Text
  tags : List Tag
  body : Text
  createdAt : Int
  deriving DecidableEq, Repr

/-- Rows in the order in which their ids came in. -/
structure Archive where
  rows : List Row
  deriving DecidableEq, Repr

inductive StoringError where
  | noKindNumber (id : Text)
  | integerTooLarge
  deriving DecidableEq, Repr

namespace StoringError

def message : StoringError → Text
  | .noKindNumber id => "Node " ++ id ++ " has no kind number and cannot be stored"
  | .integerTooLarge => "Python int too large to convert to SQLite INTEGER"

end StoringError

/-- What became of a node that was put into an archive. -/
inductive Status where
  | created
  | updated
  | unchanged
  deriving DecidableEq, Repr

def Status.name : Status → Text
  | .created => "created"
  | .updated => "updated"
  | .unchanged => "unchanged"

/-- Integers of 64 bits. -/
def isStorable (n : Int) : Bool :=
  -9223372036854775808 ≤ n && n ≤ 9223372036854775807

namespace Row

def ofNode (kind : Int) (node : Node) : Row :=
  ⟨node.id, kind, node.owner, node.name, node.tags, node.body, node.createdAt⟩

/-- A row of the same id that holds what a node holds. -/
def revised (row : Row) (kind : Int) (node : Node) : Row :=
  { row with
    kind := kind, owner := node.owner, name := node.name, tags := node.tags, body := node.body
    createdAt := node.createdAt }

/-- Whether a row holds what a node holds. Identifiers are not compared; the tags give them. -/
def agreesWith (row : Row) (kind : Int) (node : Node) : Bool :=
  row.kind = kind && row.owner = node.owner && row.tags = node.tags && row.body = node.body
    && row.createdAt = node.createdAt

/-- Whether a row is of an index or a leaf depends on the kinds that count as indexes. -/
def toNode (indexKinds : List Int) (row : Row) : Node :=
  ⟨row.id, row.owner, .ofNumber indexKinds row.kind, some row.kind, row.tags, row.body, row.createdAt⟩

def isStorable (row : Row) : Bool :=
  Bindery.isStorable row.kind && Bindery.isStorable row.createdAt

end Row

namespace Archive

def empty : Archive := ⟨[]⟩

def row? (archive : Archive) (id : Text) : Option Row :=
  archive.rows.find? (·.id = id)

/-- Puts a row in the place of the one with its id, or in the last place. -/
def keep (archive : Archive) (row : Row) : Archive :=
  if (archive.row? row.id).isSome then
    ⟨archive.rows.map fun other => if other.id = row.id then row else other⟩
  else ⟨archive.rows ++ [row]⟩

/-- Keeps a row, if its numbers are small enough, and reports it. -/
def keepAs (archive : Archive) (status : Status) (row : Row) :
    Except StoringError (Archive × Status × Row) :=
  if row.isStorable then .ok (archive.keep row, status, row) else .error .integerTooLarge

/-- Puts a node into an archive. -/
def put (archive : Archive) (node : Node) : Except StoringError (Archive × Status × Row) :=
  match node.kindNumber with
  | none => .error (.noKindNumber node.id)
  | some kind =>
    match archive.row? node.id with
    | none => archive.keepAs .created (Row.ofNode kind node)
    | some row =>
      if row.agreesWith kind node then .ok (archive, .unchanged, row)
      else archive.keepAs .updated (row.revised kind node)

/-- Puts nodes one after another; if one cannot be kept, none is. -/
def putAll (archive : Archive) : List Node → Except StoringError (Archive × List (Status × Row))
  | [] => .ok (archive, [])
  | node :: nodes => do
    let (archive, result) ← archive.put node
    let (archive, results) ← putAll archive nodes
    return (archive, result :: results)

end Archive
end Bindery
