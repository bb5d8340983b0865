import Bindery.Link.Reference
import Bindery.Node.Coordinate

/-! Published nodes: an index gathers other nodes, a leaf holds prose. All else about a node is said by
its tags, in order; a key may occur several times. -/

namespace Bindery

inductive NodeKind where
  | index
  | leaf
  deriving DecidableEq, Repr

namespace NodeKind

def name : NodeKind → Text
  | .index => "index"
  | .leaf => "leaf"

def ofNumber (indexKinds : List Int) (number : Int) : NodeKind :=
  if indexKinds.contains number then .index else .leaf

end NodeKind

structure Node where
  id : Text
  owner : Text
  kind : NodeKind
  kindNumber : Option Int
  tags : List Tag
  body : Text
  createdAt : Int
  deriving DecidableEq, Repr

namespace Node

def first (node : Node) (key : Text) : Option Text :=
  (node.tags.find? fun tag => tag.key = key).map Tag.value

def values (node : Node) (key : Text) : List Text :=
  (node.tags.filter fun tag => tag.key = key).map Tag.value

theorem first_eq_head? (node : Node) (key : Text) : node.first key = (node.values key).head? := by
  rw [first, values, List.head?_map, List.head?_filter]

/-- The identifier under which a node is published again. -/
def name (node : Node) : Option Text :=
  node.first "d"

def coordinate (node : Node) : Option Coordinate :=
  match node.kindNumber, Reference.named node.name with
  | some kind, some name => some ⟨kind, node.owner, name⟩
  | _, _ => none

end Node
end Bindery
