import Bindery.Node.Basic

/-! A resolved graph: a root and, in order, the branches and leaves below it. -/

namespace Bindery

inductive Entry where
  | leaf (node : Node)
  | branch (root : Node) (entries : List Entry)
  deriving Repr

structure ContentGraph where
  root : Node
  entries : List Entry
  deriving Repr

namespace Entry

def node : Entry → Node
  | .leaf node => node
  | .branch root _ => root

def isBranch : Entry → Bool
  | .leaf _ => false
  | .branch _ _ => true

mutual

/-- Ids of an entry and of all entries below it, each before those below it. -/
def nodeIds : Entry → List Text
  | .leaf node => [node.id]
  | .branch root entries => root.id :: nodeIdsOfAll entries

def nodeIdsOfAll : List Entry → List Text
  | [] => []
  | entry :: entries => nodeIds entry ++ nodeIdsOfAll entries

end

end Entry

namespace ContentGraph

/-- Ids of all nodes below the root. -/
def nodeIds (graph : ContentGraph) : List Text :=
  Entry.nodeIdsOfAll graph.entries

def branches (graph : ContentGraph) : List Node :=
  (graph.entries.filter Entry.isBranch).map Entry.node

def leaves (graph : ContentGraph) : List Node :=
  (graph.entries.filter (!·.isBranch)).map Entry.node

end ContentGraph
end Bindery
