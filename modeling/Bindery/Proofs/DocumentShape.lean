import Bindery.Document.Compositor
import Mathlib.Data.List.Forall2

/-! The shape of an assembled document. With a deepest level that formats know, no section is refused: there is
one section for every node below the root of the graph, in the same order and the same nesting. -/

namespace Bindery

namespace Entry

mutual

/-- The nodes of an entry and of all entries below it, each before those below it. -/
def nodes : Entry → List Node
  | .leaf node => [node]
  | .branch root entries => root :: nodesOfAll entries

def nodesOfAll : List Entry → List Node
  | [] => []
  | entry :: entries => nodes entry ++ nodesOfAll entries

end

mutual

theorem nodeIds_eq_map (entry : Entry) : entry.nodeIds = entry.nodes.map Node.id := by
  match entry with
  | .leaf node => rfl
  | .branch root entries => rw [nodeIds, nodes, List.map_cons, nodeIdsOfAll_eq_map entries]

theorem nodeIdsOfAll_eq_map (entries : List Entry) : nodeIdsOfAll entries = (nodesOfAll entries).map Node.id := by
  match entries with
  | [] => rfl
  | entry :: entries =>
    rw [nodeIdsOfAll, nodesOfAll, List.map_append, nodeIds_eq_map entry, nodeIdsOfAll_eq_map entries]

end

end Entry

/-- All nodes below the root. -/
def ContentGraph.nodes (graph : ContentGraph) : List Node :=
  Entry.nodesOfAll graph.entries

namespace Compositor
open Text

/-- The section of a node, were any depth allowed. -/
def sectionFor (compositor : Compositor) (nesting : Nat) (node : Node) (children : List Section) : Section :=
  ⟨(compositor.depth nesting node).toNat, compositor.headingText node,
    strip (Heading.renumber compositor.markup compositor.deepest (compositor.depth nesting node) node.body),
    some node.id, children⟩

mutual

def mirror (compositor : Compositor) (nesting : Nat) : Entry → Section
  | .leaf node => compositor.sectionFor nesting node []
  | .branch root entries => compositor.sectionFor nesting root (mirrorAll compositor (nesting + 1) entries)

def mirrorAll (compositor : Compositor) (nesting : Nat) : List Entry → List Section
  | [] => []
  | entry :: entries => mirror compositor nesting entry :: mirrorAll compositor nesting entries

end

/-- What holds of each node and its section holds all the way down a graph. -/
theorem forall₂_mirrorAll {compositor : Compositor} {related : Node → Section → Prop}
    (each : ∀ nesting node children, related node (compositor.sectionFor nesting node children))
    (nesting : Nat) (entries : List Entry) :
    List.Forall₂ related (Entry.nodesOfAll entries) (Section.preorderAll (mirrorAll compositor nesting entries)) := by
  match entries with
  | [] => exact .nil
  | .leaf node :: entries =>
    exact .cons (each nesting node []) (forall₂_mirrorAll each nesting entries)
  | .branch root inner :: entries =>
    exact List.rel_append (.cons (each nesting root _) (forall₂_mirrorAll each (nesting + 1) inner))
      (forall₂_mirrorAll each nesting entries)

theorem exists_node_of_mem {related : Node → Section → Prop} {nodes : List Node} {parts : List Section}
    (mirrored : List.Forall₂ related nodes parts) {part : Section} (member : part ∈ parts) :
    ∃ node ∈ nodes, related node part := by
  induction mirrored with
  | nil => cases member
  | cons here rest ih =>
    rcases List.mem_cons.mp member with rfl | later
    · exact ⟨_, List.mem_cons_self, here⟩
    · obtain ⟨node, present, holds⟩ := ih later
      exact ⟨node, List.mem_cons_of_mem _ present, holds⟩

theorem nominalDepth_bounds (node : Node) : 3 ≤ nominalDepth node ∧ nominalDepth node ≤ 4 := by
  unfold nominalDepth
  split <;> decide

section
variable {compositor : Compositor} (room : 3 ≤ compositor.deepest) (known : compositor.deepest ≤ 6)
include room known

theorem depth_bounds (nesting : Nat) (node : Node) :
    3 ≤ compositor.depth nesting node ∧ compositor.depth nesting node ≤ compositor.deepest := by
  have nominal := nominalDepth_bounds node
  unfold depth
  omega

theorem cast_depth_sectionFor (nesting : Nat) (node : Node) (children : List Section) :
    ((compositor.sectionFor nesting node children).depth : Int) = compositor.depth nesting node ∧
      3 ≤ (compositor.sectionFor nesting node children).depth ∧
      ((compositor.sectionFor nesting node children).depth : Int) ≤ compositor.deepest := by
  obtain ⟨lower, upper⟩ := depth_bounds room known nesting node
  simp only [sectionFor]
  omega

theorem sectionOf_eq_ok (nesting : Nat) (node : Node) (children : List Section) :
    compositor.sectionOf nesting node children = .ok (compositor.sectionFor nesting node children) := by
  obtain ⟨lower, upper⟩ := depth_bounds room known nesting node
  have checked : Section.checkDepth (compositor.depth nesting node) = .ok (compositor.depth nesting node).toNat := by
    rw [Section.checkDepth, if_neg (by omega), if_neg (by omega)]
  rw [sectionOf, checked]
  rfl

theorem entrySections_eq_ok (nesting : Nat) (entries : List Entry) :
    compositor.entrySections nesting entries = .ok (mirrorAll compositor nesting entries) := by
  match entries with
  | [] => rfl
  | .leaf node :: entries =>
    rw [entrySections, entrySection, sectionOf_eq_ok room known, entrySections_eq_ok nesting entries]
    rfl
  | .branch root inner :: entries =>
    rw [entrySections, entrySection, entrySections_eq_ok (nesting + 1) inner, entrySections_eq_ok nesting entries]
    exact congrArg (· >>= _) (sectionOf_eq_ok room known nesting root _)

/-- Assembling never fails, and the sections mirror the entries. -/
theorem exists_assemble (isTrueRoot : Bool) (reference : Option Text) (graph : ContentGraph) :
    ∃ document, compositor.assemble isTrueRoot reference graph = .ok document ∧
      document.sections = mirrorAll compositor 0 graph.entries := by
  unfold assemble
  rw [entrySections_eq_ok room known]
  exact ⟨_, rfl, rfl⟩

end

end Compositor
end Bindery
