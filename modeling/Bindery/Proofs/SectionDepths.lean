import Bindery.Proofs.DocumentShape

/-! How deep the sections of a document are. A section stands as deep as its node is by itself and as far down as it is
nested, as far as there is room. All of this holds at any depth of a graph, and so every section is deeper than the one
around it, unless it is as deep as a section can be. -/

namespace Bindery

namespace Entry

mutual

/-- Only index nodes have entries below them. -/
def IsIndexed : Entry → Prop
  | .leaf _ => True
  | .branch root entries => root.kind = .index ∧ AllIndexed entries

def AllIndexed : List Entry → Prop
  | [] => True
  | entry :: entries => IsIndexed entry ∧ AllIndexed entries

end

end Entry

theorem Section.preorder_eq (part : Section) : part.preorder = part :: Section.preorderAll part.children := by
  cases part
  rfl

namespace Compositor

/-- What a section is to its node, where it stands `nesting` branches down. -/
structure IsSectionOf (compositor : Compositor) (nesting : Nat) (node : Node) (part : Section) : Prop where
  nodeId : part.nodeId = some node.id
  depth : (part.depth : Int) = min compositor.deepest (nominalDepth node + nesting)
  atLeast : 3 ≤ part.depth
  atMost : (part.depth : Int) ≤ compositor.deepest

mutual

/-- A section for an entry, and in it the sections for the entries below. -/
def LaidOut (compositor : Compositor) (nesting : Nat) (entry : Entry) (part : Section) : Prop :=
  match entry with
  | .leaf node => compositor.IsSectionOf nesting node part ∧ part.children = []
  | .branch root entries =>
    compositor.IsSectionOf nesting root part ∧ AllLaidOut compositor (nesting + 1) entries part.children

/-- One section for each entry, in their order. -/
def AllLaidOut (compositor : Compositor) (nesting : Nat) (entries : List Entry) (parts : List Section) : Prop :=
  match entries, parts with
  | [], [] => True
  | entry :: entries, part :: parts => LaidOut compositor nesting entry part ∧ AllLaidOut compositor nesting entries parts
  | _, _ => False

end

variable {compositor : Compositor}

theorem LaidOut.isSectionOf {nesting : Nat} {entry : Entry} {part : Section} (laid : compositor.LaidOut nesting entry part) :
    compositor.IsSectionOf nesting entry.node part := by
  cases entry with
  | leaf node => exact laid.1
  | branch root entries => exact laid.1

theorem AllLaidOut.of_mem {nesting : Nat} {entries : List Entry} {parts : List Section}
    (laid : compositor.AllLaidOut nesting entries parts) {part : Section} (member : part ∈ parts) :
    ∃ entry ∈ entries, compositor.LaidOut nesting entry part := by
  match entries, parts with
  | [], [] => cases member
  | entry :: entries, first :: parts =>
    rcases List.mem_cons.mp member with rfl | later
    · exact ⟨entry, List.mem_cons_self, laid.1⟩
    · obtain ⟨other, inside, found⟩ := laid.2.of_mem later
      exact ⟨other, List.mem_cons_of_mem _ inside, found⟩

/-! ### One branch further down -/

theorem nominalDepth_of_index {node : Node} (index : node.kind = .index) : nominalDepth node = 3 := by
  unfold nominalDepth
  rw [index]

namespace IsSectionOf
variable {nesting : Nat} {root node : Node} {parent child : Section}

theorem depth_le (outer : compositor.IsSectionOf nesting root parent)
    (inner : compositor.IsSectionOf (nesting + 1) node child) : parent.depth ≤ child.depth := by
  have above := outer.depth
  have below := inner.depth
  have rootBounds := nominalDepth_bounds root
  have nodeBounds := nominalDepth_bounds node
  omega

theorem depth_lt (outer : compositor.IsSectionOf nesting root parent)
    (inner : compositor.IsSectionOf (nesting + 1) node child) (index : root.kind = .index)
    (room : (child.depth : Int) ≠ compositor.deepest) : parent.depth < child.depth := by
  have above := outer.depth
  have below := inner.depth
  have nominal := nominalDepth_of_index index
  have nodeBounds := nominalDepth_bounds node
  omega

end IsSectionOf

/-! ### All the way down -/

/-- A section and one right inside it, for a node and one right below it. -/
def IsStep (compositor : Compositor) (indexed : Prop) (parent child : Section) : Prop :=
  ∃ nesting root node, compositor.IsSectionOf nesting root parent ∧ compositor.IsSectionOf (nesting + 1) node child ∧
    (indexed → root.kind = .index)

theorem IsStep.mono {indexed also : Prop} (implied : also → indexed) {parent child : Section}
    (step : compositor.IsStep indexed parent child) : compositor.IsStep also parent child := by
  obtain ⟨nesting, root, node, outer, inner, index⟩ := step
  exact ⟨nesting, root, node, outer, inner, fun given => index (implied given)⟩

mutual

theorem LaidOut.isStep {nesting : Nat} {entry : Entry} {part : Section} (laid : compositor.LaidOut nesting entry part) :
    ∀ parent ∈ part.preorder, ∀ child ∈ parent.children, compositor.IsStep entry.IsIndexed parent child := by
  match entry with
  | .leaf node =>
    intro parent member child inside
    rw [Section.preorder_eq, laid.2] at member
    obtain rfl := List.mem_singleton.mp member
    rw [laid.2] at inside
    cases inside
  | .branch root entries =>
    intro parent member child inside
    rw [Section.preorder_eq] at member
    rcases List.mem_cons.mp member with rfl | below
    · obtain ⟨entry, _, found⟩ := laid.2.of_mem inside
      exact ⟨nesting, root, entry.node, laid.1, found.isSectionOf, fun indexed => indexed.1⟩
    · exact (AllLaidOut.isStep laid.2 parent below child inside).mono fun indexed => indexed.2

theorem AllLaidOut.isStep {nesting : Nat} {entries : List Entry} {parts : List Section}
    (laid : compositor.AllLaidOut nesting entries parts) :
    ∀ parent ∈ Section.preorderAll parts, ∀ child ∈ parent.children,
      compositor.IsStep (Entry.AllIndexed entries) parent child := by
  match entries, parts with
  | [], [] =>
    intro parent member
    cases member
  | entry :: entries, part :: parts =>
    intro parent member child inside
    rcases List.mem_append.mp member with first | later
    · exact (LaidOut.isStep laid.1 parent first child inside).mono fun indexed => indexed.1
    · exact (AllLaidOut.isStep laid.2 parent later child inside).mono fun indexed => indexed.2

end

section
variable (room : 3 ≤ compositor.deepest) (known : compositor.deepest ≤ 6)
include room known

theorem isSectionOf_sectionFor (nesting : Nat) (node : Node) (children : List Section) :
    compositor.IsSectionOf nesting node (compositor.sectionFor nesting node children) := by
  obtain ⟨depth, atLeast, atMost⟩ := cast_depth_sectionFor room known nesting node children
  exact ⟨rfl, depth, atLeast, atMost⟩

theorem allLaidOut_mirrorAll (nesting : Nat) (entries : List Entry) :
    compositor.AllLaidOut nesting entries (mirrorAll compositor nesting entries) := by
  match entries with
  | [] => trivial
  | .leaf node :: entries =>
    exact ⟨⟨isSectionOf_sectionFor room known nesting node [], rfl⟩, allLaidOut_mirrorAll nesting entries⟩
  | .branch root inner :: entries =>
    exact ⟨⟨isSectionOf_sectionFor room known nesting root _, allLaidOut_mirrorAll (nesting + 1) inner⟩,
      allLaidOut_mirrorAll nesting entries⟩

/-- A graph is assembled whatever it is, with one section for each entry as deep as it is nested. No section is less
deep than the one around it, and below index nodes it is deeper, or else there is no room. -/
theorem exists_assemble_laidOut (isTrueRoot : Bool) (reference : Option Text) (graph : ContentGraph) :
    ∃ document, compositor.assemble isTrueRoot reference graph = .ok document ∧
      compositor.AllLaidOut 0 graph.entries document.sections ∧
      ∀ parent ∈ document.preorder, ∀ child ∈ parent.children,
        parent.depth ≤ child.depth ∧
          (Entry.AllIndexed graph.entries → parent.depth < child.depth ∨ (child.depth : Int) = compositor.deepest) := by
  obtain ⟨document, assembled, sections⟩ := exists_assemble room known isTrueRoot reference graph
  have laid : compositor.AllLaidOut 0 graph.entries document.sections := by
    rw [sections]
    exact allLaidOut_mirrorAll room known 0 graph.entries
  refine ⟨document, assembled, laid, fun parent member child inside => ?_⟩
  obtain ⟨nesting, root, node, outer, inner, index⟩ := laid.isStep parent member child inside
  refine ⟨outer.depth_le inner, fun indexed => ?_⟩
  by_cases deepest : (child.depth : Int) = compositor.deepest
  · exact Or.inr deepest
  · exact Or.inl (outer.depth_lt inner (index indexed) deepest)

end

def nestedBook : ContentGraph where
  root := ⟨"work-1", "alice", .index, some 30040, [⟨"d", "work"⟩], "", 0⟩
  entries :=
    [.branch ⟨"part-1", "alice", .index, some 30040, [⟨"d", "part"⟩], "", 0⟩
       [.branch ⟨"chapter-1", "alice", .index, some 30040, [⟨"d", "chapter"⟩], "", 0⟩
          [.leaf ⟨"verse-1", "alice", .leaf, some 30041, [⟨"d", "verse"⟩, ⟨"s", "1"⟩], "text", 0⟩,
           .leaf ⟨"note-1", "alice", .leaf, some 30041, [⟨"d", "note"⟩], "text", 0⟩]],
     .leaf ⟨"afterword-1", "alice", .leaf, some 30041, [⟨"d", "afterword"⟩, ⟨"s", "2"⟩], "text", 0⟩]

def shallowCompositor : Compositor := ⟨.markdown, 60, "", 5⟩

/-- The verse would stand a level deeper than the note next to it, were there room. -/
theorem nestedBook_laidOut :
    Entry.AllIndexed nestedBook.entries ∧
      ∃ document, shallowCompositor.assemble true none nestedBook = .ok document ∧
        document.preorder.map Section.depth = [3, 4, 5, 5, 4] ∧
        ∀ parent ∈ document.preorder, ∀ child ∈ parent.children, parent.depth < child.depth ∨ (child.depth : Int) = 5 := by
  have indexed : Entry.AllIndexed nestedBook.entries := by
    simp [nestedBook, Entry.AllIndexed, Entry.IsIndexed]
  have room : 3 ≤ shallowCompositor.deepest := by decide
  have known : shallowCompositor.deepest ≤ 6 := by decide
  obtain ⟨document, assembled, _, deeper⟩ := exists_assemble_laidOut room known true none nestedBook
  refine ⟨indexed, document, assembled, ?_, fun parent member child inside => (deeper parent member child inside).2 indexed⟩
  cases assembled
  decide +kernel

end Compositor
end Bindery
