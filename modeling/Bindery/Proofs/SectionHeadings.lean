import Bindery.Proofs.DocumentShape
import Bindery.Proofs.EmbeddedHeadings

/-! Headings in the bodies of an assembled document, against the depth of the sections that they stand in. -/

namespace Bindery.Compositor
open Heading.AsciiDoc

/-- Levels of headings in the body of a section are below it, or can go no deeper. -/
def KeepsBelow (compositor : Compositor) (part : Section) (levels : List Nat) : Prop :=
  ∀ level ∈ levels, IsBelow compositor.deepest part.depth level

section
variable {compositor : Compositor} (asciiDoc : compositor.markup = .asciiDoc) (room : 3 ≤ compositor.deepest)
  (known : compositor.deepest ≤ 6)
include asciiDoc room known

theorem keepsBelow_sectionFor_iff (nesting : Nat) (node : Node) (children : List Section) :
    compositor.KeepsBelow (compositor.sectionFor nesting node children)
        (headingLevels (compositor.sectionFor nesting node children).body) ↔
      compositor.KeepsBelow (compositor.sectionFor nesting node children) (exposedLevels node.body) := by
  have depth := (cast_depth_sectionFor room known nesting node children).1
  unfold KeepsBelow
  rw [depth, sectionFor, asciiDoc]
  exact forall_headingLevels_strip_renumber (by omega) known _ node.body

/-- Where no body starts with an indented line, all headings in a document are below their sections. -/
theorem headings_below_sections (isTrueRoot : Bool) (reference : Option Text) (graph : ContentGraph)
    (flush : ∀ node ∈ graph.nodes, StartsFlush node.body) :
    ∃ document, compositor.assemble isTrueRoot reference graph = .ok document ∧
      ∀ part ∈ document.preorder, compositor.KeepsBelow part (headingLevels part.body) := by
  obtain ⟨document, assembled, sections⟩ := exists_assemble room known isTrueRoot reference graph
  have mirrored : List.Forall₂
      (fun node part => StartsFlush node.body → compositor.KeepsBelow part (headingLevels part.body))
      graph.nodes document.preorder := by
    rw [Document.preorder, sections]
    refine forall₂_mirrorAll (fun nesting node children flush => ?_) 0 graph.entries
    rw [keepsBelow_sectionFor_iff asciiDoc room known, exposedLevels_eq_nil flush]
    exact fun _ member => absurd member List.not_mem_nil
  refine ⟨document, assembled, fun part member => ?_⟩
  obtain ⟨node, present, keeps⟩ := exists_node_of_mem mirrored member
  exact keeps (flush node present)

end

/-- A document has one section for each node of a graph. The headings in its body are below the section just
where all those are that come to light as the indentation of the first line is stripped. -/
theorem headings_below_sections_iff (compositor : Compositor) (asciiDoc : compositor.markup = .asciiDoc)
    (room : 3 ≤ compositor.deepest) (known : compositor.deepest ≤ 6) (isTrueRoot : Bool) (reference : Option Text)
    (graph : ContentGraph) :
    ∃ document, compositor.assemble isTrueRoot reference graph = .ok document ∧
      List.Forall₂ (fun node part => part.nodeId = some node.id ∧
          (3 ≤ part.depth ∧ (part.depth : Int) ≤ compositor.deepest) ∧
          (compositor.KeepsBelow part (headingLevels part.body) ↔
            compositor.KeepsBelow part (exposedLevels node.body)))
        graph.nodes document.preorder := by
  obtain ⟨document, assembled, sections⟩ := exists_assemble room known isTrueRoot reference graph
  refine ⟨document, assembled, ?_⟩
  rw [Document.preorder, sections]
  refine forall₂_mirrorAll (fun nesting node children => ⟨rfl, ?_, ?_⟩) 0 graph.entries
  · exact (cast_depth_sectionFor room known nesting node children).2
  · exact keepsBelow_sectionFor_iff asciiDoc room known nesting node children

def bookOfOneChapter : ContentGraph where
  root := ⟨"work-1", "alice", .index, some 30040, [⟨"d", "work"⟩, ⟨"title", "Work"⟩], "", 0⟩
  entries := [.leaf ⟨"chapter-1", "alice", .leaf, some 30041, [⟨"d", "chapter"⟩, ⟨"title", "Chapter"⟩], " = Top", 0⟩]

def plainCompositor : Compositor := ⟨.asciiDoc, 60, "", 6⟩

/-- The indented line of the chapter is no heading until it is stripped. Then it is one of the first level. -/
theorem indented_heading_above_section :
    ∃ document, plainCompositor.assemble true none bookOfOneChapter = .ok document ∧
      ∃ part ∈ document.preorder, ¬ plainCompositor.KeepsBelow part (headingLevels part.body) := by
  obtain ⟨document, assembled, mirrored⟩ :=
    headings_below_sections_iff plainCompositor rfl (by decide) (by decide) true none bookOfOneChapter
  obtain ⟨part, _, ⟨_, depth, keeps⟩, _, sections⟩ := List.forall₂_cons_left_iff.mp mirrored
  refine ⟨document, assembled, part, sections ▸ List.mem_cons_self, fun below => ?_⟩
  have exposed : 1 ∈ exposedLevels " = Top" := by decide
  have bounds := keeps.mp below 1 exposed
  simp only [IsBelow, plainCompositor] at bounds
  omega

end Bindery.Compositor
