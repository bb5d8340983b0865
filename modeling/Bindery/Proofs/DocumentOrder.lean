import Bindery.Document.AsciiDoc
import Bindery.Document.Sidecar
import Bindery.Proofs.DocumentShape

/-! The order of a document. A graph, the sections assembled from it, the text written from these and the sidecar
are each walked by a recursion of its own. All of them come to the same nodes in the same order, every node before
those below it. -/

namespace Bindery

/-- What is said of a section in the document and in the sidecar alike. -/
structure Outline where
  nodeId : Option Text
  depth : Nat
  heading : Text
  deriving DecidableEq, Repr

def Section.outline (part : Section) : Outline :=
  ⟨part.nodeId, part.depth, part.heading⟩

namespace Sidecar
open Data (fieldOf?)

/-- The outline that an entry of a sidecar gives, if it has the three fields and each is of its type. -/
def outline? : Data → Option Outline
  | .map fields =>
    match fieldOf? fields "node_id", fieldOf? fields "heading_depth", fieldOf? fields "heading_text" with
    | some .null, some (.int (.ofNat depth)), some (.text heading) => some ⟨none, depth, heading⟩
    | some (.text nodeId), some (.int (.ofNat depth)), some (.text heading) => some ⟨some nodeId, depth, heading⟩
    | _, _, _ => none
  | _ => none

mutual

/-- An entry of a sidecar and, after it, all entries among its children. -/
def preorder : Data → List Data
  | .map fields => .map fields :: preorderBelow fields
  | entry => [entry]

def preorderBelow : List (Data × Data) → List Data
  | [] => []
  | (.text key, .list children) :: fields =>
    if key = "children" then preorderAll children else preorderBelow fields
  | _ :: fields => preorderBelow fields

def preorderAll : List Data → List Data
  | [] => []
  | entry :: entries => preorder entry ++ preorderAll entries

end

/-- The entries that a sidecar lists under its sections, if it has such a list. -/
def entries? : Data → Option (List Data)
  | .map fields =>
    match fieldOf? fields "sections" with
    | some (.list entries) => some entries
    | _ => none
  | _ => none

end Sidecar

namespace Document
open Text Sidecar

theorem outline?_sectionData (part : Section) : outline? (sectionData part) = some part.outline := by
  obtain ⟨depth, heading, body, nodeId, children⟩ := part
  -- The fields of an entry are known once it is known whether there is an id.
  cases nodeId <;> rfl

theorem preorder_sectionData (depth : Nat) (heading body : Text) (nodeId : Option Text) (children : List Section) :
    Sidecar.preorder (sectionData ⟨depth, heading, body, nodeId, children⟩) =
      sectionData ⟨depth, heading, body, nodeId, children⟩ :: Sidecar.preorderAll (sectionsData children) := by
  cases nodeId <;> rfl

mutual

theorem preorder_sectionData_eq_map (part : Section) :
    Sidecar.preorder (sectionData part) = part.preorder.map sectionData := by
  match part with
  | ⟨depth, heading, body, nodeId, children⟩ =>
    rw [preorder_sectionData, preorderAll_sectionsData children, Section.preorder, List.map_cons]

theorem preorderAll_sectionsData (sections : List Section) :
    Sidecar.preorderAll (sectionsData sections) = (Section.preorderAll sections).map sectionData := by
  match sections with
  | [] => rfl
  | part :: sections =>
    rw [sectionsData, Sidecar.preorderAll, Section.preorderAll, List.map_append, preorder_sectionData_eq_map part,
      preorderAll_sectionsData sections]

end

theorem entries?_sidecar (document : Document) :
    entries? document.sidecar = some (sectionsData document.sections) :=
  rfl

theorem outlines_sidecar (document : Document) :
    (Sidecar.preorderAll (sectionsData document.sections)).map outline? =
      document.preorder.map fun part => some part.outline := by
  rw [preorderAll_sectionsData, List.map_map]
  exact List.map_congr_left fun part _ => outline?_sectionData part

theorem sectionParts_eq (marker : Char) (part : Section) :
    sectionParts marker part =
      (List.replicate part.depth marker ++ " " ++ part.heading) :: if part.body = [] then [] else [part.body] := by
  simp only [sectionParts, headingLine, List.isEmpty_iff]

end Document

namespace Compositor
open Text Document

theorem nodeIds_of_mirror {compositor : Compositor} {graph : ContentGraph} {document : Document}
    (sections : document.sections = mirrorAll compositor 0 graph.entries) :
    document.preorder.map Section.nodeId = graph.nodeIds.map some := by
  have mirrored : List.Forall₂ (fun node part => some node.id = part.nodeId) graph.nodes document.preorder := by
    rw [Document.preorder, sections]
    exact forall₂_mirrorAll (fun _ _ _ => rfl) 0 graph.entries
  have same : List.Forall₂ Eq (graph.nodes.map fun node => some node.id) (document.preorder.map Section.nodeId) :=
    List.forall₂_map_left_iff.mpr (List.forall₂_map_right_iff.mpr mirrored)
  rw [List.forall₂_eq_eq_eq] at same
  rw [← same, ContentGraph.nodeIds, Entry.nodeIdsOfAll_eq_map, List.map_map]
  rfl

/-- A document has one section for each node below the root, and it is these sections in this order that the
sidecar lists and that the text is made of, whatever character marks the headings. -/
theorem same_order_throughout (compositor : Compositor) (room : 3 ≤ compositor.deepest)
    (known : compositor.deepest ≤ 6) (isTrueRoot : Bool) (reference : Option Text) (graph : ContentGraph) :
    ∃ document, compositor.assemble isTrueRoot reference graph = .ok document ∧
      document.preorder.map Section.nodeId = graph.nodeIds.map some ∧
      (∃ entries, Sidecar.entries? document.sidecar = some entries ∧
        (Sidecar.preorderAll entries).map Sidecar.outline? =
          document.preorder.map fun part => some part.outline) ∧
      ∀ marker, bodyText marker document.sections =
        join blankLine (document.preorder.flatMap fun part =>
          (List.replicate part.depth marker ++ " " ++ part.heading) ::
            if part.body = [] then [] else [part.body]) := by
  obtain ⟨document, assembled, sections⟩ := exists_assemble room known isTrueRoot reference graph
  refine ⟨document, assembled, nodeIds_of_mirror sections, ?_, fun marker => ?_⟩
  · exact ⟨_, entries?_sidecar document, outlines_sidecar document⟩
  · rw [bodyText, funext (sectionParts_eq marker)]
    rfl

/-- A part with a chapter of its own stands between two leaves. -/
def bookInParts : ContentGraph where
  root := ⟨"work", "alice", .index, some 30040, [⟨"title", "Work"⟩], "", 0⟩
  entries :=
    [.leaf ⟨"preface", "alice", .leaf, some 30041, [⟨"title", "Preface"⟩], "First.", 0⟩,
     .branch ⟨"part", "alice", .index, some 30040, [⟨"title", "Part"⟩], "", 0⟩
      [.leaf ⟨"chapter", "alice", .leaf, some 30041, [⟨"title", "Chapter"⟩, ⟨"s", "1"⟩], "Second.", 0⟩],
     .leaf ⟨"closing", "alice", .leaf, some 30041, [⟨"title", "Closing"⟩], "", 0⟩]

def flatCompositor : Compositor := ⟨.markdown, 60, "", 3⟩

/-- The chapter comes after its part and before the leaf that follows the part, in the document and in the
sidecar. -/
theorem order_of_book_in_parts :
    ∃ document, flatCompositor.assemble true none bookInParts = .ok document ∧
      document.preorder.map Section.nodeId = (["preface", "part", "chapter", "closing"] : List Text).map some ∧
      ∃ entries, Sidecar.entries? document.sidecar = some entries ∧
        (Sidecar.preorderAll entries).map (fun entry => (Sidecar.outline? entry).map Outline.nodeId) =
          (["preface", "part", "chapter", "closing"] : List Text).map fun id => some (some id) := by
  obtain ⟨document, assembled, nodeIds, ⟨entries, listed, outlines⟩, _⟩ :=
    same_order_throughout flatCompositor (by decide) (by decide) true none bookInParts
  have inDocument :
      document.preorder.map (fun part => some part.outline.nodeId) = bookInParts.nodeIds.map (some ∘ some) := by
    rw [← List.map_map, ← nodeIds, List.map_map]
    rfl
  have inSidecar := congrArg (List.map (Option.map Outline.nodeId)) outlines
  rw [List.map_map, List.map_map] at inSidecar
  exact ⟨document, assembled, nodeIds, entries, listed, inSidecar.trans inDocument⟩

end Compositor
end Bindery
