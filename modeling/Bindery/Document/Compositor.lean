import Bindery.Document.Basic
import Bindery.Document.Wording
import Bindery.Graph.Basic
import Bindery.Heading.Body

/-! Assembling a graph into a document. The title and all that is said about the work come from the root
alone; every entry below it becomes one section, and a branch holds the sections of its own entries. -/

namespace Bindery

structure Compositor where
  markup : Heading.Markup
  previewLength : Int
  defaultVersion : Text
  deepest : Int

namespace Compositor
open Text Wording

def firstOrEmpty (node : Node) (key : Text) : Text :=
  (node.first key).getD []

/-- The first text that is not empty. -/
def firstNamed (texts : List Text) : Text :=
  (texts.find? (!·.isEmpty)).getD []

/-! ### Titles -/

/-- A title tag, the book, or the identifier in words; the reference that led to the root or the start
of its id where none of these says anything. -/
def documentTitle (root : Node) (reference : Option Text) : Text :=
  let candidates := [firstOrEmpty root "title", firstOrEmpty root "T", titleCase (root.name.getD [])]
  match candidates.find? isPresent with
  | some title => strip title
  | none => (Reference.named reference).getD (root.id.take 8)

/-- The place in a book that a node is tagged with: the book, its chapter, and sections. -/
def place? (node : Node) : Option Text :=
  match (node.first "T").filter isPresent, (node.first "c").filter isPresent with
  | none, _ => none
  | some book, none => some book
  | some book, some chapter =>
    let sections := join ", " (node.values "s")
    let ending : Text := if sections.isEmpty then [] else ':' :: sections
    some (book ++ " " ++ chapter ++ ending)

def headingText (compositor : Compositor) (node : Node) : Text :=
  match (node.first "title").filter isPresent, place? node with
  | some title, _ => strip title
  | none, some place => place
  | none, none =>
    firstNamed [preview compositor.previewLength node.body, titleCase (node.name.getD []), "Section"]

/-! ### What is known about the work -/

def version (compositor : Compositor) (root : Node) : Text :=
  firstNamed [firstOrEmpty root "version", compositor.defaultVersion]

def summary (root : Node) : Text :=
  firstNamed [firstOrEmpty root "summary", firstOrEmpty root "description"]

def author (root : Node) : Text :=
  firstNamed [firstOrEmpty root "author", firstOrEmpty root "p"]

def topics (root : Node) : Text :=
  join ", " ((root.values "t").filter isPresent)

/-- Fields that say something, stripped. -/
def presentFields (fields : List Tag) : List Tag :=
  (fields.filter fun field => isPresent field.value).map fun field =>
    { field with value := strip field.value }

def frontMatter (compositor : Compositor) (root : Node) (title : Text) : List Tag :=
  let version := compositor.version root
  let published := firstOrEmpty root "published_on"
  let date := if isPresent published then revisionDate published else []
  presentFields
    [⟨"title", title⟩, ⟨"author", author root⟩, ⟨"doctype", "book"⟩, ⟨"version", version⟩,
     ⟨"revnumber", version⟩, ⟨"pubdate", date⟩, ⟨"revdate", date⟩,
     ⟨"source", firstOrEmpty root "source"⟩, ⟨"keywords", topics root⟩, ⟨"summary", summary root⟩,
     ⟨"front-cover-image", firstOrEmpty root "image"⟩]

def metadata (compositor : Compositor) (root : Node) (title : Text) (reference : Option Text) : List Tag :=
  presentFields
    [⟨"Title", title⟩, ⟨"Author", author root⟩, ⟨"Collection", firstOrEmpty root "C"⟩,
     ⟨"Version", compositor.version root⟩, ⟨"Source", firstOrEmpty root "source"⟩,
     ⟨"Published On", firstOrEmpty root "published_on"⟩, ⟨"Topics", topics root⟩,
     ⟨"Summary", firstOrEmpty root "summary"⟩, ⟨"Description", firstOrEmpty root "description"⟩,
     ⟨"Type", firstOrEmpty root "type"⟩, ⟨"Reference", reference.getD []⟩]

/-! ### Sections -/

/-- The level of a node's heading right below the root: sections of a chapter stand one deeper. -/
def nominalDepth (node : Node) : Int :=
  match node.kind, node.values "s" with
  | .leaf, _ :: _ => 4
  | _, _ => 3

def depth (compositor : Compositor) (nesting : Nat) (node : Node) : Int :=
  min compositor.deepest (nominalDepth node + nesting)

def sectionOf (compositor : Compositor) (nesting : Nat) (node : Node) (children : List Section) :
    Except Invalid Section := do
  let depth := compositor.depth nesting node
  let checked ← Checked.named "Section" (Checked.within "heading_depth" (Section.checkDepth depth))
  return ⟨checked, compositor.headingText node,
    strip (Heading.renumber compositor.markup compositor.deepest depth node.body), some node.id, children⟩

mutual

def entrySection (compositor : Compositor) (nesting : Nat) : Entry → Except Invalid Section
  | .leaf node => compositor.sectionOf nesting node []
  | .branch root entries => do
    compositor.sectionOf nesting root (← entrySections compositor (nesting + 1) entries)

/-- One section for each entry, in order. -/
def entrySections (compositor : Compositor) (nesting : Nat) : List Entry → Except Invalid (List Section)
  | [] => return []
  | entry :: entries => do
    let first ← entrySection compositor nesting entry
    return first :: (← entrySections compositor nesting entries)

end

/-- Only the true root of a work tells about it; `reference` is how that root was asked for. -/
def assemble (compositor : Compositor) (isTrueRoot : Bool) (reference : Option Text) (graph : ContentGraph) :
    Except Invalid Document := do
  let title := documentTitle graph.root reference
  let sections ← compositor.entrySections 0 graph.entries
  return ⟨title, compositor.frontMatter graph.root title,
    if isTrueRoot then some (compositor.metadata graph.root title reference) else none, sections⟩

end Compositor
end Bindery
