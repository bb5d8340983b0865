import Bindery.Document.AsciiDoc
import Bindery.Document.Compositor
import Bindery.Proofs.TextLines

/-! The lines of a document in AsciiDoc: those of each of its parts in turn, an empty line behind every part. The
header is never empty, so every document begins with it. -/

namespace Bindery
open Text

namespace Text

theorem lines_append_newline (front rest : Text) : lines (front ++ '\n' :: rest) = lines front ++ lines rest :=
  List.splitOn_append_cons_self front rest

theorem lines_nil : lines [] = [[]] :=
  List.splitOn_nil '\n'

theorem lines_of_notMem {line : Text} (whole : '\n' ∉ line) : lines line = [line] := by
  have alone := lines_unlines (List.forall_mem_singleton.mpr whole) (List.cons_ne_nil line [])
  rwa [unlines_singleton] at alone

end Text

namespace Document

/-- The lines of a part, and the empty line behind it. -/
def partLines (part : Text) : List Text :=
  lines part ++ [[]]

theorem partLines_join {parts : List Text} (nonempty : parts ≠ []) :
    partLines (join blankLine parts) = parts.flatMap partLines := by
  induction parts with
  | nil => exact absurd rfl nonempty
  | cons part rest ih =>
    cases rest with
    | nil => rw [join_singleton, List.flatMap_singleton]
    | cons next rest =>
      have later := ih (List.cons_ne_nil next rest)
      have split : part ++ blankLine ++ join blankLine (next :: rest) =
          part ++ '\n' :: ([] ++ '\n' :: join blankLine (next :: rest)) := by
        rw [List.append_assoc]
        rfl
      rw [join_cons_cons, List.flatMap_cons, ← later, split]
      unfold partLines
      rw [lines_append_newline, lines_append_newline, lines_nil]
      simp only [List.append_assoc]

/-- A document with anything in it has the lines of its parts. -/
theorem lines_joinParts {parts : List Text} (nonempty : parts.filter (!·.isEmpty) ≠ []) :
    lines (joinParts parts) = (parts.filter (!·.isEmpty)).flatMap partLines := by
  rw [← partLines_join nonempty, partLines, ← lines_nil, ← lines_append_newline]
  rfl

theorem headingLine_ne_nil (marker : Char) (part : Section) : headingLine marker part ≠ [] := by
  simp [headingLine]

/-- The lines that a section stands on. -/
def sectionLines (marker : Char) (part : Section) : List Text :=
  (sectionParts marker part).flatMap partLines

theorem partLines_bodyText (marker : Char) (sections : List Section) :
    ([bodyText marker sections].filter (!·.isEmpty)).flatMap partLines =
      (Section.preorderAll sections).flatMap (sectionLines marker) := by
  generalize ordered : Section.preorderAll sections = preorder
  cases preorder with
  | nil =>
    have empty : bodyText marker sections = [] := by
      rw [bodyText, ordered]
      rfl
    rw [empty]
    rfl
  | cons first rest =>
    have parted : (first :: rest).flatMap (sectionParts marker) ≠ [] := by
      rw [List.flatMap_cons, sectionParts, List.cons_append]
      exact List.cons_ne_nil _ _
    -- The first heading stands in the text, so the text is not empty.
    have present : (bodyText marker sections).isEmpty = false := by
      obtain ⟨c, more, heading⟩ := List.exists_cons_of_ne_nil (headingLine_ne_nil marker first)
      obtain ⟨part, parts, split⟩ := List.exists_cons_of_ne_nil parted
      have start : part = headingLine marker first := by
        rw [List.flatMap_cons, sectionParts, List.cons_append, List.cons.injEq] at split
        exact split.1.symm
      rw [bodyText, ordered, split]
      cases parts with
      | nil => rw [join_singleton, start, heading]; rfl
      | cons next parts => rw [join_cons_cons, start, heading]; rfl
    rw [List.filter_cons_of_pos (by simp [present]), List.filter_nil, List.flatMap_singleton, bodyText, ordered,
      partLines_join parted, List.flatMap_assoc]
    rfl

namespace AsciiDoc

/-- The front matter that a header gives line by line. The title has a line of its own. -/
def attributes (document : Document) : List Tag :=
  document.frontMatter.filter fun field => field.key ≠ ("title" : Text)

/-- What the lines of a header say, were each of them one line. -/
def statements (document : Document) : List Text :=
  ("= " ++ document.title) :: (attributes document).map attributeLine

theorem header_eq (document : Document) : header document = unlines (statements document) :=
  rfl

theorem header_ne_nil (document : Document) : header document ≠ [] := by
  rw [header_eq, statements]
  cases (attributes document).map attributeLine with
  | nil => simp
  | cons => simp

/-- The lines of a document before those of its sections. -/
def frontLines (document : Document) : List Text :=
  partLines (header document) ++ ([metadata document].filter (!·.isEmpty)).flatMap partLines

theorem lines_toAsciiDoc (document : Document) :
    lines document.toAsciiDoc = frontLines document ++ document.preorder.flatMap (sectionLines '=') := by
  have begins : (header document).isEmpty = false := by
    simp [header_ne_nil document]
  have nonempty : [header document, metadata document, bodyText '=' document.sections].filter (!·.isEmpty) ≠ [] := by
    rw [List.filter_cons_of_pos (by simp [begins])]
    exact List.cons_ne_nil _ _
  have split : [header document, metadata document, bodyText '=' document.sections].filter (!·.isEmpty) =
      header document :: ([metadata document].filter (!·.isEmpty) ++ [bodyText '=' document.sections].filter (!·.isEmpty)) := by
    rw [List.filter_cons_of_pos (by simp [begins]), ← List.filter_append]
    rfl
  rw [toAsciiDoc, lines_joinParts nonempty, split, List.flatMap_cons, List.flatMap_append, partLines_bodyText, frontLines,
    List.append_assoc]
  rfl

end AsciiDoc
end Document

namespace Compositor

/-! ### Fields that a compositor puts into a document -/

def frontMatterKeys : List Text :=
  ["title", "author", "doctype", "version", "revnumber", "pubdate", "revdate", "source", "keywords", "summary",
   "front-cover-image"]

theorem mem_keys_of_mem_presentFields {fields : List Tag} {field : Tag} (member : field ∈ presentFields fields) :
    field.key ∈ fields.map Tag.key := by
  obtain ⟨before, kept, rfl⟩ := List.mem_map.mp member
  exact List.mem_map.mpr ⟨before, List.mem_of_mem_filter kept, rfl⟩

theorem mem_frontMatterKeys {compositor : Compositor} {root : Node} {title : Text} {field : Tag}
    (member : field ∈ compositor.frontMatter root title) : field.key ∈ frontMatterKeys :=
  mem_keys_of_mem_presentFields member

theorem frontMatterKeys_plain : ∀ key ∈ frontMatterKeys, ':' ∉ key ∧ '\n' ∉ key ∧ '\r' ∉ key := by
  decide

def metadataKeys : List Text :=
  ["Title", "Author", "Collection", "Version", "Source", "Published On", "Topics", "Summary", "Description", "Type",
   "Reference"]

theorem mem_metadataKeys {compositor : Compositor} {root : Node} {title : Text} {reference : Option Text} {field : Tag}
    (member : field ∈ compositor.metadata root title reference) : field.key ∈ metadataKeys :=
  mem_keys_of_mem_presentFields member

theorem metadataKeys_plain : ∀ key ∈ metadataKeys, '\n' ∉ key ∧ '\r' ∉ key := by
  decide

/-- What is said about the work hangs on the root alone. -/
theorem fields_of_assemble {compositor : Compositor} {isTrueRoot : Bool} {reference : Option Text}
    {graph : ContentGraph} {document : Document} (assembled : compositor.assemble isTrueRoot reference graph = .ok document) :
    document.frontMatter = compositor.frontMatter graph.root document.title ∧
      document.metadata =
        if isTrueRoot then some (compositor.metadata graph.root document.title reference) else none := by
  unfold assemble at assembled
  cases sections : compositor.entrySections 0 graph.entries with
  | error invalid =>
    rw [sections] at assembled
    cases assembled
  | ok parts =>
    rw [sections] at assembled
    cases assembled
    exact ⟨rfl, rfl⟩

end Compositor
end Bindery
