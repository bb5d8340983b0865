import Bindery.Data.Basic
import Bindery.Document.Basic

/-! The sidecar of a document: what is known about it and its sections, without their bodies. -/

namespace Bindery.Document

/-- Fields as a mapping: a repeated key keeps its first place and its last value. -/
def fieldsData (fields : List Tag) : Data :=
  Data.ofFields (fields.map fun field => (field.key, Data.text field.value))

def optionalText (text : Option Text) : Data :=
  (text.map Data.text).getD .null

mutual

def sectionData : Section → Data
  | ⟨depth, heading, _, nodeId, children⟩ =>
    Data.ofFields [("node_id", optionalText nodeId), ("heading_depth", .int depth),
      ("heading_text", .text heading), ("children", .list (sectionsData children))]

def sectionsData : List Section → List Data
  | [] => []
  | part :: sections => sectionData part :: sectionsData sections

end

def sidecar (document : Document) : Data :=
  Data.ofFields [("title", .text document.title), ("front_matter", fieldsData document.frontMatter),
    ("metadata", (document.metadata.map fieldsData).getD .null),
    ("sections", .list (sectionsData document.sections))]

end Bindery.Document
