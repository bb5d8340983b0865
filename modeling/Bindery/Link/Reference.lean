import Bindery.Text.Basic

/-! A reference to a place in a book, and the tags under which that place is filed. -/

namespace Bindery

structure Tag where
  key : Text
  value : Text
  deriving DecidableEq, Repr

/-- Sections and versions keep their order and may repeat. -/
structure Reference where
  collection : Option Text
  title : Text
  chapter : Option Text
  sections : List Text
  versions : List Text
  deriving DecidableEq, Repr

namespace Reference

/-- A part that is present but empty names nothing. -/
def named (part : Option Text) : Option Text :=
  part.filter (!·.isEmpty)

def tags (reference : Reference) : List Tag :=
  ((named reference.collection).toList.map (⟨"C", ·⟩)) ++ [⟨"T", reference.title⟩]
    ++ ((named reference.chapter).toList.map (⟨"c", ·⟩))
    ++ reference.sections.map (⟨"s", ·⟩) ++ reference.versions.map (⟨"v", ·⟩)

end Reference
end Bindery
