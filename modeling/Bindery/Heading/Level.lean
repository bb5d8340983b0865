import Bindery.Text.Basic

/-! Levels of headings that stand inside the body of a section. -/

namespace Bindery.Heading

/-- Below the section's own heading, which is at `depth`, in steps as before where there is room, and
never past the deepest level. -/
def targetLevel (deepest depth : Int) (level : Int) : Int :=
  min deepest (max (level + 1) (depth + 1))

/-- A heading marker, repeated once per level. -/
def markers (marker : Char) (level : Int) : Text :=
  List.replicate level.toNat marker

end Bindery.Heading
