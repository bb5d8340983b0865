import Bindery.Text.Integer

/-! A coordinate is the address of a node that may be published again: its kind number, its owner and
its identifier, written with colons between them. The identifier may hold colons itself. -/

namespace Bindery

structure Coordinate where
  kind : Int
  owner : Text
  name : Text
  deriving DecidableEq, Repr

namespace Coordinate
open Text

def toText (coordinate : Coordinate) : Text :=
  ofInt coordinate.kind ++ ":" ++ coordinate.owner ++ ":" ++ coordinate.name

/-- The three parts, stripped; none of them may be blank. -/
def split? (text : Text) : Option (Text × Text × Text) := do
  let (kind, rest) ← cutAt ':' text
  let (owner, name) ← cutAt ':' rest
  let parts := (strip kind, strip owner, strip name)
  if parts.1.isEmpty || parts.2.1.isEmpty || parts.2.2.isEmpty then none else some parts

/-- Reading fails, instead of answering `none`, where a kind is written in signs that look like digits
but cannot be read as a number, or is too long to read. -/
def parse (text : Text) : Except NumberError (Option Coordinate) :=
  match split? text with
  | none => .ok none
  | some (kind, owner, name) =>
    if kind.all isDigitSign then do
      let number ← readInt kind
      return some ⟨number, owner, name⟩
    else .ok none

end Coordinate
end Bindery
