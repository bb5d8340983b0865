import Bindery.Identifier.Basic

/-! Titles of books. A title has a long, a short and a display form; each form leads to the identifier
of the long one, and where two titles share a form the first in the table keeps it. -/

namespace Bindery
open Identifier

structure TitleEntry where
  display : Text
  long : Text
  short : Text
  deriving DecidableEq, Repr

namespace TitleEntry

def canonical (entry : TitleEntry) : Text :=
  normalize entry.long

/-- Keys of an entry with the identifier they lead to, in the order in which they are claimed. -/
def keys (entry : TitleEntry) : List (Text × Text) :=
  ([entry.long, entry.short, entry.display].map fun form => (normalize form, entry.canonical)).filter
    fun (key, _) => !key.isEmpty

end TitleEntry

/-- Every key of a table with the identifier it leads to; keys are distinct and not empty. -/
structure TitleIndex where
  pairs : List (Text × Text)
  deriving DecidableEq, Repr

namespace TitleIndex

def claim (claimed : List (Text × Text)) (pair : Text × Text) : List (Text × Text) :=
  if claimed.any fun (key, _) => key = pair.1 then claimed else claimed ++ [pair]

def ofEntries (entries : List TitleEntry) : TitleIndex :=
  ⟨(entries.flatMap TitleEntry.keys).foldl claim []⟩

def size (index : TitleIndex) : Nat :=
  index.pairs.length

/-- One of two texts is part of the other. -/
def overlap (a b : Text) : Bool :=
  Text.occursIn a b || Text.occursIn b a

/-- An exact key wins over any that merely overlaps, wherever it stands; an unknown title keeps its own
identifier. -/
def resolve (index : TitleIndex) (text : Text) : Text :=
  let name := normalize text
  if name.isEmpty then name
  else
    match index.pairs.find? fun (key, _) => key = name with
    | some (_, canonical) => canonical
    | none =>
      match index.pairs.find? fun (key, _) => overlap name key with
      | some (_, canonical) => canonical
      | none => name

end TitleIndex
end Bindery
