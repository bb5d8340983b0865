import Bindery.Yaml.Number
import Bindery.Yaml.Tree

/-! Reading YAML as data. A key that occurs twice keeps its first place and its last value; the fields of
a merged mapping come first and give way to the mapping's own. -/

namespace Bindery.Yaml
open Text

/-- Faults met while values are made, each with the number of collections around it. -/
abbrev Making := StateM (List (Nat × Fault))

namespace Making

def note (level : Nat) (fault : Fault) : Making Unit :=
  modify (· ++ [(level, fault)])

/-- Makes a value to the innermost of its parts before anything else is made. -/
def atOnce {α : Type} (level : Nat) (making : Making α) : Making Unit :=
  modify (· ++ (making.run []).2.map fun (_, fault) => (level, fault))

/-- Outer collections are filled before inner ones, so the outermost fault comes first. -/
def firstFault (faults : List (Nat × Fault)) : Option Fault :=
  (faults.foldl (fun first next =>
    match first with
    | none => some next
    | some (level, fault) => if next.1 < level then some next else some (level, fault)) none).map (·.2)

end Making

namespace Tree
open Making

/-- The part of a tag after the core namespace. -/
def coreName? (tag : Text) : Option Text :=
  dropStart? coreNamespace tag

/-- What a scalar is: its tag says so, or its spelling if it stands without quotes. -/
def scalarKind? (tag : Option Text) (isPlain : Bool) (content : Text) : Option ScalarKind :=
  match tag with
  | none => some (if isPlain then Scalar.kind content else .text)
  | some tag => (coreName? tag).bind fun name => Scalar.kindNames.lookup name

def isCollection (name : Text) (tag : Option Text) : Bool :=
  tag.all fun tag => coreName? tag = some name

/-- The kind of a scalar; a collection has none. -/
def kind? : Tree → Option ScalarKind
  | .scalar tag isPlain content => scalarKind? tag isPlain content
  | _ => none

def scalarData (level : Nat) (tag : Option Text) (isPlain : Bool) (content : Text) : Making Data := do
  match scalarKind? tag isPlain content with
  | none =>
    note level .malformed
    return .null
  | some kind =>
    match Scalar.read kind content with
    | .ok value => return value
    | .error fault =>
      note level fault
      return .null

mutual

/-- Whether fields can be taken over from here: from a mapping, or from several in a sequence. -/
def canMerge : Tree → Bool
  | .mapping _ fields => fieldsCanMerge fields
  | .sequence _ items => itemsCanMerge items
  | .scalar .. => false

def itemsCanMerge : List Tree → Bool
  | [] => true
  | .mapping _ fields :: items => fieldsCanMerge fields && itemsCanMerge items
  | _ :: _ => false

/-- Whether all that is merged into a mapping can be. -/
def fieldsCanMerge : List (Tree × Tree) → Bool
  | [] => true
  | (key, value) :: rest => (key.kind? ≠ some .merge || canMerge value) && fieldsCanMerge rest

end

mutual

def data (level : Nat) : Tree → Making Data
  | .scalar tag isPlain content => scalarData level tag isPlain content
  | .sequence tag items => do
    if !isCollection "seq" tag then note level .malformed
    return .list (← dataOfAll (level + 1) items)
  | .mapping tag fields => do
    if !isCollection "map" tag then note level .malformed
    if !fieldsCanMerge fields then note (level + 1) .malformed
    let merged ← mergedData (level + 1) fields
    let own ← ownData (level + 1) fields
    return .map ((merged ++ own).foldl (fun done (key, value) => Data.insertField done key value) [])

def dataOfAll (level : Nat) : List Tree → Making (List Data)
  | [] => return []
  | item :: items => do
    let first ← data level item
    return first :: (← dataOfAll level items)

/-- A mapping's own fields in order. A collection is no key, but it is made before that is seen. -/
def ownData (level : Nat) : List (Tree × Tree) → Making (List (Data × Data))
  | [] => return []
  | (key, value) :: rest => do
    if key.kind? = some .merge then ownData level rest
    else
      let name ←
        match key with
        | .scalar tag isPlain content =>
          if scalarKind? tag isPlain content = some .value then pure (.text content)
          else scalarData level tag isPlain content
        | collection => do
          atOnce level (data level collection)
          note level .malformed
          pure .null
      let value ← data level value
      return (name, value) :: (← ownData level rest)

/-- The fields that are merged into a mapping, in order. -/
def mergedData (level : Nat) : List (Tree × Tree) → Making (List (Data × Data))
  | [] => return []
  | (key, value) :: rest => do
    let first ← if key.kind? = some .merge then givenData level value else pure []
    return first ++ (← mergedData level rest)

/-- Fields that a mapping, or each of several mappings, gives to the one it is merged into. -/
def givenData (level : Nat) : Tree → Making (List (Data × Data))
  | .mapping _ fields => do
    let merged ← mergedData level fields
    return merged ++ (← ownData level fields)
  | .sequence _ items => givenDataOfAll level items
  | .scalar .. => return []

/-- Of several mappings the first wins, so it comes last. -/
def givenDataOfAll (level : Nat) : List Tree → Making (List (Data × Data))
  | [] => return []
  | item :: items => do
    let others ← givenDataOfAll level items
    return others ++ (← givenData level item)

end

end Tree

/-- Reads a text that holds one document; an empty text is null. -/
def read (text : Text) : Reading Data := do
  match ← Tree.read text with
  | none => return .null
  | some tree =>
    let (value, faults) := (tree.data 0).run []
    match Making.firstFault faults with
    | none => return value
    | some fault => throw fault

end Bindery.Yaml
