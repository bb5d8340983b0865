import Bindery.Yaml.Token

/-! The tree of a YAML text: scalars, sequences and mappings, each with the tag it was given. An alias is
replaced by what its anchor stands for. -/

namespace Bindery.Yaml
open Text Lexeme

/-- A scalar without quotes and without a tag is told what it is by its spelling. -/
inductive Tree where
  | scalar (tag : Option Text) (isPlain : Bool) (content : Text)
  | sequence (tag : Option Text) (items : List Tree)
  | mapping (tag : Option Text) (fields : List (Tree × Tree))
  deriving Repr

namespace Tree

/-- What stands where nothing is written. -/
def empty : Tree := .scalar none true []

/-- The namespaces that handles stand for. -/
abbrev Handles := List (Text × Text)

def coreNamespace : Text := "tag:yaml.org,2002:"

def defaultHandles : Handles := [(['!'], ['!']), (['!', '!'], coreNamespace)]

/-- What is left to read, and the anchors met so far. -/
structure Progress where
  tokens : List Token
  anchors : List (Text × Tree)

abbrev Building := StateT Progress Reading

def fail {α : Type} : Building α := throw .malformed

def next? : Building (Option Token) := do
  return (← get).tokens.head?

def advance : Building Unit :=
  modify fun progress => { progress with tokens := progress.tokens.tail }

/-- Takes the next token if it is the one expected. -/
def take (token : Token) : Building Bool := do
  if (← next?) = some token then
    advance
    return true
  else return false

def expect (token : Token) : Building Unit := do
  if !(← take token) then fail

def nextIsAny (tokens : List Token) : Building Bool := do
  return (← next?).any tokens.contains

/-- What may stand before a node. -/
structure Properties where
  anchor : Option Text
  tag : Option Text

def fullTag (handles : Handles) (tag : TagName) : Building Text :=
  match tag.handle with
  | none => return tag.suffix
  | some handle =>
    match handles.lookup handle with
    | some space => return space ++ tag.suffix
    | none => fail

def takeAnchor : Building (Option Text) := do
  match ← next? with
  | some (.anchor name) =>
    advance
    return some name
  | _ => return none

def takeTag (handles : Handles) : Building (Option Text) := do
  match ← next? with
  | some (.tag name) =>
    advance
    return some (← fullTag handles name)
  | _ => return none

/-- An anchor and a tag, in either order. -/
def properties (handles : Handles) : Building Properties := do
  match ← takeAnchor with
  | some anchor => return ⟨some anchor, ← takeTag handles⟩
  | none =>
    let tag ← takeTag handles
    return ⟨← (if tag.isSome then takeAnchor else pure none), tag⟩

/-- An anchor names one node of a text. -/
def nameAnchor (anchor : Option Text) (tree : Tree) : Building Unit := do
  match anchor with
  | none => return
  | some name =>
    if (← get).anchors.any (·.1 = name) then fail
    modify fun progress => { progress with anchors := (name, tree) :: progress.anchors }

/-- A bare exclamation mark asks for the tag that the spelling implies. -/
def ofScalar (tag : Option Text) (isPlain : Bool) (content : Text) : Tree :=
  if tag = some ['!'] then .scalar none true content else .scalar tag isPlain content

def collectionTag (tag : Option Text) : Option Text :=
  tag.filter (· ≠ ['!'])

/-- Where a node may stand: inside brackets, in a block, or in a block where the entries of a
sequence need no indentation. -/
inductive Place where
  | flow
  | block
  | afterKey
  deriving DecidableEq, Repr

mutual

def node (fuel : Nat) (handles : Handles) (place : Place) : Building Tree :=
  match fuel with
  | 0 => fail
  | fuel + 1 => do
    match ← next? with
    | some (.alias name) =>
      advance
      match (← get).anchors.lookup name with
      | some tree => return tree
      | none => fail
    | _ =>
      let properties ← properties handles
      let tree ← content fuel handles place properties
      nameAnchor properties.anchor tree
      return tree

/-- A node after its properties. -/
def content (fuel : Nat) (handles : Handles) (place : Place) (properties : Properties) : Building Tree :=
  match fuel with
  | 0 => fail
  | fuel + 1 => do
    let tag := collectionTag properties.tag
    match ← next?, place with
    | some (.scalar isPlain content), _ =>
      advance
      return ofScalar properties.tag isPlain content
    | some .flowSequenceStart, _ =>
      advance
      return .sequence tag (← flowItems fuel handles true)
    | some .flowMappingStart, _ =>
      advance
      return .mapping tag (← flowFields fuel handles true)
    | some .blockSequenceStart, .block | some .blockSequenceStart, .afterKey =>
      advance
      let items ← blockItems fuel handles
      expect .blockEnd
      return .sequence tag items
    | some .blockMappingStart, .block | some .blockMappingStart, .afterKey =>
      advance
      let fields ← blockFields fuel handles
      expect .blockEnd
      return .mapping tag fields
    | some .blockEntry, .afterKey => return .sequence tag (← blockItems fuel handles)
    | _, _ =>
      if properties.anchor.isSome || properties.tag.isSome then return ofScalar properties.tag true []
      else fail

/-- A node, or nothing before one of the tokens given. -/
def optionalNode (fuel : Nat) (handles : Handles) (place : Place) (ends : List Token) : Building Tree :=
  match fuel with
  | 0 => fail
  | fuel + 1 => do
    if ← nextIsAny ends then return empty else node fuel handles place

def blockItems (fuel : Nat) (handles : Handles) : Building (List Tree) :=
  match fuel with
  | 0 => fail
  | fuel + 1 => do
    if ← take .blockEntry then
      let item ← optionalNode fuel handles .block [.blockEntry, .key, .value, .blockEnd]
      return item :: (← blockItems fuel handles)
    else return []

def blockFields (fuel : Nat) (handles : Handles) : Building (List (Tree × Tree)) :=
  match fuel with
  | 0 => fail
  | fuel + 1 => do
    if ← take .key then
      let key ← optionalNode fuel handles .afterKey [.key, .value, .blockEnd]
      let value ← fieldValue fuel handles .afterKey [.key, .value, .blockEnd]
      return (key, value) :: (← blockFields fuel handles)
    else return []

/-- The value of a field, if a colon introduces one. -/
def fieldValue (fuel : Nat) (handles : Handles) (place : Place) (ends : List Token) : Building Tree :=
  match fuel with
  | 0 => fail
  | fuel + 1 => do
    if ← take .value then optionalNode fuel handles place ends else return empty

/-- Items of a sequence in brackets; a key among them makes a mapping of one field. -/
def flowItems (fuel : Nat) (handles : Handles) (isFirst : Bool) : Building (List Tree) :=
  match fuel with
  | 0 => fail
  | fuel + 1 => do
    if ← take .flowSequenceEnd then return []
    if !isFirst then expect .flowEntry
    if ← take .flowSequenceEnd then return []
    let ends : List Token := [.flowEntry, .flowSequenceEnd]
    let item ←
      if ← take .key then do
        let key ← optionalNode fuel handles .flow (.value :: ends)
        pure (.mapping none [(key, ← fieldValue fuel handles .flow ends)])
      else node fuel handles .flow
    return item :: (← flowItems fuel handles false)

def flowFields (fuel : Nat) (handles : Handles) (isFirst : Bool) : Building (List (Tree × Tree)) :=
  match fuel with
  | 0 => fail
  | fuel + 1 => do
    if ← take .flowMappingEnd then return []
    if !isFirst then expect .flowEntry
    if ← take .flowMappingEnd then return []
    let ends : List Token := [.flowEntry, .flowMappingEnd]
    let field ←
      if ← take .key then do
        let key ← optionalNode fuel handles .flow (.value :: ends)
        pure (key, ← fieldValue fuel handles .flow ends)
      else do pure (← node fuel handles .flow, empty)
    return field :: (← flowFields fuel handles false)

end

/-- Directives of a document: one version, which must be the first, and handles of its own. -/
def directives (fuel : Nat) (hasVersion : Bool) (handles : Handles) : Building Handles :=
  match fuel with
  | 0 => fail
  | fuel + 1 => do
    match ← next? with
    | some (.directive directive) =>
      advance
      match directive with
      | .version major =>
        if hasVersion || major ≠ 1 then fail else directives fuel true handles
      | .tag handle space =>
        if handles.any (·.1 = handle) then fail
        else directives fuel hasVersion (handles ++ [(handle, space)])
      | .other => directives fuel hasVersion handles
    | _ => return handles

def dropDocumentEnds (fuel : Nat) : Building Unit :=
  match fuel with
  | 0 => fail
  | fuel + 1 => do
    if ← take .documentEnd then dropDocumentEnds fuel

/-- The only document of a text, if it has one. -/
def document (fuel : Nat) : Building (Option Tree) := do
  match ← next? with
  | none => return none
  | some first =>
    let isExplicit := match first with
      | .directive _ | .documentStart => true
      | _ => false
    let tree ←
      if isExplicit then do
        let handles ← directives fuel false []
        expect .documentStart
        match ← next? with
        | none | some (.directive _) | some .documentStart | some .documentEnd => pure empty
        | _ => node fuel (handles ++ defaultHandles) .block
      else node fuel defaultHandles .block
    dropDocumentEnds fuel
    if (← next?).isSome then fail else return some tree

def read (text : Text) : Reading (Option Tree) := do
  let tokens ← tokens text
  let (tree, _) ← (document (4 * tokens.length + 8)).run ⟨tokens, []⟩
  return tree

end Tree
end Bindery.Yaml
