import Bindery.Node.Check

/-! Assembled documents: a title, what is known about the whole work, and sections inside one another. -/

namespace Bindery

structure Section where
  depth : Nat
  heading : Text
  body : Text
  nodeId : Option Text
  children : List Section
  deriving Repr

structure Document where
  title : Text
  frontMatter : List Tag
  metadata : Option (List Tag)
  sections : List Section
  deriving Repr

namespace Section
open Check Checked

/-- Levels one and two belong to the document itself, and no format has a seventh. -/
def checkDepth (depth : Int) : Checked Nat :=
  if depth < 3 then complain .tooSmall
  else if depth > 6 then complain .tooLarge
  else .ok depth.toNat

mutual

/-- A section and, after it, all sections inside it. -/
def preorder (part : Section) : List Section :=
  match part with
  | ⟨depth, heading, body, nodeId, children⟩ =>
    ⟨depth, heading, body, nodeId, children⟩ :: preorderAll children

def preorderAll : List Section → List Section
  | [] => []
  | part :: sections => preorder part ++ preorderAll sections

end

/-- The fields of a section apart from its children. -/
def checkOwn (fields : Fields) : Checked (Nat × Text × Text × Option Text) :=
  both (required "heading_depth" (fun value => do checkDepth (← integer value)) fields)
    (both (required "heading_text" text fields)
      (both (withDefault "body" [] text fields)
        (withDefault "node_id" none (optional text) fields)))

mutual

def check : Data → Checked Section
  | .map fields =>
    (both (checkOwn fields) (checkChildren fields)).map
      fun ((depth, heading, body, nodeId), children) => ⟨depth, heading, body, nodeId, children⟩
  | _ => complain .notRecord

/-- The children among the fields of a section. -/
def checkChildren : Fields → Checked (List Section)
  | [] => .ok []
  | (.text name, value) :: fields =>
    if name = "children" then within "children" (checkList value) else checkChildren fields
  | _ :: fields => checkChildren fields

def checkList : Data → Checked (List Section)
  | .list items => checkItems 0 items
  | _ => complain .notSequence

def checkItems (position : Nat) : List Data → Checked (List Section)
  | [] => .ok []
  | item :: items =>
    (both (within (Text.ofNat position) (check item)) (checkItems (position + 1) items)).map
      fun (first, rest) => first :: rest

end

end Section

namespace Document
open Check Checked

/-- All sections, each before those inside it. -/
def preorder (document : Document) : List Section :=
  Section.preorderAll document.sections

def ofFields (fields : Fields) : Except Invalid Document :=
  Checked.named "AssembledDocument" <|
    (both (required "title" text fields)
      (both (withDefault "front_matter" [] (sequence tag) fields)
        (both (withDefault "metadata_block" none (optional (sequence tag)) fields)
          (withDefault "sections" [] Section.checkList fields)))).map
      fun (title, frontMatter, metadata, sections) => ⟨title, frontMatter, metadata, sections⟩

end Document
end Bindery
