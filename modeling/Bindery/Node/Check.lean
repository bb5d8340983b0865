import Bindery.Node.Basic
import Bindery.Validation

/-! Nodes and references given as records of named fields. -/

namespace Bindery
open Check Checked

def NodeKind.check : Check NodeKind
  | .text value =>
    if value = NodeKind.index.name then .ok .index
    else if value = NodeKind.leaf.name then .ok .leaf
    else complain .notInEnumeration
  | _ => complain .notInEnumeration

def Node.ofFields (fields : Fields) : Except Invalid Node :=
  Checked.named "ContentNode" <|
    (both (required "id" text fields)
      (both (required "owner_key" text fields)
        (both (required "kind" NodeKind.check fields)
          (both (withDefault "kind_number" none (optional integer) fields)
            (both (withDefault "tags" [] (sequence tag) fields)
              (both (withDefault "body" [] text fields)
                (withDefault "created_at" 0 integer fields))))))).map
      fun (id, owner, kind, kindNumber, tags, body, createdAt) =>
        ⟨id, owner, kind, kindNumber, tags, body, createdAt⟩

def Reference.ofFields (fields : Fields) : Except Invalid Reference :=
  Checked.named "BookReference" <|
    (both (withDefault "collection" none (optional text) fields)
      (both (required "title" text fields)
        (both (withDefault "chapter" none (optional text) fields)
          (both (withDefault "sections" [] (sequence text) fields)
            (withDefault "versions" [] (sequence text) fields))))).map
      fun (collection, title, chapter, sections, versions) =>
        ⟨collection, title, chapter, sections, versions⟩

end Bindery
