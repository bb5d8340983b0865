import Bindery.Node.Record
import Bindery.Proofs.NamedFields

/-! Nodes written as records and read back. The owner and the body go by either of their names, each tag may be followed by
further items, and the fields may stand in any order among others that nobody reads. None of it changes the node. -/

namespace Bindery
open Data (fieldOf? fieldOf?_eq_lookup keyed)
open Check (Fields)

/-- The two names of a field: the one it has over the wire, and the one that nodes have for it. -/
inductive Naming where
  | wire
  | own
  deriving DecidableEq, Repr

namespace Naming

def ownerName : Naming → Text
  | .wire => "pubkey"
  | .own => "owner_key"

def bodyName : Naming → Text
  | .wire => "content"
  | .own => "body"

end Naming

/-- A tag and what follows its value over the wire, such as where to find what it refers to. -/
structure WireTag where
  tag : Tag
  hints : List Data

def WireTag.data (wire : WireTag) : Data :=
  .list (.text wire.tag.key :: .text wire.tag.value :: wire.hints)

/-- A way to write a node as a record. -/
structure Wording (node : Node) where
  owner : Naming
  body : Naming
  tags : List WireTag
  same_tags : tags.map WireTag.tag = node.tags

namespace Wording

/-- All names under which a field of a node is looked for. -/
def readNames : List Text :=
  ["kind", "tags", "id", "owner_key", "pubkey", "created_at", "body", "content"]

variable {node : Node} (wording : Wording node) {fields others : Fields}

def record : List (Text × Data) :=
  [("id", .text node.id), (wording.owner.ownerName, .text node.owner), ("kind", (node.kindNumber.map Data.int).getD .null),
   ("tags", .list (wording.tags.map WireTag.data)), (wording.body.bodyName, .text node.body),
   ("created_at", .int node.createdAt)]

/-- Fields that are those of the record, in any order, and others that are never looked for. -/
structure Written (fields others : Fields) : Prop where
  order : fields.Perm (wording.record.map keyed ++ others)
  unread : ∀ field ∈ others, ∀ name ∈ readNames, field.1 ≠ .text name

theorem distinct_names : (wording.record.map Prod.fst).Nodup := by
  let names (owner body : Naming) : List Text := ["id", owner.ownerName, "kind", "tags", body.bodyName, "created_at"]
  have distinct : ∀ owner body, (names owner body).Nodup := by
    intro owner body
    cases owner <;> cases body <;> decide
  exact distinct wording.owner wording.body

theorem tag_data (wire : WireTag) : Record.tag wire.data = .ok wire.tag :=
  rfl

theorem mapM_tag_data (tags : List WireTag) : (tags.map WireTag.data).mapM Record.tag = .ok (tags.map WireTag.tag) := by
  induction tags with
  | nil => rfl
  | cons tag tags ih =>
    rw [List.map_cons, List.mapM_cons, tag_data, ih]
    rfl

/-! ### What is found under each name -/

def found (name : Text) : Option Data :=
  wording.record.lookup name

theorem found_id : wording.found "id" = some (.text node.id) :=
  rfl

theorem found_ownerName (naming : Naming) :
    wording.found naming.ownerName = if naming = wording.owner then some (.text node.owner) else none := by
  obtain ⟨owner, body, _, _⟩ := wording
  cases owner <;> cases body <;> cases naming <;> rfl

theorem found_kind : wording.found "kind" = some ((node.kindNumber.map Data.int).getD .null) := by
  obtain ⟨owner, body, _, _⟩ := wording
  cases owner <;> rfl

theorem found_tags : wording.found "tags" = some (.list (wording.tags.map WireTag.data)) := by
  obtain ⟨owner, body, _, _⟩ := wording
  cases owner <;> rfl

theorem found_bodyName (naming : Naming) :
    wording.found naming.bodyName = if naming = wording.body then some (.text node.body) else none := by
  obtain ⟨owner, body, _, _⟩ := wording
  cases owner <;> cases body <;> cases naming <;> rfl

theorem found_createdAt : wording.found "created_at" = some (.int node.createdAt) := by
  obtain ⟨owner, body, _, _⟩ := wording
  cases owner <;> cases body <;> rfl

namespace Written
variable {wording} (written : wording.Written fields others)
include written

theorem fieldOf?_eq {name : Text} (looked : name ∈ readNames) : fieldOf? fields name = wording.found name :=
  fieldOf?_eq_lookup wording.distinct_names (fun field member => written.unread field member name looked) written.order

theorem field_eq {name : Text} {value : Data} (looked : name ∈ readNames) (found : wording.found name = some value) :
    Record.field fields name = .ok value := by
  unfold Record.field
  rw [written.fieldOf?_eq looked, found]

theorem presentField?_eq {name : Text} (looked : name ∈ readNames) :
    Record.presentField? fields name = (wording.found name).filter Data.isPresent :=
  congrArg (Option.filter Data.isPresent) (written.fieldOf?_eq looked)

/-! ### What is made of each field -/

theorem owner_eq (owned : node.owner ≠ []) : Record.owner fields = .ok node.owner := by
  have present : (Data.text node.owner).isPresent = true := by simpa [Data.isPresent] using owned
  have underOwn : Record.presentField? fields "owner_key" =
      (if .own = wording.owner then some (.text node.owner) else none).filter Data.isPresent :=
    (written.presentField?_eq (by decide)).trans (congrArg _ (wording.found_ownerName .own))
  unfold Record.owner
  rw [underOwn]
  cases naming : wording.owner with
  | wire =>
    have underWire : Record.field fields "pubkey" = .ok (.text node.owner) :=
      written.field_eq (by decide) ((wording.found_ownerName .wire).trans (if_pos naming.symm))
    rw [underWire]
    rfl
  | own =>
    rw [if_pos rfl, Option.filter_some_pos present]
    rfl

theorem tags_eq : Record.tags fields = .ok node.tags := by
  unfold Record.tags
  rw [written.presentField?_eq (by decide), wording.found_tags, ← wording.same_tags]
  cases wording.tags with
  | nil => rfl
  | cons tag tags => exact mapM_tag_data (tag :: tags)

theorem createdAt_eq : Record.createdAt fields = .ok node.createdAt := by
  unfold Record.createdAt
  rw [written.presentField?_eq (by decide), wording.found_createdAt]
  by_cases zero : node.createdAt = 0
  · rw [zero]
    rfl
  · rw [Option.filter_some_pos (by simpa [Data.isPresent] using zero)]
    rfl

theorem body_eq : Record.body fields = .text node.body := by
  have underOwn : fieldOf? fields "body" = if .own = wording.body then some (.text node.body) else none :=
    (written.fieldOf?_eq (by decide)).trans (wording.found_bodyName .own)
  have underWire : fieldOf? fields "content" = if .wire = wording.body then some (.text node.body) else none :=
    (written.fieldOf?_eq (by decide)).trans (wording.found_bodyName .wire)
  have either : (fieldOf? fields "body").or (fieldOf? fields "content") = some (.text node.body) := by
    rw [underOwn, underWire]
    cases wording.body <;> rfl
  unfold Record.body
  rw [either]
  cases node.body <;> rfl

end Written
end Wording

/-- A node with a number for its kind and with an owner, a branch exactly if its number is one of those of branches. -/
structure Node.Sendable (indexKinds : List Int) (node : Node) (kind : Int) : Prop where
  numbered : node.kindNumber = some kind
  owned : node.owner ≠ []
  sorted : node.kind = .index ↔ kind ∈ indexKinds

theorem Node.Sendable.ofNumber_eq {indexKinds : List Int} {node : Node} {kind : Int}
    (sendable : node.Sendable indexKinds kind) : NodeKind.ofNumber indexKinds kind = node.kind := by
  unfold NodeKind.ofNumber
  split
  next branch => exact (sendable.sorted.mpr (List.contains_iff_mem.mp branch)).symm
  next other =>
    cases sort : node.kind with
    | index => exact absurd (List.contains_iff_mem.mpr (sendable.sorted.mp sort)) other
    | leaf => rfl

/-- A node is read back from each of its records, whichever names they use, whatever follows the values of their tags and
whatever else they hold. -/
theorem ofRecord_written {indexKinds : List Int} {node : Node} {kind : Int} (sendable : node.Sendable indexKinds kind)
    (wording : Wording node) {fields others : Fields} (written : wording.Written fields others) :
    Node.ofRecord indexKinds fields = .ok node := by
  have numbered : wording.found "kind" = some (.int kind) := by
    rw [wording.found_kind, sendable.numbered]
    rfl
  have same : node = ⟨node.id, node.owner, .ofNumber indexKinds kind, some kind, node.tags, node.body, node.createdAt⟩ := by
    rw [sendable.ofNumber_eq, ← sendable.numbered]
  unfold Node.ofRecord
  rw [written.field_eq (by decide) numbered, written.tags_eq, written.field_eq (by decide) wording.found_id,
    written.owner_eq sendable.owned, written.createdAt_eq, written.body_eq]
  exact congrArg Except.ok same.symm

/-! A book whose owner goes by the name of the wire, with a hint behind its tag and fields that nobody reads. -/

def genesis : Node :=
  ⟨"a1", "ab", .index, some 30040, [⟨"d", "genesis"⟩], [], 0⟩

def genesisWording : Wording genesis :=
  ⟨.wire, .own, [⟨⟨"d", "genesis"⟩, [.text "wss://relay.example", .null]⟩], rfl⟩

def genesisExtras : Fields :=
  [(.text "sig", .text "00"), (.int 1, .null)]

def genesisFields : Fields :=
  [(.int 1, .null), (.text "sig", .text "00"), (.text "created_at", .int 0), (.text "body", .text []),
   (.text "tags", .list [.list [.text "d", .text "genesis", .text "wss://relay.example", .null]]),
   (.text "kind", .int 30040), (.text "pubkey", .text "ab"), (.text "id", .text "a1")]

theorem ofRecord_genesisFields : Node.ofRecord [30040] genesisFields = .ok genesis := by
  have sendable : genesis.Sendable [30040] 30040 := ⟨rfl, by decide, by decide⟩
  have unread : ∀ field ∈ genesisExtras, ∀ name ∈ Wording.readNames, field.1 ≠ .text name := by
    have signature : ∀ name ∈ Wording.readNames, ("sig" : Text) ≠ name := by decide
    intro field member name looked same
    cases member with
    | head => exact signature name looked (Data.text.inj same)
    | tail _ member =>
      obtain rfl := List.mem_singleton.mp member
      cases same
  have backwards : genesisFields = (genesisWording.record.map keyed ++ genesisExtras).reverse := rfl
  have order : genesisFields.Perm (genesisWording.record.map keyed ++ genesisExtras) :=
    backwards ▸ List.reverse_perm _
  exact ofRecord_written sendable genesisWording ⟨order, unread⟩

end Bindery
