import Bindery.Proofs.NormalReferences
import Mathlib.Data.Set.Function

/-! References read back from the tags that they give. Each part of a reference has a key of its own, so the values under that
key are the part itself, in order and as often as it repeats. Only a part that is there but empty leaves no tag, and no
reference in a link has such a part. -/

namespace Bindery

/-- Tags of one key say all they hold under that key, and nothing under another. -/
theorem Tag.values_map_mk (key other : Text) (values : List Text) :
    ((values.map (Tag.mk other)).filter fun tag => tag.key = key).map Tag.value = if other = key then values else [] := by
  have kept : (fun tag : Tag => decide (tag.key = key)) ∘ Tag.mk other = fun _ => decide (other = key) := rfl
  rw [List.filter_map, kept, List.map_map]
  by_cases same : other = key
  · rw [if_pos same, List.filter_eq_self.mpr fun _ _ => decide_eq_true same]
    exact List.map_id values
  · rw [if_neg same, List.filter_eq_nil_iff.mpr fun _ _ => by simp [same]]
    rfl

namespace Node
variable {node : Node} {reference : Reference} (tagged : node.tags = reference.tags)
include tagged

/-- What a key says of a node that has the tags of a reference. -/
theorem values_of_tags (key : Text) : node.values key =
    (if "C" = key then (Reference.named reference.collection).toList else []) ++ (if "T" = key then [reference.title] else [])
      ++ (if "c" = key then (Reference.named reference.chapter).toList else [])
      ++ (if "s" = key then reference.sections else []) ++ (if "v" = key then reference.versions else []) := by
  have title : [Tag.mk "T" reference.title] = [reference.title].map (Tag.mk "T") := rfl
  unfold values
  rw [tagged, Reference.tags, title]
  simp only [List.filter_append, List.map_append, Tag.values_map_mk]

end Node

namespace Reference

/-- No part of a reference is there but empty. -/
structure IsToldWhole (reference : Reference) : Prop where
  collection : reference.collection ≠ some []
  chapter : reference.chapter ≠ some []

theorem named_eq_self {part : Option Text} (told : part ≠ some []) : named part = part := by
  cases part with
  | none => rfl
  | some text =>
    apply Link.named_some
    rintro rfl
    exact told rfl

theorem named_ne (part : Option Text) : named part ≠ some [] := by
  intro empty
  exact Link.ne_nil_of_mem_named [] empty rfl

/-- A reference in a link, as some reader reads it. -/
def IsRead (reference : Reference) : Prop :=
  ∃ reader : Link.Reader, ∃ link references, reader.readLink link = .ok references ∧ reference ∈ references

theorem IsRead.isToldWhole {reference : Reference} (read : reference.IsRead) : reference.IsToldWhole := by
  obtain ⟨reader, link, references, read, member⟩ := read
  have listed : ∀ text : Text, ∀ name ∈ Link.versionList text, Function.const Text True name := fun _ _ _ => trivial
  refine Link.forall_of_readLink ?_ ?_ listed read reference member
  · intro content inherited versions reference _ _ read
    obtain ⟨_, sections, _, rfl⟩ := Link.Reader.exists_of_readReference read
    exact ⟨named_ne _, named_ne _⟩
  · exact fun _ _ => ⟨fun _ _ => trivial, fun _ _ => trivial⟩

/-- What the tags of a node say of a reference that gave them. -/
structure IsToldBy (reference : Reference) (node : Node) : Prop where
  collection : node.first "C" = reference.collection
  title : node.first "T" = some reference.title
  chapter : node.first "c" = reference.chapter
  sections : node.values "s" = reference.sections
  versions : node.values "v" = reference.versions

theorem IsToldWhole.isToldBy {reference : Reference} (whole : reference.IsToldWhole) {node : Node}
    (tagged : node.tags = reference.tags) : reference.IsToldBy node := by
  have values := Node.values_of_tags tagged
  rw [named_eq_self whole.collection, named_eq_self whole.chapter] at values
  constructor
  · rw [Node.first_eq_head?, values]
    simp
  · rw [Node.first_eq_head?, values]
    simp
  · rw [Node.first_eq_head?, values]
    simp
  · rw [values]
    simp
  · rw [values]
    simp

theorem IsToldBy.unique {reference other : Reference} {node : Node} (told : reference.IsToldBy node)
    (again : other.IsToldBy node) : reference = other := by
  cases reference
  cases other
  have collection := told.collection.symm.trans again.collection
  have title := Option.some.inj (told.title.symm.trans again.title)
  have chapter := told.chapter.symm.trans again.chapter
  have sections := told.sections.symm.trans again.sections
  have versions := told.versions.symm.trans again.versions
  simp only at collection title chapter sections versions
  rw [collection, title, chapter, sections, versions]

/-- A node that has the tags of a reference tells all parts of it, unless one of them is there but empty. The references of
links have no such part, so different ones have different tags. -/
theorem references_read_back_from_tags :
    (∀ (reference : Reference) (node : Node), reference.IsToldWhole → node.tags = reference.tags → reference.IsToldBy node) ∧
    (∀ reference : Reference, reference.IsRead → reference.IsToldWhole) ∧
    Set.InjOn Reference.tags {reference | reference.IsRead} := by
  refine ⟨fun _ _ whole tagged => whole.isToldBy tagged, fun _ read => read.isToldWhole, ?_⟩
  intro first read second also same
  let node : Node := ⟨[], [], .leaf, none, second.tags, [], 0⟩
  have told : first.IsToldBy node := read.isToldWhole.isToldBy same.symm
  have again : second.IsToldBy node := also.isToldWhole.isToldBy rfl
  exact told.unique again

def johnVerses : Reference :=
  ⟨some "bible", "john", some "3", ["16", "16"], ["kjv", "nrsv", "kjv"]⟩

/-- Repeated sections and versions are told as often as they repeat. -/
theorem johnVerses_read_back :
    johnVerses.IsRead ∧ johnVerses.IsToldWhole ∧
      johnVerses.IsToldBy ⟨"verse", "alice", .leaf, none, johnVerses.tags, "text", 0⟩ ∧
      ∀ other : Reference, other.IsRead → other.tags = johnVerses.tags → other = johnVerses := by
  have read : johnVerses.IsRead := by
    refine ⟨.new (.ofEntries []) "quran" 114, "[[book::bible | John 3:16,16 | kjv nrsv kjv]]", [johnVerses], ?_, ?_⟩
    · decide
    · exact List.mem_singleton_self johnVerses
  obtain ⟨told, whole, distinct⟩ := references_read_back_from_tags
  exact ⟨read, whole _ read, told _ _ (whole _ read) rfl, fun other also same => distinct also read same⟩

/-- An empty collection leaves no tag, as if there were none. -/
example :
    ({ johnVerses with collection := some [] } : Reference).tags = ({ johnVerses with collection := none } : Reference).tags := by
  decide

end Reference
end Bindery
