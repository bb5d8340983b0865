import Bindery.Proofs.ReferenceNumbers
import Bindery.Proofs.ReferencePlaces

/-! One reference, and a run of them. A reference takes over what the ones before it leave behind; once they leave
the same behind that they found, each of them is read as if it stood alone. -/

namespace Bindery.Link
open Text Identifier

/-! ### One reference -/

theorem named_some {text : Text} (present : text ≠ []) : Reference.named (some text) = some text := by
  simp [Reference.named, present]

theorem ite_isEmpty (versions : List Text) : (if versions.isEmpty then [] else versions) = versions := by
  cases versions <;> rfl

theorem named_chapter? (locator : Locator) : Reference.named (locator.chapter?.map normalize) = locator.chapter? := by
  have number (number : Numeral) : Reference.named (some (normalize number.digits)) = some number.digits := by
    rw [normalize_digits number.present number.whole, named_some number.present]
  cases locator with
  | whole => rfl
  | chapter chapter => exact number chapter
  | sections chapter => exact number chapter

theorem readSections_eq (title : Text) (locator : Locator) :
    (Place.mk title locator.chapter? locator.sectionText?).readSections = .ok locator.listed := by
  cases locator with
  | whole => rfl
  | chapter number => rfl
  | sections number first more => exact readSections_join first more

namespace Reader
variable {reader : Reader}

theorem readReference_eq {content : Text} {inherited : Option Text} {segments : Segments} (tight : IsTight content)
    (separated : separatePipes inherited content = segments) (whole : IsTight segments.main) {collection : Option Text}
    (outer : (Reference.named segments.collection).or inherited = collection)
    {place : Place} (split : splitPlace segments.main = place)
    (known : splitCollection collection place.title = (collection, place.title)) {title : Text}
    (titled : reader.resolveTitle collection place.title = .ok title) (present : title ≠ []) {sections : List Text}
    (listed : place.readSections = .ok sections) (versions : List Text) :
    reader.readReference content inherited versions = .ok (some
      { collection := Reference.named collection
        title := title
        chapter := Reference.named (place.chapter.map normalize)
        sections := sections
        versions := if segments.versions.isEmpty then versions else segments.versions }) := by
  have nonempty : content.isEmpty = false := by simpa using tight.ne_nil
  have named : title.isEmpty = false := by simpa using present
  rw [readReference, tight.strip_eq]
  simp only [nonempty, separated, whole.strip_eq, outer, split, known, titled, listed, bind, Except.bind, named]
  rfl

/-- What is read where a written reference is all that is left once the pipes are looked at. -/
theorem readReference_written (reference : WrittenReference) {content : Text} {inherited own : Option Text}
    {ownVersions : List Text} (tight : IsTight content)
    (separated : separatePipes inherited content = ⟨reference.text, own, ownVersions⟩) {collection : Option Text}
    (outer : (Reference.named own).or inherited = collection) (named : Reference.named collection = collection)
    (readable : reader.CanRead collection reference.title.text) (versions : List Text) :
    reader.readReference content inherited versions =
      .ok (some (reference.reading reader collection (if ownVersions.isEmpty then versions else ownVersions))) := by
  have known := splitCollection_of_absent collection (reference.title.not_mem (c := '|') (by decide))
  have titled := reader.resolveTitle_eq collection readable.short reference.title.isTight
  have read := readReference_eq tight separated reference.isTight outer reference.splitPlace_eq known titled readable.named
    (readSections_eq reference.title.text reference.locator) versions
  rw [read, named, named_chapter?]
  rfl

end Reader

/-! ### A run of references -/

namespace Reader
variable {reader : Reader} {collection : Option Text} {versions : List Text}

theorem readReferences_cons_eq {part : Text} {parts : List Text} {reference : Reference}
    (first : reader.readReference part collection versions = .ok (some reference)) :
    reader.readReferences collection versions (part :: parts) =
      (reader.readReferences (reference.collection.or collection)
        (if reference.versions.isEmpty then versions else reference.versions) parts).map (reference :: ·) := by
  rw [readReferences, first]
  rfl

theorem readReferences_cons {part : Text} {parts : List Text} {reference : Reference} {rest : List Reference}
    (first : reader.readReference part collection versions = .ok (some reference))
    (others : reader.readReferences (reference.collection.or collection)
      (if reference.versions.isEmpty then versions else reference.versions) parts = .ok rest) :
    reader.readReferences collection versions (part :: parts) = .ok (reference :: rest) := by
  rw [readReferences_cons_eq first, others]
  rfl

theorem readReferences_map {α : Type} {items : List α} {text : α → Text} {reading : α → Reference}
    (read : ∀ item ∈ items, reader.readReference (text item) collection versions = .ok (some (reading item)))
    (collected : ∀ item ∈ items, (reading item).collection = collection)
    (versioned : ∀ item ∈ items, (reading item).versions = versions) :
    reader.readReferences collection versions (items.map text) = .ok (items.map reading) := by
  induction items with
  | nil => rfl
  | cons item rest ih =>
    obtain ⟨first, later⟩ := List.forall_mem_cons.mp read
    obtain ⟨same, others⟩ := List.forall_mem_cons.mp collected
    obtain ⟨kept, older⟩ := List.forall_mem_cons.mp versioned
    refine readReferences_cons first ?_
    have versions' : (if (reading item).versions.isEmpty then versions else (reading item).versions) = versions := by
      rw [kept, ite_self]
    rw [same, versions', Option.or_self]
    exact ih later others older

end Reader

end Bindery.Link
