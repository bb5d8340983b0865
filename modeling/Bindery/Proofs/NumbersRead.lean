import Bindery.Proofs.LinksInText
import Bindery.Proofs.Results

/-! Numbers that are read in a link: numbered titles, and the ends of ranges. Whether a link is read to its end
depends on their length alone, since nothing else in a link can fail to be read. -/

namespace Bindery

namespace Text

/-- Few enough digits to be read as a number. -/
def IsShort (number : Text) : Prop :=
  number.length ≤ digitLimit

instance (number : Text) : Decidable (IsShort number) :=
  Nat.decLe _ _

theorem readDigits_of_isShort {number : Text} (short : IsShort number) : readDigits number = .ok (valueOfDigits number) :=
  if_neg (Nat.not_lt.mpr short)

theorem exists_readDigits_iff {number : Text} : (∃ value, readDigits number = .ok value) ↔ IsShort number := by
  refine ⟨fun read => ?_, fun short => ⟨_, readDigits_of_isShort short⟩⟩
  by_contra long
  obtain ⟨value, read⟩ := read
  rw [readDigits, if_pos (Nat.lt_of_not_le long)] at read
  cases read

end Text

namespace Link
open Text Identifier

/-! ### Ends of ranges -/

def rangeEnds (text : Text) : List Text :=
  match splitRange? text with
  | none => []
  | some (low, high) => [low, high]

/-- The parts of a list of sections. -/
def sectionParts (text : Text) : List Text :=
  (((text.map fun c => if c = ':' then '-' else c).splitOn ',').map strip).filter (!·.isEmpty)

def sectionNumbers (text : Text) : List Text :=
  (sectionParts text).flatMap rangeEnds

theorem exists_expandRange_iff {text : Text} :
    (∃ sections, expandRange text = .ok sections) ↔ ∀ number ∈ rangeEnds text, IsShort number := by
  unfold expandRange rangeEnds
  cases splitRange? text with
  | none => simp
  | some ends =>
    obtain ⟨low, high⟩ := ends
    simp only [List.mem_cons, List.not_mem_nil, or_false, forall_eq_or_imp, forall_eq, ← exists_readDigits_iff]
    cases readDigits low with
    | error => simp [bind, Except.bind]
    | ok first =>
      cases readDigits high with
      | error => simp [bind, Except.bind]
      | ok last =>
        by_cases falling : first > last
        · simp [bind, Except.bind, pure, Except.pure, falling]
        · simp [bind, Except.bind, pure, Except.pure, falling]

/-- The parts of a list, without the blanks around them. -/
def listed (text : Text) : List Text :=
  ((text.splitOn ',').map strip).filter (!·.isEmpty)

theorem expandRanges_eq (text : Text) :
    expandRanges text = ((listed text).mapM expandRange).bind fun expanded => .ok expanded.flatten :=
  rfl

theorem exists_expandRanges_iff {text : Text} :
    (∃ sections, expandRanges text = .ok sections) ↔ ∀ part ∈ listed text, ∀ number ∈ rangeEnds part, IsShort number := by
  rw [expandRanges_eq, exists_bind_eq_ok]
  simp only [Except.ok.injEq, exists_eq', and_true, exists_mapM_eq_ok, exists_expandRange_iff]

theorem exists_readSections_iff {text : Text} :
    (∃ sections, readSections text = .ok sections) ↔ ∀ number ∈ sectionNumbers text, IsShort number := by
  have read : readSections text = (expandRanges (text.map fun c => if c = ':' then '-' else c)).bind
      fun expanded => .ok ((expanded.map normalize).filter (!·.isEmpty)) := rfl
  have same : listed (text.map fun c => if c = ':' then '-' else c) = sectionParts text := rfl
  rw [read, exists_bind_eq_ok]
  have expands : (∃ expanded, expandRanges (text.map fun c => if c = ':' then '-' else c) = .ok expanded) ↔
      ∀ part ∈ sectionParts text, ∀ number ∈ rangeEnds part, IsShort number := by
    rw [exists_expandRanges_iff, same]
  simpa [sectionNumbers, forall_comm (α := Text)] using expands

/-! ### One reference -/

/-- What a part of a link is taken for before any number in it is read. -/
structure Draft where
  collection : Option Text
  title : Text
  place : Place

namespace Draft

def of (inherited : Option Text) (content : Text) : Draft :=
  let segments := separatePipes inherited (strip content)
  let place := splitPlace (strip segments.main)
  let (collection, written) := splitCollection ((Reference.named segments.collection).or inherited) place.title
  ⟨collection, strip written, place⟩

def sectionNumbers (draft : Draft) : List Text :=
  (draft.place.sections.map Link.sectionNumbers).getD []

theorem exists_readSections_iff (draft : Draft) :
    (∃ sections, draft.place.readSections = .ok sections) ↔ ∀ number ∈ draft.sectionNumbers, IsShort number := by
  unfold Place.readSections sectionNumbers
  cases draft.place.sections with
  | none => simp
  | some sections => exact Link.exists_readSections_iff

end Draft

namespace Reader
variable (reader : Reader)

/-- A title in digits is read as a number in the numbered collection only. -/
def ReadsAsNumber (draft : Draft) : Prop :=
  draft.collection = some reader.numberedCollection ∧ draft.title ≠ [] ∧ draft.title.all isDecimal = true

instance (draft : Draft) : Decidable (reader.ReadsAsNumber draft) :=
  inferInstanceAs (Decidable (_ ∧ _ ∧ _))

def titleNumbers (draft : Draft) : List Text :=
  if reader.ReadsAsNumber draft then [draft.title] else []

def nameOf (draft : Draft) : Text :=
  reader.titleOf draft.collection draft.title

variable {reader} {draft : Draft}

theorem isNumberedTitle_of_readsAsNumber (numbered : reader.ReadsAsNumber draft) :
    reader.isNumberedTitle draft.collection draft.title =
      (readDigits draft.title).bind fun number => .ok (1 ≤ number && (number : Int) ≤ reader.highestNumber) := by
  have guard : (decide (draft.collection = some reader.numberedCollection) && !draft.title.isEmpty &&
      draft.title.all isDecimal) = true := by
    simpa [ReadsAsNumber, and_assoc] using numbered
  exact if_pos guard

theorem isNumberedTitle_of_not (named : ¬ reader.ReadsAsNumber draft) :
    reader.isNumberedTitle draft.collection draft.title = .ok false := by
  have guard : ¬ (decide (draft.collection = some reader.numberedCollection) && !draft.title.isEmpty &&
      draft.title.all isDecimal) = true := by
    simpa [ReadsAsNumber, and_assoc] using named
  exact if_neg guard

theorem keepsNumber_iff : reader.KeepsNumber draft.collection draft.title ↔ reader.ReadsAsNumber draft ∧
    1 ≤ valueOfDigits draft.title ∧ (valueOfDigits draft.title : Int) ≤ reader.highestNumber := by
  unfold KeepsNumber ReadsAsNumber
  constructor
  · rintro ⟨collected, digits, low, high⟩
    refine ⟨⟨collected, ?_, digits⟩, low, high⟩
    intro empty
    rw [empty] at low
    exact absurd low (by decide)
  · rintro ⟨⟨collected, _, digits⟩, low, high⟩
    exact ⟨collected, digits, low, high⟩

/-- A title leads to a name if it is no number or can be read as one. -/
theorem resolveTitle_eq_ok_iff {written name : Text} (title : strip written = draft.title) :
    reader.resolveTitle draft.collection written = .ok name ↔
      (∀ number ∈ reader.titleNumbers draft, IsShort number) ∧ reader.nameOf draft = name := by
  have bound : reader.resolveTitle draft.collection written = (reader.isNumberedTitle draft.collection draft.title).bind
      fun keeps => if keeps then .ok draft.title else .ok (reader.titles.resolve draft.title) := by
    rw [resolveTitle, title]
    rfl
  rw [bound, nameOf, titleOf, titleNumbers]
  by_cases numbered : reader.ReadsAsNumber draft
  · rw [if_pos numbered, List.forall_mem_singleton, isNumberedTitle_of_readsAsNumber numbered]
    by_cases short : IsShort draft.title
    · by_cases kept : 1 ≤ valueOfDigits draft.title ∧ (valueOfDigits draft.title : Int) ≤ reader.highestNumber
      · simp [readDigits_of_isShort short, keepsNumber_iff, numbered, short, kept, Except.bind]
      · simp [readDigits_of_isShort short, keepsNumber_iff, numbered, short, kept, Except.bind]
    · cases read : readDigits draft.title with
      | error => simp [short, Except.bind]
      | ok number => exact absurd (exists_readDigits_iff.mp ⟨number, read⟩) short
  · rw [if_neg numbered, isNumberedTitle_of_not numbered]
    simp [keepsNumber_iff, numbered, Except.bind]

end Reader

/-! ### One reference after another -/

namespace Reader
variable (reader : Reader)

/-- Nothing comes of a part that names no title. -/
def Skips (inherited : Option Text) (content : Text) : Prop :=
  strip content = [] ∨ reader.nameOf (.of inherited content) = []

instance (inherited : Option Text) (content : Text) : Decidable (reader.Skips inherited content) :=
  inferInstanceAs (Decidable (_ ∨ _))

/-- The numbers that are read in one part of a link. Sections count only where there is a title for them. -/
def numbersOf (inherited : Option Text) (content : Text) : List Text :=
  if strip content = [] then []
  else
    reader.titleNumbers (.of inherited content)
      ++ if reader.Skips inherited content then [] else (Draft.of inherited content).sectionNumbers

/-- The collection that a part of a link leaves to the next one. -/
def passesOn (inherited : Option Text) (content : Text) : Option Text :=
  if reader.Skips inherited content then inherited
  else (Reference.named (Draft.of inherited content).collection).or inherited

def numbersOfAll (inherited : Option Text) : List Text → List Text
  | [] => []
  | part :: parts => reader.numbersOf inherited part ++ numbersOfAll (reader.passesOn inherited part) parts

/-- The numbers that are read in a link. -/
def numbersIn (link : Text) : List Text :=
  reader.numbersOfAll none (splitUnquoted commaSeparator (splitSharedVersions (stripDelimiters link)).1)

variable {reader} {inherited : Option Text} {content : Text} {versions : List Text}

variable (reader inherited versions) in
theorem readReference_of_present (present : strip content ≠ []) : ∃ written,
    strip written = (Draft.of inherited content).title ∧ reader.readReference content inherited versions =
      (reader.resolveTitle (Draft.of inherited content).collection written).bind fun title =>
        if title.isEmpty then .ok none
        else (Draft.of inherited content).place.readSections.bind fun sections => .ok (some
          { collection := Reference.named (Draft.of inherited content).collection
            title := title
            chapter := Reference.named ((Draft.of inherited content).place.chapter.map normalize)
            sections := sections
            versions :=
              if (separatePipes inherited (strip content)).versions.isEmpty then versions
              else (separatePipes inherited (strip content)).versions }) := by
  refine ⟨_, rfl, ?_⟩
  have nonempty : (strip content).isEmpty = false := by simpa using present
  rw [readReference]
  simp only [nonempty]
  rfl

/-- What a reference that was read is made of. -/
theorem exists_of_readReference {reference : Reference}
    (read : reader.readReference content inherited versions = .ok (some reference)) :
    reader.nameOf (.of inherited content) ≠ [] ∧ ∃ sections, (Draft.of inherited content).place.readSections = .ok sections ∧
      reference =
        { collection := Reference.named (Draft.of inherited content).collection
          title := reader.nameOf (.of inherited content)
          chapter := Reference.named ((Draft.of inherited content).place.chapter.map normalize)
          sections := sections
          versions :=
            if (separatePipes inherited (strip content)).versions.isEmpty then versions
            else (separatePipes inherited (strip content)).versions } := by
  by_cases empty : strip content = []
  · rw [readReference, empty] at read
    cases read
  obtain ⟨written, title, same⟩ := readReference_of_present reader inherited versions empty
  obtain ⟨name, resolved, rest⟩ := bind_eq_ok.mp (same.symm.trans read)
  obtain ⟨_, rfl⟩ := (resolveTitle_eq_ok_iff title).mp resolved
  split at rest
  next => cases rest
  next present =>
    obtain ⟨sections, listed, found⟩ := bind_eq_ok.mp rest
    exact ⟨by simpa using present, sections, listed, (Option.some.inj (Except.ok.inj found)).symm⟩

/-- What a reference that was read leaves to the next one. -/
def leaves (inherited : Option Text) (result : Option Reference) : Option Text :=
  result.elim inherited fun reference => reference.collection.or inherited

variable (versions) in
theorem exists_readReference_of_isShort (short : ∀ number ∈ reader.numbersOf inherited content, IsShort number) :
    ∃ result, reader.readReference content inherited versions = .ok result ∧
      leaves inherited result = reader.passesOn inherited content := by
  unfold numbersOf at short
  unfold passesOn
  by_cases empty : strip content = []
  · refine ⟨none, ?_, (if_pos (Or.inl empty)).symm⟩
    rw [readReference, empty]
    rfl
  obtain ⟨written, title, read⟩ := readReference_of_present reader inherited versions empty
  rw [if_neg empty, List.forall_mem_append] at short
  have named := (resolveTitle_eq_ok_iff title).mpr ⟨short.1, rfl⟩
  rw [read, named]
  by_cases skips : reader.Skips inherited content
  · have nothing := skips.resolve_left empty
    rw [if_pos skips]
    exact ⟨none, by simp [Except.bind, nothing], rfl⟩
  · rw [if_neg skips] at short ⊢
    obtain ⟨sections, listed⟩ := (Draft.exists_readSections_iff _).mpr short.2
    have something : (reader.nameOf (.of inherited content)).isEmpty = false := by
      simpa using fun nothing => skips (Or.inr nothing)
    exact ⟨_, by simp only [Except.bind, something, listed]; rfl, rfl⟩

theorem isShort_of_readReference {result : Option Reference}
    (read : reader.readReference content inherited versions = .ok result) :
    ∀ number ∈ reader.numbersOf inherited content, IsShort number := by
  unfold numbersOf
  by_cases empty : strip content = []
  · rw [if_pos empty]
    exact List.forall_mem_nil _
  obtain ⟨written, title, same⟩ := readReference_of_present reader inherited versions empty
  rw [same] at read
  obtain ⟨name, resolved, result, rest⟩ := exists_bind_eq_ok.mp ⟨result, read⟩
  obtain ⟨short, named⟩ := (resolveTitle_eq_ok_iff title).mp resolved
  rw [if_neg empty, List.forall_mem_append]
  refine ⟨short, ?_⟩
  by_cases skips : reader.Skips inherited content
  · rw [if_pos skips]
    exact List.forall_mem_nil _
  · have something : name.isEmpty = false := by
      rw [← named]
      simpa using fun nothing => skips (Or.inr nothing)
    rw [if_neg skips]
    simp only [something] at rest
    obtain ⟨sections, listed, _⟩ := exists_bind_eq_ok.mp ⟨result, rest⟩
    exact (Draft.exists_readSections_iff _).mp ⟨sections, listed⟩

theorem exists_readReferences_cons_iff {part : Text} {parts : List Text} {result : Option Reference}
    (first : reader.readReference part inherited versions = .ok result) :
    (∃ references, reader.readReferences inherited versions (part :: parts) = .ok references) ↔
      ∃ references, reader.readReferences (leaves inherited result)
        (result.elim versions fun reference => if reference.versions.isEmpty then versions else reference.versions)
        parts = .ok references := by
  rw [readReferences, first]
  cases result with
  | none => rfl
  | some reference =>
    change (∃ references, (Except.bind _ fun rest => .ok (reference :: rest)) = .ok references) ↔ _
    rw [exists_bind_eq_ok]
    simp [leaves]

theorem exists_readReferences_iff {parts : List Text} :
    (∃ references, reader.readReferences inherited versions parts = .ok references) ↔
      ∀ number ∈ reader.numbersOfAll inherited parts, IsShort number := by
  induction parts generalizing inherited versions with
  | nil => exact ⟨fun _ => List.forall_mem_nil _, fun _ => ⟨[], rfl⟩⟩
  | cons part parts ih =>
    rw [numbersOfAll, List.forall_mem_append]
    constructor
    · intro all
      obtain ⟨result, read⟩ : ∃ result, reader.readReference part inherited versions = .ok result := by
        obtain ⟨references, whole⟩ := all
        rw [readReferences] at whole
        obtain ⟨result, read, _⟩ := exists_bind_eq_ok.mp ⟨references, whole⟩
        exact ⟨result, read⟩
      have short := isShort_of_readReference read
      obtain ⟨other, same, left⟩ := exists_readReference_of_isShort versions short
      obtain rfl : result = other := Except.ok.inj (read.symm.trans same)
      have others := (exists_readReferences_cons_iff read).mp all
      rw [left] at others
      exact ⟨short, ih.mp others⟩
    · rintro ⟨first, others⟩
      obtain ⟨result, read, left⟩ := exists_readReference_of_isShort versions first
      refine (exists_readReferences_cons_iff read).mpr ?_
      rw [left]
      exact ih.mpr others

/-- A link is read to its end just where all its numbers are short enough. -/
theorem exists_readLink_iff {link : Text} :
    (∃ references, reader.readLink link = .ok references) ↔ ∀ number ∈ reader.numbersIn link, IsShort number := by
  rw [readLink, numbersIn]
  by_cases empty : stripDelimiters link = []
  · rw [empty]
    exact ⟨fun _ => List.forall_mem_nil _, fun _ => ⟨[], rfl⟩⟩
  · have nonempty : (stripDelimiters link).isEmpty = false := by simpa using empty
    simp only [nonempty]
    exact exists_readReferences_iff

theorem exists_readText_iff {text : Text} : (∃ references, reader.readText text = .ok references) ↔
    ∀ link ∈ findLinks text, ∀ number ∈ reader.numbersIn link, IsShort number := by
  have read : (∃ references, reader.readText text = .ok references) ↔
      ∃ references, (findLinks text).mapM reader.readLink = .ok references := by
    change (∃ references, (((findLinks text).mapM reader.readLink).bind fun results => .ok results.flatten) =
      .ok references) ↔ _
    rw [exists_bind_eq_ok]
    simp
  rw [read, exists_mapM_eq_ok]
  exact forall₂_congr fun link _ => exists_readLink_iff

end Reader

end Link
end Bindery
