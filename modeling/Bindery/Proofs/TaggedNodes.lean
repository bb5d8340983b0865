import Bindery.Archive.Query
import Bindery.Proofs.NumbersRead

/-! Nodes that carry the tags of a reference, and the nodes that a reference finds. A reference finds nodes by the
identifiers of their tags, so the two are the same where every part of it is its own identifier. Numbers that stand
for titles are the only parts that may be none. -/

namespace Bindery
open Text

namespace Identifier

def IsIdentifier (text : Text) : Prop :=
  normalize text = text

theorem isIdentifier_normalize (text : Text) : IsIdentifier (normalize text) := by
  have runs : ∀ run ∈ pieces text, run ≠ [] ∧ ∀ c ∈ run, (!isIdentifierChar c) = false := fun run =>
    of_mem_runsOutside
  have small : ∀ c ∈ normalize text, (!isIdentifierChar c) = false ∨ c = '-' := by
    intro c inside
    rcases mem_join inside with hyphen | ⟨run, member, here⟩
    · exact Or.inr (List.mem_singleton.mp hyphen)
    · exact Or.inl ((runs run member).2 c here)
  have same : pieces (normalize text) = pieces text := by
    rw [pieces, fold_eq small]
    exact runsOutside_join (by decide) runs
  rw [IsIdentifier, normalize, same]
  rfl

theorem isWordChar_of_mem_normalize {text : Text} {c : Char} (member : c ∈ normalize text) : Link.isWordChar c = true := by
  rcases mem_join member with hyphen | ⟨run, inside, here⟩
  · rw [List.mem_singleton.mp hyphen]
    decide
  · have kept := (of_mem_runsOutside inside).2 c here
    simp only [isIdentifierChar, Bool.not_eq_false', Bool.or_eq_true] at kept
    rcases kept with lower | digit
    · simp [Link.isWordChar, lower]
    · simp [Link.isWordChar, digit]

/-- No digits of other scripts. -/
def HasPlainDigits (text : Text) : Prop :=
  ∀ c ∈ text, isDecimal c = true → isAsciiDigit c = true

theorem IsIdentifier.hasPlainDigits {text : Text} (identifier : IsIdentifier text) : HasPlainDigits text := by
  intro c member digit
  rw [← identifier] at member
  rwa [Link.isDecimal_of_isWordChar (isWordChar_of_mem_normalize member)] at digit

end Identifier

namespace TitleIndex
open Identifier

theorem mem_foldl_claim {claimed pairs : List (Text × Text)} {pair : Text × Text} (member : pair ∈ pairs.foldl claim claimed) :
    pair ∈ claimed ∨ pair ∈ pairs := by
  induction pairs generalizing claimed with
  | nil => exact Or.inl member
  | cons first rest ih =>
    rcases ih member with before | later
    · rw [claim] at before
      split at before
      next => exact Or.inl before
      next =>
        rcases List.mem_append.mp before with before | here
        · exact Or.inl before
        · exact Or.inr (List.mem_singleton.mp here ▸ List.mem_cons_self)
    · exact Or.inr (List.mem_cons_of_mem _ later)

theorem isIdentifier_of_mem {entries : List TitleEntry} {pair : Text × Text} (member : pair ∈ (ofEntries entries).pairs) :
    IsIdentifier pair.2 := by
  obtain ⟨entry, _, inside⟩ := List.mem_flatMap.mp ((mem_foldl_claim member).resolve_left List.not_mem_nil)
  obtain ⟨form, _, rfl⟩ := List.mem_map.mp (List.mem_of_mem_filter inside)
  exact isIdentifier_normalize entry.long

theorem isIdentifier_resolve (entries : List TitleEntry) (text : Text) : IsIdentifier ((ofEntries entries).resolve text) := by
  simp only [resolve]
  split
  next => exact isIdentifier_normalize text
  next =>
    split
    next key canonical found => exact isIdentifier_of_mem (List.mem_of_find?_eq_some found)
    next =>
      split
      next key canonical found => exact isIdentifier_of_mem (List.mem_of_find?_eq_some found)
      next => exact isIdentifier_normalize text

end TitleIndex

namespace Link
open Identifier

/-- Every part of a reference but the title is its own identifier; the title is one if its digits are plain. -/
structure IsSound (reference : Reference) : Prop where
  collection : ∀ name ∈ reference.collection, IsIdentifier name
  title : HasPlainDigits reference.title → IsIdentifier reference.title
  chapter : ∀ name ∈ reference.chapter, IsIdentifier name
  sections : ∀ name ∈ reference.sections, IsIdentifier name
  versions : ∀ name ∈ reference.versions, IsIdentifier name

/-! ### Parts of a reference -/

theorem isIdentifier_of_mem_versionList {text name : Text} (member : name ∈ versionList text) : IsIdentifier name := by
  obtain ⟨word, _, rfl⟩ := List.mem_map.mp (List.mem_of_mem_filter member)
  exact isIdentifier_normalize word

theorem of_mem_sections {place : Place} {sections : List Text} (read : place.readSections = .ok sections) :
    ∀ name ∈ sections, IsIdentifier name ∧ name ≠ [] := by
  unfold Place.readSections at read
  split at read
  next =>
    cases read
    exact List.forall_mem_nil _
  next text =>
    obtain ⟨expanded, _, kept⟩ := bind_eq_ok.mp read
    cases kept
    intro name member
    obtain ⟨listed, present⟩ := List.mem_filter.mp member
    obtain ⟨written, _, rfl⟩ := List.mem_map.mp listed
    exact ⟨isIdentifier_normalize written, by simpa using present⟩

theorem isIdentifier_classifySegments (segments : List Text) :
    (∀ name ∈ (classifySegments segments).2.collection, IsIdentifier name) ∧
      ∀ name ∈ (classifySegments segments).2.versions, IsIdentifier name := by
  have collection (text : Text) : ∀ name ∈ some (normalize text), IsIdentifier name := by
    rintro name ⟨⟩
    exact isIdentifier_normalize text
  have versions (text : Text) : ∀ name ∈ versionList text, IsIdentifier name := fun name =>
    isIdentifier_of_mem_versionList
  fun_cases classifySegments segments with
  | case1 => exact ⟨nofun, List.forall_mem_nil _⟩
  | case2 => exact ⟨nofun, List.forall_mem_nil _⟩
  | case3 first second => exact ⟨nofun, versions second⟩
  | case4 first => exact ⟨collection first, List.forall_mem_nil _⟩
  | case5 => exact ⟨nofun, List.forall_mem_nil _⟩
  | case6 first => exact ⟨collection first, versions _⟩
  | case7 => exact ⟨nofun, versions _⟩

theorem isIdentifier_separatePipes (inherited : Option Text) (content : Text) :
    (∀ name ∈ (separatePipes inherited content).collection, IsIdentifier name) ∧
      ∀ name ∈ (separatePipes inherited content).versions, IsIdentifier name := by
  unfold separatePipes
  split
  next => exact isIdentifier_classifySegments _
  next => exact ⟨nofun, List.forall_mem_nil _⟩

theorem isIdentifier_splitCollection {known : Option Text} (inherited : ∀ name ∈ known, IsIdentifier name) (title : Text) :
    ∀ name ∈ (splitCollection known title).1, IsIdentifier name := by
  unfold splitCollection
  split
  next collection inner _ _ =>
    rintro name ⟨⟩
    exact isIdentifier_normalize collection
  next => exact inherited

theorem isIdentifier_named {part : Option Text} (sound : ∀ name ∈ part, IsIdentifier name) :
    ∀ name ∈ Reference.named part, IsIdentifier name := fun name member =>
  sound name (Option.mem_filter_iff.mp member).1

theorem isIdentifier_of_draft {inherited : Option Text} (sound : ∀ name ∈ inherited, IsIdentifier name) (content : Text) :
    ∀ name ∈ (Draft.of inherited content).collection, IsIdentifier name := by
  apply isIdentifier_splitCollection
  intro name member
  rcases Option.or_eq_some_iff.mp member with own | ⟨_, taken⟩
  · exact isIdentifier_named (isIdentifier_separatePipes _ _).1 name own
  · exact sound name taken

theorem isIdentifier_titleOf {reader : Reader} (titled : ∀ text, IsIdentifier (reader.titles.resolve text))
    (collection : Option Text) {title : Text} (present : reader.titleOf collection title ≠ [])
    (plain : HasPlainDigits (reader.titleOf collection title)) : IsIdentifier (reader.titleOf collection title) := by
  unfold Reader.titleOf at present plain ⊢
  split at present
  next numbered =>
    rw [if_pos numbered] at plain ⊢
    exact normalize_digits present fun c member => plain c member (List.all_eq_true.mp numbered.2.1 c member)
  next named =>
    rw [if_neg named]
    exact titled title

/-! ### References of a link -/

section
variable {reader : Reader} {Named : Text → Prop} {Sound : Reference → Prop}
  (each : ∀ content inherited versions reference, (∀ name ∈ inherited, Named name) → (∀ name ∈ versions, Named name) →
    reader.readReference content inherited versions = .ok (some reference) → Sound reference)
  (passes : ∀ reference, Sound reference →
    (∀ name ∈ reference.collection, Named name) ∧ ∀ name ∈ reference.versions, Named name)
include each passes

/-- What holds of each reference that takes over sound names holds of all of them, as each hands on what it has. -/
theorem forall_of_readReferences {inherited : Option Text} (collected : ∀ name ∈ inherited, Named name) {versions : List Text}
    (versioned : ∀ name ∈ versions, Named name) {parts : List Text} {references : List Reference}
    (read : reader.readReferences inherited versions parts = .ok references) : ∀ reference ∈ references, Sound reference := by
  induction parts generalizing inherited versions references with
  | nil =>
    cases read
    exact List.forall_mem_nil _
  | cons part parts ih =>
    rw [Reader.readReferences] at read
    obtain ⟨result, first, rest⟩ := bind_eq_ok.mp read
    cases result with
    | none => exact ih collected versioned rest
    | some reference =>
      have sound := each part inherited versions reference collected versioned first
      obtain ⟨collection, own⟩ := passes reference sound
      obtain ⟨others, later, whole⟩ := bind_eq_ok.mp rest
      cases whole
      refine List.forall_mem_cons.mpr ⟨sound, ih ?_ ?_ later⟩
      · intro name member
        rcases Option.or_eq_some_iff.mp member with here | ⟨_, taken⟩
        · exact collection name here
        · exact collected name taken
      · split
        next => exact versioned
        next => exact own

theorem forall_of_readLink (listed : ∀ text, ∀ name ∈ versionList text, Named name) {link : Text}
    {references : List Reference} (read : reader.readLink link = .ok references) : ∀ reference ∈ references, Sound reference := by
  unfold Reader.readLink at read
  simp only at read
  split at read
  next =>
    cases read
    exact List.forall_mem_nil _
  next =>
    have uncollected : ∀ name ∈ (none : Option Text), Named name := nofun
    refine forall_of_readReferences each passes uncollected ?_ read
    unfold splitSharedVersions
    split
    next => exact List.forall_mem_nil _
    next before after _ =>
      simp only
      split
      next => exact listed (strip after)
      next => exact List.forall_mem_nil _

end

section
variable {reader : Reader} (titled : ∀ text, IsIdentifier (reader.titles.resolve text))
include titled

theorem isSound_of_readReference {content : Text} {inherited : Option Text} {versions : List Text} {reference : Reference}
    (collected : ∀ name ∈ inherited, IsIdentifier name) (versioned : ∀ name ∈ versions, IsIdentifier name)
    (read : reader.readReference content inherited versions = .ok (some reference)) : IsSound reference := by
  obtain ⟨present, sections, listed, rfl⟩ := Reader.exists_of_readReference read
  refine ⟨isIdentifier_named (isIdentifier_of_draft collected content), isIdentifier_titleOf titled _ present, ?_,
    fun name member => (of_mem_sections listed name member).1, ?_⟩
  · apply isIdentifier_named
    intro name member
    obtain ⟨chapter, _, rfl⟩ := Option.map_eq_some_iff.mp member
    exact isIdentifier_normalize chapter
  · simp only
    split
    next => exact versioned
    next => exact (isIdentifier_separatePipes _ _).2

theorem isSound_of_readLink {link : Text} {references : List Reference} (read : reader.readLink link = .ok references) :
    ∀ reference ∈ references, IsSound reference :=
  forall_of_readLink (fun _ _ _ _ collected versioned => isSound_of_readReference titled collected versioned)
    (fun _ sound => ⟨sound.collection, sound.versions⟩) (fun _ _ => isIdentifier_of_mem_versionList) read

end
end Link

/-! ### Nodes with the tags of a reference -/

namespace Node
open Identifier Link

theorem mem_identifiers {node : Node} {key value : Text} (tagged : ⟨key, value⟩ ∈ node.tags) (identifier : IsIdentifier value) :
    value ∈ node.identifiers key := by
  have valued : value ∈ node.values key :=
    List.mem_map.mpr ⟨⟨key, value⟩, List.mem_filter.mpr ⟨tagged, decide_eq_true rfl⟩, rfl⟩
  exact List.mem_map.mpr ⟨value, valued, identifier⟩

/-- Only identifiers are found. -/
theorem isIdentifier_of_mem_identifiers {node : Node} {key name : Text} (member : name ∈ node.identifiers key) :
    IsIdentifier name := by
  obtain ⟨value, _, rfl⟩ := List.mem_map.mp member
  exact isIdentifier_normalize value

theorem agreesOn_of_tagged {node : Node} {key : Text} {part : Option Text} (sound : ∀ name ∈ part, IsIdentifier name)
    (tagged : ∀ name ∈ Reference.named part, ⟨key, name⟩ ∈ node.tags) : node.agreesOn key part = true := by
  rw [agreesOn, Option.all_eq_true]
  intro name named
  exact List.contains_iff_mem.mpr (mem_identifiers (tagged name named) (isIdentifier_named sound name named))

theorem agreesOnAny_of_tagged {node : Node} {key : Text} {parts : List Text} (sound : ∀ name ∈ parts, IsIdentifier name)
    (tagged : ∀ name ∈ parts, ⟨key, name⟩ ∈ node.tags) : node.agreesOnAny key parts = true := by
  cases parts with
  | nil => rfl
  | cons name rest =>
    have first := mem_identifiers (tagged name List.mem_cons_self) (sound name List.mem_cons_self)
    rw [agreesOnAny, List.any_cons, List.contains_iff_mem.mpr first, Bool.true_or, Bool.or_true]

theorem isMeantBy_iff {node : Node} {reference : Reference} (sound : IsSound reference)
    (tagged : ∀ tag ∈ reference.tags, tag ∈ node.tags) :
    node.isMeantBy reference = true ↔ HasPlainDigits reference.title := by
  simp only [Reference.tags, List.forall_mem_append, List.forall_mem_map, List.forall_mem_singleton, Option.mem_toList] at tagged
  obtain ⟨⟨⟨⟨collection, title⟩, chapter⟩, sections⟩, versions⟩ := tagged
  have rest : node.isMeantBy reference = true ↔ reference.title ∈ node.identifiers "T" := by
    rw [isMeantBy, agreesOn_of_tagged sound.collection collection, agreesOn_of_tagged sound.chapter chapter,
      agreesOnAny_of_tagged sound.sections sections, agreesOnAny_of_tagged sound.versions versions]
    simp
  rw [rest]
  constructor
  · intro found
    exact (isIdentifier_of_mem_identifiers found).hasPlainDigits
  · intro plain
    exact mem_identifiers title (sound.title plain)

end Node

namespace Archive
open Identifier Link

theorem mem_find_iff {archive : Archive} {indexKinds : List Int} {reference : Reference} {row : Row} (kept : row ∈ archive.rows) :
    row.toNode indexKinds ∈ archive.find indexKinds reference ↔ (row.toNode indexKinds).isMeantBy reference = true := by
  rw [find, List.mem_filter, and_iff_right_iff_imp]
  intro _
  exact List.mem_map_of_mem ((List.mergeSort_perm archive.rows _).mem_iff.mpr kept)

/-- A lookup lists every reference of a link with what it finds. A row that has all tags of a reference is found just
where no digit in the title of the reference is of another script. -/
theorem finds_tagged_iff (entries : List TitleEntry) (numbered : Text) (highest : Int) {link : Text}
    {references : List Reference} (read : (Reader.new (.ofEntries entries) numbered highest).readLink link = .ok references)
    (archive : Archive) (indexKinds : List Int) :
    archive.lookUp indexKinds (Reader.new (.ofEntries entries) numbered highest) link =
        .ok (references.map fun reference => (reference, archive.find indexKinds reference)) ∧
      ∀ reference ∈ references, ∀ row ∈ archive.rows, (∀ tag ∈ reference.tags, tag ∈ row.tags) →
        (row.toNode indexKinds ∈ archive.find indexKinds reference ↔
          ∀ c ∈ reference.title, isDecimal c = true → isAsciiDigit c = true) := by
  constructor
  · rw [lookUp, read]
    rfl
  · intro reference member row kept tagged
    have titled : ∀ text, IsIdentifier ((Reader.new (.ofEntries entries) numbered highest).titles.resolve text) :=
      TitleIndex.isIdentifier_resolve entries
    have sound := isSound_of_readLink titled read reference member
    rw [mem_find_iff kept]
    exact Node.isMeantBy_iff sound tagged

def archiveOfSurah : Archive :=
  ⟨[⟨"surah-2", 30041, "alice", none, [⟨"C", "quran"⟩, ⟨"T", "\u0662"⟩], "text", 0⟩]⟩

/-- The second surah, its number in Arabic digits, is not found by the reference that gives it these tags. -/
theorem surah_in_arabic_digits_not_found :
    ∃ reference : Reference, (Reader.new (.ofEntries []) "quran" 114).readLink "[[book::quran | \u0662]]" = .ok [reference] ∧
      ∃ row ∈ archiveOfSurah.rows, (∀ tag ∈ reference.tags, tag ∈ row.tags) ∧
        row.toNode [30040] ∉ archiveOfSurah.find [30040] reference := by
  have read : (Reader.new (.ofEntries []) "quran" 114).readLink "[[book::quran | \u0662]]" =
      .ok [⟨some "quran", "\u0662", none, [], []⟩] := by decide
  refine ⟨_, read, _, List.mem_cons_self, by decide, ?_⟩
  rw [(finds_tagged_iff [] "quran" 114 read archiveOfSurah [30040]).2 _ List.mem_cons_self _ List.mem_cons_self (by decide)]
  intro ascii
  exact absurd (ascii '\u0662' (by decide) (by decide)) (by decide)

end Archive
end Bindery
