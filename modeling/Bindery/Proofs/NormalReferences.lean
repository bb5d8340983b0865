import Bindery.Proofs.TaggedNodes

/-! References in normal form. Every part of a reference is a name, whichever way it came to the reference; only a title
may be a number instead, where the numbered collection is the one the reference has. A numbered collection without a name
is that of references without a collection. -/

namespace Bindery
open Text Identifier

/-! ### Names -/

/-- Runs of small letters and digits, with single hyphens between them. -/
def Identifier.IsName (text : Text) : Prop :=
  ∃ runs : List Text, runs ≠ [] ∧ (∀ run ∈ runs, run ≠ [] ∧ ∀ c ∈ run, isIdentifierChar c = true) ∧ text = join "-" runs

theorem Identifier.isName_iff {text : Text} : IsName text ↔ IsIdentifier text ∧ text ≠ [] := by
  constructor
  · rintro ⟨runs, nonempty, whole, rfl⟩
    have all : ∀ run ∈ runs, run ≠ [] ∧ ∀ c ∈ run, (!isIdentifierChar c) = false :=
      fun run member => (whole run member).imp_right fun inside c found => by simp [inside c found]
    have small : ∀ c ∈ join "-" runs, (!isIdentifierChar c) = false ∨ c = '-' := by
      intro c inside
      rcases mem_join inside with hyphen | ⟨run, member, here⟩
      · exact Or.inr (List.mem_singleton.mp hyphen)
      · exact Or.inl ((all run member).2 c here)
    constructor
    · rw [IsIdentifier, normalize, pieces, fold_eq small]
      exact congrArg (join "-") (runsOutside_join (by decide) all)
    · obtain ⟨run, rest, rfl⟩ := List.exists_cons_of_ne_nil nonempty
      have first := (whole run List.mem_cons_self).1
      cases rest with
      | nil => rwa [join_singleton]
      | cons next rest => simp [join_cons_cons, first]
  · rintro ⟨same, present⟩
    refine ⟨pieces text, ?_, fun run member => ?_, same.symm⟩
    · intro empty
      rw [← same, normalize, empty] at present
      exact present rfl
    · obtain ⟨nonempty, inside⟩ := of_mem_runsOutside member
      exact ⟨nonempty, fun c found => by simpa using inside c found⟩

theorem Identifier.IsIdentifier.isName {text : Text} (identifier : IsIdentifier text) (present : text ≠ []) : IsName text :=
  isName_iff.mpr ⟨identifier, present⟩

/-! ### Normal form -/

namespace Reference

/-- A title that is a number up to the highest. -/
structure IsNumbered (highest : Int) (title : Text) : Prop where
  digits : title.all isDecimal = true
  positive : 1 ≤ valueOfDigits title
  bounded : (valueOfDigits title : Int) ≤ highest

/-- Every part is a name; in the numbered collection the title may be a number. -/
structure IsNormal (numbered : Option Text) (highest : Int) (reference : Reference) : Prop where
  collection : ∀ name ∈ reference.collection, IsName name
  chapter : ∀ name ∈ reference.chapter, IsName name
  sections : ∀ name ∈ reference.sections, IsName name
  versions : ∀ name ∈ reference.versions, IsName name
  present : reference.title ≠ []
  title : IsName reference.title ∨ reference.collection = numbered ∧ IsNumbered highest reference.title

theorem IsNumbered.one_le {highest : Int} {title : Text} (numbered : IsNumbered highest title) : 1 ≤ highest := by
  have low := numbered.positive
  have high := numbered.bounded
  omega

end Reference

namespace Link

theorem ne_nil_of_mem_named {part : Option Text} : ∀ name ∈ Reference.named part, name ≠ [] := by
  intro name member
  simpa using (Option.mem_filter_iff.mp member).2

theorem isName_of_mem_versionList {text name : Text} (member : name ∈ versionList text) : IsName name :=
  (isIdentifier_of_mem_versionList member).isName (by simpa using (List.mem_filter.mp member).2)

theorem ne_nil_of_mem_classifySegments (segments : List Text) : ∀ name ∈ (classifySegments segments).2.versions, name ≠ [] := by
  have versions (text : Text) : ∀ name ∈ versionList text, name ≠ [] := fun name member =>
    (isName_iff.mp (isName_of_mem_versionList member)).2
  fun_cases classifySegments segments with
  | case1 => exact List.forall_mem_nil _
  | case2 => exact List.forall_mem_nil _
  | case3 first second => exact versions second
  | case4 => exact List.forall_mem_nil _
  | case5 => exact List.forall_mem_nil _
  | case6 => exact versions _
  | case7 => exact versions _

theorem isName_of_mem_separatePipes (inherited : Option Text) (content : Text) :
    ∀ name ∈ (separatePipes inherited content).versions, IsName name := by
  intro name member
  refine ((isIdentifier_separatePipes inherited content).2 name member).isName ?_
  unfold separatePipes at member
  split at member
  next => exact ne_nil_of_mem_classifySegments _ name member
  next => cases member

section
variable {reader : Reader} (titled : ∀ text, IsIdentifier (reader.titles.resolve text))
include titled

theorem isNormal_of_readReference {content : Text} {inherited : Option Text} {versions : List Text} {reference : Reference}
    (collected : ∀ name ∈ inherited, IsName name) (versioned : ∀ name ∈ versions, IsName name)
    (read : reader.readReference content inherited versions = .ok (some reference)) :
    reference.IsNormal (Reference.named (some reader.numberedCollection)) reader.highestNumber := by
  have sound := isSound_of_readReference titled (fun name member => (isName_iff.mp (collected name member)).1)
    (fun name member => (isName_iff.mp (versioned name member)).1) read
  obtain ⟨present, sections, listed, rfl⟩ := Reader.exists_of_readReference read
  refine
    { collection := fun name member => (sound.collection name member).isName (ne_nil_of_mem_named name member)
      chapter := fun name member => (sound.chapter name member).isName (ne_nil_of_mem_named name member)
      sections := fun name member => isName_iff.mpr (of_mem_sections listed name member)
      versions := ?versions
      present := present
      title := ?title }
  case versions =>
    simp only
    split
    next => exact versioned
    next => exact isName_of_mem_separatePipes inherited _
  case title =>
    simp only [Reader.nameOf, Reader.titleOf] at present ⊢
    split at present
    next numbered =>
      rw [if_pos numbered, numbered.1]
      exact Or.inr ⟨rfl, numbered.2.1, numbered.2.2.1, numbered.2.2.2⟩
    next named =>
      rw [if_neg named]
      exact Or.inl ((titled _).isName present)

theorem isNormal_of_readLink {link : Text} {references : List Reference} (read : reader.readLink link = .ok references) :
    ∀ reference ∈ references,
      reference.IsNormal (Reference.named (some reader.numberedCollection)) reader.highestNumber :=
  forall_of_readLink (fun _ _ _ _ collected versioned => isNormal_of_readReference titled collected versioned)
    (fun _ normal => ⟨normal.collection, normal.versions⟩) (fun _ _ => isName_of_mem_versionList) read

end

/-! ### A numbered collection without a name -/

/-- Two collections without a name stand before the title, a number in Arabic digits. -/
def unnamedContent : Text :=
  "_ | _ | \u0661 3 | nrsv (1989)"

def unnamedLink : Text :=
  opening ++ unnamedContent ++ closing

section
variable {reader : Reader} (unnamed : reader.numberedCollection = []) (positive : 1 ≤ reader.highestNumber)
include unnamed positive

/-- The inner collection counts for the title, but not for the reference. -/
theorem readReference_unnamedContent : reader.readReference unnamedContent none [] =
    .ok (some ⟨none, "\u0661", some "3", [], ["nrsv", "1989"]⟩) := by
  have draft : Draft.of none unnamedContent = ⟨some [], "\u0661", ⟨"_ | \u0661", some "3", none⟩⟩ := by rfl
  have versions : (separatePipes none (strip unnamedContent)).versions = ["nrsv", "1989"] := by decide
  obtain ⟨written, title, read⟩ := Reader.readReference_of_present reader none [] (show strip unnamedContent ≠ [] by decide)
  rw [draft] at title
  rw [draft, versions] at read
  have keeps : reader.KeepsNumber (some []) "\u0661" := ⟨congrArg some unnamed.symm, by decide, by decide, positive⟩
  have resolved : reader.resolveTitle (some []) written = .ok "\u0661" := by
    refine (Reader.resolveTitle_eq_ok_iff title).mpr ⟨fun number member => ?_, if_pos keeps⟩
    rw [Reader.titleNumbers] at member
    split at member
    next =>
      rw [List.mem_singleton.mp member]
      decide
    next => cases member
  rw [read, resolved]
  decide

theorem readLink_unnamedLink :
    reader.readLink unnamedLink = .ok [⟨none, "\u0661", some "3", [], ["nrsv", "1989"]⟩] := by
  have inside : stripDelimiters unnamedLink = unnamedContent := by decide
  have present : unnamedContent.isEmpty = false := by decide
  have unshared : splitSharedVersions unnamedContent = (unnamedContent, []) := by decide
  have alone : splitUnquoted commaSeparator unnamedContent = [unnamedContent] := by decide
  rw [Reader.readLink, inside]
  simp only [present, unshared, alone]
  exact Reader.readReferences_cons (readReference_unnamedContent unnamed positive) rfl

end

/-- Parts of references are names, except for titles in the numbered collection that are numbers. Where the numbered
collection has no name, such numbers come in references without a collection instead. -/
theorem references_are_normal_iff (entries : List TitleEntry) (numbered : Text) (highest : Int) :
    (∀ link references, (Reader.new (.ofEntries entries) numbered highest).readLink link = .ok references →
      ∀ reference ∈ references, reference.IsNormal (Reference.named (some (normalize numbered))) highest) ∧
    ((∀ link references, (Reader.new (.ofEntries entries) numbered highest).readLink link = .ok references →
      ∀ reference ∈ references, reference.IsNormal (some (normalize numbered)) highest) ↔
        normalize numbered ≠ [] ∨ highest < 1) := by
  have normal : ∀ link references, (Reader.new (.ofEntries entries) numbered highest).readLink link = .ok references →
      ∀ reference ∈ references, reference.IsNormal (Reference.named (some (normalize numbered))) highest := by
    intro link references read
    have titled : ∀ text, IsIdentifier ((Reader.new (.ofEntries entries) numbered highest).titles.resolve text) :=
      TitleIndex.isIdentifier_resolve entries
    exact isNormal_of_readLink titled read
  refine ⟨normal, ?_, ?_⟩
  · intro all
    by_contra exception
    obtain ⟨unnamed, positive⟩ := not_or.mp exception
    have read := @readLink_unnamedLink (Reader.new (.ofEntries entries) numbered highest) (not_not.mp unnamed)
      (Int.not_lt.mp positive)
    rcases (all _ _ read _ List.mem_cons_self).title with name | ⟨same, _⟩
    · exact absurd (isName_iff.mp name).1 (by unfold IsIdentifier; decide)
    · cases same
  · rintro (named | small) link references read reference member
    · have whole := normal link references read reference member
      rwa [named_some named] at whole
    · have whole := normal link references read reference member
      refine { whole with title := whole.title.imp_right fun ⟨_, digits⟩ => ?_ }
      have least := digits.one_le
      omega

/-- The number in Arabic digits stays a title, though the reference has no collection. -/
theorem unnamed_collection_keeps_number :
    (Reader.new (.ofEntries []) "" 114).readLink unnamedLink = .ok [⟨none, "\u0661", some "3", [], ["nrsv", "1989"]⟩] ∧
      ¬ ∀ link references, (Reader.new (.ofEntries []) "" 114).readLink link = .ok references →
        ∀ reference ∈ references, reference.IsNormal (some (normalize "")) 114 :=
  ⟨readLink_unnamedLink (by decide) (by decide), mt (references_are_normal_iff [] "" 114).2.mp (by decide)⟩

end Link
end Bindery
