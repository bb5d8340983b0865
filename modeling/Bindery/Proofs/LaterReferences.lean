import Bindery.Proofs.LinkRoundTrip

/-! Links in which every reference brings its own collection, and its own versions. Pipes are looked at only until a
collection is known, so the first reference is read as it was meant, and in later ones all that stands before a pipe
goes to the title and all that stands behind one to the section. -/

namespace Bindery.Link
open Text Identifier

/-- One section of a book, with a collection and perhaps versions of its own. -/
structure Citation where
  collection : Word
  title : WrittenTitle
  chapter : Numeral
  number : Numeral
  versions : List Word

namespace Citation
variable (citation : Citation)

def reference : WrittenReference where
  title := citation.title
  locator := .sections citation.chapter (.one citation.number) []
  plain := nofun

def text : Text :=
  citation.collection.text ++ " | " ++ citation.reference.text ++ versionEnding citation.versions

/-! ### What a later citation is taken for -/

def longTitle : Text :=
  citation.collection.text ++ " | " ++ citation.title.text

def longNumber : Text :=
  citation.number.digits ++ versionEnding citation.versions

def asLater (reader : Reader) (collection : Text) (versions : List Text) : Reference where
  collection := some collection
  title := reader.titles.resolve citation.longTitle
  chapter := some citation.chapter.digits
  sections := [normalize citation.longNumber]
  versions := versions

theorem reference_text : citation.reference.text =
    citation.title.text ++ ' ' :: citation.chapter.digits ++ ':' :: citation.number.digits := by
  simp [reference, WrittenReference.text, Locator.text, Passage.text, join_singleton]

theorem isTight : IsTight citation.text :=
  isTight_append_versionEnding citation.versions
    (citation.collection.isToken.isTight.append " | " citation.reference.isTight)

theorem unquoted : Unquoted citation.text := by
  refine unquoted_append.mpr ⟨unquoted_append.mpr ⟨?_, citation.reference.isPlain.unquoted⟩,
    unquoted_versionEnding citation.versions⟩
  exact unquoted_append.mpr ⟨citation.collection.isPlain.unquoted, by decide⟩

theorem comma_not_mem : ',' ∉ citation.text := by
  have collection : ',' ∉ citation.collection.text := citation.collection.not_mem (by decide)
  have title : ',' ∉ citation.title.text := citation.title.not_mem (by decide)
  have chapter : ',' ∉ citation.chapter.digits := citation.chapter.word.not_mem (by decide)
  have number : ',' ∉ citation.number.digits := citation.number.word.not_mem (by decide)
  have ending : ',' ∉ versionEnding citation.versions := not_mem_versionEnding _ (by decide)
  simp [text, reference_text, collection, title, chapter, number, ending]

theorem isTight_longTitle : IsTight citation.longTitle :=
  citation.collection.isToken.isTight.append " | " citation.title.isTight

theorem isTight_longNumber : IsTight citation.longNumber :=
  isTight_append_versionEnding citation.versions citation.number.word.isToken.isTight

theorem not_mem_longNumber {c : Char} (strange : isWordChar c = false ∧ c ∉ [' ', '|']) : c ∉ citation.longNumber := by
  intro inside
  rcases List.mem_append.mp inside with digit | ending
  · exact citation.number.word.not_mem strange.1 digit
  · exact not_mem_versionEnding citation.versions strange ending

/-- The collection in front counts to the title, the versions behind count to the section. -/
theorem splitPlace_text : splitPlace citation.text =
    ⟨citation.longTitle, some citation.chapter.digits, some citation.longNumber⟩ := by
  have tokens : ∀ part ∈ citation.collection.text :: ['|'] :: citation.title.words.map (·.text), IsToken part := by
    have pipe : IsToken ['|'] := ⟨List.cons_ne_nil _ _, List.forall_mem_singleton.mpr (by decide)⟩
    refine List.forall_mem_cons.mpr ⟨citation.collection.isToken, List.forall_mem_cons.mpr ⟨pipe, ?_⟩⟩
    exact fun part member => citation.title.isToken_of_mem member
  have absent : ∀ part ∈ ['|'] :: citation.title.words.map (·.text), ':' ∉ part :=
    List.forall_mem_cons.mpr ⟨by decide, fun _ => citation.title.not_mem_of_mem (by decide)⟩
  have split := splitPlace_sections tokens absent citation.chapter.word citation.isTight_longNumber
    (citation.not_mem_longNumber (by decide))
  have title : join " " (citation.collection.text :: ['|'] :: citation.title.words.map (·.text)) = citation.longTitle := by
    rw [WrittenTitle.words, List.map_cons, join_cons_cons, join_cons_cons, longTitle, WrittenTitle.text, WrittenTitle.words,
      List.map_cons]
    simp
  have content : citation.text =
      citation.longTitle ++ ' ' :: (citation.chapter.digits ++ ':' :: citation.longNumber) := by
    simp [text, reference_text, longTitle, longNumber]
  rw [content]
  rw [title] at split
  exact split

/-! ### Sections that are no range -/

theorem splitRange?_longNumber : splitRange? citation.longNumber = none := by
  cases known : citation.versions with
  | nil =>
    rw [longNumber, known, versionEnding, List.append_nil]
    exact splitRange?_digits citation.number
  | cons version more =>
    have start := citation.isTight_longNumber.stripStart_eq
    have next : citation.longNumber.dropWhile isDecimal = ' ' :: '|' :: ' ' :: join " " ((version :: more).map (·.text)) := by
      rw [longNumber, known]
      exact dropWhile_append_of_stop (fun c member => citation.number.isDecimal_of_mem member) (by decide) _
    rw [splitRange?]
    simp only [start, next]
    rfl

theorem normalize_longNumber_ne_nil : normalize citation.longNumber ≠ [] :=
  normalize_append_ne_nil citation.number.present citation.number.whole _

theorem readSections_longNumber : readSections citation.longNumber = .ok [normalize citation.longNumber] := by
  have single : citation.longNumber.splitOn ',' = [citation.longNumber] :=
    List.splitOn_eq_singleton (citation.not_mem_longNumber (by decide))
  have tight := citation.isTight_longNumber
  have present : citation.longNumber.isEmpty = false := by simpa using tight.ne_nil
  have named : (normalize citation.longNumber).isEmpty = false := by simpa using citation.normalize_longNumber_ne_nil
  have kept : expandRange citation.longNumber = .ok [citation.longNumber] := by
    rw [expandRange, citation.splitRange?_longNumber]
  have expanded : expandRanges citation.longNumber = .ok [citation.longNumber] := by
    rw [expandRanges, single]
    simp [tight.strip_eq, present, kept, bind, Except.bind, pure, Except.pure]
  rw [readSections, map_colon (citation.not_mem_longNumber (by decide)), expanded]
  simp [named, bind, Except.bind, pure, Except.pure]

/-! ### Reading -/

theorem resolveTitle_longTitle (reader : Reader) (collection : Option Text) :
    reader.resolveTitle collection citation.longTitle = .ok (reader.titles.resolve citation.longTitle) := by
  have named : ¬ citation.longTitle.all isDecimal = true := by
    simp [longTitle, show isDecimal '|' = false by decide]
  have titled := reader.resolveTitle_eq collection (fun digits => absurd digits named) citation.isTight_longTitle
  rwa [Reader.titleOf, if_neg fun keeps => named keeps.2.1] at titled

variable {citation} in
theorem readReference_later {reader : Reader} {collection : Text} (known : collection ≠ [])
    (titled : reader.titles.resolve citation.longTitle ≠ []) (versions : List Text) :
    reader.readReference citation.text (some collection) versions = .ok (some (citation.asLater reader collection versions)) := by
  have separated : separatePipes (some collection) citation.text = ⟨citation.text, none, []⟩ := by
    rw [separatePipes, named_some known]
  have read := Reader.readReference_eq citation.isTight separated citation.isTight Option.none_or citation.splitPlace_text
    (splitCollection_of_named (named_some known) citation.longTitle) (citation.resolveTitle_longTitle reader _) titled
    citation.readSections_longNumber versions
  rw [read, named_some known, Option.map_some, normalize_digits citation.chapter.present citation.chapter.whole,
    named_some citation.chapter.present]
  rfl

/-- A citation alone is a link of one reference. -/
def link (named : normalize citation.collection.text ≠ []) : WrittenLink where
  collection := some citation.collection
  first := citation.reference
  more := []
  versions := citation.versions
  named := by simpa using named
  complete := nofun

theorem link_body (named : normalize citation.collection.text ≠ []) : (citation.link named).body = citation.text := by
  simp [link, WrittenLink.body, WrittenLink.listing, WrittenLink.start, WrittenLink.references, text, join_singleton]

variable {citation} in
theorem readReference_first {reader : Reader} (named : normalize citation.collection.text ≠ [])
    (readable : reader.CanRead (some (normalize citation.collection.text)) citation.title.text) :
    reader.readReference citation.text none [] = .ok (some (citation.reference.reading reader
      (some (normalize citation.collection.text)) (versionNames citation.versions))) := by
  have read : reader.readReference (citation.link named).body none [] = _ := Reader.readReference_body readable rfl rfl
  rwa [citation.link_body named] at read

end Citation

/-! ### Links of citations -/

def citations (items : List Citation) : Text :=
  join ", " (items.map (·.text))

section
variable {items : List Citation} (nonempty : items ≠ [])
include nonempty

theorem isTight_citations : IsTight (citations items) := by
  refine IsTight.join (by simpa using nonempty) fun text member => ?_
  obtain ⟨citation, _, rfl⟩ := List.mem_map.mp member
  exact citation.isTight

theorem splitUnquoted_citations : splitUnquoted commaSeparator (citations items) = items.map (·.text) := by
  refine splitUnquoted_commas (by simpa using nonempty) ?unquoted ?tight ?passes
  case unquoted => simpa using fun citation _ => citation.unquoted
  case tight => simpa using fun citation _ => citation.isTight
  case passes => simpa using fun citation _ => passes_comma citation.comma_not_mem

end

theorem unquoted_citations (items : List Citation) : Unquoted (citations items) := by
  refine unquoted_join (by decide) fun text member => ?_
  obtain ⟨citation, _, rfl⟩ := List.mem_map.mp member
  exact citation.unquoted

theorem isVersionList_reference (citation : Citation) : isVersionList citation.reference.text = false := by
  have place : IsToken (citation.chapter.digits ++ ':' :: citation.number.digits) := by
    refine ⟨by simp, List.forall_mem_append.mpr ⟨citation.chapter.word.isToken.whole, ?_⟩⟩
    exact List.forall_mem_cons.mpr ⟨by decide, citation.number.word.isToken.whole⟩
  have tokens : ∀ token ∈ citation.title.words.map (·.text) ++ [citation.chapter.digits ++ ':' :: citation.number.digits],
      IsToken token :=
    List.forall_mem_append.mpr ⟨fun _ => citation.title.isToken_of_mem, List.forall_mem_singleton.mpr place⟩
  have content : citation.reference.text =
      join " " (citation.title.words.map (·.text) ++ [citation.chapter.digits ++ ':' :: citation.number.digits]) := by
    rw [citation.reference_text, join_concat (by simp [WrittenTitle.words]), WrittenTitle.text]
    simp
  rw [isVersionList, content, words_join tokens]
  simp [show isWordChar ':' = false by decide]

/-- Nothing is shared where no versions stand at the end. -/
theorem splitSharedVersions_citations {items : List Citation} (nonempty : items ≠ []) {last : Citation}
    (unversioned : last.versions = []) :
    splitSharedVersions (citations (items ++ [last])) = (citations (items ++ [last]), []) := by
  have content : citations (items ++ [last]) =
      join " | " [citations items ++ ", " ++ last.collection.text, last.reference.text] := by
    rw [citations, List.map_append, List.map_singleton, join_concat (by simpa using nonempty)]
    simp [Citation.text, unversioned, versionEnding, citations, join_cons_cons, join_singleton]
  have tight := (isTight_citations nonempty).append ", " last.collection.isToken.isTight
  have unquoted : Unquoted (citations items ++ ", " ++ last.collection.text) :=
    unquoted_append.mpr ⟨unquoted_append.mpr ⟨unquoted_citations items, by decide⟩, last.collection.isPlain.unquoted⟩
  have split := splitSharedVersions_join unquoted last.reference.isPlain tight last.reference.isTight
  rw [isVersionList_reference, Bool.false_and] at split
  rw [content]
  exact split

/-- Later references have the collection and the versions of the first one, whatever they are written with. -/
theorem later_citations_lose_their_own (reader : Reader) (first : Citation) (middle : List Citation) (last : Citation)
    (unversioned : last.versions = []) (named : normalize first.collection.text ≠ [])
    (readable : reader.CanRead (some (normalize first.collection.text)) first.title.text)
    (titled : ∀ later ∈ middle ++ [last], reader.titles.resolve later.longTitle ≠ []) :
    reader.readLink (opening ++ citations (first :: middle ++ [last]) ++ closing) = .ok
      (first.reference.reading reader (some (normalize first.collection.text)) (versionNames first.versions)
        :: (middle ++ [last]).map
          (·.asLater reader (normalize first.collection.text) (versionNames first.versions))) := by
  have cited : first :: middle ++ [last] ≠ [] := by simp
  have tight := isTight_citations cited
  have nonempty : (citations (first :: middle ++ [last])).isEmpty = false := by simpa using tight.ne_nil
  rw [Reader.readLink, stripDelimiters_append tight]
  simp only [nonempty, splitSharedVersions_citations (List.cons_ne_nil first middle) unversioned,
    splitUnquoted_citations cited]
  refine Reader.readReferences_cons (Citation.readReference_first named readable) ?_
  have later := Reader.readReferences_map (fun later member => Citation.readReference_later named (titled later member)
    (versionNames first.versions)) (fun _ _ => rfl) (fun _ _ => rfl)
  change reader.readReferences _ (if (versionNames first.versions).isEmpty then [] else versionNames first.versions) _ = _
  rw [ite_isEmpty]
  exact later

def plainReader : Reader :=
  ⟨⟨[]⟩, "quran", 114⟩

def actsCitation : Citation :=
  ⟨⟨"bible", by decide, by decide⟩, ⟨⟨"Acts", by decide, by decide⟩, []⟩, ⟨"2", by decide, by decide⟩,
    ⟨"17", by decide, by decide⟩, [⟨"kjv", by decide, by decide⟩]⟩

def genesisCitation : Citation :=
  ⟨⟨"torah", by decide, by decide⟩, ⟨⟨"Genesis", by decide, by decide⟩, []⟩, ⟨"6", by decide, by decide⟩,
    ⟨"9", by decide, by decide⟩, [⟨"jps", by decide, by decide⟩]⟩

def surahCitation : Citation :=
  ⟨⟨"quran", by decide, by decide⟩, ⟨⟨"12", by decide, by decide⟩, []⟩, ⟨"4", by decide, by decide⟩,
    ⟨"5", by decide, by decide⟩, []⟩

theorem genesis_citation_loses_its_own :
    plainReader.readLink "[[book::bible | Acts 2:17 | kjv, torah | Genesis 6:9 | jps, quran | 12 4:5]]" = .ok
      [⟨some "bible", "acts", some "2", ["17"], ["kjv"]⟩,
       ⟨some "bible", "torah-genesis", some "6", ["9-jps"], ["kjv"]⟩,
       ⟨some "bible", "quran-12", some "4", ["5"], ["kjv"]⟩] := by
  have titled : ∀ later ∈ [genesisCitation] ++ [surahCitation], plainReader.titles.resolve later.longTitle ≠ [] :=
    List.forall_mem_cons.mpr ⟨by decide, List.forall_mem_singleton.mpr (by decide)⟩
  have read := later_citations_lose_their_own plainReader actsCitation [genesisCitation] surahCitation rfl (by decide)
    ⟨by decide, by decide⟩ titled
  have text : opening ++ citations (actsCitation :: [genesisCitation] ++ [surahCitation]) ++ closing =
      "[[book::bible | Acts 2:17 | kjv, torah | Genesis 6:9 | jps, quran | 12 4:5]]".toList := by decide
  rw [text] at read
  exact read.trans (by decide)

end Bindery.Link
