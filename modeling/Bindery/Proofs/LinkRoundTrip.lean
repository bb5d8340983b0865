import Bindery.Proofs.LinkSegments
import Bindery.Proofs.ReferenceReading

/-! Links that are written by the grammar are read as they were meant: every reference with the collection of the
link, its own title, chapter and sections, and the versions of the link. -/

namespace Bindery.Link
open Text Identifier

/-! ### Delimiters -/

theorem dropEnd?_append (rest ending : Text) : dropEnd? ending (rest ++ ending) = some rest := by
  rw [dropEnd?, List.reverse_append, dropStart?_append, Option.map_some, List.reverse_reverse]

theorem stripDelimiters_append {body : Text} (tight : IsTight body) : stripDelimiters (opening ++ body ++ closing) = body := by
  have around : IsTight (opening ++ body ++ closing) :=
    ⟨⟨'[', "[book::".toList ++ body ++ closing, rfl, by decide⟩,
      ⟨opening ++ body ++ [']'], ']', by simp [closing], by decide⟩⟩
  have inner : dropStart? opening (opening ++ body ++ closing) = some (body ++ closing) := by
    rw [List.append_assoc, dropStart?_append]
  rw [stripDelimiters, around.strip_eq, inner, Option.getD_some, dropEnd?_append, Option.getD_some, tight.strip_eq]

/-! ### Pieces of a link -/

namespace WrittenLink
variable (link : WrittenLink)

theorem isTight_references : IsTight (join ", " (link.references.map (·.text))) := by
  refine IsTight.join (by simp [references]) fun text member => ?_
  obtain ⟨reference, _, rfl⟩ := List.mem_map.mp member
  exact reference.isTight

theorem isPlain_references : IsPlain (join ", " (link.references.map (·.text))) := by
  refine IsPlain.join (by decide) fun text member => ?_
  obtain ⟨reference, _, rfl⟩ := List.mem_map.mp member
  exact reference.isPlain

theorem unquoted_start : Unquoted link.start := by
  unfold start
  cases link.collection with
  | none => exact List.forall_mem_nil _
  | some word => exact unquoted_append.mpr ⟨word.isPlain.unquoted, by decide⟩

theorem comma_not_mem_start : ',' ∉ link.start := by
  unfold start
  cases link.collection with
  | none => exact List.not_mem_nil
  | some word => simpa using word.not_mem (c := ',') (by decide)

theorem isTight_start_append {text : Text} (tight : IsTight text) : IsTight (link.start ++ text) := by
  unfold start
  cases link.collection with
  | none => exact tight
  | some word => exact word.isToken.isTight.append " | " tight

theorem unquoted_listing : Unquoted link.listing :=
  unquoted_append.mpr ⟨link.unquoted_start, link.isPlain_references.unquoted⟩

theorem isTight_listing : IsTight link.listing :=
  link.isTight_start_append link.isTight_references

theorem listing_eq : link.listing = join ", " ((link.start ++ link.first.text) :: link.more.map (·.text)) := by
  unfold listing references
  cases link.more with
  | nil => simp [join_singleton]
  | cons next more => simp [join_cons_cons]

theorem splitUnquoted_listing :
    splitUnquoted commaSeparator link.listing = (link.start ++ link.first.text) :: link.more.map (·.text) := by
  rw [listing_eq]
  refine splitUnquoted_commas (List.cons_ne_nil _ _) ?unquoted ?tight ?passes
  case unquoted =>
    refine List.forall_mem_cons.mpr ⟨unquoted_append.mpr ⟨link.unquoted_start, link.first.isPlain.unquoted⟩, ?_⟩
    simpa using fun reference _ => reference.isPlain.unquoted
  case tight =>
    refine List.forall_mem_cons.mpr ⟨link.isTight_start_append link.first.isTight, ?_⟩
    simpa using fun reference _ => reference.isTight
  case passes =>
    refine List.forall_mem_cons.mpr ⟨fun rest => passes_append.mpr ⟨?_, link.first.passes_comma rest⟩, ?_⟩
    · exact passes_comma link.comma_not_mem_start _
    · simpa using fun reference _ => reference.passes_comma

theorem named_collectionName : Reference.named link.collectionName = link.collectionName := by
  unfold collectionName
  cases known : link.collection with
  | none => rfl
  | some word => exact named_some (link.named word known)

theorem collectionName_of_some {collection : Word} (known : link.collection = some collection) :
    (Reference.named (some (normalize collection.text))).or none = link.collectionName := by
  rw [named_some (link.named collection known), Option.or_none, collectionName, known, Option.map_some]

theorem body_eq (versioned : link.versions ≠ []) :
    link.body = join " | " [link.listing, join " " (link.versions.map (·.text))] := by
  rw [body, versionEnding_of_ne_nil versioned, join_cons_cons, join_singleton, List.append_assoc]

theorem body_of_unversioned (unversioned : link.versions = []) : link.body = link.listing := by
  rw [body, unversioned, versionEnding, List.append_nil]

theorem isTight_body : IsTight link.body :=
  isTight_append_versionEnding link.versions link.isTight_listing

theorem unquoted_body : Unquoted link.body :=
  unquoted_append.mpr ⟨link.unquoted_listing, unquoted_versionEnding link.versions⟩

theorem splitUnquoted_body (single : link.more = []) : splitUnquoted commaSeparator link.body = [link.body] := by
  have pieces : link.body = link.start ++ (link.first.text ++ versionEnding link.versions) := by
    simp [body, listing, references, single, join_singleton]
  have passes (rest : Text) : Passes commaSeparator link.body rest := by
    rw [pieces]
    refine passes_append.mpr ⟨passes_comma link.comma_not_mem_start _, passes_append.mpr ⟨?_, ?_⟩⟩
    · exact link.first.passes_comma _
    · exact passes_comma (not_mem_versionEnding link.versions (by decide)) rest
  have alone : splitUnquoted commaSeparator (join ", " [link.body]) = [link.body] :=
    splitUnquoted_commas (List.cons_ne_nil _ _) (by simpa using link.unquoted_body) (by simpa using link.isTight_body)
      (by simpa using passes)
  rwa [join_singleton] at alone

/-! ### Shared versions -/

theorem splitSharedVersions_listing : splitSharedVersions link.listing = (link.listing, []) := by
  cases known : link.collection with
  | none =>
    have plain : IsPlain link.listing := by
      simpa [listing, start, known] using link.isPlain_references
    exact splitSharedVersions_plain plain
  | some word =>
    have joined : link.listing = join " | " [word.text, join ", " (link.references.map (·.text))] := by
      simp [listing, start, known, join_cons_cons, join_singleton]
    have split := splitSharedVersions_join word.isPlain.unquoted link.isPlain_references word.isToken.isTight
      link.isTight_references
    rw [readsAsComplete_word, Bool.and_false] at split
    rw [joined]
    exact split

theorem splitSharedVersions_body (versioned : link.versions ≠ []) : splitSharedVersions link.body =
    if readsAsComplete link.listing then (link.listing, versionNames link.versions) else (link.body, []) := by
  have split := splitSharedVersions_join link.unquoted_listing (isPlain_versions link.versions) link.isTight_listing
    (isTight_versions versioned)
  rwa [isVersionList_join versioned, Bool.true_and, versionList_join, ← link.body_eq versioned] at split

theorem readsAsComplete_listing (several : link.more ≠ [] ∨ link.collection = none ∧ link.first.locator ≠ .whole) :
    readsAsComplete link.listing = true := by
  by_cases single : link.more = []
  · obtain ⟨known, chapter⟩ := several.resolve_left (fun more => more single)
    have alone : link.listing = [] ++ link.first.text := by
      simp [listing, start, known, references, single, join_singleton]
    rw [alone]
    exact readsAsComplete_of_chapter [] chapter
  · obtain ⟨before, last, split⟩ := (List.eq_nil_or_concat link.more).resolve_left single
    have parts : link.references.map (·.text) = (link.first :: before).map (·.text) ++ [last.text] := by
      simp [references, split]
    have listed : link.listing = link.start ++ join ", " ((link.first :: before).map (·.text)) ++ ", " ++ last.text := by
      rw [listing, parts, join_concat (by simp)]
      simp
    rw [listed]
    exact readsAsComplete_of_last _ last

end WrittenLink

/-! ### Reading -/

namespace Reader
variable {reader : Reader} {link : WrittenLink}

theorem readReference_first (readable : reader.CanRead link.collectionName link.first.title.text) (versions : List Text) :
    reader.readReference (link.start ++ link.first.text) none versions =
      .ok (some (link.first.reading reader link.collectionName versions)) := by
  have tight := link.isTight_start_append link.first.isTight
  have named := link.named_collectionName
  cases known : link.collection with
  | none =>
    have start : link.start ++ link.first.text = link.first.text := by simp [WrittenLink.start, known]
    have collected : link.collectionName = none := by simp [WrittenLink.collectionName, known]
    have separated := separatePipes_plain none link.first.isTight link.first.isPlain
    rw [start] at tight ⊢
    exact readReference_written link.first tight separated collected.symm named readable versions
  | some word =>
    have start : link.start ++ link.first.text = join " | " [word.text, link.first.text] := by
      simp [WrittenLink.start, known, join_cons_cons, join_singleton]
    have separated := separatePipes_collection word link.first.isTight link.first.isPlain
    have outer := link.collectionName_of_some known
    rw [start] at tight ⊢
    exact readReference_written link.first tight separated outer named readable versions

/-- A later reference finds the collection of the link, so pipes are not looked for in it. -/
theorem readReference_later {reference : WrittenReference} (readable : reader.CanRead link.collectionName reference.title.text)
    (versions : List Text) : reader.readReference reference.text link.collectionName versions =
      .ok (some (reference.reading reader link.collectionName versions)) := by
  have separated := separatePipes_plain link.collectionName reference.isTight reference.isPlain
  exact readReference_written reference reference.isTight separated Option.none_or link.named_collectionName readable versions

/-- The versions of a single reference may also be found with it. -/
theorem readReference_body (readable : reader.CanRead link.collectionName link.first.title.text) {collection : Word}
    (known : link.collection = some collection) (single : link.more = []) : reader.readReference link.body none [] =
      .ok (some (link.first.reading reader link.collectionName (versionNames link.versions))) := by
  by_cases versioned : link.versions = []
  · have alone : link.body = link.start ++ link.first.text := by
      rw [link.body_of_unversioned versioned, link.listing_eq, single, List.map_nil, join_singleton]
    rw [alone, versioned]
    exact readReference_first readable []
  have joined : link.body = join " | " [collection.text, link.first.text, join " " (link.versions.map (·.text))] := by
    rw [link.body_eq versioned]
    simp [WrittenLink.listing, WrittenLink.start, WrittenLink.references, known, single, join_cons_cons, join_singleton]
  have separated := separatePipes_versions collection link.first.isTight link.first.isPlain versioned
  rw [← joined] at separated
  have outer := link.collectionName_of_some known
  have read := readReference_written link.first link.isTight_body separated outer link.named_collectionName readable []
  rwa [ite_isEmpty] at read

section
variable (readable : ∀ reference ∈ link.references, reader.CanRead link.collectionName reference.title.text)
include readable

/-- Once the shared versions are off, references are read one by one. -/
theorem readReferences_listing (versions : List Text) :
    reader.readReferences none versions (splitUnquoted commaSeparator link.listing) =
      .ok (link.references.map fun reference => reference.reading reader link.collectionName versions) := by
  obtain ⟨first, later⟩ := List.forall_mem_cons.mp readable
  rw [link.splitUnquoted_listing]
  refine readReferences_cons (readReference_first first versions) ?_
  change reader.readReferences (link.collectionName.or none) (if versions.isEmpty then versions else versions) _ = _
  rw [ite_self, Option.or_none]
  exact readReferences_map (fun reference member => readReference_later (later reference member) versions)
    (fun _ _ => rfl) (fun _ _ => rfl)

theorem readReferences_body {collection : Word} (known : link.collection = some collection) (single : link.more = []) :
    reader.readReferences none [] (splitUnquoted commaSeparator link.body) =
      .ok (link.references.map fun reference => reference.reading reader link.collectionName (versionNames link.versions)) := by
  rw [link.splitUnquoted_body single, WrittenLink.references, single]
  exact readReferences_cons (readReference_body (readable link.first List.mem_cons_self) known single) rfl

end

/-- Every link of the grammar is read as it was meant. -/
theorem written_link_reads_back (reader : Reader) (link : WrittenLink)
    (readable : ∀ reference ∈ link.references, reader.CanRead link.collectionName reference.title.text) :
    reader.readLink link.text =
      .ok (link.references.map fun reference => reference.reading reader link.collectionName (versionNames link.versions)) := by
  have content : stripDelimiters link.text = link.body := stripDelimiters_append link.isTight_body
  have nonempty : link.body.isEmpty = false := by simpa using link.isTight_body.ne_nil
  rw [readLink, content]
  simp only [nonempty]
  by_cases versioned : link.versions = []
  · rw [link.body_of_unversioned versioned, link.splitSharedVersions_listing, versioned]
    exact readReferences_listing readable []
  rw [link.splitSharedVersions_body versioned]
  by_cases complete : readsAsComplete link.listing = true
  · rw [if_pos complete]
    exact readReferences_listing readable (versionNames link.versions)
  rw [if_neg complete]
  -- Only a single title behind a collection may not look complete.
  have single : link.more = [] := by
    by_contra several
    exact complete (link.readsAsComplete_listing (Or.inl several))
  cases known : link.collection with
  | none =>
    have chapter := (link.complete known versioned).resolve_left (fun more => more single)
    exact absurd (link.readsAsComplete_listing (Or.inr ⟨known, chapter⟩)) complete
  | some collection => exact readReferences_body readable known single

/-! A list of passages behind a numbered title, then a title alone, and two versions for both. -/

def bibleReader : Reader :=
  ⟨⟨[("1-john", "1-john"), ("rt", "ruth")]⟩, "quran", 114⟩

def bibleLink : WrittenLink where
  collection := some ⟨"Bible", by decide, by decide⟩
  first :=
    { title := ⟨⟨"1", by decide, by decide⟩, [⟨"John", by decide, by decide⟩]⟩
      locator := .sections ⟨"3", by decide, by decide⟩
        (.range ⟨"16", by decide, by decide⟩ ⟨"18", by decide, by decide⟩ (by decide)) [.one ⟨"20", by decide, by decide⟩]
      plain := by simp }
  more := [{ title := ⟨⟨"Rt", by decide, by decide⟩, []⟩, locator := .whole, plain := by simp }]
  versions := [⟨"KJV", by decide, by decide⟩, ⟨"drb", by decide, by decide⟩]
  named := by decide
  complete := by simp

theorem bible_link_reads_back :
    bibleReader.readLink "[[book::Bible | 1 John 3:16-18,20, Rt | KJV drb]]" = .ok
      [⟨some "bible", "1-john", some "3", ["16", "17", "18", "20"], ["kjv", "drb"]⟩,
       ⟨some "bible", "ruth", none, [], ["kjv", "drb"]⟩] := by
  have readable : ∀ reference ∈ bibleLink.references, bibleReader.CanRead bibleLink.collectionName reference.title.text :=
    List.forall_mem_cons.mpr ⟨⟨by decide, by decide⟩, List.forall_mem_singleton.mpr ⟨by decide, by decide⟩⟩
  have read := written_link_reads_back bibleReader bibleLink readable
  have text : bibleLink.text = "[[book::Bible | 1 John 3:16-18,20, Rt | KJV drb]]".toList := by decide
  rw [text] at read
  exact read.trans (by decide)

end Reader

end Bindery.Link
