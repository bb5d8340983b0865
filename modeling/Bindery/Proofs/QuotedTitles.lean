import Bindery.Proofs.LinkRoundTrip
import Bindery.Proofs.StableCuts

/-! Titles in quotes. Whatever stands between the quotes, separators and pipes included, is one title; only a colon in
it could be taken for the one before the sections. -/

namespace Bindery

theorem TitleIndex.resolve_congr (index : TitleIndex) {text other : Text}
    (same : Identifier.normalize text = Identifier.normalize other) : index.resolve text = index.resolve other := by
  unfold resolve
  rw [same]

namespace Link
open Text Identifier

/-- A text between double quotes. -/
def inQuotes (text : Text) : Text :=
  '\x22' :: (text ++ ['\x22'])

theorem normalize_inQuotes (text : Text) : normalize (inQuotes text) = normalize text := by
  have quote : isQuoteMark '\x22' = true := by decide
  have folded : fold (inQuotes text) = fold text := by
    simp [fold, inQuotes, quote]
  rw [Identifier.normalize, pieces, folded]
  rfl

theorem isTight_inQuotes (text : Text) : IsTight (inQuotes text) where
  starts := ⟨'\x22', text ++ ['\x22'], rfl, by decide⟩
  ends := ⟨'\x22' :: text, '\x22', rfl, by decide⟩

/-! ### Whole for every separator -/

section
variable {text : Text} (absent : '\x22' ∉ text)
include absent

theorem uncut_inQuotes {separator : Separator} {usual : Text} (separates : Separates separator usual) (rest : Text) :
    Uncut separator .start (inQuotes text) rest := by
  have opened : (QuoteState.start.step '\x22').span = some '\x22' := rfl
  have inside : ((QuoteState.start.step '\x22').through text).span = some '\x22' := QuoteState.through_inside opened absent
  refine ⟨fun _ => separator_quote separates (by decide) _, uncut_append.mpr ⟨uncut_inside opened absent _, ?_, trivial⟩⟩
  intro closed
  rw [inside] at closed
  cases closed

theorem splitUnquoted_inQuotes {separator : Separator} {usual : Text} (separates : Separates separator usual) {rest : Text}
    (tight : IsTight (inQuotes text ++ rest)) (passes : Passes separator rest []) :
    splitUnquoted separator (inQuotes text ++ rest) = [inQuotes text ++ rest] :=
  splitUnquoted_uncut separates tight (uncut_append.mpr ⟨uncut_inQuotes absent separates _, uncut_of_passes passes⟩)

theorem splitLastPipe?_inQuotes {rest : Text} (pipeless : '|' ∉ rest) : splitLastPipe? (inQuotes text ++ rest) = none := by
  have opened : (QuoteState.start.step '\x22').span = some '\x22' := rfl
  have inside : cutLastPipe (text ++ ['\x22']) ((QuoteState.start.step '\x22').mask (text ++ ['\x22'])) = none :=
    cutLastPipe_mask_of_absent (by decide) text (cutLastPipe_mask_inside opened absent)
  rw [splitLastPipe?, quoteMask_eq]
  refine cutLastPipe_mask_of_absent pipeless (inQuotes text) ?_
  rw [inQuotes, QuoteState.mask, cutLastPipe, inside]
  rfl

end

/-! ### Chapter and sections behind it -/

/-- The shortest title before a chapter with sections is the whole text before them if no colon stands in it. -/
theorem splitTitle?_colonless_title {title sections : Text} (ends : ∃ front c, title = front ++ [c] ∧ isBlank c = false)
    (sameLine : '\n' ∉ title) (colonless : ':' ∉ title) (chapter : Word) (tight : IsTight sections) (also : '\n' ∉ sections) :
    splitTitle? chapterAndSections? (title ++ ' ' :: (chapter.text ++ ':' :: sections)) =
      some (title, chapter.text, some sections) := by
  have found := chapterAndSections?_colon chapter tight.ne_nil also
  have behind : IsTight (chapter.text ++ ':' :: sections) := by
    simpa using chapter.isToken.isTight.append [':'] tight
  induction title with
  | nil =>
    obtain ⟨front, c, same, _⟩ := ends
    simp at same
  | cons c title ih =>
    obtain ⟨line, lines⟩ := List.ne_and_not_mem_of_not_mem_cons sameLine
    have absent := List.not_mem_of_not_mem_cons colonless
    cases title with
    | nil =>
      rw [List.singleton_append, splitTitle?_at_blank (Ne.symm line) behind, found]
    | cons d title =>
      have later : ∃ front c, d :: title = front ++ [c] ∧ isBlank c = false := by
        obtain ⟨front, e, same, solid⟩ := ends
        cases front with
        | nil => simp at same
        | cons _ front => exact ⟨front, e, (List.cons.inj same).2, solid⟩
      have present : ¬ (d :: title).all isBlank = true := fun blank => by
        obtain ⟨front, e, same, solid⟩ := later
        rw [same] at blank
        rw [List.all_eq_true.mp blank e (by simp)] at solid
        cases solid
      -- A chapter would have to begin within the title, and no colon comes before the title ends.
      have refused : chapterAndSections? (stripStart (d :: title ++ ' ' :: (chapter.text ++ ':' :: sections))) = none := by
        rw [stripStart_append_of_not_blank present]
        refine chapterAndSections?_eq_none (fun inside => absent ?_) (by simp)
        exact (List.dropWhile_sublist isBlank).subset inside
      have goesOn := ih later lines absent
      rw [List.cons_append, splitTitle?, if_neg (Ne.symm line), goesOn, refused, ite_self]
      rfl

theorem embeddedCollection?_inQuotes (text : Text) : embeddedCollection? (inQuotes text) = none := by
  have other : isWordChar '\x22' = false := by decide
  have solid : isBlank '\x22' = false := by decide
  simp [embeddedCollection?, inQuotes, List.span_eq_takeWhile_dropWhile, other, stripStart, solid]

section
variable (title : Text) (chapter number : Numeral)

/-- A title in quotes with chapter and section behind it. -/
def quotedCitation : Text :=
  inQuotes title ++ ' ' :: (chapter.digits ++ ':' :: number.digits)

theorem not_mem_quotedEnding {c : Char} (strange : isWordChar c = false ∧ c ∉ [' ', ':']) :
    c ∉ ' ' :: (chapter.digits ++ ':' :: number.digits) := by
  have one : c ∉ chapter.digits := chapter.word.not_mem strange.1
  have other : c ∉ number.digits := number.word.not_mem strange.1
  simp_all

theorem isTight_quotedCitation : IsTight (quotedCitation title chapter number) := by
  have ending : IsTight number.digits := number.word.isToken.isTight
  have tight := (isTight_inQuotes title).append (' ' :: chapter.digits ++ [':']) ending
  simpa [quotedCitation] using tight

variable {title} (unquoted : '\x22' ∉ title) (colonless : ':' ∉ title) (sameLine : '\n' ∉ title)

include unquoted in
theorem splitSharedVersions_quotedCitation :
    splitSharedVersions (quotedCitation title chapter number) = (quotedCitation title chapter number, []) := by
  rw [splitSharedVersions, quotedCitation, splitLastPipe?_inQuotes unquoted (not_mem_quotedEnding chapter number (by decide))]

include unquoted in
theorem splitUnquoted_quotedCitation :
    splitUnquoted commaSeparator (quotedCitation title chapter number) = [quotedCitation title chapter number] ∧
      splitUnquoted pipeSeparator (quotedCitation title chapter number) = [quotedCitation title chapter number] := by
  have tight := isTight_quotedCitation title chapter number
  constructor
  · exact splitUnquoted_inQuotes unquoted separates_comma tight
      (passes_comma (not_mem_quotedEnding chapter number (by decide)) [])
  · refine splitUnquoted_inQuotes unquoted separates_pipe tight
      (passes_pipe (not_mem_quotedEnding chapter number (by decide)) ?_ [])
    have solid := tight.getLast?_solid
    rwa [quotedCitation, List.getLast?_append_of_ne_nil _ (List.cons_ne_nil _ _)] at solid

include colonless sameLine in
theorem splitPlace_quotedCitation : splitPlace (quotedCitation title chapter number) =
    ⟨inQuotes title, some chapter.digits, some number.digits⟩ := by
  have lines : '\n' ∉ inQuotes title := by simpa [inQuotes] using sameLine
  have colons : ':' ∉ inQuotes title := by simpa [inQuotes] using colonless
  have split := splitTitle?_colonless_title (isTight_inQuotes title).ends lines colons chapter.word
    number.word.isToken.isTight (number.word.not_mem (by decide))
  have title : splitTitle? chapterAndSections? (quotedCitation title chapter number) =
    some (inQuotes title, chapter.digits, some number.digits) := split
  rw [splitPlace, title, Option.some_or]
  simp only [(isTight_inQuotes _).strip_eq]

include unquoted colonless sameLine in
/-- No separator, pipe or bracket in quotes breaks a title. -/
theorem quoted_title_stays_whole (reader : Reader) (named : reader.titles.resolve title ≠ []) :
    reader.readLink (opening ++ quotedCitation title chapter number ++ closing) =
      .ok [⟨none, reader.titles.resolve title, some chapter.digits, [number.digits], []⟩] := by
  have tight := isTight_quotedCitation title chapter number
  have nonempty : (quotedCitation title chapter number).isEmpty = false := by simpa using tight.ne_nil
  obtain ⟨commas, pipes⟩ := splitUnquoted_quotedCitation chapter number unquoted
  have separated : separatePipes none (quotedCitation title chapter number) = ⟨quotedCitation title chapter number, none, []⟩ := by
    change (classifySegments (splitUnquoted pipeSeparator _)).2 = _
    rw [pipes]
    rfl
  have known : splitCollection none (inQuotes title) = (none, inQuotes title) := by
    rw [splitCollection, embeddedCollection?_inQuotes]
  have titled : reader.resolveTitle none (inQuotes title) = .ok (reader.titles.resolve title) := by
    rw [← reader.titles.resolve_congr (normalize_inQuotes title)]
    simp [Reader.resolveTitle, Reader.isNumberedTitle, (isTight_inQuotes title).strip_eq, bind, Except.bind, pure, Except.pure]
  have listed : (Place.mk (inQuotes title) (some chapter.digits) (some number.digits)).readSections = .ok [number.digits] := by
    have read := readSections_eq (inQuotes title) (.sections chapter (.one number) [])
    rwa [Locator.sectionText?, List.map_singleton, join_singleton] at read
  have read := Reader.readReference_eq tight separated tight rfl (splitPlace_quotedCitation chapter number colonless sameLine)
    known titled named listed []
  have chapter' : Reference.named (some (normalize chapter.digits)) = some chapter.digits := by
    rw [normalize_digits chapter.present chapter.whole, named_some chapter.present]
  rw [Reader.readLink, stripDelimiters_append tight]
  simp only [nonempty, splitSharedVersions_quotedCitation chapter number unquoted, commas]
  refine Reader.readReferences_cons (read.trans ?_) rfl
  rw [Option.map_some, chapter']
  rfl

end

theorem crowded_title_stays_whole :
    Reader.bibleReader.readLink "[[book::\x221 John, the | 'elder's [letter]]\x22 3:16]]" = .ok
      [⟨none, "1-john", some "3", ["16"], []⟩] := by
  have read := @quoted_title_stays_whole "1 John, the | 'elder's [letter]]" ⟨"3", by decide, by decide⟩
    ⟨"16", by decide, by decide⟩ (by decide) (by decide) (by decide) Reader.bibleReader (by decide)
  exact read.trans (by decide)

end Link
end Bindery
