import Bindery.Proofs.WrittenLinks

/-! Title, chapter and sections of a reference. The shortest title wins that a chapter can follow, so the tokens
before the last one go to the title as long as none of them could be a chapter. -/

namespace Bindery.Link
open Text Identifier

/-! ### Shortest titles -/

section
variable {α : Type} {ending : Text → Option α}

theorem splitTitle?_cons {c : Char} (sameLine : c ≠ '\n') {rest : Text} (together : rest.head?.any isBlank = false) :
    splitTitle? ending (c :: rest) = (splitTitle? ending rest).map fun split => (c :: split.1, split.2) := by
  simp [splitTitle?, sameLine, together]

theorem splitTitle?_at_blank {c : Char} (sameLine : c ≠ '\n') {rest : Text} (tight : IsTight rest) :
    splitTitle? ending (c :: ' ' :: rest) =
      match ending rest with
      | some found => some ([c], found)
      | none => (splitTitle? ending rest).map fun split => (c :: ' ' :: split.1, split.2) := by
  obtain ⟨d, more, start, solid⟩ := tight.starts
  have together : rest.head?.any isBlank = false := by simpa [start] using solid
  have after : stripStart (' ' :: rest) = rest := tight.stripStart_eq
  have blank : isBlank ' ' = true := by decide
  rw [splitTitle?, if_neg sameLine, splitTitle?_cons (by decide) together]
  simp only [List.head?_cons, Option.any_some, blank, if_true, after]
  cases ending rest with
  | none => simp [Function.comp_def]
  | some found => rfl

theorem sameLine_of_solid {c : Char} (solid : isBlank c = false) : c ≠ '\n' := by
  rintro rfl
  exact absurd solid (by decide)

theorem splitTitle?_token {token : Text} (whole : ∀ c ∈ token, isBlank c = false) : splitTitle? ending token = none := by
  induction token with
  | nil => rfl
  | cons c rest ih =>
    obtain ⟨solid, others⟩ := List.forall_mem_cons.mp whole
    have together : rest.head?.any isBlank = false := by
      cases rest with
      | nil => rfl
      | cons d rest => exact others d List.mem_cons_self
    rw [splitTitle?_cons (sameLine_of_solid solid) together, ih others]
    rfl

/-- Where a token ends, either the title does too or it goes on behind the blank. -/
theorem splitTitle?_append {token : Text} (isToken : IsToken token) {rest : Text} (tight : IsTight rest) :
    splitTitle? ending (token ++ ' ' :: rest) =
      match ending rest with
      | some found => some (token, found)
      | none => (splitTitle? ending rest).map fun split => (token ++ ' ' :: split.1, split.2) := by
  obtain ⟨present, whole⟩ := isToken
  induction token with
  | nil => exact absurd rfl present
  | cons c token ih =>
    obtain ⟨solid, others⟩ := List.forall_mem_cons.mp whole
    cases token with
    | nil => exact splitTitle?_at_blank (sameLine_of_solid solid) tight
    | cons d token =>
      have together : (d :: token ++ ' ' :: rest).head?.any isBlank = false := others d List.mem_cons_self
      rw [List.cons_append, splitTitle?_cons (sameLine_of_solid solid) together, ih (List.cons_ne_nil d token) others]
      cases ending rest with
      | none => simp [Function.comp_def]
      | some found => rfl

/-! No token after the first may be taken for an ending while something follows it. -/

variable {token : Text} {more : List Text} (tokens : ∀ part ∈ token :: more, IsToken part)
  (refuses : ∀ part ∈ more, ∀ rest, ending (part ++ ' ' :: rest) = none)
include tokens refuses

theorem splitTitle?_join {last : Text} (tight : IsTight last) {found : α} (ends : ending last = some found) :
    splitTitle? ending (join " " (token :: more) ++ ' ' :: last) = some (join " " (token :: more), found) := by
  induction more generalizing token with
  | nil => rw [join_singleton, splitTitle?_append (tokens token List.mem_cons_self) tight, ends]
  | cons next more ih =>
    obtain ⟨first, others⟩ := List.forall_mem_cons.mp tokens
    obtain ⟨refused, later⟩ := List.forall_mem_cons.mp refuses
    have front : IsTight (join " " (next :: more)) :=
      IsTight.join (List.cons_ne_nil next more) fun part member => (others part member).isTight
    have rest : IsTight (join " " (next :: more) ++ ' ' :: last) := by
      simpa using front.append [' '] tight
    have goesOn : ending (join " " (next :: more) ++ ' ' :: last) = none := by
      cases more with
      | nil => rw [join_singleton]; exact refused last
      | cons after more => rw [join_cons_cons, List.append_assoc, List.append_assoc]; exact refused _
    rw [join_cons_cons, List.append_assoc, List.append_assoc]
    refine (splitTitle?_append first rest).trans ?_
    rw [goesOn, ih others later, List.append_assoc]
    rfl

theorem splitTitle?_eq_none (closed : ∀ last ∈ more.getLast?, ending last = none) :
    splitTitle? ending (join " " (token :: more)) = none := by
  induction more generalizing token with
  | nil => rw [join_singleton]; exact splitTitle?_token (tokens token List.mem_cons_self).whole
  | cons next more ih =>
    obtain ⟨first, others⟩ := List.forall_mem_cons.mp tokens
    obtain ⟨refused, later⟩ := List.forall_mem_cons.mp refuses
    have rest : IsTight (join " " (next :: more)) :=
      IsTight.join (List.cons_ne_nil next more) fun part member => (others part member).isTight
    have goesOn : ending (join " " (next :: more)) = none := by
      cases more with
      | nil => rw [join_singleton]; exact closed next rfl
      | cons after more => rw [join_cons_cons, List.append_assoc]; exact refused _
    have closed : ∀ last ∈ more.getLast?, ending last = none := by
      cases more with
      | nil => simp
      | cons after more => rwa [List.getLast?_cons_cons] at closed
    rw [join_cons_cons, List.append_assoc]
    refine (splitTitle?_append first rest).trans ?_
    rw [goesOn, ih others later closed]
    rfl

theorem splitTitle?_concat_eq_none {last : Text} (isToken : IsToken last)
    (refused : ∀ rest, ending (last ++ ' ' :: rest) = none) (nothing : ending last = none) :
    splitTitle? ending (join " " (token :: more) ++ ' ' :: last) = none := by
  have joined : join " " (token :: (more ++ [last])) = join " " (token :: more) ++ ' ' :: last := by
    rw [← List.cons_append, join_concat (List.cons_ne_nil token more), List.append_assoc]
    rfl
  rw [← joined]
  refine splitTitle?_eq_none (fun part member => ?_) (fun part member => ?_) (fun final ends => ?_)
  · rcases List.mem_append.mp (show part ∈ (token :: more) ++ [last] from member) with before | final
    · exact tokens part before
    · exact List.mem_singleton.mp final ▸ isToken
  · rcases List.mem_append.mp member with before | final
    · exact refuses part before
    · exact List.mem_singleton.mp final ▸ refused
  · rw [List.getLast?_concat] at ends
    exact Option.some.inj ends ▸ nothing

end

/-! ### Chapters -/

theorem chapterAndSections?_eq_none {token : Text} (absent : ':' ∉ token) {rest : Text}
    (apart : ∀ c ∈ rest.head?, c = ' ') : chapterAndSections? (token ++ rest) = none := by
  have stops : ∀ c ∈ ((token ++ rest).dropWhile isWordChar).head?, c ≠ ':' := by
    induction token with
    | nil =>
      cases rest with
      | nil => simp
      | cons c rest =>
        obtain rfl := apart c rfl
        rw [List.nil_append, List.dropWhile_cons_of_neg (by decide)]
        simp
    | cons d token ih =>
      obtain ⟨other, absent⟩ := List.ne_and_not_mem_of_not_mem_cons absent
      by_cases word : isWordChar d = true
      · rw [List.cons_append, List.dropWhile_cons_of_pos word]
        exact ih absent
      · rw [List.cons_append, List.dropWhile_cons_of_neg word]
        simpa using other.symm
  unfold chapterAndSections?
  rw [List.span_eq_takeWhile_dropWhile]
  split
  next same =>
    have after := (Prod.mk.inj same).2
    exact absurd rfl (stops ':' (by rw [after]; rfl))
  next => rfl

theorem chapterAndSections?_colon (chapter : Word) {sections : Text} (present : sections ≠ []) (sameLine : '
' ∉ sections) :
    chapterAndSections? (chapter.text ++ ':' :: sections) = some (chapter.text, some sections) := by
  have colon : isWordChar ':' = false := by decide
  rw [chapterAndSections?, List.span_eq_takeWhile_dropWhile, takeWhile_append_of_stop chapter.whole colon,
    dropWhile_append_of_stop chapter.whole colon]
  simp [chapter.present, present, sameLine]

theorem chapterAlone?_append (token rest : Text) (present : token ≠ []) : chapterAlone? (token ++ ' ' :: rest) = none := by
  obtain ⟨c, token, rfl⟩ := List.exists_cons_of_ne_nil present
  have blank : isWordChar ' ' = false := by decide
  simp [chapterAlone?, blank]

theorem chapterAlone?_digits (number : Numeral) : chapterAlone? number.digits = some (number.digits, none) := by
  obtain ⟨c, digits, same⟩ := List.exists_cons_of_ne_nil number.present
  have first := number.isDecimal_of_mem (same ▸ List.mem_cons_self)
  have others : ∀ d ∈ digits, isWordChar d = true :=
    fun d member => number.word.whole d (show d ∈ number.digits from same ▸ List.mem_cons_of_mem c member)
  rw [same]
  simpa [chapterAlone?, first] using others

theorem chapterAlone?_word {word : Word} (other : word.text.head?.any isAsciiDigit = false) :
    chapterAlone? word.text = none := by
  obtain ⟨c, rest, same⟩ := List.exists_cons_of_ne_nil word.present
  have digit : isDecimal c = isAsciiDigit c := isDecimal_of_isWordChar (word.whole c (same ▸ List.mem_cons_self))
  rw [same] at other ⊢
  simp_all [chapterAlone?]

/-! ### Places -/

section
variable {token : Text} {more : List Text} (tokens : ∀ part ∈ token :: more, IsToken part)
  (absent : ∀ part ∈ more, ':' ∉ part)
include tokens absent

theorem splitTitle?_chapterAndSections :
    splitTitle? chapterAndSections? (join " " (token :: more)) = none := by
  refine splitTitle?_eq_none tokens (fun part member rest => ?_) (fun last final => ?_)
  · exact chapterAndSections?_eq_none (absent part member) (by simp)
  · have nothing : ∀ c ∈ ([] : Text).head?, c = ' ' := by simp
    have alone := chapterAndSections?_eq_none (absent last (List.mem_of_getLast? final)) nothing
    rwa [List.append_nil] at alone

theorem splitPlace_title (closed : ∀ last ∈ more.getLast?, chapterAlone? last = none) :
    splitPlace (join " " (token :: more)) = ⟨join " " (token :: more), none, none⟩ := by
  have alone : splitTitle? chapterAlone? (join " " (token :: more)) = none := by
    refine splitTitle?_eq_none tokens (fun part member rest => ?_) closed
    exact chapterAlone?_append part rest (tokens part (List.mem_cons_of_mem _ member)).present
  rw [splitPlace, splitTitle?_chapterAndSections tokens absent, alone]
  rfl

theorem splitTitle?_colonless {last : Text} (isToken : IsToken last) (colonless : ':' ∉ last) :
    splitTitle? chapterAndSections? (join " " (token :: more) ++ ' ' :: last) = none := by
  have nothing : ∀ c ∈ ([] : Text).head?, c = ' ' := by simp
  have alone := chapterAndSections?_eq_none colonless nothing
  rw [List.append_nil] at alone
  exact splitTitle?_concat_eq_none tokens (fun part member _ => chapterAndSections?_eq_none (absent part member) (by simp))
    isToken (fun _ => chapterAndSections?_eq_none colonless (by simp)) alone

theorem splitTitle?_sections (chapter : Word) {sections : Text} (tight : IsTight sections) (sameLine : '\n' ∉ sections) :
    splitTitle? chapterAndSections? (join " " (token :: more) ++ ' ' :: (chapter.text ++ ':' :: sections)) =
      some (join " " (token :: more), chapter.text, some sections) := by
  have rest : IsTight (chapter.text ++ ':' :: sections) := by
    simpa using chapter.isToken.isTight.append [':'] tight
  exact splitTitle?_join tokens (fun part member _ => chapterAndSections?_eq_none (absent part member) (by simp)) rest
    (chapterAndSections?_colon chapter tight.ne_nil sameLine)

omit absent in
theorem splitTitle?_digits (number : Numeral) : splitTitle? chapterAlone? (join " " (token :: more) ++ ' ' :: number.digits) =
    some (join " " (token :: more), number.digits, none) :=
  splitTitle?_join tokens
    (fun part member rest => chapterAlone?_append part rest (tokens part (List.mem_cons_of_mem _ member)).present)
    number.word.isToken.isTight (chapterAlone?_digits number)

omit absent in
/-- Behind a chapter with sections no chapter alone is found. -/
theorem splitTitle?_colon {chapter sections : Text} (isToken : IsToken (chapter ++ ':' :: sections)) :
    splitTitle? chapterAlone? (join " " (token :: more) ++ ' ' :: (chapter ++ ':' :: sections)) = none := by
  have colon : chapterAlone? (chapter ++ ':' :: sections) = none := by
    cases chapter with
    | nil => rfl
    | cons c chapter => simp [chapterAlone?, show isWordChar ':' = false by decide]
  exact splitTitle?_concat_eq_none tokens
    (fun part member rest => chapterAlone?_append part rest (tokens part (List.mem_cons_of_mem _ member)).present)
    isToken (fun rest => chapterAlone?_append _ rest isToken.present) colon

theorem splitPlace_chapter (number : Numeral) : splitPlace (join " " (token :: more) ++ ' ' :: number.digits) =
    ⟨join " " (token :: more), some number.digits, none⟩ := by
  have title : IsTight (join " " (token :: more)) :=
    IsTight.join (List.cons_ne_nil token more) fun part member => (tokens part member).isTight
  have colonless : splitTitle? chapterAndSections? (join " " (token :: more) ++ ' ' :: number.digits) = none :=
    splitTitle?_colonless tokens absent number.word.isToken (number.word.not_mem (by decide))
  rw [splitPlace, colonless, splitTitle?_digits tokens]
  simp only [Option.none_or, title.strip_eq]

theorem splitPlace_sections (chapter : Word) {sections : Text} (tight : IsTight sections) (sameLine : '\n' ∉ sections) :
    splitPlace (join " " (token :: more) ++ ' ' :: (chapter.text ++ ':' :: sections)) =
      ⟨join " " (token :: more), some chapter.text, some sections⟩ := by
  have title : IsTight (join " " (token :: more)) :=
    IsTight.join (List.cons_ne_nil token more) fun part member => (tokens part member).isTight
  rw [splitPlace, splitTitle?_sections tokens absent chapter tight sameLine]
  simp only [Option.some_or, title.strip_eq]

end

def Locator.sectionText? : Locator → Option Text
  | .sections _ first more => some (join "," ((first :: more).map (·.text)))
  | _ => none

/-- A reference comes apart as it was put together. -/
theorem WrittenReference.splitPlace_eq (reference : WrittenReference) : splitPlace reference.text =
    ⟨reference.title.text, reference.locator.chapter?, reference.locator.sectionText?⟩ := by
  obtain ⟨title, locator, plain⟩ := reference
  have tokens : ∀ part ∈ title.first.text :: title.more.map (·.text), IsToken part :=
    fun part member => title.isToken_of_mem member
  have absent : ∀ part ∈ title.more.map (·.text), ':' ∉ part :=
    fun part member => title.not_mem_of_mem (by decide) (List.mem_cons_of_mem _ member)
  cases locator with
  | whole =>
    have closed : ∀ last ∈ (title.more.map (·.text)).getLast?, chapterAlone? last = none := by
      intro last final
      rw [List.getLast?_map] at final
      obtain ⟨word, ends, rfl⟩ := Option.map_eq_some_iff.mp final
      exact chapterAlone?_word (plain rfl word ends)
    rw [WrittenReference.text, Locator.text, List.append_nil]
    exact splitPlace_title tokens absent closed
  | chapter number => exact splitPlace_chapter tokens absent number
  | sections number first more =>
    exact splitPlace_sections tokens absent number.word (isTight_passages first more)
      ((isPlain_passages (first :: more)).not_mem (by decide))

/-! ### Collections in front of titles -/

theorem embeddedCollection?_eq_none {title : Text} (absent : '|' ∉ title) : embeddedCollection? title = none := by
  have other : ∀ after, stripStart (title.dropWhile isWordChar) ≠ '|' :: after := by
    intro after same
    have inside : '|' ∈ stripStart (title.dropWhile isWordChar) := same ▸ List.mem_cons_self
    exact absent ((List.dropWhile_sublist isWordChar).subset ((List.dropWhile_sublist isBlank).subset inside))
  simp only [embeddedCollection?, List.span_eq_takeWhile_dropWhile]

theorem splitCollection_of_absent (known : Option Text) {title : Text} (absent : '|' ∉ title) :
    splitCollection known title = (known, title) := by
  rw [splitCollection, embeddedCollection?_eq_none absent]

theorem splitCollection_of_named {known : Option Text} {collection : Text} (named : Reference.named known = some collection)
    (title : Text) : splitCollection known title = (known, title) := by
  rw [splitCollection, named]
  cases embeddedCollection? title <;> rfl

end Bindery.Link
