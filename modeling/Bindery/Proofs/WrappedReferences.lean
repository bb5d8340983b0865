import Bindery.Proofs.LineBreaks
import Bindery.Proofs.LinkRoundTrip

/-! References over several lines. They are cut off from each other at their commas and read one by one, but only where a
space still comes after the comma, and a chapter is only found behind a title that stands on one line. -/

namespace Bindery.Link
open Text Identifier

/-! ### Pieces -/

theorem isQuoteMark_spaceFor (c : Char) : isQuoteMark (spaceFor c) = isQuoteMark c :=
  apply_spaceFor (by decide) c

theorem unquoted_of_oneLine {text : Text} (unquoted : Unquoted (oneLine text)) : Unquoted text := by
  intro c member
  rw [← isQuoteMark_spaceFor]
  exact unquoted _ (List.mem_map_of_mem member)

theorem commaSeparator_eq_zero_of_oneLine {text : Text} (nowhere : commaSeparator (oneLine text) = 0) : commaSeparator text = 0 := by
  unfold commaSeparator
  split
  next rest =>
    have starts : commaSeparator (oneLine (',' :: ' ' :: rest)) = 2 := rfl
    rw [starts] at nowhere
    cases nowhere
  next => rfl

theorem passes_of_oneLine {text rest : Text} (passes : Passes commaSeparator (oneLine text) (oneLine rest)) :
    Passes commaSeparator text rest := by
  induction text with
  | nil => trivial
  | cons c text ih =>
    obtain ⟨nowhere, later⟩ := passes
    have whole : oneLine (c :: (text ++ rest)) = spaceFor c :: (oneLine text ++ oneLine rest) :=
      oneLine_append (c :: text) rest
    exact ⟨commaSeparator_eq_zero_of_oneLine (whole ▸ nowhere), ih later⟩

/-- What is not taken apart at commas. -/
structure IsPart (text : Text) : Prop where
  tight : IsTight text
  unquoted : Unquoted text
  passes : ∀ rest, Passes commaSeparator text rest

theorem IsPart.append {text other between : Text} (part : IsPart text) (also : IsPart other) (unquoted : Unquoted between)
    (passes : ∀ rest, Passes commaSeparator between rest) : IsPart (text ++ between ++ other) where
  tight := part.tight.append between also.tight
  unquoted := unquoted_append.mpr ⟨unquoted_append.mpr ⟨part.unquoted, unquoted⟩, also.unquoted⟩
  passes rest := passes_append.mpr ⟨passes_append.mpr ⟨part.passes _, passes _⟩, also.passes rest⟩

theorem IsPart.of_oneLine {text : Text} (part : IsPart (oneLine text)) : IsPart text where
  tight := isTight_of_oneLine part.tight
  unquoted := unquoted_of_oneLine part.unquoted
  passes rest := passes_of_oneLine (part.passes (oneLine rest))

theorem WrittenReference.isPart (reference : WrittenReference) : IsPart reference.text :=
  ⟨reference.isTight, reference.isPlain.unquoted, reference.passes_comma⟩

theorem splitUnquoted_parts {parts : List Text} (nonempty : parts ≠ []) (all : ∀ part ∈ parts, IsPart part) :
    splitUnquoted commaSeparator (join ", " parts) = parts :=
  splitUnquoted_commas nonempty (fun part member => (all part member).unquoted) (fun part member => (all part member).tight)
    fun part member => (all part member).passes

/-! ### Commas at the end of a line -/

theorem exists_parts_between {before after : List Text} (nonempty : before ≠ []) (also : after ≠ [])
    (all : ∀ part ∈ before, IsPart part) (others : ∀ part ∈ after, IsPart part) : ∃ parts ≠ [],
      join ", " before ++ ",\n" ++ join ", " after = join ", " parts ∧ parts.length + 1 = before.length + after.length ∧
        ∀ part ∈ parts, IsPart part := by
  have feed (rest : Text) : Passes commaSeparator ",\n" rest := by simp [Passes, commaSeparator]
  induction before with
  | nil => exact absurd rfl nonempty
  | cons part before ih =>
    obtain ⟨here, later⟩ := List.forall_mem_cons.mp all
    cases before with
    | nil =>
      obtain ⟨next, after, rfl⟩ := List.exists_cons_of_ne_nil also
      obtain ⟨first, rest⟩ := List.forall_mem_cons.mp others
      refine ⟨(part ++ ",\n" ++ next) :: after, List.cons_ne_nil _ _, ?_, by simp; omega, ?_⟩
      · cases after <;> simp [join_singleton, join_cons_cons]
      · exact List.forall_mem_cons.mpr ⟨here.append first (by decide) feed, rest⟩
    | cons next before =>
      obtain ⟨parts, present, joined, length, good⟩ := ih (List.cons_ne_nil next before) later
      obtain ⟨first, rest, rfl⟩ := List.exists_cons_of_ne_nil present
      refine ⟨part :: first :: rest, List.cons_ne_nil _ _, ?_, ?_, List.forall_mem_cons.mpr ⟨here, good⟩⟩
      · rw [join_cons_cons, join_cons_cons, ← joined]
        simp only [List.append_assoc]
      · simp only [List.length_cons] at length ⊢
        omega

theorem oneLine_eq_comma {text : Text} (same : oneLine text = ", ") : text = ", " ∨ text = ",\n" := by
  obtain ⟨c, rest, rfl, comma, others⟩ := List.map_eq_cons_iff.mp same
  obtain ⟨d, rfl, blank⟩ := List.map_eq_singleton_iff.mp others
  obtain rfl := (spaceFor_eq_iff (by decide) (by decide)).mp comma
  rcases spaceFor_eq_space.mp blank with rfl | rfl
  · exact Or.inl rfl
  · exact Or.inr rfl

/-- Every line feed after a comma leaves one part less. -/
theorem exists_parts {texts : List Text} (nonempty : texts ≠ []) (all : ∀ text ∈ texts, IsPart text) {text : Text}
    (wrapped : oneLine text = join ", " texts) :
    ∃ parts ≠ [], text = join ", " parts ∧ parts.length ≤ texts.length ∧ ∀ part ∈ parts, IsPart part := by
  induction texts generalizing text with
  | nil => exact absurd rfl nonempty
  | cons first texts ih =>
    obtain ⟨here, later⟩ := List.forall_mem_cons.mp all
    cases texts with
    | nil =>
      rw [join_singleton] at wrapped
      exact ⟨[text], List.cons_ne_nil _ _, (join_singleton _ _).symm, Nat.le_refl _,
        List.forall_mem_singleton.mpr (IsPart.of_oneLine (wrapped ▸ here))⟩
    | cons next texts =>
      rw [join_cons_cons] at wrapped
      obtain ⟨front, rest, rfl, start, others⟩ := exists_append_of_oneLine wrapped
      obtain ⟨part, between, rfl, same, comma⟩ := exists_append_of_oneLine start
      obtain ⟨parts, present, rfl, length, good⟩ := ih (List.cons_ne_nil next texts) later others
      have alone : IsPart part := IsPart.of_oneLine (same.symm ▸ here)
      rcases oneLine_eq_comma comma with rfl | rfl
      · obtain ⟨second, rest, rfl⟩ := List.exists_cons_of_ne_nil present
        exact ⟨part :: second :: rest, List.cons_ne_nil _ _, (join_cons_cons _ _ _ _).symm, Nat.succ_le_succ length,
          List.forall_mem_cons.mpr ⟨alone, good⟩⟩
      · obtain ⟨parts', present', joined, fewer, good'⟩ := exists_parts_between (List.cons_ne_nil part []) present
          (List.forall_mem_singleton.mpr alone) good
        rw [join_singleton] at joined
        refine ⟨parts', present', joined, ?_, good'⟩
        simp only [List.length_cons, List.length_nil] at fewer length ⊢
        omega

/-- Without a line feed after a comma the parts are the written ones, each of them perhaps broken. -/
theorem exists_parts_of_unbroken {texts : List Text} (nonempty : texts ≠ []) {text : Text} (wrapped : oneLine text = join ", " texts)
    (unbroken : ∀ before after, before ≠ [] → after ≠ [] → texts = before ++ after → ∀ front back,
      text = front ++ '\n' :: back → oneLine front ≠ join ", " before ++ ",") :
    ∃ parts, text = join ", " parts ∧ parts.map oneLine = texts := by
  induction texts generalizing text with
  | nil => exact absurd rfl nonempty
  | cons first texts ih =>
    cases texts with
    | nil =>
      rw [join_singleton] at wrapped
      exact ⟨[text], (join_singleton _ _).symm, by rw [List.map_singleton, wrapped]⟩
    | cons next texts =>
      rw [join_cons_cons] at wrapped
      obtain ⟨start, rest, rfl, start', others⟩ := exists_append_of_oneLine wrapped
      obtain ⟨part, between, rfl, rfl, comma⟩ := exists_append_of_oneLine start'
      rcases oneLine_eq_comma comma with rfl | rfl
      · obtain ⟨parts, rfl, same⟩ := ih (List.cons_ne_nil next texts) others (by
          intro before after present also split front back broken whole
          refine unbroken (oneLine part :: before) after (List.cons_ne_nil _ _) also (by rw [split]; rfl)
            (part ++ ", " ++ front) back (by rw [broken]; simp) ?_
          obtain ⟨second, before, rfl⟩ := List.exists_cons_of_ne_nil present
          rw [join_cons_cons, oneLine_append, oneLine_append, whole]
          simp [oneLine, spaceFor])
        obtain ⟨second, parts, rfl⟩ := List.exists_cons_of_ne_nil (show parts ≠ [] by rintro rfl; cases same)
        exact ⟨part :: second :: parts, (join_cons_cons _ _ _ _).symm, by rw [List.map_cons, same]⟩
      · refine absurd ?_ (unbroken [oneLine part] (next :: texts) (List.cons_ne_nil _ _) (List.cons_ne_nil _ _) rfl
          (part ++ [',']) rest (by simp))
        rw [oneLine_append, join_singleton]
        rfl

/-! ### Places of broken references -/

theorem Locator.exists_tail {locator : Locator} (chapter : locator ≠ .whole) :
    ∃ last, locator.text = ' ' :: last ∧ IsToken last := by
  cases locator with
  | whole => exact absurd rfl chapter
  | chapter number => exact ⟨number.digits, rfl, number.word.isToken⟩
  | sections number first more =>
    refine ⟨number.digits ++ ':' :: join "," ((first :: more).map (·.text)), rfl, by simp, ?_⟩
    refine List.forall_mem_append.mpr ⟨number.word.isToken.whole, List.forall_mem_cons.mpr ⟨by decide, fun c inside => ?_⟩⟩
    rcases mem_join inside with comma | ⟨part, member, found⟩
    · obtain rfl := List.mem_singleton.mp comma
      decide
    · obtain ⟨word, rfl⟩ := exists_word_text member
      exact word.isToken.whole c found

/-- What is found behind a title over several lines on one line is not found where the title is broken. -/
theorem splitPlace_of_broken_title {title rest chapter : Text} {sections : Option Text} (tight : IsTight title)
    (found : (splitTitle? chapterAndSections? (title ++ rest)).or (splitTitle? chapterAlone? (title ++ rest)) =
      if '\n' ∈ title then none else some (title, chapter, sections)) :
    splitPlace (title ++ rest) =
      if '\n' ∈ title then ⟨title ++ rest, none, none⟩ else ⟨title, some chapter, sections⟩ := by
  rw [splitPlace, found]
  by_cases feed : '\n' ∈ title
  · simp only [if_pos feed]
  · simp only [if_neg feed, tight.strip_eq]

section
variable {token : Text} {more : List Text} (tokens : ∀ part ∈ token :: more, IsToken part) (absent : ∀ part ∈ more, ':' ∉ part)
  {title : Text} {gap : Char} (titled : oneLine title = join " " (token :: more)) (blank : spaceFor gap = ' ')
include titled

include blank in
theorem oneLine_titled {last : Text} (isToken : IsToken last) :
    oneLine (title ++ gap :: last) = join " " (token :: more) ++ ' ' :: last := by
  have inLine : '\n' ∉ last := fun feed => absurd (isToken.whole _ feed) (by decide)
  rw [oneLine_append, titled, oneLine_cons, blank, oneLine_eq_self inLine]

include tokens

theorem isTight_titled : IsTight title :=
  isTight_of_oneLine (titled ▸ IsTight.join (List.cons_ne_nil token more) fun part member => (tokens part member).isTight)

include absent blank

theorem splitPlace_broken_chapter (number : Numeral) : splitPlace (title ++ gap :: number.digits) =
    if '\n' ∈ title then ⟨title ++ gap :: number.digits, none, none⟩ else ⟨title, some number.digits, none⟩ := by
  have isToken : IsToken number.digits := number.word.isToken
  have joined := oneLine_titled titled blank isToken
  have colonless : splitTitle? chapterAndSections? (oneLine (title ++ gap :: number.digits)) = none :=
    joined ▸ splitTitle?_colonless tokens absent isToken (number.word.not_mem (by decide))
  have found : splitTitle? chapterAlone? (oneLine (title ++ gap :: number.digits)) =
      some (oneLine title, number.digits, none) := by
    rw [joined, titled]
    exact splitTitle?_digits tokens number
  refine splitPlace_of_broken_title (isTight_titled tokens titled) ?_
  rw [splitTitle?_eq_none_of_oneLine losesNothing_chapterAndSections colonless, Option.none_or]
  exact splitTitle?_broken losesNothing_chapterAlone (isBlank_of_spaceFor blank) isToken.isTight (chapterAlone?_digits number) found

theorem splitPlace_broken_sections (chapter : Word) {sections : Text} (tight : IsTight sections)
    (isToken : IsToken (chapter.text ++ ':' :: sections)) : splitPlace (title ++ gap :: (chapter.text ++ ':' :: sections)) =
      if '\n' ∈ title then ⟨title ++ gap :: (chapter.text ++ ':' :: sections), none, none⟩
      else ⟨title, some chapter.text, some sections⟩ := by
  have sameLine : '\n' ∉ sections := by
    intro feed
    exact absurd (isToken.whole _ (List.mem_append_right _ (List.mem_cons_of_mem _ feed))) (by decide)
  have joined := oneLine_titled titled blank isToken
  have alone : splitTitle? chapterAlone? (oneLine (title ++ gap :: (chapter.text ++ ':' :: sections))) = none :=
    joined ▸ splitTitle?_colon tokens isToken
  have found : splitTitle? chapterAndSections? (oneLine (title ++ gap :: (chapter.text ++ ':' :: sections))) =
      some (oneLine title, chapter.text, some sections) := by
    rw [joined, titled]
    exact splitTitle?_sections tokens absent chapter tight sameLine
  refine splitPlace_of_broken_title (isTight_titled tokens titled) ?_
  rw [splitTitle?_eq_none_of_oneLine losesNothing_chapterAlone alone, Option.or_none]
  exact splitTitle?_broken losesNothing_chapterAndSections (isBlank_of_spaceFor blank) isToken.isTight
    (chapterAndSections?_colon chapter tight.ne_nil sameLine) found

end

namespace WrittenReference
variable (reference : WrittenReference) {text : Text}

/-- The title goes over a line end, though a chapter comes after it. -/
def HasBrokenTitle (text : Text) : Prop :=
  reference.locator ≠ .whole ∧ ∃ title rest, text = title ++ rest ∧ oneLine title = reference.title.text ∧ '\n' ∈ title

variable {reference} (wrapped : oneLine text = reference.text)
include wrapped

theorem splitPlace_of_whole (whole : reference.locator = .whole) : splitPlace text = ⟨text, none, none⟩ := by
  have place := reference.splitPlace_eq
  rw [← wrapped, whole, splitPlace] at place
  split at place
  next => cases congrArg Place.chapter place
  next nothing =>
    obtain ⟨colonless, alone⟩ := Option.or_eq_none_iff.mp nothing
    rw [splitPlace, splitTitle?_eq_none_of_oneLine losesNothing_chapterAndSections colonless,
      splitTitle?_eq_none_of_oneLine losesNothing_chapterAlone alone]
    rfl

omit wrapped in
theorem splitPlace_of_chapter {title last : Text} {gap : Char} (titled : oneLine title = reference.title.text)
    (blank : spaceFor gap = ' ') (tail : reference.locator.text = ' ' :: last) : splitPlace (title ++ gap :: last) =
      if '\n' ∈ title then ⟨title ++ gap :: last, none, none⟩
      else ⟨title, reference.locator.chapter?, reference.locator.sectionText?⟩ := by
  obtain ⟨written, locator, _⟩ := reference
  have tokens : ∀ part ∈ written.first.text :: written.more.map (·.text), IsToken part :=
    fun part member => written.isToken_of_mem member
  have absent : ∀ part ∈ written.more.map (·.text), ':' ∉ part :=
    fun part member => written.not_mem_of_mem (by decide) (List.mem_cons_of_mem _ member)
  cases locator with
  | whole => cases tail
  | chapter number =>
    obtain rfl : number.digits = last := (List.cons.inj tail).2
    exact splitPlace_broken_chapter tokens absent titled blank number
  | sections number first more =>
    obtain rfl : number.digits ++ ':' :: join "," ((first :: more).map (·.text)) = last := (List.cons.inj tail).2
    obtain ⟨_, same, isToken⟩ := Locator.exists_tail (show Locator.sections number first more ≠ .whole by nofun)
    obtain rfl := (List.cons.inj same).2
    exact splitPlace_broken_sections tokens absent titled blank number.word (isTight_passages first more) isToken

theorem exists_chapter (chapter : reference.locator ≠ .whole) : ∃ title gap last, text = title ++ gap :: last ∧
    oneLine title = reference.title.text ∧ spaceFor gap = ' ' ∧ reference.locator.text = ' ' :: last := by
  obtain ⟨last, tail, isToken⟩ := Locator.exists_tail chapter
  obtain ⟨title, rest, rfl, titled, located⟩ := exists_append_of_oneLine wrapped
  rw [tail] at located
  obtain ⟨gap, rest, rfl, blank, ending⟩ := exists_cons_of_oneLine located
  have solid : ' ' ∉ last := fun space => absurd (isToken.whole _ space) (by decide)
  obtain rfl : rest = last := eq_of_oneLine_eq ending solid
  exact ⟨title, gap, rest, rfl, titled, blank, tail⟩

theorem exists_splitPlace (unbroken : ¬ reference.HasBrokenTitle text) : ∃ title, oneLine title = reference.title.text ∧
    splitPlace text = ⟨title, reference.locator.chapter?, reference.locator.sectionText?⟩ := by
  by_cases whole : reference.locator = .whole
  · refine ⟨text, ?_, ?_⟩
    · rw [wrapped, WrittenReference.text, whole, Locator.text, List.append_nil]
    · rw [splitPlace_of_whole wrapped whole, whole]
      rfl
  · obtain ⟨title, gap, last, rfl, titled, blank, tail⟩ := exists_chapter wrapped whole
    have inLine : '\n' ∉ title := fun feed => unbroken ⟨whole, title, gap :: last, rfl, titled, feed⟩
    exact ⟨title, titled, by rw [splitPlace_of_chapter titled blank tail, if_neg inLine]⟩

theorem splitPlace_of_broken (broken : reference.HasBrokenTitle text) : splitPlace text = ⟨text, none, none⟩ := by
  obtain ⟨chapter, front, rest, split, titled, feed⟩ := broken
  obtain ⟨title, gap, last, rfl, titled', blank, tail⟩ := exists_chapter wrapped chapter
  have length : front.length = title.length := by
    have same := congrArg List.length (titled.trans titled'.symm)
    simpa [oneLine] using same
  obtain ⟨rfl, _⟩ := List.append_inj split.symm length
  rw [splitPlace_of_chapter titled blank tail, if_pos feed]

end WrittenReference

/-! ### Reading broken references -/

theorem bar_not_mem_of_oneLine {text line : Text} (wrapped : oneLine text = line) (absent : '|' ∉ line) : '|' ∉ text :=
  fun member => absent (wrapped ▸ mem_of_mem_oneLine member (by decide))

namespace Reader
variable {reader : Reader}

theorem readReference_of_split {content : Text} {inherited : Option Text} {segments : Segments} (tight : IsTight content)
    (separated : separatePipes inherited content = segments) (whole : IsTight segments.main) {place : Place}
    (split : splitPlace segments.main = place) (pipeless : '|' ∉ place.title) (versions : List Text) :
    reader.readReference content inherited versions =
      (reader.resolveTitle ((Reference.named segments.collection).or inherited) place.title).bind fun title =>
        if title.isEmpty then .ok none
        else place.readSections.bind fun sections => .ok (some
          { collection := Reference.named ((Reference.named segments.collection).or inherited)
            title := title
            chapter := Reference.named (place.chapter.map normalize)
            sections := sections
            versions := if segments.versions.isEmpty then versions else segments.versions }) := by
  have nonempty : content.isEmpty = false := by simpa using tight.ne_nil
  have known := splitCollection_of_absent ((Reference.named segments.collection).or inherited) pipeless
  rw [readReference, tight.strip_eq]
  simp only [nonempty, separated, whole.strip_eq, split, known]
  rfl

section
variable {reference : WrittenReference} {content text : Text} {inherited own : Option Text} {ownVersions : List Text}
  (tight : IsTight content) (separated : separatePipes inherited content = ⟨text, own, ownVersions⟩)
  (wrapped : oneLine text = reference.text)
include tight separated wrapped

theorem readReference_unbroken {other : Text} (also : IsTight other)
    (same : separatePipes inherited other = ⟨reference.text, own, ownVersions⟩) (unbroken : ¬ reference.HasBrokenTitle text)
    (versions : List Text) : reader.readReference content inherited versions = reader.readReference other inherited versions := by
  obtain ⟨title, titled, split⟩ := WrittenReference.exists_splitPlace wrapped unbroken
  have whole : IsTight text := isTight_of_oneLine (wrapped ▸ reference.isTight)
  have written := reference.title.not_mem (c := '|') (by decide)
  have pipeless : '|' ∉ title := bar_not_mem_of_oneLine titled written
  rw [readReference_of_split tight separated whole split pipeless,
    readReference_of_split also same reference.isTight reference.splitPlace_eq written, ← titled, resolveTitle_oneLine]
  rfl

/-- The chapter of a broken title is lost. -/
theorem chapter_eq_none_of_broken (broken : reference.HasBrokenTitle text) {versions : List Text} {result : Reference}
    (read : reader.readReference content inherited versions = .ok (some result)) : result.chapter = none := by
  have whole : IsTight text := isTight_of_oneLine (wrapped ▸ reference.isTight)
  have pipeless : '|' ∉ text := bar_not_mem_of_oneLine wrapped (reference.isPlain.not_mem (by decide))
  rw [readReference_of_split tight separated whole (WrittenReference.splitPlace_of_broken wrapped broken) pipeless] at read
  cases titled : reader.resolveTitle ((Reference.named own).or inherited) text with
  | error => simp only [titled, Except.bind] at read; cases read
  | ok title =>
    simp only [titled, Except.bind] at read
    split at read
    next => cases read
    next =>
      obtain rfl := Option.some.inj (Except.ok.inj read)
      rfl

end

section
variable {collection : Option Text} {versions : List Text} {part : Text} {parts others : List Text}

theorem readReferences_congr (alike : List.Forall₂ (fun part other => ∀ inherited versions,
      reader.readReference part inherited versions = reader.readReference other inherited versions) parts others) :
    reader.readReferences collection versions parts = reader.readReferences collection versions others := by
  induction alike generalizing collection versions with
  | nil => rfl
  | @cons part other parts others same _ ih =>
    rw [readReferences, readReferences, same]
    congr 1
    funext result
    cases result with
    | none => exact ih
    | some reference => simp only [ih]

theorem readReferences_cons_congr {other : Text} (same : reader.readReference part collection versions =
      reader.readReference other collection versions) (alike : List.Forall₂ (fun part other => ∀ inherited versions,
      reader.readReference part inherited versions = reader.readReference other inherited versions) parts others) :
    reader.readReferences collection versions (part :: parts) = reader.readReferences collection versions (other :: others) := by
  rw [readReferences, readReferences, same]
  congr 1
  funext result
  cases result with
  | none => exact readReferences_congr alike
  | some reference => simp only [readReferences_congr alike]

theorem readReferences_cons_cases {references : List Reference}
    (read : reader.readReferences collection versions (part :: parts) = .ok references) :
    (∃ rest, reader.readReferences collection versions parts = .ok rest ∧ references = rest) ∨
      ∃ first rest inherited passed, references = first :: rest ∧ reader.readReference part collection versions = .ok (some first) ∧
        reader.readReferences inherited passed parts = .ok rest := by
  rw [readReferences] at read
  cases first : reader.readReference part collection versions with
  | error => rw [first] at read; cases read
  | ok result =>
    rw [first] at read
    cases result with
    | none => exact Or.inl ⟨references, read, rfl⟩
    | some reference =>
      simp only [bind, Except.bind] at read
      split at read
      next => cases read
      next rest later =>
        obtain rfl := Except.ok.inj read
        exact Or.inr ⟨reference, rest, _, _, rfl, rfl, later⟩

/-- At most one reference comes of each part. -/
theorem length_le_of_readReferences {references : List Reference}
    (read : reader.readReferences collection versions parts = .ok references) : references.length ≤ parts.length := by
  induction parts generalizing collection versions references with
  | nil =>
    obtain rfl := Except.ok.inj read
    exact Nat.le_refl _
  | cons part parts ih =>
    rcases readReferences_cons_cases read with ⟨rest, later, rfl⟩ | ⟨first, rest, _, _, rfl, _, later⟩
    · exact Nat.le_succ_of_le (ih later)
    · exact Nat.succ_le_succ (ih later)

theorem readReferences_cons_of_length {references : List Reference}
    (read : reader.readReferences collection versions (part :: parts) = .ok references)
    (length : references.length = parts.length + 1) : ∃ first rest inherited passed, references = first :: rest ∧
      reader.readReference part collection versions = .ok (some first) ∧
        reader.readReferences inherited passed parts = .ok rest ∧ rest.length = parts.length := by
  rcases readReferences_cons_cases read with ⟨rest, later, rfl⟩ | ⟨first, rest, inherited, passed, rfl, here, later⟩
  · have fewer := length_le_of_readReferences later
    omega
  · exact ⟨first, rest, inherited, passed, rfl, here, later, Nat.succ.inj length⟩

/-- Where a reference comes of every part, each comes of its own. -/
theorem forall₂_of_readReferences {references : List Reference}
    (read : reader.readReferences collection versions parts = .ok references) (length : references.length = parts.length) :
    List.Forall₂ (fun part reference => ∃ inherited versions,
      reader.readReference part inherited versions = .ok (some reference)) parts references := by
  induction parts generalizing collection versions references with
  | nil =>
    obtain rfl := List.length_eq_zero_iff.mp length
    exact .nil
  | cons part parts ih =>
    obtain ⟨first, rest, inherited, passed, rfl, here, later, same⟩ := readReferences_cons_of_length read length
    exact .cons ⟨_, _, here⟩ (ih later same)

end

end Reader

end Bindery.Link
