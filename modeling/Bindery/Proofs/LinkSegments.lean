import Bindery.Proofs.WrittenLinks

/-! The segments between pipes. A word before the first pipe is a collection, words behind the last one are versions;
what stands between them is a single reference, or all of them where the versions are shared. -/

namespace Bindery.Link
open Text Identifier

/-! ### Words before pipes -/

namespace Word
variable (word : Word)

theorem isBareWord_text : isBareWord word.text = true := by
  have whole : dropEnd? ['\n'] word.text = none := by
    obtain ⟨front, c, same, _⟩ := word.isToken.isTight.ends
    have solid : isBlank c = false := word.isToken.whole c (same ▸ List.mem_append_right _ (List.mem_singleton_self c))
    have other : '\n' ≠ c := by
      rintro rfl
      exact absurd solid (by decide)
    simp [dropEnd?, dropStart?, same, other]
  have all : word.text.all isWordChar = true := List.all_eq_true.mpr word.whole
  simp [isBareWord, whole, all, word.present]

theorem hasChapterNumber_text : hasChapterNumber word.text = false := by
  have spaced (text : Text) (whole : ∀ c ∈ text, isBlank c = false) : hasSpacedNumber text = false := by
    induction text with
    | nil => rfl
    | cons c rest ih =>
      obtain ⟨solid, others⟩ := List.forall_mem_cons.mp whole
      rw [hasSpacedNumber, solid, ih others]
      rfl
  have after : word.text.dropWhile isWordChar = [] := List.dropWhile_eq_nil_iff.mpr word.whole
  simp [hasChapterNumber, spaced word.text word.isToken.whole, after]

end Word

/-! ### Versions -/

section
variable (versions : List Word)

theorem words_versions : words (join " " (versions.map (·.text))) = versions.map (·.text) := by
  refine words_join fun token member => ?_
  obtain ⟨word, _, rfl⟩ := List.mem_map.mp member
  exact word.isToken

theorem versionList_join : versionList (join " " (versions.map (·.text))) = versionNames versions := by
  rw [versionList, words_versions, List.map_map]
  rfl

theorem isPlain_versions : IsPlain (join " " (versions.map (·.text))) := by
  refine IsPlain.join (by decide) fun token member => ?_
  obtain ⟨word, _, rfl⟩ := List.mem_map.mp member
  exact word.isPlain

variable {versions} (nonempty : versions ≠ [])
include nonempty

theorem isTight_versions : IsTight (join " " (versions.map (·.text))) := by
  refine IsTight.join (by simpa using nonempty) fun token member => ?_
  obtain ⟨word, _, rfl⟩ := List.mem_map.mp member
  exact word.isToken.isTight

theorem isVersionList_join : isVersionList (join " " (versions.map (·.text))) = true := by
  have present := (isTight_versions nonempty).ne_nil
  have whole : (versions.map (·.text)).all (·.all isWordChar) = true := by
    simpa using fun word _ => word.whole
  rw [isVersionList, words_versions, whole]
  simpa using present

end

/-! ### Versions at the end -/

section
variable (versions : List Word)

theorem versionEnding_of_ne_nil {versions : List Word} (nonempty : versions ≠ []) :
    versionEnding versions = " | " ++ join " " (versions.map (·.text)) := by
  obtain ⟨version, more, rfl⟩ := List.exists_cons_of_ne_nil nonempty
  rfl

theorem not_mem_versionEnding {c : Char} (strange : isWordChar c = false ∧ c ∉ [' ', '|']) : c ∉ versionEnding versions := by
  cases versions with
  | nil => exact List.not_mem_nil
  | cons version more =>
    intro inside
    rcases List.mem_append.mp inside with pipe | inside
    · exact strange.2 (by simpa [or_comm] using pipe)
    rcases mem_join inside with blank | ⟨token, member, found⟩
    · exact strange.2 (List.mem_singleton.mp blank ▸ List.mem_cons_self)
    · obtain ⟨word, _, rfl⟩ := List.mem_map.mp member
      exact word.not_mem strange.1 found

theorem unquoted_versionEnding : Unquoted (versionEnding versions) := by
  cases versions with
  | nil => exact List.forall_mem_nil _
  | cons version more => exact unquoted_append.mpr ⟨by decide, (isPlain_versions (version :: more)).unquoted⟩

theorem isTight_append_versionEnding {text : Text} (tight : IsTight text) : IsTight (text ++ versionEnding versions) := by
  cases versions with
  | nil => exact (List.append_nil text).symm ▸ tight
  | cons version more =>
    have whole := tight.append " | " (isTight_versions (List.cons_ne_nil version more))
    rwa [List.append_assoc] at whole

end

/-! ### Pipes of one reference -/

theorem unquoted_pipe {left right : Char} (before : isBlank left = true) (after : isBlank right = true) {rest : Text}
    (unquoted : Unquoted rest) : Unquoted (left :: '|' :: right :: rest) :=
  List.forall_mem_cons.mpr ⟨isQuoteMark_of_isBlank before, List.forall_mem_cons.mpr ⟨by decide,
    List.forall_mem_cons.mpr ⟨isQuoteMark_of_isBlank after, unquoted⟩⟩⟩

section
variable {content : Text} (tight : IsTight content) (unquoted : Unquoted content) (absent : '|' ∉ content)
include tight unquoted absent

theorem separatePipes_pipeless (inherited : Option Text) : separatePipes inherited content = ⟨content, none, []⟩ := by
  have one : splitUnquoted pipeSeparator content = [content] :=
    splitUnquoted_of_cuts unquoted (cuts_pipeless absent tight) (by simpa using tight)
  rw [separatePipes]
  cases Reference.named inherited with
  | some collection => rfl
  | none => rw [one]; rfl

variable (collection : Word) {left right : Char} (before : isBlank left = true) (after : isBlank right = true)
include before after

theorem separatePipes_pipe : separatePipes none (collection.text ++ left :: '|' :: right :: content) =
    ⟨content, some (normalize collection.text), []⟩ := by
  have cut := cuts_pipe before after tight (collection.not_mem (by decide)) collection.isToken.isTight
  rw [cuts_pipeless absent tight] at cut
  have clear : Unquoted (collection.text ++ left :: '|' :: right :: content) :=
    unquoted_append.mpr ⟨collection.isPlain.unquoted, unquoted_pipe before after unquoted⟩
  have split := splitUnquoted_of_cuts clear cut (by simpa using ⟨collection.isToken.isTight, tight⟩)
  change (classifySegments (splitUnquoted pipeSeparator _)).2 = _
  rw [split, classifySegments, if_neg (by simp [collection.hasChapterNumber_text]), if_pos collection.isBareWord_text]

variable {first last : Char} (also : isBlank first = true) (too : isBlank last = true) {versions : Text}
  (tightVersions : IsTight versions) (unquotedVersions : Unquoted versions) (absentVersions : '|' ∉ versions)
include also too tightVersions unquotedVersions absentVersions

theorem separatePipes_pipes :
    separatePipes none (collection.text ++ left :: '|' :: right :: (content ++ first :: '|' :: last :: versions)) =
      ⟨content, normalize collection.text, versionList versions⟩ := by
  have rest : IsTight (content ++ first :: '|' :: last :: versions) := by
    simpa using tight.append [first, '|', last] tightVersions
  have cut := cuts_pipe before after rest (collection.not_mem (by decide)) collection.isToken.isTight
  rw [cuts_pipe also too tightVersions absent tight, cuts_pipeless absentVersions tightVersions] at cut
  have clear : Unquoted (collection.text ++ left :: '|' :: right :: (content ++ first :: '|' :: last :: versions)) :=
    unquoted_append.mpr ⟨collection.isPlain.unquoted,
      unquoted_pipe before after (unquoted_append.mpr ⟨unquoted, unquoted_pipe also too unquotedVersions⟩)⟩
  have split := splitUnquoted_of_cuts clear cut (by simpa using ⟨collection.isToken.isTight, tight, tightVersions⟩)
  change (classifySegments (splitUnquoted pipeSeparator _)).2 = _
  rw [split, classifySegments, if_pos collection.isBareWord_text]
  simp only [List.dropLast_cons_cons, List.dropLast_singleton, List.getLastD_cons, List.getLastD_nil, SegmentRule.joinPipes,
    join_singleton]

end

theorem separatePipes_plain (inherited : Option Text) {content : Text} (tight : IsTight content) (plain : IsPlain content) :
    separatePipes inherited content = ⟨content, none, []⟩ :=
  separatePipes_pipeless tight plain.unquoted (plain.not_mem (by decide)) inherited

section
variable (collection : Word) {main : Text} (tight : IsTight main) (plain : IsPlain main)
include tight plain

theorem separatePipes_collection : separatePipes none (join " | " [collection.text, main]) =
    ⟨main, some (normalize collection.text), []⟩ := by
  have separated := separatePipes_pipe tight plain.unquoted (plain.not_mem (by decide)) collection
    (show isBlank ' ' = true by decide) (show isBlank ' ' = true by decide)
  simpa [join_cons_cons, join_singleton] using separated

theorem separatePipes_versions {versions : List Word} (nonempty : versions ≠ []) :
    separatePipes none (join " | " [collection.text, main, join " " (versions.map (·.text))]) =
      ⟨main, normalize collection.text, versionNames versions⟩ := by
  have separated := separatePipes_pipes tight plain.unquoted (plain.not_mem (by decide)) collection
    (show isBlank ' ' = true by decide) (show isBlank ' ' = true by decide) (show isBlank ' ' = true by decide)
    (show isBlank ' ' = true by decide) (isTight_versions nonempty) (isPlain_versions versions).unquoted
    ((isPlain_versions versions).not_mem (by decide))
  rw [versionList_join] at separated
  simpa [join_cons_cons, join_singleton] using separated

end

/-! ### Shared versions -/

theorem splitSharedVersions_plain {content : Text} (plain : IsPlain content) : splitSharedVersions content = (content, []) := by
  rw [splitSharedVersions, splitLastPipe?_eq_none (plain.not_mem (by decide))]

theorem splitSharedVersions_pipe {before after : Text} {left right : Char} (blank : isBlank left = true)
    (also : isBlank right = true) (unquoted : Unquoted before) (clear : Unquoted after) (absent : '|' ∉ after)
    (tight : IsTight before) (closed : IsTight after) : splitSharedVersions (before ++ left :: '|' :: right :: after) =
      if isVersionList after && readsAsComplete before then (before, versionList after)
      else (before ++ left :: '|' :: right :: after, []) := by
  have content : before ++ left :: '|' :: right :: after = (before ++ [left]) ++ '|' :: right :: after := by simp
  have whole : Unquoted (before ++ left :: '|' :: right :: after) :=
    unquoted_append.mpr ⟨unquoted, unquoted_pipe blank also clear⟩
  have pipeless : '|' ∉ right :: after := by
    refine List.not_mem_cons_of_ne_of_not_mem ?_ absent
    rintro rfl
    exact absurd also (by decide)
  have cut : splitLastPipe? (before ++ left :: '|' :: right :: after) = some (before ++ [left], right :: after) := by
    rw [content] at whole ⊢
    exact splitLastPipe?_append whole pipeless
  rw [splitSharedVersions, cut]
  simp only [tight.strip_concat_blank blank, closed.strip_blank_cons also]

theorem splitSharedVersions_join {before after : Text} (unquoted : Unquoted before) (plain : IsPlain after)
    (tight : IsTight before) (also : IsTight after) : splitSharedVersions (join " | " [before, after]) =
      if isVersionList after && readsAsComplete before then (before, versionList after)
      else (join " | " [before, after], []) := by
  have split := splitSharedVersions_pipe (show isBlank ' ' = true by decide) (show isBlank ' ' = true by decide) unquoted
    plain.unquoted (plain.not_mem (by decide)) tight also
  simpa [join_cons_cons, join_singleton] using split

/-! ### Complete references -/

theorem hasColonNumber_append (front : Text) {rest : Text} (has : hasColonNumber rest = true) :
    hasColonNumber (front ++ rest) = true := by
  induction front with
  | nil => exact has
  | cons c front ih => rw [List.cons_append, hasColonNumber, ih, Bool.or_true]

theorem hasLoneNumber_append (front : Text) {rest : Text} (has : hasLoneNumber rest = true) :
    hasLoneNumber (front ++ rest) = true := by
  induction front with
  | nil => exact has
  | cons c front ih => rw [List.cons_append, hasLoneNumber, ih, Bool.or_true]

theorem Numeral.exists_cons (number : Numeral) : ∃ c rest, number.digits = c :: rest ∧ isDecimal c = true := by
  obtain ⟨c, rest, same⟩ := List.exists_cons_of_ne_nil number.present
  exact ⟨c, rest, same, number.isDecimal_of_mem (same ▸ List.mem_cons_self)⟩

theorem Passage.exists_cons (passage : Passage) : ∃ c rest, passage.text = c :: rest ∧ isDecimal c = true := by
  cases passage with
  | one number => exact number.exists_cons
  | range first last short =>
    obtain ⟨c, rest, same, decimal⟩ := first.exists_cons
    exact ⟨c, rest ++ '-' :: last.digits, by rw [Passage.text, same]; rfl, decimal⟩

theorem hasLoneNumber_digits (number : Numeral) : hasLoneNumber (' ' :: number.digits) = true := by
  obtain ⟨c, rest, same, decimal⟩ := number.exists_cons
  have all : number.digits.dropWhile isDecimal = [] :=
    List.dropWhile_eq_nil_iff.mpr fun c member => number.isDecimal_of_mem member
  rw [hasLoneNumber, all]
  simp [same, decimal, show isBlank ' ' = true by decide]

theorem hasColonNumber_passages (first : Passage) (more : List Passage) :
    hasColonNumber (':' :: join "," ((first :: more).map (·.text))) = true := by
  obtain ⟨c, rest, same, decimal⟩ := first.exists_cons
  have start : (join "," ((first :: more).map (·.text))).head? = some c := by
    cases more with
    | nil => simp [join_singleton, same]
    | cons next more => simp [join_cons_cons, same]
  rw [hasColonNumber, start, Option.any_some, decimal]
  rfl

/-- A chapter completes a reference, whatever stands before it. -/
theorem readsAsComplete_of_chapter (front : Text) {reference : WrittenReference} (chapter : reference.locator ≠ .whole) :
    readsAsComplete (front ++ reference.text) = true := by
  obtain ⟨title, locator, _⟩ := reference
  cases locator with
  | whole => exact absurd rfl chapter
  | chapter number =>
    have lone := hasLoneNumber_append (front ++ title.text) (hasLoneNumber_digits number)
    rw [List.append_assoc] at lone
    simp only [readsAsComplete, WrittenReference.text, Locator.text, lone, Bool.or_true, Bool.true_or]
  | sections number first more =>
    have colon := hasColonNumber_append (front ++ title.text ++ ' ' :: number.digits) (hasColonNumber_passages first more)
    rw [List.append_assoc, List.append_assoc] at colon
    simp only [readsAsComplete, WrittenReference.text, Locator.text, colon, Bool.true_or]

theorem readsAsComplete_of_comma (front : Text) {last : Text} (present : last ≠ []) (absent : ',' ∉ last) :
    readsAsComplete (front ++ ", " ++ last) = true := by
  have pieces : (front ++ ", " ++ last).splitOn ',' = front.splitOn ',' ++ [' ' :: last] := by
    have content : front ++ ", " ++ last = front ++ ',' :: ' ' :: last := by simp
    have alone : ',' ∉ ' ' :: last := List.not_mem_cons_of_ne_of_not_mem (by decide) absent
    rw [content, List.splitOn_append_cons_self, List.splitOn_eq_singleton alone]
  obtain ⟨earlier, before, split⟩ := (List.eq_nil_or_concat (front.splitOn ',')).resolve_left (List.splitOn_ne_nil ',' front)
  have long : 1 ≤ last.length := List.length_pos_iff.mpr present
  have lists : listsReferences (front ++ ", " ++ last) = true := by
    rw [listsReferences, pieces, split]
    simp [long, show isBlank ' ' = true by decide]
  rw [readsAsComplete, lists, Bool.or_true]

theorem readsAsComplete_of_last (front : Text) (reference : WrittenReference) :
    readsAsComplete (front ++ ", " ++ reference.text) = true := by
  by_cases whole : reference.locator = .whole
  · refine readsAsComplete_of_comma front reference.isTight.ne_nil ?_
    rw [WrittenReference.text, whole, Locator.text, List.append_nil]
    exact reference.title.not_mem (by decide)
  · exact readsAsComplete_of_chapter (front ++ ", ") whole

theorem hasColonNumber_eq_false {text : Text} (absent : ':' ∉ text) : hasColonNumber text = false := by
  induction text with
  | nil => rfl
  | cons c rest ih =>
    obtain ⟨other, later⟩ := List.ne_and_not_mem_of_not_mem_cons absent
    simp [hasColonNumber, Ne.symm other, ih later]

theorem hasNumberColon_eq_false {text : Text} (absent : ':' ∉ text) : hasNumberColon text = false := by
  induction text with
  | nil => rfl
  | cons c rest ih =>
    have later := List.not_mem_of_not_mem_cons absent
    have other : (stripStart rest).head? ≠ some ':' := fun head =>
      later ((List.dropWhile_sublist isBlank).subset (List.mem_of_head? head))
    simp [hasNumberColon, other, ih later]

theorem hasLoneNumber_eq_false {text : Text} (whole : ∀ c ∈ text, isBlank c = false) : hasLoneNumber text = false := by
  induction text with
  | nil => rfl
  | cons c rest ih =>
    obtain ⟨solid, others⟩ := List.forall_mem_cons.mp whole
    simp [hasLoneNumber, solid, ih others]

theorem readsAsComplete_word (word : Word) : readsAsComplete word.text = false := by
  have colon := hasColonNumber_eq_false (word.not_mem (c := ':') (by decide))
  have before := hasNumberColon_eq_false (word.not_mem (c := ':') (by decide))
  have lone := hasLoneNumber_eq_false word.isToken.whole
  have single : listsReferences word.text = false := by
    rw [listsReferences, List.splitOn_eq_singleton (word.not_mem (by decide))]
    rfl
  rw [readsAsComplete, colon, before, lone, single]
  rfl

end Bindery.Link
