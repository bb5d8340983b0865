import Bindery.Proofs.WrittenLinks

/-! Numbers in references. Digits are their own identifier, and so are two numbers with a hyphen between them; a
list of sections and ranges is read as the sections it stands for. -/

namespace Bindery

namespace Identifier
open Text

/-! ### Identifiers of numbers -/

theorem isIdentifierChar_of_isAsciiDigit {c : Char} (digit : isAsciiDigit c = true) : (!isIdentifierChar c) = false := by
  simp [isIdentifierChar, digit]

private theorem lowerChar_eq {c : Char} (small : (!isIdentifierChar c) = false ∨ c = '-') :
    lowerChar c = [c] ∧ isQuoteMark c = false := by
  have word : Link.isWordChar c = true := by
    rcases small with inside | rfl
    · simp only [isIdentifierChar, Bool.not_eq_false', Bool.or_eq_true] at inside
      rcases inside with lower | digit
      · simp [Link.isWordChar, lower]
      · simp [Link.isWordChar, digit]
    · decide
  exact Link.of_isWordChar
    (P := fun c => (!isIdentifierChar c) = false ∨ c = '-' → lowerChar c = [c] ∧ isQuoteMark c = false) (by decide) word small

theorem fold_eq {text : Text} (small : ∀ c ∈ text, (!isIdentifierChar c) = false ∨ c = '-') : fold text = text := by
  have unquoted : text.filter (!isQuoteMark ·) = text :=
    List.filter_eq_self.mpr fun c member => by simp [(lowerChar_eq (small c member)).2]
  rw [fold, unquoted, List.flatMap_congr fun c member => (lowerChar_eq (small c member)).1, List.flatMap_singleton']

section
variable {digits : Text} (present : digits ≠ []) (whole : ∀ c ∈ digits, isAsciiDigit c = true)
include present whole

theorem normalize_digits : normalize digits = digits := by
  rw [normalize, pieces, fold_eq fun c member => Or.inl (isIdentifierChar_of_isAsciiDigit (whole c member)),
    runsOutside_eq_singleton (fun c member => isIdentifierChar_of_isAsciiDigit (whole c member)) present, join_singleton]

theorem normalize_hyphen {more : Text} (nonempty : more ≠ []) (others : ∀ c ∈ more, isAsciiDigit c = true) :
    normalize (digits ++ '-' :: more) = digits ++ '-' :: more := by
  have small : ∀ c ∈ digits ++ '-' :: more, (!isIdentifierChar c) = false ∨ c = '-' := by
    refine List.forall_mem_append.mpr ⟨fun c member => Or.inl (isIdentifierChar_of_isAsciiDigit (whole c member)), ?_⟩
    exact List.forall_mem_cons.mpr ⟨Or.inr rfl, fun c member => Or.inl (isIdentifierChar_of_isAsciiDigit (others c member))⟩
  rw [normalize, pieces, fold_eq small,
    runsOutside_append_cons (fun c member => isIdentifierChar_of_isAsciiDigit (whole c member)) present (by decide),
    runsOutside_eq_singleton (fun c member => isIdentifierChar_of_isAsciiDigit (others c member)) nonempty, join_cons_cons,
    join_singleton, List.append_assoc]
  rfl

/-- Digits are never lost, whatever comes after them. -/
theorem normalize_append_ne_nil (rest : Text) : normalize (digits ++ rest) ≠ [] := by
  obtain ⟨c, more, rfl⟩ := List.exists_cons_of_ne_nil present
  have start : fold (c :: more ++ rest) = c :: (more ++ fold rest) := by
    have kept := fold_eq fun d member => Or.inl (isIdentifierChar_of_isAsciiDigit (whole d member))
    rw [fold] at kept ⊢
    rw [List.filter_append, List.flatMap_append, kept]
    rfl
  have inside := isIdentifierChar_of_isAsciiDigit (whole c List.mem_cons_self)
  obtain ⟨run, runs, split⟩ := exists_runsOutside_cons (!isIdentifierChar ·) inside (more ++ fold rest)
  rw [normalize, pieces, start, split]
  cases runs with
  | nil => simp [join_singleton]
  | cons next runs => simp [join_cons_cons]

end

theorem normalize_ofNat (n : Nat) : normalize (ofNat n) = ofNat n := by
  refine normalize_digits Nat.toDigits_ne_nil fun c member => ?_
  have digit := Nat.isDigit_of_mem_toDigits (by decide) (by decide) member
  exact digit

end Identifier

namespace Link
open Text Identifier

/-! ### Ranges -/

theorem Numeral.stripStart_eq (number : Numeral) : stripStart number.digits = number.digits :=
  number.word.isToken.isTight.stripStart_eq

theorem splitRange?_digits (number : Numeral) : splitRange? number.digits = none := by
  have all : number.digits.dropWhile isDecimal = [] :=
    List.dropWhile_eq_nil_iff.mpr fun c member => number.isDecimal_of_mem member
  rw [splitRange?]
  simp only [number.stripStart_eq, all]
  rfl

theorem splitRange?_hyphen (first last : Numeral) :
    splitRange? (first.digits ++ '-' :: last.digits) = some (first.digits, last.digits) := by
  have tight : IsTight (first.digits ++ ['-'] ++ last.digits) :=
    first.word.isToken.isTight.append ['-'] last.word.isToken.isTight
  rw [List.append_assoc] at tight
  have start : stripStart (first.digits ++ '-' :: last.digits) = first.digits ++ '-' :: last.digits := tight.stripStart_eq
  have hyphen : isDecimal '-' = false := by decide
  have low := takeWhile_append_of_stop (fun c member => first.isDecimal_of_mem member) hyphen last.digits
  have next := dropWhile_append_of_stop (fun c member => first.isDecimal_of_mem member) hyphen last.digits
  have stays : stripStart ('-' :: last.digits) = '-' :: last.digits := rfl
  have high : last.digits.takeWhile isDecimal = last.digits :=
    List.takeWhile_eq_self_iff.mpr fun c member => last.isDecimal_of_mem member
  have all : last.digits.dropWhile isDecimal = [] :=
    List.dropWhile_eq_nil_iff.mpr fun c member => last.isDecimal_of_mem member
  rw [splitRange?]
  simp only [start, low, next, stays, last.stripStart_eq, high, all]
  simp [first.present, last.present]

theorem Numeral.readDigits_eq (number : Numeral) (short : number.digits.length ≤ digitLimit) :
    readDigits number.digits = .ok number.value := by
  rw [readDigits, if_neg (Nat.not_lt.mpr short), Numeral.value]

theorem expandRange_text (passage : Passage) : expandRange passage.text = .ok passage.sections := by
  cases passage with
  | one number => rw [expandRange, Passage.text, splitRange?_digits]; rfl
  | range first last short =>
    rw [expandRange, Passage.text, splitRange?_hyphen]
    simp only [first.readDigits_eq short.1, last.readDigits_eq short.2, Passage.sections]
    by_cases rising : first.value ≤ last.value
    · rw [if_pos rising]
      simp [bind, Except.bind, pure, Except.pure, Nat.not_lt.mpr rising]
    · rw [if_neg rising]
      simp [bind, Except.bind, pure, Except.pure, Nat.lt_of_not_le rising]

theorem normalize_of_mem_sections {passage : Passage} {name : Text} (member : name ∈ passage.sections) :
    normalize name = name ∧ name ≠ [] := by
  cases passage with
  | one number =>
    obtain rfl := List.mem_singleton.mp member
    exact ⟨normalize_digits number.present number.whole, number.present⟩
  | range first last short =>
    rw [Passage.sections] at member
    split at member
    next =>
      obtain ⟨n, _, rfl⟩ := List.mem_map.mp member
      exact ⟨normalize_ofNat n, Nat.toDigits_ne_nil⟩
    next =>
      obtain rfl := List.mem_singleton.mp member
      exact ⟨normalize_hyphen first.present first.whole last.present last.whole, by simp⟩

theorem mapM_expandRange (passages : List Passage) :
    (passages.map (·.text)).mapM expandRange = .ok (passages.map (·.sections)) := by
  induction passages with
  | nil => rfl
  | cons passage rest ih => rw [List.map_cons, List.mapM_cons, expandRange_text, ih]; rfl

theorem expandRanges_join (first : Passage) (more : List Passage) :
    expandRanges (join "," ((first :: more).map (·.text))) = .ok ((first :: more).flatMap (·.sections)) := by
  have parts : (join "," ((first :: more).map (·.text))).splitOn ',' = (first :: more).map (·.text) := by
    refine List.splitOn_intercalate ',' (fun part member => ?_) (by simp)
    obtain ⟨word, rfl⟩ := exists_word_text member
    exact word.not_mem (by decide)
  have stripped : ((first :: more).map (·.text)).map strip = (first :: more).map (·.text) := by
    refine map_eq_self fun part member => ?_
    obtain ⟨word, rfl⟩ := exists_word_text member
    exact word.isToken.isTight.strip_eq
  have present : ((first :: more).map (·.text)).filter (!·.isEmpty) = (first :: more).map (·.text) := by
    refine List.filter_eq_self.mpr fun part member => ?_
    obtain ⟨word, rfl⟩ := exists_word_text member
    simpa using word.present
  rw [expandRanges, parts, stripped, present, mapM_expandRange, List.flatMap]
  rfl

theorem normalize_listed (passages : List Passage) :
    ((passages.flatMap (·.sections)).map normalize).filter (!·.isEmpty) = passages.flatMap (·.sections) := by
  have proper : ∀ name ∈ passages.flatMap (·.sections), normalize name = name ∧ name ≠ [] := by
    intro name member
    obtain ⟨passage, _, inside⟩ := List.mem_flatMap.mp member
    exact normalize_of_mem_sections inside
  have same : (passages.flatMap (·.sections)).map normalize = passages.flatMap (·.sections) :=
    map_eq_self fun name member => (proper name member).1
  rw [same]
  exact List.filter_eq_self.mpr fun name member => by simpa using (proper name member).2

theorem map_colon {text : Text} (absent : ':' ∉ text) : text.map (fun c => if c = ':' then '-' else c) = text :=
  map_eq_self fun c inside => if_neg fun (same : c = ':') => absent (same ▸ inside)

/-- A list of passages is read as the sections it stands for. -/
theorem readSections_join (first : Passage) (more : List Passage) :
    readSections (join "," ((first :: more).map (·.text))) = .ok ((first :: more).flatMap (·.sections)) := by
  have absent : ':' ∉ join "," ((first :: more).map (·.text)) := by
    intro inside
    rcases mem_join inside with comma | ⟨part, member, found⟩
    · exact absurd comma (by decide)
    · obtain ⟨word, rfl⟩ := exists_word_text member
      exact word.not_mem (by decide) found
  rw [readSections, map_colon absent, expandRanges_join]
  exact congrArg Except.ok (normalize_listed (first :: more))

/-! ### Numbered titles -/

namespace Reader
variable (reader : Reader) (collection : Option Text) {title : Text}
  (short : title.all isDecimal = true → title.length ≤ digitLimit)
include short

theorem isNumberedTitle_eq (present : title ≠ []) :
    reader.isNumberedTitle collection title = .ok (decide (reader.KeepsNumber collection title)) := by
  have nonempty : title.isEmpty = false := by simpa using present
  unfold isNumberedTitle KeepsNumber
  by_cases numbered : collection = some reader.numberedCollection
  · by_cases digits : title.all isDecimal = true
    · have read : readDigits title = .ok (valueOfDigits title) := if_neg (Nat.not_lt.mpr (short digits))
      simp [numbered, digits, nonempty, read, bind, Except.bind, pure, Except.pure]
    · simp [digits]
  · simp [numbered]

theorem resolveTitle_eq (tight : IsTight title) :
    reader.resolveTitle collection title = .ok (reader.titleOf collection title) := by
  rw [resolveTitle, tight.strip_eq, reader.isNumberedTitle_eq collection short tight.ne_nil, titleOf]
  by_cases keeps : reader.KeepsNumber collection title
  · simp [keeps, bind, Except.bind, pure, Except.pure]
  · simp [keeps, bind, Except.bind, pure, Except.pure]

end Reader

end Link
end Bindery
