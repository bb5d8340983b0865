import Bindery.Link.Reader
import Bindery.Proofs.UnquotedCuts

/-! Book links as their grammar writes them: an optional collection, references that are separated by commas, and
optional versions for all of them. A reference has a title of one or more words, and perhaps a chapter and
sections of it. -/

namespace Bindery.Link
open Text Identifier

/-! ### Characters of words -/

theorem toNat_lt_of_isWordChar {c : Char} (word : isWordChar c = true) : c.toNat < 128 := by
  simp only [isWordChar, isAsciiLower, isAsciiUpper, isAsciiDigit, Bool.or_eq_true, Bool.and_eq_true,
    decide_eq_true_eq] at word
  rcases word with (((lower | upper) | digit) | rfl) | rfl
  · exact Nat.lt_of_le_of_lt lower.2 (by decide)
  · exact Nat.lt_of_le_of_lt upper.2 (by decide)
  · exact Nat.lt_of_le_of_lt digit.2 (by decide)
  · decide
  · decide

/-- Characters of words are few, so what holds of all of them can be found by trying. -/
theorem of_isWordChar {P : Char → Prop} (tried : ∀ n < 128, isWordChar (Char.ofNat n) = true → P (Char.ofNat n))
    {c : Char} (word : isWordChar c = true) : P c := by
  have found := tried c.toNat (toNat_lt_of_isWordChar word)
  rw [Char.ofNat_toNat] at found
  exact found word

theorem isBlank_of_isWordChar {c : Char} : isWordChar c = true → isBlank c = false :=
  of_isWordChar (P := fun c => isBlank c = false) (by decide)

theorem isQuoteMark_of_isWordChar {c : Char} : isWordChar c = true → isQuoteMark c = false :=
  of_isWordChar (P := fun c => isQuoteMark c = false) (by decide)

theorem isWordChar_of_isAsciiDigit {c : Char} (digit : isAsciiDigit c = true) : isWordChar c = true := by
  simp [isWordChar, digit]

theorem isDecimal_of_isWordChar {c : Char} : isWordChar c = true → isDecimal c = isAsciiDigit c :=
  of_isWordChar (P := fun c => isDecimal c = isAsciiDigit c) (by decide)

/-! ### Words and numbers -/

structure Word where
  text : Text
  present : text ≠ []
  spelled : text.all isWordChar = true

namespace Word
variable (word : Word)

theorem whole : ∀ c ∈ word.text, isWordChar c = true :=
  List.all_eq_true.mp word.spelled

theorem isToken : IsToken word.text :=
  ⟨word.present, fun c member => isBlank_of_isWordChar (word.whole c member)⟩

theorem not_mem {c : Char} (other : isWordChar c = false) : c ∉ word.text := fun member => by
  rw [word.whole c member] at other
  cases other

end Word

structure Numeral where
  digits : Text
  present : digits ≠ []
  spelled : digits.all isAsciiDigit = true

namespace Numeral
variable (number : Numeral)

theorem whole : ∀ c ∈ number.digits, isAsciiDigit c = true :=
  List.all_eq_true.mp number.spelled

def word : Word where
  text := number.digits
  present := number.present
  spelled := List.all_eq_true.mpr fun c member => isWordChar_of_isAsciiDigit (number.whole c member)

def value : Nat :=
  valueOfDigits number.digits

theorem isDecimal_of_mem {c : Char} (member : c ∈ number.digits) : isDecimal c = true := by
  rw [isDecimal_of_isWordChar (number.word.whole c member)]
  exact number.whole c member

end Numeral

/-- One section, or a range of them whose ends are short enough to be read. -/
inductive Passage where
  | one (number : Numeral)
  | range (first last : Numeral)
      (short : first.digits.length ≤ digitLimit ∧ last.digits.length ≤ digitLimit)

namespace Passage

def text : Passage → Text
  | .one number => number.digits
  | .range first last _ => first.digits ++ '-' :: last.digits

/-- A rising range stands for its numbers, a falling one for itself. -/
def sections : Passage → List Text
  | .one number => [number.digits]
  | .range first last _ =>
    if first.value ≤ last.value then (List.range' first.value (last.value + 1 - first.value)).map ofNat
    else [first.digits ++ '-' :: last.digits]

def word : Passage → Word
  | .one number => number.word
  | .range first last _ =>
    { text := first.digits ++ '-' :: last.digits
      present := by simp
      spelled := by
        refine List.all_eq_true.mpr fun c member => ?_
        rcases List.mem_append.mp member with before | after
        · exact first.word.whole c before
        · rcases List.mem_cons.mp after with rfl | after
          · decide
          · exact last.word.whole c after }

theorem word_text (passage : Passage) : passage.word.text = passage.text := by
  cases passage with
  | one => rfl
  | range => rfl

end Passage

/-! ### References -/

structure WrittenTitle where
  first : Word
  more : List Word

namespace WrittenTitle

def words (title : WrittenTitle) : List Word :=
  title.first :: title.more

def text (title : WrittenTitle) : Text :=
  join " " (title.words.map (·.text))

end WrittenTitle

inductive Locator where
  | whole
  | chapter (number : Numeral)
  | sections (number : Numeral) (first : Passage) (more : List Passage)

namespace Locator

def text : Locator → Text
  | .whole => []
  | .chapter number => ' ' :: number.digits
  | .sections number first more => ' ' :: number.digits ++ ':' :: join "," ((first :: more).map (·.text))

def chapter? : Locator → Option Text
  | .whole => none
  | .chapter number | .sections number _ _ => some number.digits

def listed : Locator → List Text
  | .sections _ first more => (first :: more).flatMap (·.sections)
  | _ => []

end Locator

/-- A last word that starts with a digit would be a chapter. -/
structure WrittenReference where
  title : WrittenTitle
  locator : Locator
  plain : locator = .whole → ∀ last ∈ title.more.getLast?, last.text.head?.any isAsciiDigit = false

def WrittenReference.text (reference : WrittenReference) : Text :=
  reference.title.text ++ reference.locator.text

def versionEnding : List Word → Text
  | [] => []
  | versions => " | " ++ join " " (versions.map (·.text))

/-- A single title of one word with versions behind it would itself be the collection. -/
structure WrittenLink where
  collection : Option Word
  first : WrittenReference
  more : List WrittenReference
  versions : List Word
  named : ∀ word ∈ collection, normalize word.text ≠ []
  complete : collection = none → versions ≠ [] → more ≠ [] ∨ first.locator ≠ .whole

namespace WrittenLink
variable (link : WrittenLink)

def references : List WrittenReference :=
  link.first :: link.more

def start : Text :=
  match link.collection with
  | none => []
  | some word => word.text ++ " | "

def listing : Text :=
  link.start ++ join ", " (link.references.map (·.text))

def body : Text :=
  link.listing ++ versionEnding link.versions

def text : Text :=
  opening ++ link.body ++ closing

end WrittenLink

/-! ### What is read -/

namespace Reader
variable (reader : Reader) (collection : Option Text) (title : Text)

/-- Books of the numbered collection that have a number instead of a name. -/
def KeepsNumber : Prop :=
  collection = some reader.numberedCollection ∧ title.all isDecimal = true ∧ 1 ≤ valueOfDigits title
    ∧ (valueOfDigits title : Int) ≤ reader.highestNumber

instance : Decidable (reader.KeepsNumber collection title) :=
  inferInstanceAs (Decidable (_ ∧ _ ∧ _ ∧ _))

def titleOf : Text :=
  if reader.KeepsNumber collection title then title else reader.titles.resolve title

end Reader

/-- What must hold of a title for a reference to come of it: it leads to a name, and if it is a number, to one that
is short enough to be read. -/
structure Reader.CanRead (reader : Reader) (collection : Option Text) (title : Text) : Prop where
  named : reader.titleOf collection title ≠ []
  short : title.all isDecimal = true → title.length ≤ digitLimit

def WrittenLink.collectionName (link : WrittenLink) : Option Text :=
  link.collection.map fun word => normalize word.text

def versionNames (versions : List Word) : List Text :=
  (versions.map fun word => Identifier.normalize word.text).filter (!·.isEmpty)

def WrittenReference.reading (reference : WrittenReference) (reader : Reader) (collection : Option Text)
    (versions : List Text) : Reference where
  collection := collection
  title := reader.titleOf collection reference.title.text
  chapter := reference.locator.chapter?
  sections := reference.locator.listed
  versions := versions

/-! ### Characters of references -/

/-- Without quotes and pipes. -/
def IsPlain (text : Text) : Prop :=
  ∀ c ∈ text, isWordChar c = true ∨ c ∈ [' ', ':', ',']

instance (text : Text) : Decidable (IsPlain text) :=
  List.decidableBAll (fun c => isWordChar c = true ∨ c ∈ [' ', ':', ',']) text

namespace IsPlain
variable {text other : Text}

theorem append (plain : IsPlain text) (also : IsPlain other) : IsPlain (text ++ other) :=
  List.forall_mem_append.mpr ⟨plain, also⟩

theorem join {separator : Text} {parts : List Text} (between : IsPlain separator) (plain : ∀ part ∈ parts, IsPlain part) :
    IsPlain (Text.join separator parts) := by
  intro c inside
  rcases mem_join inside with here | ⟨part, member, found⟩
  · exact between c here
  · exact plain part member c found

theorem unquoted (plain : IsPlain text) : Unquoted text := by
  intro c member
  rcases plain c member with word | sign
  · exact isQuoteMark_of_isWordChar word
  · exact (by decide : Unquoted [' ', ':', ',']) c sign

theorem not_mem {c : Char} (plain : IsPlain text) (strange : isWordChar c = false ∧ c ∉ [' ', ':', ',']) : c ∉ text := by
  intro member
  rcases plain c member with word | sign
  · rw [strange.1] at word
    cases word
  · exact strange.2 sign

end IsPlain

theorem Word.isPlain (word : Word) : IsPlain word.text :=
  fun c member => Or.inl (word.whole c member)

namespace WrittenTitle
variable (title : WrittenTitle)

theorem isToken_of_mem {token : Text} (member : token ∈ title.words.map (·.text)) : IsToken token := by
  obtain ⟨word, _, rfl⟩ := List.mem_map.mp member
  exact word.isToken

theorem not_mem_of_mem {c : Char} (strange : isWordChar c = false) {token : Text} (member : token ∈ title.words.map (·.text)) :
    c ∉ token := by
  obtain ⟨word, _, rfl⟩ := List.mem_map.mp member
  exact word.not_mem strange

theorem isTight : IsTight title.text :=
  IsTight.join (by simp [words]) fun _ member => (title.isToken_of_mem member).isTight

theorem isPlain : IsPlain title.text := by
  refine IsPlain.join (by decide) fun token member => ?_
  obtain ⟨word, _, rfl⟩ := List.mem_map.mp member
  exact word.isPlain

theorem not_mem {c : Char} (strange : isWordChar c = false ∧ c ≠ ' ') : c ∉ title.text := by
  intro inside
  rcases mem_join inside with blank | ⟨token, member, found⟩
  · exact strange.2 (List.mem_singleton.mp blank)
  · exact title.not_mem_of_mem strange.1 member found

end WrittenTitle

theorem exists_word_text {passages : List Passage} {part : Text} (member : part ∈ passages.map (·.text)) :
    ∃ word : Word, word.text = part := by
  obtain ⟨passage, _, rfl⟩ := List.mem_map.mp member
  exact ⟨passage.word, passage.word_text⟩

theorem isPlain_passages (passages : List Passage) : IsPlain (join "," (passages.map (·.text))) := by
  refine IsPlain.join (by decide) fun part member => ?_
  obtain ⟨word, rfl⟩ := exists_word_text member
  exact word.isPlain

theorem isTight_passages (first : Passage) (more : List Passage) :
    IsTight (join "," ((first :: more).map (·.text))) := by
  refine IsTight.join (by simp) fun part member => ?_
  obtain ⟨word, rfl⟩ := exists_word_text member
  exact word.isToken.isTight

theorem passes_comma_passages (passages : List Passage) (rest : Text) :
    Passes commaSeparator (join "," (passages.map (·.text))) rest := by
  refine passes_comma_join (fun part member => ?_) (fun part member => ?_) rest
  · obtain ⟨word, rfl⟩ := exists_word_text member
    exact word.not_mem (by decide)
  · obtain ⟨word, rfl⟩ := exists_word_text member
    exact word.isToken.isTight

namespace WrittenReference
variable (reference : WrittenReference)

theorem isTight : IsTight reference.text := by
  obtain ⟨title, locator, _⟩ := reference
  cases locator with
  | whole =>
    rw [WrittenReference.text, Locator.text, List.append_nil]
    exact title.isTight
  | chapter number =>
    have tight := title.isTight.append [' '] number.word.isToken.isTight
    rwa [List.append_assoc] at tight
  | sections number first more =>
    have tight := title.isTight.append (' ' :: number.digits ++ [':']) (isTight_passages first more)
    simpa [WrittenReference.text, Locator.text] using tight

theorem isPlain : IsPlain reference.text := by
  refine reference.title.isPlain.append ?_
  cases reference.locator with
  | whole => exact List.forall_mem_nil _
  | chapter number => exact List.forall_mem_cons.mpr ⟨Or.inr (by decide), number.word.isPlain⟩
  | sections number first more =>
    refine List.forall_mem_cons.mpr ⟨Or.inr (by decide), number.word.isPlain.append ?_⟩
    exact List.forall_mem_cons.mpr ⟨Or.inr (by decide), isPlain_passages (first :: more)⟩

/-- The commas of a reference are among its sections, and no blank is there. -/
theorem passes_comma (rest : Text) : Passes commaSeparator reference.text rest := by
  refine passes_append.mpr ⟨Link.passes_comma (reference.title.not_mem (by decide)) _, ?_⟩
  cases reference.locator with
  | whole => trivial
  | chapter number =>
    have absent : ',' ∉ ' ' :: number.digits :=
      List.not_mem_cons_of_ne_of_not_mem (by decide) (number.word.not_mem (by decide))
    exact Link.passes_comma absent rest
  | sections number first more =>
    have absent : ',' ∉ ' ' :: number.digits ++ [':'] := by
      simp [show ',' ∉ number.digits from number.word.not_mem (by decide)]
    have split : (Locator.sections number first more).text =
        ' ' :: number.digits ++ [':'] ++ join "," ((first :: more).map (·.text)) := by
      simp [Locator.text]
    rw [split]
    exact passes_append.mpr ⟨Link.passes_comma absent _, passes_comma_passages (first :: more) rest⟩

end WrittenReference

end Bindery.Link
