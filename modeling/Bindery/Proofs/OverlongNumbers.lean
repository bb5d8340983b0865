import Bindery.Proofs.NumbersRead

/-! Where reading breaks off. A number that is read in a text stands in it as a run of decimal digits, so a text
without overlong runs is always read; an overlong number ends the reading only where it is read as a number. -/

namespace Bindery

namespace Text

/-- A number as it stands somewhere in a text. -/
structure StandsIn (number text : Text) : Prop where
  present : number ≠ []
  digits : number.all isDecimal = true
  inside : number <:+: text

theorem StandsIn.of_isInfix {number piece whole : Text} (stands : StandsIn number piece) (inside : piece <:+: whole) :
    StandsIn number whole :=
  { stands with inside := stands.inside.trans inside }

/-- Every number in a piece is one of the whole. -/
def TakesNumbersFrom (piece whole : Text) : Prop :=
  ∀ number, StandsIn number piece → StandsIn number whole

theorem takesNumbersFrom_of_isInfix {piece whole : Text} (inside : piece <:+: whole) : TakesNumbersFrom piece whole :=
  fun _ stands => stands.of_isInfix inside

theorem TakesNumbersFrom.trans {piece middle whole : Text} (first : TakesNumbersFrom piece middle)
    (last : TakesNumbersFrom middle whole) : TakesNumbersFrom piece whole :=
  fun number stands => last number (first number stands)

/-! ### Pieces of a text -/

theorem strip_isInfix (text : Text) : strip text <:+: text := by
  have front : stripEnd (stripStart text) <+: stripStart text := List.rdropWhile_prefix isBlank _
  exact front.isInfix.trans (List.dropWhile_suffix isBlank).isInfix

theorem isInfix_join {separator part : Text} {parts : List Text} (member : part ∈ parts) :
    part <:+: join separator parts := by
  induction parts with
  | nil => cases member
  | cons first rest ih =>
    cases rest with
    | nil =>
      obtain rfl := List.mem_singleton.mp member
      rw [join_singleton]
    | cons next rest =>
      rw [join_cons_cons]
      rcases List.mem_cons.mp member with rfl | later
      · rw [List.append_assoc]
        exact (List.prefix_append _ _).isInfix
      · exact (ih later).trans (List.suffix_append _ _).isInfix

theorem isInfix_of_mem_splitOn {text part : Text} {mark : Char} (member : part ∈ text.splitOn mark) : part <:+: text := by
  have inside : part <:+: join [mark] (text.splitOn mark) := isInfix_join member
  rwa [join, List.intercalate_splitOn] at inside

/-- A run without a character stands before it or after it. -/
theorem isInfix_append_cons {run front rest : Text} {c : Char} (absent : c ∉ run) (inside : run <:+: front ++ c :: rest) :
    run <:+: front ∨ run <:+: rest := by
  obtain ⟨before, after, whole⟩ := inside
  rcases List.append_eq_append_iff.mp whole with ⟨further, same, _⟩ | ⟨further, same, split⟩
  · exact Or.inl ⟨before, further, same.symm⟩
  cases further with
  | nil => exact Or.inl ⟨before, [], by simpa using same⟩
  | cons d further =>
    obtain ⟨rfl, later⟩ := List.cons.inj split
    rcases List.append_eq_append_iff.mp same with ⟨last, _, split⟩ | ⟨last, _, split⟩
    · exact absurd (split ▸ List.mem_append_right last List.mem_cons_self) absent
    · cases last with
      | nil =>
        have same : c :: further = run := split
        exact absurd (same ▸ List.mem_cons_self) absent
      | cons e last =>
        obtain ⟨rfl, found⟩ := List.cons.inj split
        exact Or.inr ⟨last, after, by rw [later, found]; rfl⟩

theorem isInfix_append_append {run front between rest : Text} (nonempty : between ≠ []) (absent : ∀ c ∈ between, c ∉ run)
    (inside : run <:+: front ++ between ++ rest) : run <:+: front ∨ run <:+: rest := by
  induction between generalizing front with
  | nil => exact absurd rfl nonempty
  | cons c between ih =>
    obtain ⟨first, others⟩ := List.forall_mem_cons.mp absent
    rw [List.append_assoc, List.cons_append] at inside
    rcases isInfix_append_cons first inside with before | after
    · exact Or.inl before
    · cases between with
      | nil => exact Or.inr after
      | cons d between =>
        have later : run <:+: [] ∨ run <:+: rest := ih (List.cons_ne_nil d between) others after
        exact later.imp (fun nothing => nothing.trans (List.nil_infix)) id

theorem takesNumbersFrom_join {separator whole : Text} {parts : List Text} (nonempty : separator ≠ [])
    (plain : ∀ c ∈ separator, isDecimal c = false) (all : ∀ part ∈ parts, TakesNumbersFrom part whole) :
    TakesNumbersFrom (join separator parts) whole := by
  intro number stands
  have absent : ∀ c ∈ separator, c ∉ number := by
    intro c member found
    have digit := List.all_eq_true.mp stands.digits c found
    rw [plain c member] at digit
    cases digit
  induction parts with
  | nil => exact absurd (List.eq_nil_of_infix_nil stands.inside) stands.present
  | cons part rest ih =>
    obtain ⟨first, others⟩ := List.forall_mem_cons.mp all
    cases rest with
    | nil =>
      rw [join_singleton] at stands
      exact first number stands
    | cons next rest =>
      rw [join_cons_cons] at stands
      rcases isInfix_append_append nonempty absent stands.inside with here | later
      · exact first number { stands with inside := here }
      · exact ih others { stands with inside := later }

/-- Characters may be exchanged as long as none becomes a digit. -/
theorem standsIn_of_map {f : Char → Char} (keeps : ∀ c, isDecimal (f c) = true → f c = c) {number text : Text}
    (stands : StandsIn number (text.map f)) : StandsIn number text := by
  obtain ⟨before, after, whole⟩ := stands.inside
  obtain ⟨start, rest, rfl, same, _⟩ := List.map_eq_append_iff.mp whole.symm
  obtain ⟨front, middle, rfl, _, found⟩ := List.map_eq_append_iff.mp same
  have unchanged : middle.map f = middle := by
    refine map_eq_self fun c member => keeps c ?_
    exact List.all_eq_true.mp stands.digits (f c) (found ▸ List.mem_map_of_mem member)
  obtain rfl : middle = number := unchanged.symm.trans found
  exact { stands with inside := ⟨front, rest, rfl⟩ }

end Text

namespace Link
open Text Identifier

/-! ### Parts between separators -/

theorem exists_cutUnquoted (separator : Separator) (left : Nat) (dropping : Bool) (text : Text) (mask : List Bool) :
    ∃ first rest, cutUnquoted separator left dropping text mask = first :: rest ∧
      (dropping = false ∨ left = 0 → first <+: text) ∧ ∀ part ∈ first :: rest, part <:+: text := by
  induction text generalizing left dropping mask with
  | nil => exact ⟨[], [], by cases mask <;> rfl, fun _ => List.prefix_rfl, by simp⟩
  | cons c text ih =>
    cases mask with
    | nil => exact ⟨[], [], rfl, fun _ => List.nil_prefix, by simp⟩
    | cons quoted mask =>
      -- What is cut off behind the character, and what becomes of that if the character is kept.
      have keeping (left : Nat) : ∃ first rest, cutUnquoted separator left false text mask = first :: rest ∧
          c :: first <+: c :: text ∧ ∀ part ∈ (c :: first) :: rest, part <:+: c :: text := by
        obtain ⟨first, rest, cut, starts, inside⟩ := ih left false mask
        have start := (List.prefix_cons_inj c).mpr (starts (Or.inl rfl))
        refine ⟨first, rest, cut, start, List.forall_mem_cons.mpr ⟨start.isInfix, fun part member => ?_⟩⟩
        exact List.infix_cons (inside part (List.mem_cons_of_mem first member))
      cases left with
      | succ left =>
        cases dropping with
        | true =>
          obtain ⟨first, rest, cut, _, inside⟩ := ih left true mask
          exact ⟨first, rest, cut, by simp, fun part member => List.infix_cons (inside part member)⟩
        | false =>
          obtain ⟨first, rest, cut, start, inside⟩ := keeping left
          exact ⟨c :: first, rest, by rw [cutUnquoted, cut]; rfl, fun _ => start, inside⟩
      | zero =>
        cases starts : separator (c :: text) with
        | zero =>
          obtain ⟨first, rest, cut, start, inside⟩ := keeping 0
          exact ⟨c :: first, rest, by rw [cutUnquoted, starts]; simp only [cut]; rfl, fun _ => start, inside⟩
        | succ length =>
          cases quoted with
          | true =>
            obtain ⟨first, rest, cut, start, inside⟩ := keeping length
            exact ⟨c :: first, rest, by rw [cutUnquoted, starts]; simp only [cut]; rfl, fun _ => start, inside⟩
          | false =>
            obtain ⟨first, rest, cut, _, inside⟩ := ih length true mask
            refine ⟨[], first :: rest, by rw [cutUnquoted, starts]; simp only [cut]; rfl, fun _ => List.nil_prefix, ?_⟩
            exact List.forall_mem_cons.mpr ⟨List.nil_infix, fun part member => List.infix_cons (inside part member)⟩

theorem isInfix_of_mem_splitUnquoted {separator : Separator} {text part : Text}
    (member : part ∈ splitUnquoted separator text) : part <:+: text := by
  obtain ⟨cut, inside, rfl⟩ := List.mem_map.mp (List.mem_filter.mp member).1
  obtain ⟨first, rest, same, _, all⟩ := exists_cutUnquoted separator 0 false text (quoteMask text)
  rw [same] at inside
  exact (strip_isInfix cut).trans (all cut inside)

/-! ### Titles and sections -/

theorem splitTitle?_pieces {α : Type} {ending : Text → Option α} {text title : Text} {found : α}
    (split : splitTitle? ending text = some (title, found)) :
    title <+: text ∧ ∃ rest, rest <:+ text ∧ ending rest = some found := by
  induction text generalizing title with
  | nil => cases split
  | cons c text ih =>
    rw [splitTitle?] at split
    split at split
    next => cases split
    next =>
      split at split
      next inner same =>
        obtain ⟨rfl, rfl⟩ := Prod.mk.inj (Option.some.inj split)
        rw [Option.ite_none_right_eq_some] at same
        refine ⟨(List.prefix_cons_inj c).mpr List.nil_prefix, stripStart text, ?_, same.2⟩
        exact (List.dropWhile_suffix isBlank).trans (List.suffix_cons c text)
      next =>
        obtain ⟨⟨front, inner⟩, later, same⟩ := Option.map_eq_some_iff.mp split
        obtain ⟨rfl, rfl⟩ := Prod.mk.inj same
        obtain ⟨starts, rest, ends, read⟩ := ih later
        exact ⟨(List.prefix_cons_inj c).mpr starts, rest, ends.trans (List.suffix_cons c text), read⟩

theorem chapterAndSections?_pieces {text chapter : Text} {sections : Option Text}
    (read : chapterAndSections? text = some (chapter, sections)) : ∀ part ∈ sections, part <:+: text := by
  rw [chapterAndSections?, List.span_eq_takeWhile_dropWhile] at read
  split at read
  next word rest same =>
    obtain ⟨rfl, after⟩ := Prod.mk.inj same
    rw [Option.ite_none_left_eq_some] at read
    obtain ⟨rfl, rfl⟩ := Prod.mk.inj (Option.some.inj read.2)
    rintro part ⟨rfl⟩
    have ends : ':' :: rest <:+ text := after ▸ List.dropWhile_suffix isWordChar
    exact ((List.suffix_cons ':' rest).trans ends).isInfix
  next => cases read

theorem chapterAlone?_pieces {text chapter : Text} {sections : Option Text}
    (read : chapterAlone? text = some (chapter, sections)) : sections = none := by
  cases text with
  | nil => cases read
  | cons c rest =>
    rw [chapterAlone?, Option.ite_none_right_eq_some] at read
    exact (Prod.mk.inj (Option.some.inj read.2)).2.symm

theorem splitPlace_pieces (text : Text) :
    (splitPlace text).title <:+: text ∧ ∀ part ∈ (splitPlace text).sections, part <:+: text := by
  rw [splitPlace]
  split
  next title chapter sections found =>
    rcases Option.or_eq_some_iff.mp found with first | ⟨_, second⟩
    · obtain ⟨starts, rest, ends, read⟩ := splitTitle?_pieces first
      refine ⟨(strip_isInfix title).trans starts.isInfix, fun part member => ?_⟩
      exact (chapterAndSections?_pieces read part member).trans ends.isInfix
    · obtain ⟨starts, rest, ends, read⟩ := splitTitle?_pieces second
      refine ⟨(strip_isInfix title).trans starts.isInfix, fun part member => ?_⟩
      rw [chapterAlone?_pieces read] at member
      cases member
  next => exact ⟨List.infix_rfl, fun part member => absurd member (Option.not_mem_none part)⟩

theorem embeddedCollection?_pieces {title collection inner : Text}
    (embedded : embeddedCollection? title = some (collection, inner)) : inner <:+: title := by
  rw [embeddedCollection?, List.span_eq_takeWhile_dropWhile] at embedded
  simp only at embedded
  split at embedded
  next after same =>
    rw [Option.ite_none_left_eq_some] at embedded
    obtain ⟨_, rfl⟩ := Prod.mk.inj (Option.some.inj embedded.2)
    have rest : '|' :: after <:+ title :=
      same ▸ (List.dropWhile_suffix isBlank).trans (List.dropWhile_suffix isWordChar)
    exact ((List.dropWhile_suffix isBlank).trans ((List.suffix_cons '|' after).trans rest)).isInfix
  next => cases embedded

theorem splitCollection_isInfix (known : Option Text) (title : Text) : (splitCollection known title).2 <:+: title := by
  rw [splitCollection]
  split
  next embedded _ => exact embeddedCollection?_pieces embedded
  next => exact List.infix_rfl

/-! ### Segments -/

theorem classifySegments_takesNumbers {segments : List Text} {whole : Text}
    (all : ∀ segment ∈ segments, TakesNumbersFrom segment whole) : TakesNumbersFrom (classifySegments segments).2.main whole := by
  have plain : ∀ c ∈ [' ', '|', ' '], isDecimal c = false :=
    List.forall_mem_cons.mpr ⟨by decide, List.forall_mem_cons.mpr ⟨by decide, List.forall_mem_singleton.mpr (by decide)⟩⟩
  have joined (parts : List Text) (sub : parts ⊆ segments) : TakesNumbersFrom (SegmentRule.joinPipes parts) whole :=
    takesNumbersFrom_join (by decide) plain fun part member => all part (sub member)
  unfold classifySegments
  split
  next => exact takesNumbersFrom_of_isInfix List.nil_infix
  next main => exact all main List.mem_cons_self
  next first second =>
    split
    · exact all first List.mem_cons_self
    split
    · exact all second (List.mem_cons_of_mem first List.mem_cons_self)
    · exact joined _ (List.Subset.refl _)
  next first second third more =>
    have rest : (second :: third :: more).dropLast ⊆ first :: second :: third :: more :=
      List.subset_cons_of_subset first (List.dropLast_subset _)
    split
    · exact joined _ rest
    · exact joined _ (List.cons_subset.mpr ⟨List.mem_cons_self, rest⟩)

theorem separatePipes_takesNumbers (inherited : Option Text) (content : Text) :
    TakesNumbersFrom (separatePipes inherited content).main content := by
  rw [separatePipes]
  split
  next =>
    exact classifySegments_takesNumbers fun segment member =>
      takesNumbersFrom_of_isInfix (isInfix_of_mem_splitUnquoted member)
  next => exact takesNumbersFrom_of_isInfix List.infix_rfl

theorem Draft.of_takesNumbers (inherited : Option Text) (content : Text) :
    TakesNumbersFrom (Draft.of inherited content).title content ∧
      ∀ part ∈ (Draft.of inherited content).place.sections, TakesNumbersFrom part content := by
  have main : TakesNumbersFrom (strip (separatePipes inherited (strip content)).main) content :=
    (takesNumbersFrom_of_isInfix (strip_isInfix _)).trans
      ((separatePipes_takesNumbers inherited _).trans (takesNumbersFrom_of_isInfix (strip_isInfix content)))
  obtain ⟨title, sections⟩ := splitPlace_pieces (strip (separatePipes inherited (strip content)).main)
  refine ⟨TakesNumbersFrom.trans (takesNumbersFrom_of_isInfix ?_) main, fun part member => ?_⟩
  · exact (strip_isInfix _).trans ((splitCollection_isInfix _ _).trans title)
  · exact (takesNumbersFrom_of_isInfix (sections part member)).trans main

/-! ### Numbers that are read -/

theorem standsIn_takeWhile {rest text : Text} (ends : rest <:+: text) (present : rest.takeWhile isDecimal ≠ []) :
    StandsIn (rest.takeWhile isDecimal) text where
  present := present
  digits := List.all_takeWhile
  inside := (List.takeWhile_prefix isDecimal).isInfix.trans ends

theorem standsIn_of_mem_rangeEnds {number text : Text} (member : number ∈ rangeEnds text) : StandsIn number text := by
  unfold rangeEnds splitRange? at member
  have first : stripStart text <:+: text := (List.dropWhile_suffix isBlank).isInfix
  split at member
  next => cases member
  next low high split =>
    simp only at split
    split at split
    next rest same =>
      rw [Option.ite_none_right_eq_some] at split
      obtain ⟨present, same'⟩ := split
      obtain ⟨rfl, rfl⟩ := Prod.mk.inj (Option.some.inj same')
      simp only [Bool.and_eq_true, Bool.not_eq_true', List.isEmpty_eq_false_iff] at present
      have hyphen : '-' :: rest <:+: text :=
        same ▸ (List.dropWhile_suffix isBlank).isInfix.trans ((List.dropWhile_suffix isDecimal).isInfix.trans first)
      have last : stripStart rest <:+: text :=
        (List.dropWhile_suffix isBlank).isInfix.trans ((List.suffix_cons '-' rest).isInfix.trans hyphen)
      rcases List.mem_pair.mp member with rfl | rfl
      · exact standsIn_takeWhile first present.1.1
      · exact standsIn_takeWhile last present.1.2
    next => cases split

theorem standsIn_of_mem_sectionNumbers {number text : Text} (member : number ∈ sectionNumbers text) :
    StandsIn number text := by
  obtain ⟨part, inside, found⟩ := List.mem_flatMap.mp member
  obtain ⟨piece, cut, rfl⟩ := List.mem_map.mp (List.mem_filter.mp inside).1
  have stands := (standsIn_of_mem_rangeEnds found).of_isInfix ((strip_isInfix piece).trans (isInfix_of_mem_splitOn cut))
  refine standsIn_of_map (fun c digit => ?_) stands
  split at digit
  next => exact absurd digit (by decide)
  next other => exact if_neg other

namespace Reader
variable {reader : Reader}

theorem standsIn_of_mem_numbersOf {inherited : Option Text} {content number : Text}
    (member : number ∈ reader.numbersOf inherited content) : StandsIn number content := by
  obtain ⟨title, sections⟩ := Draft.of_takesNumbers inherited content
  unfold numbersOf at member
  split at member
  next => cases member
  next =>
    rcases List.mem_append.mp member with titled | listed
    · unfold titleNumbers at titled
      split at titled
      next numbered =>
        obtain rfl := List.mem_singleton.mp titled
        exact title _ ⟨numbered.2.1, numbered.2.2, List.infix_rfl⟩
      next => cases titled
    · split at listed
      next => cases listed
      next =>
        unfold Draft.sectionNumbers at listed
        cases known : (Draft.of inherited content).place.sections with
        | none =>
          rw [known] at listed
          cases listed
        | some part =>
          rw [known] at listed
          exact sections part known number (standsIn_of_mem_sectionNumbers listed)

theorem standsIn_of_mem_numbersOfAll {inherited : Option Text} {parts : List Text} {number whole : Text}
    (inside : ∀ part ∈ parts, part <:+: whole) (member : number ∈ reader.numbersOfAll inherited parts) :
    StandsIn number whole := by
  induction parts generalizing inherited with
  | nil => cases member
  | cons part parts ih =>
    obtain ⟨first, others⟩ := List.forall_mem_cons.mp inside
    rcases List.mem_append.mp member with here | later
    · exact (standsIn_of_mem_numbersOf here).of_isInfix first
    · exact ih others later

end Reader

/-! ### Numbers of a link -/

theorem dropEnd?_eq_some {ending text rest : Text} (dropped : dropEnd? ending text = some rest) : text = rest ++ ending := by
  obtain ⟨back, found, rfl⟩ := Option.map_eq_some_iff.mp dropped
  have whole := congrArg List.reverse (dropStart?_eq_some.mp found)
  rwa [List.reverse_reverse, List.reverse_append, List.reverse_reverse] at whole

theorem stripDelimiters_isInfix (text : Text) : stripDelimiters text <:+: text := by
  have start : (dropStart? opening (strip text)).getD (strip text) <:+: text := by
    refine List.IsInfix.trans ?_ (strip_isInfix text)
    cases dropped : dropStart? opening (strip text) with
    | none => exact List.infix_rfl
    | some rest =>
      rw [dropStart?_eq_some.mp dropped]
      exact (List.suffix_append opening rest).isInfix
  refine (strip_isInfix _).trans (List.IsInfix.trans ?_ start)
  cases dropped : dropEnd? closing ((dropStart? opening (strip text)).getD (strip text)) with
  | none => exact List.infix_rfl
  | some rest =>
    rw [dropEnd?_eq_some dropped]
    exact (List.prefix_append rest closing).isInfix

theorem before_of_cutLastPipe {text before after : Text} {mask : List Bool}
    (cut : cutLastPipe text mask = some (before, after)) : before <+: text := by
  induction text generalizing mask before with
  | nil => cases cut
  | cons c text ih =>
    cases mask with
    | nil => cases cut
    | cons quoted mask =>
      rw [cutLastPipe] at cut
      split at cut
      next front rest later =>
        obtain ⟨rfl, rfl⟩ := Prod.mk.inj (Option.some.inj cut)
        exact (List.prefix_cons_inj c).mpr (ih later)
      next =>
        rw [Option.ite_none_right_eq_some] at cut
        obtain ⟨rfl, rfl⟩ := Prod.mk.inj (Option.some.inj cut.2)
        exact List.nil_prefix

theorem splitSharedVersions_isInfix (content : Text) : (splitSharedVersions content).1 <:+: content := by
  rw [splitSharedVersions]
  split
  next => exact List.infix_rfl
  next before after cut =>
    split
    · exact (strip_isInfix before).trans (before_of_cutLastPipe cut).isInfix
    · exact List.infix_rfl

theorem isInfix_of_mem_findLinksFrom {left : Nat} {text link : Text} (member : link ∈ findLinksFrom left text) :
    link <:+: text := by
  induction text generalizing left with
  | nil => cases member
  | cons c text ih =>
    cases left with
    | succ left => exact List.infix_cons (ih member)
    | zero =>
      rw [findLinksFrom] at member
      split at member
      next body found =>
        rcases List.mem_cons.mp member with rfl | later
        · obtain ⟨inner, start, within⟩ := Option.bind_eq_some_iff.mp found
          rw [dropStart?_eq_some.mp start, List.append_assoc]
          exact ((List.prefix_append_right_inj opening).mpr (closed_of_linkBody? within)).isInfix
        · exact List.infix_cons (ih later)
      next => exact List.infix_cons (ih member)

namespace Reader

theorem standsIn_of_mem_numbersIn {reader : Reader} {link number : Text} (member : number ∈ reader.numbersIn link) :
    StandsIn number link := by
  refine standsIn_of_mem_numbersOfAll (fun part inside => ?_) member
  exact (isInfix_of_mem_splitUnquoted inside).trans
    ((splitSharedVersions_isInfix _).trans (stripDelimiters_isInfix link))

/-- A link is read just where all its numbers are short enough, and a text where this holds of all its links. These
numbers all stand in the text, so a text without overlong numbers is always read. -/
theorem reads_iff_numbers_short (reader : Reader) (text : Text) :
    ((∃ references, reader.readLink text = .ok references) ↔ ∀ number ∈ reader.numbersIn text, IsShort number) ∧
      ((∃ references, reader.readText text = .ok references) ↔
        ∀ link ∈ findLinks text, ∀ number ∈ reader.numbersIn link, IsShort number) ∧
      ((∀ number, StandsIn number text → IsShort number) →
        (∃ references, reader.readLink text = .ok references) ∧ ∃ references, reader.readText text = .ok references) := by
  refine ⟨exists_readLink_iff, exists_readText_iff, fun short => ⟨?_, ?_⟩⟩
  · exact exists_readLink_iff.mpr fun number member => short number (standsIn_of_mem_numbersIn member)
  · refine exists_readText_iff.mpr fun link found number member => short number ?_
    exact (standsIn_of_mem_numbersIn member).of_isInfix (isInfix_of_mem_findLinksFrom found)

end Reader

/-! ### A range of two numbers of any length -/

section
variable (title : WrittenTitle) (chapter low high : Numeral)

def rangeText : Text :=
  low.digits ++ '-' :: high.digits

def rangeBody : Text :=
  title.text ++ ' ' :: (chapter.digits ++ ':' :: rangeText low high)

theorem isTight_rangeText : IsTight (rangeText low high) := by
  have tight := low.word.isToken.isTight.append ['-'] high.word.isToken.isTight
  rwa [List.append_assoc] at tight

theorem isTight_rangeBody : IsTight (rangeBody title chapter low high) := by
  have place := chapter.word.isToken.isTight.append [':'] (isTight_rangeText low high)
  have tight := title.isTight.append [' '] place
  rwa [List.append_assoc, List.append_assoc] at tight

theorem isPlain_rangeText : IsPlain (rangeText low high) :=
  low.word.isPlain.append (List.forall_mem_cons.mpr ⟨Or.inl (by decide), high.word.isPlain⟩)

theorem isPlain_rangeBody : IsPlain (rangeBody title chapter low high) := by
  have place : IsPlain (chapter.digits ++ ':' :: rangeText low high) :=
    chapter.word.isPlain.append (List.forall_mem_cons.mpr ⟨Or.inr (by decide), isPlain_rangeText low high⟩)
  exact title.isPlain.append (List.forall_mem_cons.mpr ⟨Or.inr (by decide), place⟩)

theorem comma_not_mem_rangeBody : ',' ∉ rangeBody title chapter low high := by
  have titled : ',' ∉ title.text := title.not_mem (by decide)
  have numbered (number : Numeral) : ',' ∉ number.digits := number.word.not_mem (by decide)
  simp [rangeBody, rangeText, titled, numbered]

theorem splitUnquoted_rangeBody : splitUnquoted commaSeparator (rangeBody title chapter low high) =
    [rangeBody title chapter low high] := by
  have alone := splitUnquoted_commas (List.cons_ne_nil (rangeBody title chapter low high) [])
    (by simpa using (isPlain_rangeBody title chapter low high).unquoted)
    (by simpa using isTight_rangeBody title chapter low high)
    (by simpa using passes_comma (comma_not_mem_rangeBody title chapter low high))
  rwa [join_singleton] at alone

theorem sectionNumbers_rangeText : sectionNumbers (rangeText low high) = [low.digits, high.digits] := by
  have colonless : ':' ∉ rangeText low high := by
    have numbered (number : Numeral) : ':' ∉ number.digits := number.word.not_mem (by decide)
    simp [rangeText, numbered]
  have single : (rangeText low high).splitOn ',' = [rangeText low high] := by
    have numbered (number : Numeral) : ',' ∉ number.digits := number.word.not_mem (by decide)
    exact List.splitOn_eq_singleton (by simp [rangeText, numbered])
  have tight := isTight_rangeText low high
  have ends : rangeEnds (rangeText low high) = [low.digits, high.digits] := by
    rw [rangeEnds, rangeText, splitRange?_hyphen]
  have present : (rangeText low high).isEmpty = false := by simpa using tight.ne_nil
  rw [sectionNumbers, sectionParts, map_colon colonless, single]
  simp [tight.strip_eq, present, ends]

theorem draft_rangeBody : Draft.of none (rangeBody title chapter low high) =
    ⟨none, title.text, title.text, some chapter.digits, some (rangeText low high)⟩ := by
  have tight := isTight_rangeBody title chapter low high
  have separated := separatePipes_plain none tight (isPlain_rangeBody title chapter low high)
  have split := splitPlace_sections (fun part member => title.isToken_of_mem member)
    (fun part member => title.not_mem_of_mem (by decide) (List.mem_cons_of_mem _ member)) chapter.word
    (isTight_rangeText low high) ((isPlain_rangeText low high).not_mem (by decide))
  have place : splitPlace (rangeBody title chapter low high) = ⟨title.text, some chapter.digits, some (rangeText low high)⟩ :=
    split
  have known := splitCollection_of_absent none (title.not_mem (c := '|') (by decide))
  rw [Draft.of, tight.strip_eq, separated]
  simp only [tight.strip_eq, place]
  change (⟨(splitCollection none title.text).1, strip (splitCollection none title.text).2, _⟩ : Draft) = _
  rw [known, title.isTight.strip_eq]

variable {title} in
theorem numbersIn_range (reader : Reader) (named : reader.titles.resolve title.text ≠ []) :
    reader.numbersIn (opening ++ rangeBody title chapter low high ++ closing) = [low.digits, high.digits] := by
  have tight := isTight_rangeBody title chapter low high
  have drafted := draft_rangeBody title chapter low high
  have unnumbered : ¬ reader.ReadsAsNumber (.of none (rangeBody title chapter low high)) := by
    rw [drafted]
    exact fun numbered => nomatch numbered.1
  have name : reader.nameOf (.of none (rangeBody title chapter low high)) = reader.titles.resolve title.text := by
    rw [drafted, Reader.nameOf, Reader.titleOf]
    exact if_neg fun keeps => nomatch keeps.1
  have reads : ¬ reader.Skips none (rangeBody title chapter low high) := by
    rintro (empty | nothing)
    · rw [tight.strip_eq] at empty
      exact tight.ne_nil empty
    · exact named (name.symm.trans nothing)
  have listed : (Draft.of none (rangeBody title chapter low high)).sectionNumbers = [low.digits, high.digits] := by
    rw [drafted]
    exact sectionNumbers_rangeText low high
  rw [Reader.numbersIn, stripDelimiters_append tight, splitSharedVersions_plain (isPlain_rangeBody title chapter low high),
    splitUnquoted_rangeBody, Reader.numbersOfAll, Reader.numbersOfAll, Reader.numbersOf, Reader.titleNumbers, tight.strip_eq,
    if_neg tight.ne_nil, if_neg unnumbered, if_neg reads, listed]
  rfl

end

def ruth : WrittenTitle :=
  ⟨⟨"Ruth", by decide, by decide⟩, []⟩

theorem resolve_ruth : Reader.bibleReader.titles.resolve ruth.text ≠ [] := by
  decide

def one : Numeral :=
  ⟨"1", List.cons_ne_nil _ _, by decide⟩

/-- Ones, one more than may be read. -/
def overlong : Numeral where
  digits := List.replicate (digitLimit + 1) '1'
  present := List.cons_ne_nil _ _
  spelled := List.all_eq_true.mpr fun _ member => by rw [List.eq_of_mem_replicate member]; decide

theorem not_isShort_overlong : ¬ IsShort overlong.digits := by
  have length : overlong.digits.length = digitLimit + 1 := List.length_replicate
  rw [IsShort, length]
  exact Nat.not_succ_le_self digitLimit

theorem overlong_range_not_read :
    (∃ references, Reader.bibleReader.readText "See [[book::Ruth 1:16-17]] and [[book::quran | 114 1:6-1]]." = .ok references) ∧
      ¬ ∃ references, Reader.bibleReader.readLink (opening ++ rangeBody ruth one overlong one ++ closing) = .ok references := by
  constructor
  · refine ((Reader.reads_iff_numbers_short Reader.bibleReader _).2.2 fun number stands => ?_).2
    exact stands.inside.length_le.trans (by decide)
  · intro read
    have short := (Reader.reads_iff_numbers_short Reader.bibleReader _).1.mp read
    rw [numbersIn_range one overlong one Reader.bibleReader resolve_ruth] at short
    exact not_isShort_overlong (short overlong.digits List.mem_cons_self)

end Link
end Bindery
