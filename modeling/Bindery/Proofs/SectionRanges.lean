import Bindery.Proofs.CoordinateTexts
import Bindery.Proofs.NumbersRead
import Mathlib.Data.List.Intervals
import Mathlib.Data.List.Nodup
import Mathlib.Data.Nat.Digits.Defs

/-! Lists of sections. A range stands for every number from its first to its last, whatever digits the two are written
in, and a part that is no range stands for itself. -/

namespace Bindery

namespace Text

/-! ### Digits and blanks -/

theorem isDecimal_of_isBlank {c : Char} (blank : isBlank c = true) : isDecimal c = false := by
  have beside : inRanges besideDigits c = true := by
    rw [inRanges, besideDigits, List.any_append, Bool.or_eq_true]
    exact Or.inr blank
  exact (Bool.or_eq_false_iff.mp (isDigitSign_eq_false beside)).1

/-- Digits and nothing else. -/
structure IsNumeral (digits : Text) : Prop where
  present : digits ≠ []
  whole : ∀ c ∈ digits, isDecimal c = true

theorem IsNumeral.solid {digits : Text} (numeral : IsNumeral digits) : ∀ c ∈ digits, isBlank c = false := by
  intro c member
  by_contra blank
  have digit := numeral.whole c member
  rw [isDecimal_of_isBlank (eq_true_of_ne_false blank)] at digit
  cases digit

theorem IsNumeral.isTight {digits : Text} (numeral : IsNumeral digits) : IsTight digits :=
  IsToken.isTight ⟨numeral.present, numeral.solid⟩

theorem IsNumeral.starts {digits : Text} (numeral : IsNumeral digits) (rest : Text) :
    ∀ c ∈ (digits ++ rest).head?, isBlank c = false := by
  rw [List.head?_append_of_ne_nil _ numeral.present]
  intro c first
  exact numeral.solid c (List.mem_of_head? first)

theorem head?_of_blanks {blanks rest : Text} (blank : blanks.all isBlank = true)
    (stops : ∀ c ∈ rest.head?, isDecimal c = false) : ∀ c ∈ (blanks ++ rest).head?, isDecimal c = false := by
  cases blanks with
  | nil => exact stops
  | cons c more =>
    intro d first
    obtain rfl := Option.some.inj first
    exact isDecimal_of_isBlank (List.all_eq_true.mp blank c List.mem_cons_self)

/-- A number in decimal digits of any scripts, few enough to be read. There may be zeros in front. -/
structure Writes (digits : Text) (n : Nat) : Prop where
  present : digits ≠ []
  short : IsShort digits
  value : ∃ values : List Nat, digits.map digitValue? = values.map some ∧ Nat.ofDigits 10 values.reverse = n

theorem valueOfDigits_eq_ofDigits {digits : Text} {values : List Nat} (read : digits.map digitValue? = values.map some) :
    valueOfDigits digits = Nat.ofDigits 10 values.reverse := by
  induction digits using List.reverseRecOn generalizing values with
  | nil =>
    obtain rfl := List.map_eq_nil_iff.mp read.symm
    rfl
  | append_singleton digits c ih =>
    rw [List.map_append] at read
    obtain ⟨front, last, rfl, before, here⟩ := List.map_eq_append_iff.mp read.symm
    obtain ⟨value, rfl, same⟩ := List.map_eq_singleton_iff.mp here
    rw [valueOfDigits_concat, ih before.symm, List.reverse_append, ← same]
    simp [Nat.ofDigits_cons, Nat.add_comm]

namespace Writes
variable {digits : Text} {n : Nat} (writes : Writes digits n)
include writes

theorem isNumeral : IsNumeral digits := by
  obtain ⟨values, read, _⟩ := writes.value
  refine ⟨writes.present, fun c member => ?_⟩
  have found : digitValue? c ∈ values.map some := read ▸ List.mem_map_of_mem member
  obtain ⟨value, _, same⟩ := List.mem_map.mp found
  exact Option.isSome_of_eq_some same.symm

theorem readDigits_eq : readDigits digits = .ok n := by
  obtain ⟨values, read, rfl⟩ := writes.value
  rw [readDigits_of_isShort writes.short, valueOfDigits_eq_ofDigits read]

end Writes
end Text

namespace Identifier
open Text Link

/-! ### Ranges -/

/-- Two numbers with a hyphen between them, and blanks around them. -/
structure IsRange (low high part : Text) : Prop where
  first : IsNumeral low
  last : IsNumeral high
  spelled : ∃ before left right after : Text, before.all isBlank = true ∧ left.all isBlank = true ∧
    right.all isBlank = true ∧ after.all isBlank = true ∧
    part = before ++ (low ++ (left ++ '-' :: (right ++ (high ++ after))))

theorem IsRange.splitRange?_eq {low high part : Text} (range : IsRange low high part) :
    splitRange? part = some (low, high) := by
  obtain ⟨before, left, right, after, beforeBlank, leftBlank, rightBlank, afterBlank, rfl⟩ := range.spelled
  -- Digits and blanks exclude each other, so each span ends just where the next one is written.
  have afterLow : ∀ c ∈ (left ++ '-' :: (right ++ (high ++ after))).head?, isDecimal c = false :=
    head?_of_blanks leftBlank fun c hyphen => Option.some.inj hyphen ▸ (by decide)
  have afterHigh : ∀ c ∈ after.head?, isDecimal c = false := fun c first =>
    isDecimal_of_isBlank (List.all_eq_true.mp afterBlank c (List.mem_of_head? first))
  have start : stripStart (before ++ (low ++ (left ++ '-' :: (right ++ (high ++ after))))) =
      low ++ (left ++ '-' :: (right ++ (high ++ after))) :=
    dropWhile_append_of_head? (List.all_eq_true.mp beforeBlank) (range.first.starts _)
  have lowRead := takeWhile_append_of_head? range.first.whole afterLow
  have lowLeft := dropWhile_append_of_head? range.first.whole afterLow
  have hyphen : stripStart (left ++ '-' :: (right ++ (high ++ after))) = '-' :: (right ++ (high ++ after)) :=
    dropWhile_append_of_head? (List.all_eq_true.mp leftBlank) fun c hyphen => Option.some.inj hyphen ▸ (by decide)
  have last : stripStart (right ++ (high ++ after)) = high ++ after :=
    dropWhile_append_of_head? (List.all_eq_true.mp rightBlank) (range.last.starts after)
  have highRead := takeWhile_append_of_head? range.last.whole afterHigh
  have highLeft := dropWhile_append_of_head? range.last.whole afterHigh
  rw [splitRange?]
  simp only [start, lowRead, lowLeft, hyphen, last, highRead, highLeft]
  simp [range.first.present, range.last.present, afterBlank]

theorem isNumeral_takeWhile {text : Text} (present : text.takeWhile isDecimal ≠ []) : IsNumeral (text.takeWhile isDecimal) :=
  ⟨present, List.all_eq_true.mp List.all_takeWhile⟩

theorem isRange_of_splitRange? {low high part : Text} (split : splitRange? part = some (low, high)) :
    IsRange low high part := by
  simp only [splitRange?] at split
  split at split
  next rest hyphen =>
    obtain ⟨shaped, same⟩ := Option.ite_none_right_eq_some.mp split
    obtain ⟨rfl, rfl⟩ := Prod.mk.inj (Option.some.inj same)
    simp only [Bool.and_eq_true, Bool.not_eq_true', List.isEmpty_eq_false_iff] at shaped
    obtain ⟨⟨low, high⟩, after⟩ := shaped
    have split (text : Text) : text.takeWhile isBlank ++ stripStart text = text := List.takeWhile_append_dropWhile
    refine ⟨isNumeral_takeWhile low, isNumeral_takeWhile high, part.takeWhile isBlank,
      ((stripStart part).dropWhile isDecimal).takeWhile isBlank, rest.takeWhile isBlank, (stripStart rest).dropWhile isDecimal,
      List.all_takeWhile, List.all_takeWhile, List.all_takeWhile, after, ?_⟩
    rw [List.takeWhile_append_dropWhile, split, ← hyphen, split, List.takeWhile_append_dropWhile, split]
  next => cases split

section
variable {low high part : Text}

/-- A range without the blanks in front of it and behind it. -/
theorem IsRange.exists_strip (range : IsRange low high part) : ∃ left right : Text, left.all isBlank = true ∧
    right.all isBlank = true ∧ strip part = low ++ (left ++ '-' :: (right ++ high)) := by
  obtain ⟨before, left, right, after, beforeBlank, leftBlank, rightBlank, afterBlank, rfl⟩ := range.spelled
  have tight : IsTight (low ++ (left ++ '-' :: right) ++ high) := range.first.isTight.append _ range.last.isTight
  have core : low ++ (left ++ '-' :: (right ++ (high ++ after))) = low ++ (left ++ '-' :: right) ++ high ++ after := by simp
  have ended : strip (low ++ (left ++ '-' :: right) ++ high ++ after) = low ++ (left ++ '-' :: right) ++ high :=
    (strip_append_of_blank afterBlank _).trans tight.strip_eq
  refine ⟨left, right, leftBlank, rightBlank, ?_⟩
  rw [core, strip, stripStart_append_of_blank beforeBlank]
  exact ended.trans (by simp)

theorem isRange_strip_iff : IsRange low high (strip part) ↔ IsRange low high part := by
  constructor
  · intro range
    obtain ⟨before, left, right, after, beforeBlank, leftBlank, rightBlank, afterBlank, same⟩ := range.spelled
    obtain ⟨front, back, frontBlank, backBlank, whole⟩ := exists_strip_append part
    refine ⟨range.first, range.last, front ++ before, left, right, after ++ back, ?_, leftBlank, rightBlank, ?_, ?_⟩
    · rw [List.all_append, frontBlank, beforeBlank, Bool.and_self]
    · rw [List.all_append, afterBlank, backBlank, Bool.and_self]
    · rw [same] at whole
      rw [whole]
      simp
  · intro range
    obtain ⟨left, right, leftBlank, rightBlank, same⟩ := range.exists_strip
    refine ⟨range.first, range.last, [], left, right, [], rfl, leftBlank, rightBlank, rfl, ?_⟩
    rw [same]
    simp

theorem splitRange?_strip_eq_some_iff : splitRange? (strip part) = some (low, high) ↔ IsRange low high part := by
  rw [← isRange_strip_iff]
  exact ⟨isRange_of_splitRange?, IsRange.splitRange?_eq⟩

theorem IsRange.present (range : IsRange low high part) : strip part ≠ [] := by
  obtain ⟨left, right, _, _, same⟩ := range.exists_strip
  rw [same]
  exact List.append_ne_nil_of_left_ne_nil range.first.present _

theorem IsRange.commaless (range : IsRange low high part) : ',' ∉ part := by
  have digits {number : Text} (numeral : IsNumeral number) : ',' ∉ number := fun comma =>
    absurd (numeral.whole ',' comma) (by decide)
  have blanks {gap : Text} (blank : gap.all isBlank = true) : ',' ∉ gap := fun comma =>
    absurd (List.all_eq_true.mp blank ',' comma) (by decide)
  obtain ⟨before, left, right, after, beforeBlank, leftBlank, rightBlank, afterBlank, rfl⟩ := range.spelled
  simp [blanks beforeBlank, blanks leftBlank, blanks rightBlank, blanks afterBlank, digits range.first, digits range.last]

end

/-! ### Parts of a list -/

theorem listed_append (text other : Text) : listed (text ++ ',' :: other) = listed text ++ listed other := by
  rw [listed, List.splitOn_append_cons_self, List.map_append, List.filter_append]
  rfl

theorem listed_of_commaless {part : Text} (alone : ',' ∉ part) : listed part = if strip part = [] then [] else [strip part] := by
  rw [listed, List.splitOn_eq_singleton alone]
  by_cases nothing : strip part = [] <;> simp [nothing]

theorem expandRanges_append {text other : Text} {first second : List Text} (front : expandRanges text = .ok first)
    (back : expandRanges other = .ok second) : expandRanges (text ++ ',' :: other) = .ok (first ++ second) := by
  rw [expandRanges_eq] at front back ⊢
  obtain ⟨before, read, kept⟩ := bind_eq_ok.mp front
  obtain ⟨after, more, also⟩ := bind_eq_ok.mp back
  obtain rfl := Except.ok.inj kept
  obtain rfl := Except.ok.inj also
  rw [listed_append, List.mapM_append, read, more]
  exact congrArg Except.ok List.flatten_append

theorem expandRanges_of_commaless {part : Text} (alone : ',' ∉ part) :
    expandRanges part = if strip part = [] then .ok [] else expandRange (strip part) := by
  rw [expandRanges_eq, listed_of_commaless alone]
  split
  next => rfl
  next =>
    rw [List.mapM_cons]
    cases expandRange (strip part) with
    | error error => rfl
    | ok sections => exact congrArg Except.ok (List.append_nil sections)

theorem mem_listed {text part : Text} : part ∈ listed text ↔ part ≠ [] ∧ ∃ written ∈ text.splitOn ',', strip written = part := by
  rw [listed, List.mem_filter, List.mem_map, and_comm]
  simp

theorem exists_expandRanges_iff_isShort {text : Text} : (∃ sections, expandRanges text = .ok sections) ↔
    ∀ part ∈ text.splitOn ',', ∀ low high, IsRange low high part → IsShort low ∧ IsShort high := by
  rw [exists_expandRanges_iff]
  -- Parts are read after they are stripped, which makes no range and takes none away.
  constructor
  · intro short part member low high range
    have ends : rangeEnds (strip part) = [low, high] := by
      rw [rangeEnds, splitRange?_strip_eq_some_iff.mpr range]
    have all := short (strip part) (mem_listed.mpr ⟨range.present, part, member, rfl⟩)
    rw [ends] at all
    simpa using all
  · intro short part member number ending
    obtain ⟨_, written, here, rfl⟩ := mem_listed.mp member
    unfold rangeEnds at ending
    split at ending
    next => cases ending
    next low high found =>
      obtain ⟨first, last⟩ := short written here low high (splitRange?_strip_eq_some_iff.mp found)
      rcases List.mem_pair.mp ending with rfl | rfl
      · exact first
      · exact last

theorem expandRanges_of_isRange {low high part : Text} (range : IsRange low high part) {m n : Nat} (first : Writes low m)
    (last : Writes high n) : expandRanges part = .ok (if m ≤ n then (List.Ico m (n + 1)).map ofNat else [strip part]) := by
  rw [expandRanges_of_commaless range.commaless, if_neg range.present, expandRange, splitRange?_strip_eq_some_iff.mpr range]
  simp only [first.readDigits_eq, last.readDigits_eq]
  by_cases rising : m ≤ n
  · have falls : ¬ m > n := Nat.not_lt.mpr rising
    rw [if_pos rising]
    simp [bind, Except.bind, pure, Except.pure, falls, List.Ico]
  · have falls : m > n := Nat.lt_of_not_le rising
    rw [if_neg rising]
    simp [bind, Except.bind, pure, Except.pure, falls]

theorem expandRanges_of_not_isRange {part : Text} (alone : ',' ∉ part) (other : ∀ low high, ¬ IsRange low high part) :
    expandRanges part = .ok (if strip part = [] then [] else [strip part]) := by
  have unsplit : splitRange? (strip part) = none := by
    cases found : splitRange? (strip part) with
    | none => rfl
    | some ends => exact absurd (splitRange?_strip_eq_some_iff.mp found) (other ends.1 ends.2)
  rw [expandRanges_of_commaless alone, expandRange, unsplit]
  split <;> rfl

theorem ofNat_injective : Function.Injective ofNat := by
  intro m n same
  rw [← valueOfDigits_ofNat m, same, valueOfDigits_ofNat]

/-- The parts of a list stand for their sections in order, each by itself. A range stands for the numbers from its first to
its last, unless it falls; what is no range stands for itself. Only ranges whose numbers are too long are not read. -/
theorem lists_stand_for_their_sections :
    (∀ (text other : Text) (first second : List Text), expandRanges text = .ok first → expandRanges other = .ok second →
      expandRanges (text ++ ',' :: other) = .ok (first ++ second)) ∧
    (∀ (low high part : Text) (m n : Nat), IsRange low high part → Writes low m → Writes high n →
      expandRanges part = .ok (if m ≤ n then (List.Ico m (n + 1)).map ofNat else [strip part]) ∧
        ((List.Ico m (n + 1)).map ofNat).Nodup) ∧
    (∀ part : Text, ',' ∉ part → (∀ low high, ¬ IsRange low high part) →
      expandRanges part = .ok (if strip part = [] then [] else [strip part])) ∧
    ∀ text : Text, (∃ sections, expandRanges text = .ok sections) ↔
      ∀ part ∈ text.splitOn ',', ∀ low high, IsRange low high part → IsShort low ∧ IsShort high := by
  refine ⟨fun text other first second => expandRanges_append, ?_, fun part => expandRanges_of_not_isRange, ?_⟩
  · intro low high part m n range first last
    exact ⟨expandRanges_of_isRange range first last, List.Nodup.map ofNat_injective (List.Ico.nodup m (n + 1))⟩
  · intro text
    exact exists_expandRanges_iff_isShort

/-- Three in Arabic digits. -/
def arabicThree : Text :=
  [Char.ofNat 0x663]

theorem verses_from_arabic_three_expanded :
    expandRanges ("prologue".toList ++ ',' :: (arabicThree ++ " - 05".toList)) = .ok ["prologue", "3", "4", "5"] := by
  obtain ⟨joined, ranges, others, _⟩ := lists_stand_for_their_sections
  have three : Writes arabicThree 3 := ⟨by decide, by decide, [3], by decide, by decide⟩
  have five : Writes "05" 5 := ⟨by decide, by decide, [0, 5], by decide, by decide⟩
  have range : IsRange arabicThree "05" (arabicThree ++ " - 05".toList) :=
    ⟨three.isNumeral, five.isNumeral, [], " ", " ", [], rfl, by decide, by decide, rfl, rfl⟩
  have alone : ∀ low high, ¬ IsRange low high "prologue" := by
    intro low high other
    have found := other.splitRange?_eq
    rw [show splitRange? "prologue" = none by decide] at found
    cases found
  have word := others "prologue" (by decide) alone
  have numbers := (ranges arabicThree "05" _ 3 5 range three five).1
  exact joined _ _ _ _ word numbers

end Identifier
end Bindery
