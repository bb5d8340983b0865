import Bindery.Node.Coordinate
import Mathlib.Data.List.TakeWhile
import Mathlib.Tactic.ByContra

/-! Coordinates whose number cannot be read. A coordinate counts as numbered when its kind is made of digit
signs. Not all of these are decimal digits, and no number may have too many, so reading such a coordinate can
fail where any other malformed text is passed over. -/

namespace Bindery

namespace Text

/-! ### Digit signs -/

/-- No character is in the first ranges and in the second. -/
def apart (ranges others : List (Nat × Nat)) : Bool :=
  ranges.all fun range => others.all fun other => range.2 < other.1 || other.2 < range.1

theorem inRanges_eq_true {ranges : List (Nat × Nat)} {c : Char} :
    inRanges ranges c = true ↔ ∃ range ∈ ranges, range.1 ≤ c.toNat ∧ c.toNat ≤ range.2 := by
  simp [inRanges]

theorem inRanges_eq_false_of_apart {ranges others : List (Nat × Nat)} (disjoint : apart ranges others = true) {c : Char}
    (inside : inRanges ranges c = true) : inRanges others c = false := by
  by_contra within
  obtain ⟨range, member, low, high⟩ := inRanges_eq_true.mp inside
  obtain ⟨other, also, otherLow, otherHigh⟩ := inRanges_eq_true.mp (eq_true_of_ne_false within)
  have separate := List.all_eq_true.mp (List.all_eq_true.mp disjoint range member) other also
  simp only [Bool.or_eq_true, decide_eq_true_eq] at separate
  omega

/-- Where decimal digits stand. -/
def decimalRanges : List (Nat × Nat) :=
  (48, 57) :: zeroDigits.map fun first => (first, first + 9)

theorem inRanges_decimalRanges {c : Char} (decimal : isDecimal c = true) : inRanges decimalRanges c = true := by
  apply inRanges_eq_true.mpr
  unfold isDecimal digitValue? at decimal
  split at decimal
  next ascii =>
    have digit : '0' ≤ c ∧ c ≤ '9' := by
      by_contra other
      simp [other] at decimal
    exact ⟨(48, 57), List.mem_cons_self, digit⟩
  next =>
    rw [Option.isSome_map] at decimal
    obtain ⟨first, found⟩ := Option.isSome_iff_exists.mp decimal
    have bounds := List.find?_some found
    simp only [Bool.and_eq_true, decide_eq_true_eq] at bounds
    refine ⟨(first, first + 9), List.mem_cons_of_mem _ (List.mem_map_of_mem (List.mem_of_find?_eq_some found)), ?_⟩
    exact ⟨bounds.1, by omega⟩

def digitRanges : List (Nat × Nat) :=
  decimalRanges ++ digitSignRanges

theorem inRanges_digitRanges {c : Char} (digit : isDigitSign c = true) : inRanges digitRanges c = true := by
  rw [inRanges, digitRanges, List.any_append, Bool.or_eq_true]
  rw [isDigitSign, Bool.or_eq_true] at digit
  exact digit.imp inRanges_decimalRanges id

/-- Blanks of numbers, signs, and the underscore. -/
def besideDigits : List (Nat × Nat) :=
  [(43, 43), (45, 45), (95, 95)] ++ blankRanges

theorem isDigitSign_eq_false {c : Char} (beside : inRanges besideDigits c = true) : isDigitSign c = false := by
  by_contra digit
  have inside := inRanges_digitRanges (eq_true_of_ne_false digit)
  have outside : inRanges digitRanges c = false := inRanges_eq_false_of_apart (by decide) beside
  rw [inside] at outside
  cases outside

theorem ne_of_isDigitSign {c sign : Char} (digit : isDigitSign c = true)
    (beside : inRanges besideDigits sign = true) : c ≠ sign := by
  rintro rfl
  rw [isDigitSign_eq_false beside] at digit
  cases digit

theorem inRanges_besideDigits {c : Char} (blank : isNumberBlank c = true) : inRanges besideDigits c = true := by
  simp only [isNumberBlank, Bool.or_eq_true, Bool.and_eq_true, decide_eq_true_eq] at blank
  rcases blank with (rfl | lineEnd) | ⟨_, blank⟩
  · decide
  · exact inRanges_eq_true.mpr ⟨(9, 13), by decide, lineEnd⟩
  · rw [inRanges, besideDigits, List.any_append, Bool.or_eq_true]
    exact Or.inr blank

/-! ### Numbers of digit signs -/

theorem splitSign_of_isDigitSign {c : Char} (digit : isDigitSign c = true) (rest : Text) :
    splitSign (c :: rest) = (false, c :: rest) := by
  unfold splitSign
  split
  next same => exact absurd (List.cons.inj same).1 (ne_of_isDigitSign digit (by decide))
  next same => exact absurd (List.cons.inj same).1 (ne_of_isDigitSign digit (by decide))
  next => rfl

/-- Digits are read up to the first sign that is none. -/
theorem digitGroups_of_digitSigns {signs : Text} (digits : signs.all isDigitSign = true) :
    digitGroups signs = some (signs.takeWhile isDecimal, signs.dropWhile isDecimal) := by
  induction signs with
  | nil => rfl
  | cons c rest ih =>
    obtain ⟨digit, others⟩ : isDigitSign c = true ∧ rest.all isDigitSign = true := by simpa using digits
    unfold digitGroups
    by_cases decimal : isDecimal c = true
    · simp [decimal, ih others]
    · have other : c ≠ '_' := ne_of_isDigitSign digit (by decide)
      simp [decimal, other]

theorem isNumberBlank_eq_false {c : Char} (digit : isDigitSign c = true) : isNumberBlank c = false := by
  by_contra blank
  rw [isDigitSign_eq_false (inRanges_besideDigits (eq_true_of_ne_false blank))] at digit
  cases digit

theorem all_isNumberBlank_dropWhile {signs : Text} (digits : signs.all isDigitSign = true) :
    (signs.dropWhile isDecimal).all isNumberBlank = true ↔ signs.all isDecimal = true := by
  rw [List.all_eq_true (p := isDecimal), ← List.dropWhile_eq_nil_iff]
  cases left : signs.dropWhile isDecimal with
  | nil => simp
  | cons c rest =>
    have member : c ∈ signs := (List.dropWhile_sublist isDecimal).subset (left ▸ List.mem_cons_self)
    simp [isNumberBlank_eq_false (List.all_eq_true.mp digits c member)]

/-- A number of digit signs is read where all of them are decimal digits and there are few enough. -/
theorem readInt_eq_ok_iff {signs : Text} (digits : signs.all isDigitSign = true) (present : signs ≠ []) {number : Int} :
    readInt signs = .ok number ↔
      (signs.all isDecimal = true ∧ signs.length ≤ digitLimit) ∧ number = valueOfDigits signs := by
  obtain ⟨c, rest, rfl⟩ := List.exists_cons_of_ne_nil present
  have digit : isDigitSign c = true := List.all_eq_true.mp digits c List.mem_cons_self
  have start : (c :: rest).dropWhile isNumberBlank = c :: rest :=
    List.dropWhile_cons_of_neg (by simp [isNumberBlank_eq_false digit])
  simp only [readInt, start, splitSign_of_isDigitSign digit, digitGroups_of_digitSigns digits, List.head?_cons]
  by_cases first : isDecimal c = true
  · have blank := all_isNumberBlank_dropWhile digits
    simp only [Option.filter_some, first, if_true, Bool.false_eq_true, if_false]
    by_cases whole : (c :: rest).all isDecimal = true
    · have taken : (c :: rest).takeWhile isDecimal = c :: rest :=
        List.takeWhile_eq_self_iff.mpr (List.all_eq_true.mp whole)
      rw [if_pos (blank.mpr whole), taken]
      split
      next long => exact ⟨nofun, fun given => absurd given.1.2 (Nat.not_le.mpr long)⟩
      next short =>
        constructor
        · intro read
          exact ⟨⟨whole, Nat.not_lt.mp short⟩, (Except.ok.inj read).symm⟩
        · rintro ⟨_, rfl⟩
          rfl
    · rw [if_neg fun given => whole (blank.mp given)]
      constructor
      · intro read
        split at read <;> cases read
      · exact fun given => absurd given.1.1 whole
  · simp [Option.filter_some, first]

theorem exists_readInt_eq_ok {signs : Text} (digits : signs.all isDigitSign = true) (present : signs ≠ []) :
    (∃ number, readInt signs = .ok number) ↔ signs.all isDecimal = true ∧ signs.length ≤ digitLimit := by
  simp only [readInt_eq_ok_iff digits present, exists_and_left, exists_eq, and_true]

end Text

namespace Coordinate
open Text

/-- A text in three parts whose number is made of digit signs but cannot be read. -/
def NamesUnreadableNumber (text : Text) : Prop :=
  ∃ parts, split? text = some parts ∧ parts.1.all isDigitSign = true ∧
    (parts.1.all isDecimal = false ∨ digitLimit < parts.1.length)

theorem ne_nil_of_split? {text kind owner name : Text} (parts : split? text = some (kind, owner, name)) :
    kind ≠ [] := by
  simp only [split?, Option.bind_eq_bind, Option.bind_eq_some_iff] at parts
  obtain ⟨_, _, _, _, present⟩ := parts
  rw [Option.ite_none_left_eq_some] at present
  obtain ⟨present, same⟩ := present
  cases same
  rintro empty
  simp [empty] at present

/-- Reading a coordinate fails at such texts and at no others. -/
theorem exists_parse_eq_ok {text : Text} :
    (∃ coordinate, parse text = .ok coordinate) ↔ ¬ NamesUnreadableNumber text := by
  unfold parse NamesUnreadableNumber
  cases parts : split? text with
  | none => simp
  | some triple =>
    obtain ⟨kind, owner, name⟩ := triple
    simp only [Option.some.injEq, exists_eq_left']
    by_cases digits : kind.all isDigitSign = true
    · have readable := exists_readInt_eq_ok digits (ne_nil_of_split? parts)
      simp only [digits, if_true, true_and, not_or, Bool.not_eq_false, Nat.not_lt, ← readable]
      cases readInt kind with
      | ok number => exact ⟨fun _ => ⟨number, rfl⟩, fun _ => ⟨_, rfl⟩⟩
      | error error => exact ⟨nofun, nofun⟩
    · simp [digits]

end Coordinate
end Bindery
