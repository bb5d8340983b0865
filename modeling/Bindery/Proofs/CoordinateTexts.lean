import Bindery.Proofs.CoordinateNumbers
import Bindery.Proofs.Tokens

/-! Coordinates written and read again. A coordinate is given back by its text just where its parts are plain: its number is
no negative one, its owner holds no colon, and neither its owner nor its name is empty or has blanks around it. All
coordinates that are read from texts are so. -/

namespace Bindery

namespace Text

/-! ### Numbers written in digits -/

theorem digitValue?_lt {c : Char} {value : Nat} (found : digitValue? c = some value) : value < 10 := by
  unfold digitValue? at found
  split at found
  · obtain ⟨digit, same⟩ := Option.ite_none_right_eq_some.mp found
    have bounds : '0' ≤ c ∧ c ≤ '9' := by simpa using digit
    have high : c.toNat ≤ 57 := bounds.2
    have value := Option.some.inj same
    omega
  · obtain ⟨first, near, rfl⟩ := Option.map_eq_some_iff.mp found
    have bounds := List.find?_some near
    simp only [Bool.and_eq_true, decide_eq_true_eq] at bounds
    omega

theorem digitValue?_of_isDigit {c : Char} (digit : c.isDigit = true) : digitValue? c = some (c.toNat - 48) := by
  have bounds : '0' ≤ c ∧ c ≤ '9' := Char.isDigit_iff_toNat.mp digit
  have high : c.toNat ≤ 57 := bounds.2
  have low : c.toNat < 128 := by omega
  simp [digitValue?, low, bounds]

theorem valueOfDigits_concat (digits : Text) (c : Char) :
    valueOfDigits (digits ++ [c]) = 10 * valueOfDigits digits + (digitValue? c).getD 0 := by
  simp [valueOfDigits]

/-- A number has no more digits than any text that it is read from. -/
theorem length_ofNat_valueOfDigits_le {digits : Text} (present : digits ≠ []) :
    (ofNat (valueOfDigits digits)).length ≤ digits.length := by
  have below : valueOfDigits digits < 10 ^ digits.length := by
    clear present
    induction digits using List.reverseRecOn with
    | nil => exact Nat.zero_lt_one
    | append_singleton digits c ih =>
      have last : (digitValue? c).getD 0 < 10 := by
        cases value : digitValue? c with
        | none => decide
        | some value' => exact digitValue?_lt value
      rw [valueOfDigits_concat, List.length_append, List.length_singleton, Nat.pow_succ]
      omega
  exact (Nat.length_toDigits_le_iff (by decide) (List.length_pos_iff.mpr present)).mpr below

theorem isDigit_of_mem_ofNat {n : Nat} {c : Char} (member : c ∈ ofNat n) : c.isDigit = true :=
  Nat.isDigit_of_mem_toDigits (by decide) (by decide) member

theorem ofNat_ne_nil (n : Nat) : ofNat n ≠ [] :=
  Nat.toDigits_ne_nil

theorem isDecimal_of_mem_ofNat {n : Nat} {c : Char} (member : c ∈ ofNat n) : isDecimal c = true := by
  rw [isDecimal, digitValue?_of_isDigit (isDigit_of_mem_ofNat member)]
  rfl

theorem valueOfDigits_ofNat (n : Nat) : valueOfDigits (ofNat n) = n := by
  have places : ∀ digits : Text, (∀ c ∈ digits, c.isDigit = true) → valueOfDigits digits = Nat.ofDigitChars 10 digits 0 := by
    intro digits plain
    induction digits using List.reverseRecOn with
    | nil => rfl
    | append_singleton digits c ih =>
      obtain ⟨others, last⟩ := List.forall_mem_append.mp plain
      rw [valueOfDigits_concat, ih others, digitValue?_of_isDigit (last c List.mem_cons_self)]
      simp [Nat.ofDigitChars]
  rw [places _ fun c => isDigit_of_mem_ofNat]
  exact Nat.ofDigitChars_toDigits (by decide) (by decide)

theorem readInt_ofNat {n : Nat} (short : (ofNat n).length ≤ digitLimit) : readInt (ofNat n) = .ok n := by
  have decimal : (ofNat n).all isDecimal = true := List.all_eq_true.mpr fun c => isDecimal_of_mem_ofNat
  have signs : (ofNat n).all isDigitSign = true :=
    List.all_eq_true.mpr fun c member => by simp [isDigitSign, isDecimal_of_mem_ofNat member]
  apply (readInt_eq_ok_iff signs (ofNat_ne_nil n)).mpr
  exact ⟨⟨decimal, short⟩, by rw [valueOfDigits_ofNat]⟩

theorem isTight_ofNat (n : Nat) : IsTight (ofNat n) := by
  refine IsToken.isTight ⟨ofNat_ne_nil n, fun c member => ?_⟩
  have digit : isDigitSign c = true := by simp [isDigitSign, isDecimal_of_mem_ofNat member]
  by_contra blank
  have beside : inRanges besideDigits c = true := by
    rw [inRanges, besideDigits, List.any_append, Bool.or_eq_true]
    exact Or.inr (eq_true_of_ne_false blank)
  rw [isDigitSign_eq_false beside] at digit
  cases digit

end Text

namespace Coordinate
open Text
variable {text : Text} {coordinate : Coordinate}

/-! ### Texts in three parts -/

theorem split?_eq_some_iff {kind owner name : Text} :
    split? text = some (kind, owner, name) ↔
      ∃ first second third, text = first ++ ':' :: (second ++ ':' :: third) ∧ ':' ∉ first ∧ ':' ∉ second ∧
        (strip first = kind ∧ strip second = owner ∧ strip third = name) ∧ kind ≠ [] ∧ owner ≠ [] ∧ name ≠ [] := by
  simp only [split?, Option.bind_eq_bind, Option.bind_eq_some_iff, Prod.exists, cutAt_eq_some, Option.ite_none_left_eq_some,
    Bool.or_eq_true, List.isEmpty_iff, not_or, Option.some.injEq, Prod.mk.injEq]
  constructor
  · rintro ⟨first, _, ⟨rfl, early⟩, second, third, ⟨rfl, late⟩, present, rfl, rfl, rfl⟩
    exact ⟨first, second, third, rfl, early, late, ⟨rfl, rfl, rfl⟩, present.1.1, present.1.2, present.2⟩
  · rintro ⟨first, second, third, rfl, early, late, ⟨rfl, rfl, rfl⟩, kind, owner, name⟩
    exact ⟨first, _, ⟨rfl, early⟩, second, third, ⟨rfl, late⟩, ⟨⟨kind, owner⟩, name⟩, rfl, rfl, rfl⟩

theorem parse_eq_some_iff :
    parse text = .ok (some coordinate) ↔
      ∃ kind, split? text = some (kind, coordinate.owner, coordinate.name) ∧ kind.all isDigitSign = true ∧
        readInt kind = .ok coordinate.kind := by
  constructor
  · intro parsed
    unfold parse at parsed
    split at parsed
    next => cases parsed
    next kind owner name parts =>
      split at parsed
      next digits =>
        cases read : readInt kind with
        | error error => rw [read] at parsed; cases parsed
        | ok number =>
          rw [read] at parsed
          cases parsed
          exact ⟨kind, parts, digits, read⟩
      next => cases parsed
  · rintro ⟨kind, parts, digits, read⟩
    unfold parse
    simp only [parts, digits, if_true, read]
    rfl

/-! ### Written coordinates -/

/-- What a coordinate needs for its text to be read as itself. The name may hold colons. -/
structure IsPlain (coordinate : Coordinate) : Prop where
  kind : 0 ≤ coordinate.kind
  owner : IsTight coordinate.owner
  unparted : ':' ∉ coordinate.owner
  name : IsTight coordinate.name

/-- A number that may be written. -/
def HasShortKind (coordinate : Coordinate) : Prop :=
  (ofNat coordinate.kind.natAbs).length ≤ digitLimit

theorem parse_toText (plain : coordinate.IsPlain) (short : coordinate.HasShortKind) :
    parse coordinate.toText = .ok (some coordinate) := by
  obtain ⟨number, owner, name⟩ := coordinate
  obtain ⟨n, rfl⟩ := Int.eq_ofNat_of_zero_le plain.kind
  have digits : (ofNat n).all isDigitSign = true :=
    List.all_eq_true.mpr fun c member => by simp [isDigitSign, isDecimal_of_mem_ofNat member]
  refine parse_eq_some_iff.mpr ⟨ofNat n, split?_eq_some_iff.mpr ?_, digits, readInt_ofNat short⟩
  refine ⟨ofNat n, owner, name, ?_, ?_, plain.unparted, ?_, ofNat_ne_nil n, plain.owner.ne_nil, plain.name.ne_nil⟩
  · simp [toText, ofInt]
  · intro colon
    exact absurd (isDecimal_of_mem_ofNat colon) (by decide)
  · exact ⟨(isTight_ofNat n).strip_eq, plain.owner.strip_eq, plain.name.strip_eq⟩

theorem isPlain_of_parse (parsed : parse text = .ok (some coordinate)) : coordinate.IsPlain ∧ coordinate.HasShortKind := by
  obtain ⟨kind, parts, digits, read⟩ := parse_eq_some_iff.mp parsed
  obtain ⟨first, second, third, _, _, unparted, ⟨_, owner, name⟩, kindPresent, ownerPresent, namePresent⟩ :=
    split?_eq_some_iff.mp parts
  obtain ⟨⟨_, short⟩, value⟩ := (readInt_eq_ok_iff digits kindPresent).mp read
  have ownerTight : IsTight coordinate.owner := owner ▸ isTight_strip (owner ▸ ownerPresent)
  have nameTight : IsTight coordinate.name := name ▸ isTight_strip (name ▸ namePresent)
  refine ⟨⟨?_, ownerTight, ?_, nameTight⟩, ?_⟩
  · rw [value]
    exact Int.natCast_nonneg _
  · intro colon
    obtain ⟨before, after, _, _, whole⟩ := exists_strip_append second
    rw [whole, owner] at unparted
    exact unparted (List.mem_append_right before (List.mem_append_left after colon))
  · unfold HasShortKind
    rw [value, Int.natAbs_natCast]
    exact Nat.le_trans (length_ofNat_valueOfDigits_le kindPresent) short

/-- A coordinate whose number may be written is read from its own text just where it is plain, and every coordinate that is
read from any text is plain and read from its own text again. -/
theorem plain_coordinates_read_back :
    (∀ coordinate : Coordinate, coordinate.HasShortKind →
      (parse coordinate.toText = .ok (some coordinate) ↔ coordinate.IsPlain)) ∧
    ∀ text coordinate, parse text = .ok (some coordinate) →
      coordinate.IsPlain ∧ coordinate.HasShortKind ∧ parse coordinate.toText = .ok (some coordinate) := by
  constructor
  · intro coordinate short
    exact ⟨fun parsed => (isPlain_of_parse parsed).1, fun plain => parse_toText plain short⟩
  · intro text coordinate parsed
    obtain ⟨plain, short⟩ := isPlain_of_parse parsed
    exact ⟨plain, short, parse_toText plain short⟩

def psalmCoordinate : Coordinate :=
  ⟨30041, "alice", "psalms:23"⟩

/-- Written with blanks and a leading zero, it is read as what is written without them. -/
theorem psalm_coordinate_reads_back :
    psalmCoordinate.HasShortKind ∧ parse " 030041 :alice: psalms:23" = .ok (some psalmCoordinate) ∧
      psalmCoordinate.IsPlain ∧ parse psalmCoordinate.toText = .ok (some psalmCoordinate) := by
  have short : psalmCoordinate.HasShortKind := by
    unfold HasShortKind
    decide
  have parsed : parse " 030041 :alice: psalms:23" = .ok (some psalmCoordinate) := by decide
  have plain := (plain_coordinates_read_back.2 _ _ parsed).1
  exact ⟨short, parsed, plain, (plain_coordinates_read_back.1 _ short).mpr plain⟩

end Coordinate
end Bindery
