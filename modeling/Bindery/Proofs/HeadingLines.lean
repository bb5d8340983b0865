import Bindery.Heading.AsciiDoc
import Bindery.Proofs.TextLines

/-! How lines of AsciiDoc are read. Headings and fences are told apart by the character that they start with, so
no heading opens or closes a verbatim block, and an indented line does neither. -/

namespace Bindery.Heading.AsciiDoc
open Text

/-! ### Heading lines -/

def isMarker (c : Char) : Bool :=
  c = '=' || c = '#'

/-- The parts of a heading. -/
structure IsHeading (marker : Char) (level : Nat) (gap title : Text) : Prop where
  marked : isMarker marker = true
  atLeastOne : 1 ≤ level
  atMostSix : level ≤ 6
  separate : gap ≠ []
  blankGap : ∀ c ∈ gap, isGap c = true
  present : ∃ c rest, title = c :: rest ∧ isBlank c = false

theorem isGap_of_isMarker {c : Char} (marked : isMarker c = true) : isGap c = false := by
  simp only [isMarker, Bool.or_eq_true, decide_eq_true_eq] at marked
  rcases marked with rfl | rfl <;> decide

theorem isBlank_of_isMarker {c : Char} (marked : isMarker c = true) : isBlank c = false := by
  simp only [isMarker, Bool.or_eq_true, decide_eq_true_eq] at marked
  rcases marked with rfl | rfl <;> decide

theorem isGap_of_not_isBlank {c : Char} (present : isBlank c = false) : isGap c = false := by
  by_contra gap
  simp only [isGap, Bool.or_eq_true, decide_eq_true_eq, Bool.not_eq_false] at gap
  rcases gap with rfl | rfl <;> exact absurd present (by decide)

theorem heading?_cons (c : Char) (tail : Text) :
    heading? (c :: tail) =
      let rest := (c :: tail).dropWhile (· = c)
      let level := ((c :: tail).takeWhile (· = c)).length
      if isMarker c && level ≤ 6 && !(rest.takeWhile isGap).isEmpty && (rest.dropWhile isGap).head?.any (!isBlank ·) then
        some (.heading c level (rest.takeWhile isGap) (rest.dropWhile isGap))
      else none := by
  simp only [heading?, isMarker, drop_length_takeWhile]
  rfl

theorem heading?_toText {marker : Char} {level : Nat} {gap title : Text} (heading : IsHeading marker level gap title) :
    heading? (Line.heading marker level gap title).toText = some (.heading marker level gap title) := by
  obtain ⟨marked, atLeastOne, atMostSix, separate, blankGap, c, rest, rfl, present⟩ := heading
  obtain ⟨g, gaps, rfl⟩ := List.exists_cons_of_ne_nil separate
  obtain ⟨count, rfl⟩ := Nat.exists_eq_add_of_le' atLeastOne
  have other : decide (g = marker) = false := by
    apply decide_eq_false
    intro same
    subst same
    exact absurd (blankGap g List.mem_cons_self) (by simp [isGap_of_isMarker marked])
  have text : (Line.heading marker (count + 1) (g :: gaps) (c :: rest)).toText =
      List.replicate (count + 1) marker ++ g :: (gaps ++ c :: rest) := by
    simp [Line.toText]
  have markers : (List.replicate (count + 1) marker ++ g :: (gaps ++ c :: rest)).takeWhile (· = marker) =
      List.replicate (count + 1) marker :=
    takeWhile_append_of_stop (by simp) other (gaps ++ c :: rest)
  have later : (List.replicate (count + 1) marker ++ g :: (gaps ++ c :: rest)).dropWhile (· = marker) =
      g :: (gaps ++ c :: rest) :=
    dropWhile_append_of_stop (by simp) other (gaps ++ c :: rest)
  have gap : (g :: (gaps ++ c :: rest)).takeWhile isGap = g :: gaps :=
    takeWhile_append_of_stop blankGap (isGap_of_not_isBlank present) rest
  have title : (g :: (gaps ++ c :: rest)).dropWhile isGap = c :: rest :=
    dropWhile_append_of_stop blankGap (isGap_of_not_isBlank present) rest
  rw [text]
  rw [List.replicate_succ, List.cons_append] at markers later ⊢
  simp only [heading?_cons, markers, later, gap, title]
  simp [marked, present, atMostSix]

theorem of_heading?_eq_some {text : Text} {line : Line} (read : heading? text = some line) :
    ∃ marker level gap title, line = .heading marker level gap title ∧ IsHeading marker level gap title ∧
      text = line.toText := by
  cases text with
  | nil => cases read
  | cons c tail =>
    rw [heading?_cons] at read
    simp only [Option.ite_none_right_eq_some, Option.some.injEq, Bool.and_eq_true, decide_eq_true_eq,
      Bool.not_eq_true', List.isEmpty_eq_false_iff, Option.any_eq_true] at read
    obtain ⟨⟨⟨⟨marked, atMostSix⟩, separate⟩, first, isFirst, present⟩, rfl⟩ := read
    refine ⟨_, _, _, _, rfl, ⟨marked, ?_, atMostSix, separate, ?_, ?_⟩, ?_⟩
    · simp
    · exact fun g member => List.mem_takeWhile_imp member
    · obtain ⟨rest, title⟩ := List.head?_eq_some_iff.mp isFirst
      exact ⟨first, rest, title, present⟩
    · have markers : (c :: tail).takeWhile (· = c) = List.replicate ((c :: tail).takeWhile (· = c)).length c :=
        List.eq_replicate_length.mpr fun other member => by simpa using List.mem_takeWhile_imp member
      rw [Line.toText, ← markers, List.append_assoc, List.takeWhile_append_dropWhile, List.takeWhile_append_dropWhile]

/-! ### Verbatim blocks -/

def fenceMarks : Text := ['\x60', '-', '.', '+', '/']

/-- A verbatim block is opened and closed by lines that start alike. -/
theorem of_fenceOpened?_eq_some {line closing : Text} (opened : fenceOpened? line = some closing) :
    ∃ c rest tail, line = c :: rest ∧ closing = c :: tail ∧ c ∈ fenceMarks := by
  have start : ∀ {c : Char} {tail : Text}, stripEnd line = c :: tail → ∃ rest, line = c :: rest := by
    intro c tail same
    obtain ⟨blanks, _, whole⟩ := exists_stripEnd_append line
    exact ⟨tail ++ blanks, by rw [whole, same]; rfl⟩
  unfold fenceOpened? at opened
  simp only at opened
  split at opened
  next backticks =>
    obtain ⟨tail, whole⟩ := List.isPrefixOf_iff_prefix.mp backticks
    obtain ⟨rest, rfl⟩ := start whole.symm
    cases opened
    exact ⟨_, rest, _, rfl, rfl, by decide⟩
  next =>
    split at opened
    next => cases opened
    next c tail stripped =>
      obtain ⟨rest, rfl⟩ := start stripped
      obtain ⟨marks, same⟩ := Option.ite_none_right_eq_some.mp opened
      refine ⟨c, rest, tail, rfl, (Option.some.inj same).symm.trans stripped, ?_⟩
      simp only [Bool.and_eq_true, Bool.or_eq_true, decide_eq_true_eq] at marks
      rcases marks.1.1 with ((rfl | rfl) | rfl) | rfl <;> decide

theorem fenceOpened?_eq_none {c : Char} {rest : Text} (other : c ∉ fenceMarks) : fenceOpened? (c :: rest) = none := by
  apply Option.eq_none_iff_forall_ne_some.mpr
  intro closing opened
  obtain ⟨_, _, _, same, _, mark⟩ := of_fenceOpened?_eq_some opened
  cases same
  exact other mark

theorem notMem_fenceMarks_of_isMarker {c : Char} (marked : isMarker c = true) : c ∉ fenceMarks := by
  simp only [isMarker, Bool.or_eq_true, decide_eq_true_eq] at marked
  rcases marked with rfl | rfl <;> decide

theorem notMem_fenceMarks_of_isBlank {c : Char} (blank : isBlank c = true) : c ∉ fenceMarks := by
  intro mark
  simp only [fenceMarks, List.mem_cons, List.not_mem_nil, or_false] at mark
  rcases mark with rfl | rfl | rfl | rfl | rfl <;> exact absurd blank (by decide)

/-- What closes a verbatim block starts as no heading does. -/
def IsFence (fence : Option Text) : Prop :=
  ∀ closing, fence = some closing → ∃ c tail, closing = c :: tail ∧ c ∈ fenceMarks

theorem isFence_none : IsFence none := nofun

theorem isFence_fenceAfter {fence : Option Text} (sound : IsFence fence) (line : Text) :
    IsFence (fenceAfter fence line) := by
  intro closing left
  cases fence with
  | none =>
    obtain ⟨c, _, tail, _, same, mark⟩ := of_fenceOpened?_eq_some left
    exact ⟨c, tail, same, mark⟩
  | some opened =>
    obtain ⟨_, same⟩ := Option.ite_none_left_eq_some.mp left
    exact sound closing same

/-! ### Readings -/

def Line.level? : Line → Option Nat
  | .heading _ level _ _ => some level
  | _ => none

theorem readLine_cases (fence : Option Text) (line : Text) :
    (∃ marker level gap title, fence = none ∧ readLine fence line = .heading marker level gap title ∧
      IsHeading marker level gap title ∧ line = (Line.heading marker level gap title).toText) ∨
    (readLine fence line).level? = none ∧ ∀ deepest depth, renumberLine deepest depth (readLine fence line) = line := by
  cases fence with
  | some closing => exact Or.inr ⟨rfl, fun _ _ => rfl⟩
  | none =>
    unfold readLine
    cases fenceOpened? line with
    | some closing => exact Or.inr ⟨rfl, fun _ _ => rfl⟩
    | none =>
      cases read : heading? line with
      | none => exact Or.inr ⟨rfl, fun _ _ => rfl⟩
      | some heading =>
        obtain ⟨marker, level, gap, title, rfl, parts, text⟩ := of_heading?_eq_some read
        exact Or.inl ⟨marker, level, gap, title, rfl, rfl, parts, text⟩

section
variable {marker : Char} {level : Nat} {gap title : Text} (heading : IsHeading marker level gap title)
include heading

theorem IsHeading.toText_eq_cons : ∃ rest, (Line.heading marker level gap title).toText = marker :: rest := by
  obtain ⟨count, rfl⟩ := Nat.exists_eq_add_of_le' heading.atLeastOne
  exact ⟨List.replicate count marker ++ gap ++ title, rfl⟩

theorem IsHeading.readLine_toText :
    readLine none (Line.heading marker level gap title).toText = .heading marker level gap title := by
  obtain ⟨rest, text⟩ := heading.toText_eq_cons
  unfold readLine
  rw [heading?_toText heading, text, fenceOpened?_eq_none (notMem_fenceMarks_of_isMarker heading.marked)]
  rfl

theorem IsHeading.fenceAfter_toText {fence : Option Text} (sound : IsFence fence) :
    fenceAfter fence (Line.heading marker level gap title).toText = fence := by
  obtain ⟨rest, text⟩ := heading.toText_eq_cons
  rw [text]
  cases fence with
  | none => exact fenceOpened?_eq_none (notMem_fenceMarks_of_isMarker heading.marked)
  | some closing =>
    apply if_neg
    intro same
    obtain ⟨c, tail, rfl, mark⟩ := sound closing rfl
    obtain ⟨blanks, _, whole⟩ := exists_stripEnd_append (marker :: rest)
    rw [same] at whole
    cases whole
    exact notMem_fenceMarks_of_isMarker heading.marked mark

end

/-- An indented line is neither a heading nor the start of a verbatim block. -/
theorem readLine_of_isBlank {c : Char} (blank : isBlank c = true) (rest : Text) :
    readLine none (c :: rest) = .plain (c :: rest) ∧ fenceAfter none (c :: rest) = none := by
  have unopened : fenceOpened? (c :: rest) = none := fenceOpened?_eq_none (notMem_fenceMarks_of_isBlank blank)
  have read : heading? (c :: rest) = none := by
    apply Option.eq_none_iff_forall_ne_some.mpr
    intro line read
    obtain ⟨marker, level, gap, title, rfl, heading, text⟩ := of_heading?_eq_some read
    obtain ⟨more, whole⟩ := heading.toText_eq_cons
    rw [whole] at text
    cases text
    exact absurd blank (by simp [isBlank_of_isMarker heading.marked])
  exact ⟨by simp [readLine, unopened, read], unopened⟩

theorem readLine_of_all_isBlank {line : Text} (blank : line.all isBlank = true) :
    readLine none line = .plain line ∧ fenceAfter none line = none := by
  cases line with
  | nil => exact ⟨rfl, rfl⟩
  | cons c rest => exact readLine_of_isBlank (List.all_eq_true.mp blank c List.mem_cons_self) rest

/-! ### Blanks at the end -/

def levels (fence : Option Text) (lines : List Text) : List Nat :=
  (readLines fence lines).filterMap Line.level?

theorem levels_cons (fence : Option Text) (line : Text) (rest : List Text) :
    levels fence (line :: rest) = (readLine fence line).level?.toList ++ levels (fenceAfter fence line) rest := by
  unfold levels
  rw [readLines, List.filterMap_cons]
  cases (readLine fence line).level? <;> rfl

theorem levels_append (fence : Option Text) (front rest : List Text) :
    levels fence (front ++ rest) = levels fence front ++ levels (front.foldl fenceAfter fence) rest := by
  induction front generalizing fence with
  | nil => rfl
  | cons line front ih => rw [List.cons_append, levels_cons, levels_cons, ih, List.append_assoc, List.foldl_cons]

theorem levels_singleton (fence : Option Text) (line : Text) : levels fence [line] = (readLine fence line).level?.toList := by
  rw [levels_cons, levels, readLines, List.filterMap_nil, List.append_nil]

theorem stripEnd_concat {c : Char} (blank : isBlank c = true) (text : Text) : stripEnd (text ++ [c]) = stripEnd text :=
  List.rdropWhile_concat_pos isBlank text c blank

theorem heading?_concat_eq_none {c : Char} (blank : isBlank c = true) {line : Text} (read : heading? line = none) :
    heading? (line ++ [c]) = none := by
  apply Option.eq_none_iff_forall_ne_some.mpr
  intro longer readLonger
  obtain ⟨marker, level, gap, title, rfl, heading, text⟩ := of_heading?_eq_some readLonger
  obtain ⟨first, rest, rfl, present⟩ := heading.present
  -- The title goes on after its first character, which is no blank, so the line without its end has a title too.
  rcases List.eq_nil_or_concat rest with rfl | ⟨shorter, last, rfl⟩
  · obtain ⟨_, same⟩ := List.append_inj' text rfl
    obtain rfl := (List.cons.inj same).1
    exact absurd blank (by simp [present])
  · have whole : line ++ [c] = (Line.heading marker level gap (first :: shorter)).toText ++ [last] := by
      rw [text]
      simp [Line.toText]
    obtain ⟨rfl, _⟩ := List.append_inj' whole rfl
    rw [heading?_toText { heading with present := ⟨first, shorter, rfl, present⟩ }] at read
    cases read

theorem level?_heading?_concat {c : Char} (blank : isBlank c = true) (line : Text) :
    (heading? (line ++ [c])).bind Line.level? = (heading? line).bind Line.level? := by
  cases read : heading? line with
  | none => rw [heading?_concat_eq_none blank read]
  | some found =>
    obtain ⟨marker, level, gap, title, rfl, heading, rfl⟩ := of_heading?_eq_some read
    obtain ⟨first, rest, rfl, present⟩ := heading.present
    have longer : (Line.heading marker level gap (first :: rest)).toText ++ [c] =
        (Line.heading marker level gap (first :: (rest ++ [c]))).toText := by
      simp [Line.toText]
    rw [longer, heading?_toText { heading with present := ⟨first, rest ++ [c], rfl, present⟩ }]
    rfl

theorem level?_readLine_concat {c : Char} (blank : isBlank c = true) (fence : Option Text) (line : Text) :
    (readLine fence (line ++ [c])).level? = (readLine fence line).level? := by
  cases fence with
  | some closing => rfl
  | none =>
    have same : fenceOpened? (line ++ [c]) = fenceOpened? line := by
      simp only [fenceOpened?, stripEnd_concat blank]
    unfold readLine
    rw [same]
    cases fenceOpened? line with
    | some closing => rfl
    | none =>
      have level : ∀ line, ((heading? line).getD (.plain line)).level? = (heading? line).bind Line.level? :=
        fun line => by cases heading? line <;> rfl
      simp only [level, level?_heading?_concat blank line]

/-- Blanks at the end of a text make no heading and end none. -/
theorem levels_lines_append {blanks : Text} (blank : blanks.all isBlank = true) (text : Text) :
    levels none (lines (text ++ blanks)) = levels none (lines text) := by
  apply told_lines_append (levels none) _ _ blank
  · intro front
    rw [levels_append, levels_singleton]
    cases front.foldl fenceAfter none <;> exact List.append_nil _
  · intro front line c last
    rw [levels_append, levels_append, levels_singleton, levels_singleton, level?_readLine_concat last]

end Bindery.Heading.AsciiDoc
