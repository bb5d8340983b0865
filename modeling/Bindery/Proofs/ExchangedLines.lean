import Bindery.Heading.Markdown
import Bindery.Proofs.BlockReadings

/-! Renumbering line by line puts one line in the place of each heading and copies the stretches of lines between them.
The lines of a block that stands beside all headings are among these stretches. -/

namespace Bindery.Heading.Markdown
open Text Bindery.Markdown

/-- The lines from a number on, with one line in the place of each heading. -/
def exchanged (instead : Bindery.Markdown.Heading → Text) (lines : List Text) : Nat → List Bindery.Markdown.Heading → List Text
  | first, [] => lines.drop first
  | first, heading :: more => lines.extract first heading.start ++ instead heading :: exchanged instead lines heading.stop more

/-! ### What renumbering writes -/

section
variable {deepest depth : Int} {all : List Bindery.Markdown.Heading}

/-- Lines that belong to the heading before are left out. -/
theorem renumberFrom_skip (number skip : Nat) (lines : List Text) :
    renumberFrom deepest depth all number skip lines = renumberFrom deepest depth all (number + skip) 0 (lines.drop skip) := by
  induction skip generalizing number lines with
  | zero => rfl
  | succ skip ih =>
    cases lines with
    | nil => rfl
    | cons line rest => rw [renumberFrom, ih, List.drop_succ_cons, Nat.add_assoc, Nat.add_comm 1]

/-- Lines before the next heading are copied. -/
theorem renumberFrom_append {number : Nat} {front : List Text}
    (free : ∀ place, number ≤ place → place < number + front.length → all.find? (fun heading => heading.start = place) = none)
    (rest : List Text) :
    renumberFrom deepest depth all number 0 (front ++ rest) =
      front ++ renumberFrom deepest depth all (number + front.length) 0 rest := by
  induction front generalizing number with
  | nil => rfl
  | cons line front ih =>
    rw [List.length_cons] at free
    have here := free number (Nat.le_refl number) (by omega)
    have later : renumberFrom deepest depth all (number + 1) 0 (front ++ rest) =
        front ++ renumberFrom deepest depth all (number + 1 + front.length) 0 rest := by
      apply ih
      intro place after before
      exact free place (by omega) (by omega)
    rw [List.cons_append, renumberFrom, here]
    simp only
    rw [later, List.length_cons, Nat.add_assoc, Nat.add_comm 1, List.cons_append]

theorem renumberFrom_cons {heading : Bindery.Markdown.Heading} {number : Nat}
    (found : all.find? (fun heading => heading.start = number) = some heading) (after : number < heading.stop) (line : Text)
    (rest : List Text) :
    renumberFrom deepest depth all number 0 (line :: rest) = headingLine deepest depth heading line ::
      renumberFrom deepest depth all heading.stop 0 (rest.drop (heading.stop - (number + 1))) := by
  rw [renumberFrom, found]
  simp only
  rw [renumberFrom_skip, Nat.add_sub_cancel' after]

theorem drop_eq_extract_append {lines : List Text} {first last : Nat} (le : first ≤ last) :
    lines.drop first = lines.extract first last ++ lines.drop last := by
  rw [List.extract_eq_take_drop, ← Nat.add_sub_cancel' le, ← List.drop_drop, Nat.add_sub_cancel' le, List.take_append_drop]

theorem length_extract {lines : List Text} {first last : Nat} (within : last ≤ lines.length) :
    (lines.extract first last).length = last - first := by
  rw [List.extract_eq_take_drop, List.length_take_of_le]
  rw [List.length_drop]
  omega

theorem renumberFrom_eq_exchanged {lines : List Text} {first : Nat} {headings : List Bindery.Markdown.Heading}
    (within : Within first headings lines.length)
    (found : ∀ place, first ≤ place →
      all.find? (fun heading => heading.start = place) = headings.find? fun heading => heading.start = place) :
    renumberFrom deepest depth all first 0 (lines.drop first) =
      exchanged (fun heading => headingLine deepest depth heading (lines.getD heading.start [])) lines first headings := by
  induction headings generalizing first with
  | nil =>
    have copied : renumberFrom deepest depth all first 0 (lines.drop first ++ []) = lines.drop first ++ [] :=
      renumberFrom_append (fun place after _ => found place after) []
    rwa [List.append_nil] at copied
  | cons heading more ih =>
    obtain ⟨after, nonempty, later⟩ := within
    have inside : heading.start < lines.length := Nat.lt_of_lt_of_le nonempty later.le
    have free : ∀ place, first ≤ place → place < first + (lines.extract first heading.start).length →
        all.find? (fun heading => heading.start = place) = none := by
      intro place past before
      rw [length_extract (Nat.le_of_lt inside)] at before
      rw [found place past, List.find?_eq_none, List.forall_mem_cons]
      simp only [decide_eq_true_eq]
      refine ⟨by omega, fun other member => ?_⟩
      have bounds := later.bounds member
      omega
    have here : all.find? (fun other => other.start = heading.start) = some heading := by
      rw [found heading.start after, List.find?_cons_of_pos (by simp)]
    have behind : ∀ place, heading.stop ≤ place →
        all.find? (fun heading => heading.start = place) = more.find? fun heading => heading.start = place := by
      intro place past
      rw [found place (by omega), List.find?_cons_of_neg (by simp only [decide_eq_true_eq]; omega)]
    have line : lines.getD heading.start [] = lines[heading.start] := by simp [inside]
    have next : (lines.drop (heading.start + 1)).drop (heading.stop - (heading.start + 1)) = lines.drop heading.stop := by
      rw [List.drop_drop, Nat.add_sub_cancel' nonempty]
    rw [drop_eq_extract_append after, renumberFrom_append free, length_extract (Nat.le_of_lt inside), Nat.add_sub_cancel' after,
      List.drop_eq_getElem_cons inside, renumberFrom_cons here nonempty, next, ih later behind, exchanged, line]

end

/-! ### What is copied -/

theorem extract_infix_extract {lines : List Text} {first start stop last : Nat} (after : first ≤ start) (before : stop ≤ last) :
    lines.extract start stop <:+: lines.extract first last := by
  have ends : lines.extract first stop <+: lines.extract first last := by
    rw [List.extract_eq_take_drop, List.extract_eq_take_drop]
    exact List.take_prefix_take_left (Nat.sub_le_sub_right before first)
  have begins : lines.extract start stop <:+ lines.extract first stop := by
    rw [List.extract_eq_drop_take', List.extract_eq_drop_take']
    exact List.drop_suffix_drop_left _ after
  exact begins.isInfix.trans ends.isInfix

theorem mem_exchanged {instead : Bindery.Markdown.Heading → Text} {lines : List Text} {first : Nat}
    {headings : List Bindery.Markdown.Heading} {line : Text} (member : line ∈ exchanged instead lines first headings) :
    line ∈ lines ∨ ∃ heading ∈ headings, line = instead heading := by
  induction headings generalizing first with
  | nil => exact Or.inl (List.mem_of_mem_drop member)
  | cons heading more ih =>
    rcases List.mem_append.mp member with before | later
    · rw [List.extract_eq_take_drop] at before
      exact Or.inl (List.mem_of_mem_drop (List.mem_of_mem_take before))
    · rcases List.mem_cons.mp later with rfl | behind
      · exact Or.inr ⟨heading, List.mem_cons_self, rfl⟩
      · exact (ih behind).imp_right fun ⟨other, found, same⟩ => ⟨other, List.mem_cons_of_mem heading found, same⟩

/-- Lines beside all headings are copied one after another. -/
theorem extract_infix_exchanged {instead : Bindery.Markdown.Heading → Text} {lines : List Text} {first start stop : Nat}
    {headings : List Bindery.Markdown.Heading} (after : first ≤ start) (within : stop ≤ lines.length)
    (apart : ∀ heading ∈ headings, stop ≤ heading.start ∨ heading.stop ≤ start) :
    lines.extract start stop <:+: exchanged instead lines first headings := by
  induction headings generalizing first with
  | nil =>
    have whole : lines.drop first = lines.extract first lines.length := by
      rw [List.extract_eq_drop_take', List.take_length]
    rw [exchanged, whole]
    exact extract_infix_extract after within
  | cons heading more ih =>
    obtain ⟨here, later⟩ := List.forall_mem_cons.mp apart
    rw [exchanged]
    rcases here with before | behind
    · exact (extract_infix_extract after before).trans (List.prefix_append ..).isInfix
    · have copied := (ih behind later).trans (List.suffix_cons (instead heading) _).isInfix
      exact copied.trans (List.suffix_append ..).isInfix

end Bindery.Heading.Markdown
