import Bindery.Proofs.OpenBlocks

/-! Renumbered AsciiDoc read again. Lines are read one after another, each inside whatever block the lines before it
left open, so a line that changed could be read otherwise and turn all lines behind it around. None is: a renumbered
body has the lines of the body, each is read as it was, and of a heading only the level is another. -/

namespace Bindery.Heading.AsciiDoc
open Text

/-- A line as it was read, and as it is read once its body is renumbered. -/
inductive Renumbered (deepest depth : Int) : Line → Line → Prop where
  | verbatim (text : Text) : Renumbered deepest depth (.verbatim text) (.verbatim text)
  | plain (text : Text) : Renumbered deepest depth (.plain text) (.plain text)
  | heading {level lower : Nat} (marker : Char) (gap title : Text)
      (below : (lower : Int) = min deepest (max (level + 1) (depth + 1))) :
      Renumbered deepest depth (.heading marker level gap title) (.heading marker lower gap title)

/-- The lines of a text, however they end. -/
def bodyLines (text : Text) : List Text :=
  lines (unifyLineEnds text)

/-- How a body reads once it is renumbered. -/
structure ReadsAgain (deepest depth : Int) (before after : List Text) : Prop where
  asMany : after.length = before.length
  /-- The same block is open behind as many lines. -/
  blocks : ∀ count, openAfter none (after.take count) = openAfter none (before.take count)
  /-- Readings stand for their lines, before and after. -/
  faithful : (readLines none before).map Line.toText = before ∧ (readLines none after).map Line.toText = after
  readings : List.Forall₂ (Renumbered deepest depth) (readLines none before) (readLines none after)

theorem bodyLines_ne_nil (text : Text) : bodyLines text ≠ [] :=
  lines_ne_nil _

/-! ### Readings and their texts -/

theorem toText_readLine (fence : Option Text) (line : Text) : (readLine fence line).toText = line := by
  cases fence with
  | some closing => rfl
  | none =>
    unfold readLine
    cases fenceOpened? line with
    | some closing => rfl
    | none =>
      cases read : heading? line with
      | none => rfl
      | some heading =>
        obtain ⟨_, _, _, _, _, _, text⟩ := of_heading?_eq_some read
        exact text.symm

/-- Reading loses nothing of any line. -/
theorem map_toText_readLines (fence : Option Text) (lines : List Text) :
    (readLines fence lines).map Line.toText = lines := by
  induction lines generalizing fence with
  | nil => rfl
  | cons line rest ih => rw [readLines, List.map_cons, toText_readLine, ih]

/-! ### Renumbered lines -/

theorem take_renumberFrom (deepest depth : Int) (fence : Option Text) (lines : List Text) (count : Nat) :
    (renumberFrom deepest depth fence lines).take count = renumberFrom deepest depth fence (lines.take count) := by
  induction lines generalizing fence count with
  | nil => simp [renumberFrom, readLines]
  | cons line rest ih =>
    cases count with
    | zero => rfl
    | succ count => rw [List.take_succ_cons, renumberFrom_cons, renumberFrom_cons, List.take_succ_cons, ih]

theorem length_renumberFrom (deepest depth : Int) (fence : Option Text) (lines : List Text) :
    (renumberFrom deepest depth fence lines).length = lines.length := by
  rw [renumberFrom, List.length_map, length_readLines]

section
variable {deepest : Int} (low : 1 ≤ deepest) (high : deepest ≤ 6) (depth : Int)
include low high

/-- Inside the same block, a renumbered line is read as it was and leaves the same block open. -/
theorem renumbered_readLine {fence : Option Text} (sound : IsFence fence) (line : Text) :
    Renumbered deepest depth (readLine fence line) (readLine fence (renumberLine deepest depth (readLine fence line))) ∧
      fenceAfter fence (renumberLine deepest depth (readLine fence line)) = fenceAfter fence line := by
  refine ⟨?_, (readLine_renumberLine low high depth sound fence line).1⟩
  rcases readLine_cases fence line with ⟨marker, level, gap, title, rfl, read, heading, rfl⟩ | ⟨unheaded, kept⟩
  · obtain ⟨lower, lowered, below, text⟩ := heading.exists_renumbered low high depth
    rw [read, text, lowered.readLine_toText]
    exact .heading marker gap title below
  · rw [kept]
    cases read : readLine fence line with
    | verbatim text => exact .verbatim text
    | plain text => exact .plain text
    | heading marker level gap title => rw [read] at unheaded; cases unheaded

theorem renumbered_readLines {fence : Option Text} (sound : IsFence fence) (lines : List Text) :
    List.Forall₂ (Renumbered deepest depth) (readLines fence lines)
      (readLines fence (renumberFrom deepest depth fence lines)) := by
  induction lines generalizing fence with
  | nil => exact .nil
  | cons line rest ih =>
    obtain ⟨here, after⟩ := renumbered_readLine low high depth sound line
    rw [renumberFrom_cons, readLines, readLines, after]
    exact .cons here (ih (isFence_fenceAfter sound line))

/-! ### Bodies -/

theorem bodyLines_renumber (body : Text) :
    bodyLines (Heading.renumber .asciiDoc deepest depth body) = renumberFrom deepest depth none (bodyLines body) := by
  have nonempty : renumberFrom deepest depth none (bodyLines body) ≠ [] := by
    intro empty
    have unread : readLines none (bodyLines body) = [] := List.map_eq_nil_iff.mp empty
    exact bodyLines_ne_nil body (by rw [← map_toText_readLines none (bodyLines body), unread]; rfl)
  rw [bodyLines, unifyLineEnds_eq_self (notMem_renumber low high depth body), renumber_eq_unlines]
  exact lines_unlines (fun line => whole_of_mem_renumberFrom low high depth) nonempty

/-- No renumbered line changes how a line is read: blocks and headings stay on their lines, and of a line that is
changed only the number of its markers is another. -/
theorem readsAgain_renumber (body : Text) :
    ReadsAgain deepest depth (bodyLines body) (bodyLines (Heading.renumber .asciiDoc deepest depth body)) := by
  rw [bodyLines_renumber low high depth]
  exact
    { asMany := length_renumberFrom deepest depth none (bodyLines body)
      blocks := fun count => by
        rw [take_renumberFrom, openAfter_renumberFrom low high depth isFence_none none]
      faithful := ⟨map_toText_readLines none _, map_toText_readLines none _⟩
      readings := renumbered_readLines low high depth isFence_none (bodyLines body) }

end

def fencedBody : Text := "= Top\r\n----\n= Held\n----  \r##\t Below"

theorem fencedBody_readsAgain :
    ReadsAgain 5 4 (bodyLines fencedBody) (bodyLines (Heading.renumber .asciiDoc 5 4 fencedBody)) ∧
      bodyLines (Heading.renumber .asciiDoc 5 4 fencedBody) = ["===== Top", "----", "= Held", "----  ", "#####\t Below"] :=
  ⟨readsAgain_renumber (by decide) (by decide) 4 fencedBody, by decide +kernel⟩

end Bindery.Heading.AsciiDoc
