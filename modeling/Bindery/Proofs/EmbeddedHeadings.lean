import Bindery.Heading.Body
import Bindery.Proofs.HeadingLines

/-! The headings that stand in a body once it is renumbered and stripped. Renumbering puts every heading below
its section. Stripping takes the indentation of the first line away, and so may bring headings to light that
were none when the body was renumbered. -/

namespace Bindery.Heading.AsciiDoc
open Text

/-! ### Renumbered lines read again -/

/-- Below a section's own heading, as far as there is room. -/
def IsBelow (deepest depth : Int) (level : Nat) : Prop :=
  min deepest (depth + 1) ≤ level ∧ level ≤ deepest

/-- Headings in the second of two readings that are none in the first. -/
def exposed (first second : List Line) : List Nat :=
  (first.zip second).filterMap fun (before, after) => if before.level?.isSome then none else after.level?

theorem exposed_cons (before after : Line) (first second : List Line) :
    exposed (before :: first) (after :: second) =
      (if before.level?.isSome then none else after.level?).toList ++ exposed first second := by
  unfold exposed
  rw [List.zip_cons_cons, List.filterMap_cons]
  simp only
  cases (if before.level?.isSome then none else after.level?) <;> rfl

/-- What renumbering makes of lines inside the verbatim block that `fence` closes, or outside of such blocks. -/
def renumberFrom (deepest depth : Int) (fence : Option Text) (lines : List Text) : List Text :=
  (readLines fence lines).map (renumberLine deepest depth)

theorem renumberFrom_cons (deepest depth : Int) (fence : Option Text) (line : Text) (rest : List Text) :
    renumberFrom deepest depth fence (line :: rest) =
      renumberLine deepest depth (readLine fence line) :: renumberFrom deepest depth (fenceAfter fence line) rest :=
  rfl

section
variable {deepest : Int} (low : 1 ≤ deepest) (high : deepest ≤ 6) (depth : Int)
include low high

theorem IsHeading.exists_renumbered {marker : Char} {level : Nat} {gap title : Text}
    (heading : IsHeading marker level gap title) :
    ∃ lower : Nat, IsHeading marker lower gap title ∧ (lower : Int) = min deepest (max (level + 1) (depth + 1)) ∧
      renumberLine deepest depth (.heading marker level gap title) = (Line.heading marker lower gap title).toText := by
  refine ⟨(targetLevel deepest depth level).toNat, { heading with atLeastOne := ?_, atMostSix := ?_ }, ?_, rfl⟩ <;>
    unfold targetLevel <;> omega

theorem IsHeading.renumbered {marker : Char} {level : Nat} {gap title : Text}
    (heading : IsHeading marker level gap title) :
    ∃ lower, IsHeading marker lower gap title ∧ IsBelow deepest depth lower ∧
      renumberLine deepest depth (.heading marker level gap title) = (Line.heading marker lower gap title).toText := by
  obtain ⟨lower, lowered, same, text⟩ := heading.exists_renumbered low high depth
  exact ⟨lower, lowered, ⟨by omega, by omega⟩, text⟩

/-- However a renumbered line is read the second time, it is below the section or else as it was. -/
theorem readLine_renumberLine {again : Option Text} (sound : IsFence again) (fence : Option Text) (line : Text) :
    fenceAfter again (renumberLine deepest depth (readLine fence line)) = fenceAfter again line ∧
    ((∀ level ∈ (readLine again (renumberLine deepest depth (readLine fence line))).level?,
        IsBelow deepest depth level) ↔
      ∀ level ∈ (if (readLine fence line).level?.isSome then none else (readLine again line).level?),
        IsBelow deepest depth level) := by
  rcases readLine_cases fence line with ⟨marker, level, gap, title, rfl, read, heading, rfl⟩ | ⟨read, kept⟩
  · obtain ⟨lower, lowered, below, text⟩ := heading.renumbered low high depth
    rw [read, text, heading.fenceAfter_toText sound, lowered.fenceAfter_toText sound]
    refine ⟨rfl, ?_⟩
    cases again with
    | none => simp [lowered.readLine_toText, Line.level?, below]
    | some closing => simp [readLine, Line.level?]
  · rw [kept, read]
    exact ⟨rfl, Iff.rfl⟩

theorem forall_levels_renumberFrom {again : Option Text} (sound : IsFence again) (fence : Option Text)
    (lines : List Text) :
    (∀ level ∈ levels again (renumberFrom deepest depth fence lines), IsBelow deepest depth level) ↔
      ∀ level ∈ exposed (readLines fence lines) (readLines again lines), IsBelow deepest depth level := by
  induction lines generalizing fence again with
  | nil => exact Iff.rfl
  | cons line rest ih =>
    obtain ⟨after, here⟩ := readLine_renumberLine low high depth sound fence line
    have later := ih (isFence_fenceAfter sound line) (fenceAfter fence line)
    rw [renumberFrom_cons, levels_cons, after, readLines, readLines, exposed_cons, List.forall_mem_append, List.forall_mem_append]
    simp only [Option.mem_toList]
    exact and_congr here later

theorem renumberLine_start (fence : Option Text) (line : Text) :
    (renumberLine deepest depth (readLine fence line)).head? = line.head? ∧
      (renumberLine deepest depth (readLine fence line)).all isBlank = line.all isBlank ∧
      ∀ c ∈ renumberLine deepest depth (readLine fence line), c ∈ line := by
  rcases readLine_cases fence line with ⟨marker, level, gap, title, rfl, read, heading, rfl⟩ | ⟨_, kept⟩
  · obtain ⟨lower, lowered, below, text⟩ := heading.renumbered low high depth
    obtain ⟨rest, whole⟩ := heading.toText_eq_cons
    obtain ⟨lowerRest, lowerWhole⟩ := lowered.toText_eq_cons
    rw [read, text]
    refine ⟨by rw [whole, lowerWhole]; rfl, ?_, fun c inside => ?_⟩
    · rw [whole, lowerWhole, List.all_cons, List.all_cons, isBlank_of_isMarker heading.marked]
      rfl
    · have level := heading.atLeastOne
      have lower := lowered.atLeastOne
      simp only [Line.toText, List.mem_append, List.mem_replicate] at inside ⊢
      grind
  · rw [kept]
    exact ⟨rfl, rfl, fun c inside => inside⟩

end

theorem told_renumberFrom {deepest : Int} (low : 1 ≤ deepest) (high : deepest ≤ 6) (depth : Int) (lines : List Text) :
    told (renumberFrom deepest depth none lines) = renumberFrom deepest depth none (told lines) := by
  induction lines with
  | nil => rfl
  | cons line rest ih =>
    have same := (renumberLine_start low high depth none line).2.1
    by_cases blank : line.all isBlank = true
    · obtain ⟨read, after⟩ := readLine_of_all_isBlank blank
      have skipped : told (line :: rest) = told rest := List.dropWhile_cons_of_pos blank
      rw [skipped, ← ih, renumberFrom_cons, after]
      exact List.dropWhile_cons_of_pos (same.trans blank)
    · have kept : told (line :: rest) = line :: rest := List.dropWhile_cons_of_neg blank
      rw [kept, renumberFrom_cons]
      exact List.dropWhile_cons_of_neg (by simpa only [same] using blank)

/-! ### Bodies -/

def headingLevels (text : Text) : List Nat :=
  levels none (lines (unifyLineEnds text))

/-- The levels of headings that come to light in a body where the indentation of its first line goes. -/
def exposedLevels (body : Text) : List Nat :=
  let lines := told (lines (unifyLineEnds body))
  exposed (readLines none lines) (readLines none (lines.modifyHead stripStart))

theorem headingLevels_stripEnd_unlines {lines : List Text} (whole : ∀ line ∈ lines, '\n' ∉ line ∧ '\r' ∉ line) :
    headingLevels (stripEnd (unlines lines)) = levels none lines := by
  obtain ⟨blanks, blank, ending⟩ := exists_stripEnd_append (unlines lines)
  have unified : '\r' ∉ stripEnd (unlines lines) := by
    intro carriage
    have inside : '\r' ∈ unlines lines := by
      rw [ending]
      exact List.mem_append_left blanks carriage
    rcases mem_unlines inside with same | ⟨line, member, here⟩
    · exact absurd same (by decide)
    · exact (whole line member).2 here
  rw [headingLevels, unifyLineEnds_eq_self unified, ← levels_lines_append blank, ← ending]
  by_cases empty : lines = []
  · rw [empty]
    rfl
  · rw [lines_unlines (fun line member => (whole line member).1) empty]

theorem exposed_self (lines : List Line) : exposed lines lines = [] := by
  induction lines with
  | nil => rfl
  | cons line rest ih =>
    rw [exposed_cons, ih, List.append_nil]
    cases line <;> rfl

/-- The first line that says something is not indented. -/
def StartsFlush (body : Text) : Prop :=
  ∀ first ∈ (told (lines (unifyLineEnds body))).head?, stripStart first = first

theorem exposedLevels_eq_nil {body : Text} (flush : StartsFlush body) : exposedLevels body = [] := by
  unfold exposedLevels
  cases toldLines : told (lines (unifyLineEnds body)) with
  | nil => rfl
  | cons first rest =>
    have same : stripStart first = first := flush first (by rw [toldLines]; rfl)
    simp only [List.modifyHead_cons, same, exposed_self]

section
variable {deepest : Int} (low : 1 ≤ deepest) (high : deepest ≤ 6) (depth : Int)
include low high

theorem forall_levels_modifyHead (lines : List Text) :
    (∀ level ∈ levels none ((renumberFrom deepest depth none lines).modifyHead stripStart),
        IsBelow deepest depth level) ↔
      ∀ level ∈ exposed (readLines none lines) (readLines none (lines.modifyHead stripStart)),
        IsBelow deepest depth level := by
  match lines with
  | [] => exact Iff.rfl
  | first :: rest =>
    rcases flush_or_exists_blank first with flush | ⟨c, tail, rfl, blank⟩
    · have start := (renumberLine_start low high depth none first).1
      have renumbered := forall_levels_renumberFrom low high depth isFence_none none (first :: rest)
      rw [renumberFrom_cons] at renumbered ⊢
      rw [List.modifyHead_cons, List.modifyHead_cons, stripStart_eq_self flush, stripStart_eq_self (start ▸ flush)]
      exact renumbered
    · obtain ⟨read, after⟩ := readLine_of_isBlank blank tail
      have later := forall_levels_renumberFrom low high depth
        (isFence_fenceAfter isFence_none (stripStart (c :: tail))) none rest
      rw [renumberFrom_cons, List.modifyHead_cons, List.modifyHead_cons, read, after, levels_cons, readLines, readLines, read, after,
        exposed_cons, List.forall_mem_append, List.forall_mem_append]
      exact and_congr Iff.rfl later

theorem mem_of_mem_renumberFrom {fence : Option Text} {lines : List Text} {line : Text}
    (member : line ∈ renumberFrom deepest depth fence lines) : ∃ before ∈ lines, ∀ c ∈ line, c ∈ before := by
  induction lines generalizing fence with
  | nil => cases member
  | cons first rest ih =>
    rcases List.mem_cons.mp member with rfl | later
    · exact ⟨first, List.mem_cons_self, (renumberLine_start low high depth fence first).2.2⟩
    · obtain ⟨before, inside, chars⟩ := ih later
      exact ⟨before, List.mem_cons_of_mem _ inside, chars⟩

omit low high in
theorem renumber_eq_unlines (body : Text) :
    Heading.renumber .asciiDoc deepest depth body =
      unlines (renumberFrom deepest depth none (lines (unifyLineEnds body))) := by
  cases body <;> rfl

/-- A renumbered and stripped body still consists of lines, and they end alike. -/
theorem whole_of_mem_modifyHead {body line : Text}
    (member : line ∈ (renumberFrom deepest depth none (told (lines (unifyLineEnds body)))).modifyHead stripStart) :
    '\n' ∉ line ∧ '\r' ∉ line := by
  have within : ∃ other ∈ renumberFrom deepest depth none (told (lines (unifyLineEnds body))),
      ∀ c ∈ line, c ∈ other := by
    cases told : renumberFrom deepest depth none (told (lines (unifyLineEnds body))) with
    | nil => rw [told] at member; cases member
    | cons first rest =>
      rw [told] at member
      rcases List.mem_cons.mp member with rfl | later
      · exact ⟨first, List.mem_cons_self, fun c inside => (List.dropWhile_sublist isBlank).subset inside⟩
      · exact ⟨line, List.mem_cons_of_mem _ later, fun c inside => inside⟩
  obtain ⟨other, renumbered, chars⟩ := within
  obtain ⟨before, toldLine, charsBefore⟩ := mem_of_mem_renumberFrom low high depth renumbered
  have inBody : before ∈ lines (unifyLineEnds body) := (List.dropWhile_sublist _).subset toldLine
  refine ⟨fun newline => notMem_of_mem_lines inBody (charsBefore _ (chars _ newline)), fun carriage => ?_⟩
  exact notMem_unifyLineEnds body (mem_of_mem_lines inBody (charsBefore _ (chars _ carriage)))

/-- The headings of a renumbered and stripped body are below its section just where those that come to light are. -/
theorem forall_headingLevels_strip_renumber (body : Text) :
    (∀ level ∈ headingLevels (strip (Heading.renumber .asciiDoc deepest depth body)),
        IsBelow deepest depth level) ↔
      ∀ level ∈ exposedLevels body, IsBelow deepest depth level := by
  rw [strip, renumber_eq_unlines, stripStart_unlines, told_renumberFrom low high depth,
    headingLevels_stripEnd_unlines fun line => whole_of_mem_modifyHead low high depth]
  exact forall_levels_modifyHead low high depth _

end

/-- An indented fence opens no verbatim block until it is stripped; what it holds then and what not is turned
around. -/
example : exposedLevels " ----\n= Held\n----\n= Let go" = [1] := by decide

end Bindery.Heading.AsciiDoc
