import Bindery.Heading.Body
import Bindery.Proofs.ExchangedLines
import Bindery.Proofs.RewrittenBlocks

/-! Renumbered headings of Markdown bodies read again. Renumbering takes the markers of quotes and items off a line by a
pattern of its own. Where that pattern takes what blocks begin with, every heading is found again in the same containers
and at its new level. -/

namespace Bindery.Markdown
open Text

/-! ### Null characters -/

/-- Characters as readers of blocks see them. -/
def shown (c : Char) : Char :=
  if c.toNat = 0 then Char.ofNat 0xfffd else c

theorem replaceNull_eq (text : Text) : replaceNull text = text.map shown := rfl

theorem shown_eq_self {c : Char} (other : c.toNat ≠ 0) : shown c = c :=
  if_neg other

theorem eq_null {c : Char} (null : c.toNat = 0) : c = Char.ofNat 0 := by
  rw [← null, Char.ofNat_toNat]

theorem shown_eq_iff {c d : Char} (nonzero : d.toNat ≠ 0) (plain : d.toNat ≠ 0xfffd) : shown c = d ↔ c = d := by
  unfold shown
  split
  next zero =>
    constructor
    · rintro rfl
      exact absurd rfl plain
    · rintro rfl
      exact absurd zero nonzero
  · exact Iff.rfl

/-- Classes of characters that a null character is as little in as what takes its place. -/
def Passes (p : Char → Bool) : Prop :=
  p (Char.ofNat 0) = p (Char.ofNat 0xfffd)

theorem Passes.comp_shown {p : Char → Bool} (passes : Passes p) : p ∘ shown = p := by
  funext c
  show p (shown c) = p c
  unfold shown
  split
  next zero => rw [eq_null zero, passes]
  · rfl

theorem dropWhile_replaceNull {p : Char → Bool} (passes : Passes p) (text : Text) :
    (replaceNull text).dropWhile p = replaceNull (text.dropWhile p) := by
  rw [replaceNull_eq, replaceNull_eq, List.dropWhile_map, passes.comp_shown]

theorem takeWhile_replaceNull {p : Char → Bool} (passes : Passes p) (text : Text) :
    (replaceNull text).takeWhile p = replaceNull (text.takeWhile p) := by
  rw [replaceNull_eq, replaceNull_eq, List.takeWhile_map, passes.comp_shown]

theorem length_replaceNull (text : Text) : (replaceNull text).length = text.length :=
  List.length_map shown

theorem drop_replaceNull (count : Nat) (text : Text) : (replaceNull text).drop count = replaceNull (text.drop count) :=
  (List.map_drop ..).symm

theorem passes_isGap : Passes isGap := by rw [Passes]; decide

theorem passes_isAsciiDigit : Passes isAsciiDigit := by rw [Passes]; decide

theorem endsMarker_replaceNull (text : Text) : endsMarker (replaceNull text) = endsMarker text := by
  cases text with
  | nil => rfl
  | cons c rest => exact congrFun passes_isGap.comp_shown c

theorem isQuoted_replaceNull (text : Text) : isQuoted (replaceNull text) = isQuoted text := by
  cases text with
  | nil => rfl
  | cons c rest =>
    have same : shown c = '>' ↔ c = '>' := shown_eq_iff (by decide) (by decide)
    simp [replaceNull_eq, isQuoted, same]

theorem replaceNull_eq_self {text : Text} (nonzero : ∀ c ∈ text, c.toNat ≠ 0) : replaceNull text = text :=
  map_eq_self fun c member => shown_eq_self (nonzero c member)

theorem listMarker?_replaceNull (text : Text) : listMarker? (replaceNull text) = listMarker? text := by
  have decimal : ∀ c ∈ text.takeWhile isAsciiDigit, isAsciiDigit c = true := fun c member => List.mem_takeWhile_imp member
  have digits : replaceNull (text.takeWhile isAsciiDigit) = text.takeWhile isAsciiDigit := by
    apply replaceNull_eq_self
    intro c member null
    have digit := decimal c member
    rw [eq_null null] at digit
    exact absurd digit (by decide)
  have stops := List.head?_dropWhile_not isAsciiDigit text
  have whole : text.takeWhile isAsciiDigit ++ text.dropWhile isAsciiDigit = text := List.takeWhile_append_dropWhile
  rw [← whole, replaceNull_eq, List.map_append, ← replaceNull_eq, digits]
  cases after : text.dropWhile isAsciiDigit with
  | nil => rfl
  | cons c rest =>
    have other : isAsciiDigit c = false := by simpa [after] using stops
    have other' : isAsciiDigit (shown c) = false := (congrFun passes_isAsciiDigit.comp_shown c).trans other
    rw [List.map_cons, ← replaceNull_eq, listMarker?_append decimal other, listMarker?_append decimal other', endsMarker_replaceNull]
    by_cases null : c.toNat = 0
    · rw [eq_null null]
      rfl
    · rw [shown_eq_self null]

theorem afterBlockMarkers_replaceNull (fuel : Nat) (text : Text) :
    afterBlockMarkers fuel (replaceNull text) = replaceNull (afterBlockMarkers fuel text) := by
  induction fuel generalizing text with
  | zero => exact dropWhile_replaceNull passes_isGap text
  | succ fuel ih =>
    simp only [afterBlockMarkers, dropWhile_replaceNull passes_isGap, isQuoted_replaceNull, listMarker?_replaceNull, drop_replaceNull, ih]
    split
    · rfl
    · split <;> rfl

end Bindery.Markdown

namespace Bindery.Heading.Markdown
open Text Bindery.Markdown

/-! ### Lines of headings -/

/-- The pattern for markers takes off a line what blocks begin with. -/
def Clear (line : Text) : Prop :=
  afterContainers line = afterBlockMarkers line.length line

theorem hashLevel?_replicate {level : Nat} (low : 1 ≤ level) (high : level ≤ 6) {rest : Text} (ends : endsMarker rest = true) :
    hashLevel? (List.replicate level '#' ++ rest) = some level := by
  have stops : rest.takeWhile (· = '#') = [] := by
    cases rest with
    | nil => rfl
    | cons c rest =>
      have other : c ≠ '#' := by
        rintro rfl
        exact absurd ends (by simp [endsMarker, isGap])
      simp [other]
  have marks : (List.replicate level '#' ++ rest).takeWhile (· = '#') = List.replicate level '#' := by
    rw [List.takeWhile_append_of_pos (by simp), stops, List.append_nil]
  unfold hashLevel?
  simp only [marks, List.length_replicate, List.drop_left' (List.length_replicate ..), ends, decide_eq_true low, decide_eq_true high,
    Bool.and_true, if_true]

/-- What remains after the hashes of a heading. -/
theorem of_hashLevel?_eq_some {content : Text} {level : Nat} (found : hashLevel? content = some level) :
    (content.takeWhile (· = '#')).length = level ∧ 1 ≤ level ∧ level ≤ 6 ∧ endsMarker (content.drop level) = true := by
  unfold hashLevel? at found
  obtain ⟨marks, same⟩ := Option.ite_none_right_eq_some.mp found
  have same : (content.takeWhile (· = '#')).length = level := Option.some.inj same
  rw [same] at marks
  simp only [Bool.and_eq_true, decide_eq_true_eq] at marks
  exact ⟨same, marks.1.1, marks.1.2, marks.2⟩

section
variable {deepest : Int} (low : 1 ≤ deepest) (high : deepest ≤ 6) (depth : Int)

/-- The level that a heading of a level gets. -/
def renumberedLevel (deepest depth : Int) (level : Nat) : Nat :=
  (targetLevel deepest depth level).toNat

include low in
theorem coe_renumberedLevel (level : Nat) : (renumberedLevel deepest depth level : Int) = targetLevel deepest depth level := by
  unfold renumberedLevel targetLevel
  omega

include low high in
theorem renumberedLevel_bounds (level : Nat) : 1 ≤ renumberedLevel deepest depth level ∧ renumberedLevel deepest depth level ≤ 6 := by
  unfold renumberedLevel targetLevel
  omega

theorem replaceNull_append (front back : Text) : replaceNull (front ++ back) = replaceNull front ++ replaceNull back :=
  List.map_append

theorem replaceNull_markers (level : Int) : replaceNull (markers '#' level) = List.replicate level.toNat '#' := by
  rw [markers, replaceNull_eq, List.map_replicate]
  rfl

include low high in
/-- The line of a heading has its container's markers still, and hashes of the new level after them. -/
theorem exists_hashes {heading : Bindery.Markdown.Heading} {line : Text} (begins : heading.Begins (replaceNull (afterContainers line))) :
    ∃ hashes, replaceNull (headingLine deepest depth heading line) = replaceNull (containerMarkers line) ++ hashes ∧
      hashLevel? hashes = some (renumberedLevel deepest depth heading.level) := by
  obtain ⟨positive, few⟩ := renumberedLevel_bounds low high depth heading.level
  unfold headingLine
  unfold Heading.Begins at begins
  cases style : heading.style with
  | hashes =>
    simp only [style] at begins ⊢
    obtain ⟨count, one, six, ends⟩ := of_hashLevel?_eq_some begins
    have marks : Passes (fun c => decide (c = '#')) := by rw [Passes]; decide
    rw [takeWhile_replaceNull marks, length_replaceNull] at count
    rw [drop_replaceNull] at ends
    refine ⟨_, ?_, hashLevel?_replicate positive few ends⟩
    simp only [replaceHashes, count, Nat.min_eq_left six, if_neg (Nat.ne_of_gt one)]
    rw [replaceNull_append, replaceNull_append, replaceNull_markers, List.append_assoc]
    rfl
  | underlined content =>
    simp only
    refine ⟨_, ?_, hashLevel?_replicate positive few ((endsMarker_replaceNull (' ' :: content.map fun c => if c = '\n' then ' ' else c)).trans rfl)⟩
    rw [writeOnOneLine, List.append_assoc, replaceNull_append, replaceNull_append, replaceNull_markers, List.append_assoc]
    rfl

omit low high in
theorem indent_ofText (number : Nat) (text : Text) : (Line.ofText number text).indent = (spanGap 0 0 text).2 := rfl

include low high in
theorem turned_headingLine {heading : Bindery.Markdown.Heading} {line : Text} (clear : Clear line) {number : Nat}
    (leads : Leads heading.Begins (Line.ofText number (replaceNull line))) (place : Nat) :
    Turned (renumberedLevel deepest depth heading.level) (Line.ofText number (replaceNull line))
      (Line.ofText place (replaceNull (headingLine deepest depth heading line))) := by
  have flush := Line.flush_ofText number (replaceNull line)
  have room : (Line.ofText number (replaceNull line)).content.length ≤ line.length := by
    rw [Line.content_ofText, ← length_replaceNull line]
    exact (List.dropWhile_sublist isGap).length_le
  obtain ⟨front, title, turnable, begins⟩ := leads.exists_turnable flush room
  have begun : Solid (front ++ title) := turnable.solid_content flush
  obtain ⟨content, same, solid, turns⟩ := turnable
  rw [Line.content_ofText] at content same
  rw [afterBlockMarkers_dropWhile, afterBlockMarkers_replaceNull, ← clear] at same
  obtain ⟨gap, rest, split, blank, dropped⟩ := exists_gap (replaceNull line)
  obtain rfl : rest = front ++ title := dropped.symm.trans content
  have containers : replaceNull (containerMarkers line) = gap ++ front := by
    have lengths : line.length - (afterContainers line).length = (gap ++ front).length := by
      rw [← length_replaceNull line, ← length_replaceNull (afterContainers line), ← same, split, ← List.append_assoc,
        List.length_append, Nat.add_sub_cancel]
    rw [containerMarkers, lengths, replaceNull_eq, List.map_take, ← replaceNull_eq, split, ← List.append_assoc, List.take_left]
  obtain ⟨hashes, text, hashed⟩ := exists_hashes low high depth (same ▸ begins)
  rw [containers, List.append_assoc] at text
  have begun' : Solid (front ++ hashes) := begun.exchange (solid_of_hashLevel? hashed)
  refine turns hashed ?_ ?_ rfl
  · rw [Line.content_ofText, text, dropWhile_isGap_append blank begun']
  · rw [indent_ofText, indent_ofText, text, split, spanGap_append blank begun', spanGap_append blank begun]

end

/-! ### All lines -/

/-- Lines of a text from a number on. -/
def readFrom : Nat → List Text → List Line
  | _, [] => []
  | number, text :: rest => Line.ofText number (replaceNull text) :: readFrom (number + 1) rest

theorem readLines_eq (lines : List Text) : readLines lines = readFrom 0 lines := by
  have shifted : ∀ (number : Nat) (lines : List Text),
      (lines.mapIdx fun place text => Line.ofText (number + place) (replaceNull text)) = readFrom number lines := by
    intro number lines
    induction lines generalizing number with
    | nil => rfl
    | cons text rest ih =>
      rw [List.mapIdx_cons, readFrom, ← ih (number + 1)]
      simp only [Nat.add_zero, Nat.add_assoc, Nat.add_comm 1]
  rw [← shifted 0 lines, readLines]
  simp only [Nat.zero_add]

theorem length_readFrom (number : Nat) (lines : List Text) : (readFrom number lines).length = lines.length := by
  induction lines generalizing number with
  | nil => rfl
  | cons text rest ih => exact congrArg Nat.succ (ih (number + 1))

theorem readFrom_append (number : Nat) (front back : List Text) :
    readFrom number (front ++ back) = readFrom number front ++ readFrom (number + front.length) back := by
  induction front generalizing number with
  | nil => rfl
  | cons text front ih =>
    rw [List.cons_append, readFrom, readFrom, ih, List.cons_append, List.length_cons, Nat.add_assoc, Nat.add_comm 1]

theorem mem_readFrom {number : Nat} {lines : List Text} {line : Line} (member : line ∈ readFrom number lines) :
    ∃ place text, lines[place]? = some text ∧ line = Line.ofText (number + place) (replaceNull text) := by
  induction lines generalizing number with
  | nil => cases member
  | cons text rest ih =>
    rcases List.mem_cons.mp member with rfl | later
    · exact ⟨0, text, rfl, rfl⟩
    · obtain ⟨place, other, found, rfl⟩ := ih later
      exact ⟨place + 1, other, found, by rw [Nat.add_assoc, Nat.add_comm 1]⟩

theorem ofText_mem_readFrom {number place : Nat} {lines : List Text} {text : Text} (found : lines[place]? = some text) :
    Line.ofText (number + place) (replaceNull text) ∈ readFrom number lines := by
  induction lines generalizing number place with
  | nil => cases found
  | cons first rest ih =>
    cases place with
    | zero =>
      obtain rfl := Option.some.inj found
      exact List.mem_cons_self
    | succ place =>
      have later : Line.ofText (number + 1 + place) (replaceNull text) ∈ readFrom (number + 1) rest := ih found
      rw [Nat.add_assoc, Nat.add_comm 1] at later
      exact List.mem_cons_of_mem _ later

section
variable {level : Nat → Nat} {headings : List Bindery.Markdown.Heading}

theorem rewritten_readFrom_append {number place : Nat} {front others : List Text} {rest : List Line}
    (later : Rewritten level (number + front.length) headings rest (readFrom (place + front.length) others)) :
    Rewritten level number headings (readFrom number front ++ rest) (readFrom place (front ++ others)) := by
  induction front generalizing number place with
  | nil => exact later
  | cons text front ih =>
    rw [List.length_cons, Nat.add_comm front.length, ← Nat.add_assoc, ← Nat.add_assoc] at later
    exact .kept ⟨place, rfl⟩ (ih later)

/-- One line in the place of each heading, and all other lines left alone. -/
theorem rewritten_exchanged {instead : Bindery.Markdown.Heading → Text} {lines : List Text} {first : Nat}
    (within : Within first headings lines.length)
    (turned : ∀ heading ∈ headings, ∀ line, lines[heading.start]? = some line → ∀ place,
      Turned (level heading.level) (Line.ofText heading.start (replaceNull line))
        (Line.ofText place (replaceNull (instead heading)))) (place : Nat) :
    Rewritten level first headings (readFrom first (lines.drop first))
      (readFrom place (exchanged instead lines first headings)) := by
  induction headings generalizing first place with
  | nil =>
    have kept : Rewritten level first [] (readFrom first (lines.drop first) ++ []) (readFrom place (lines.drop first ++ [])) :=
      rewritten_readFrom_append .nil
    rwa [List.append_nil, List.append_nil] at kept
  | cons heading more ih =>
    obtain ⟨after, nonempty, later⟩ := within
    have inside : heading.start < lines.length := Nat.lt_of_lt_of_le nonempty later.le
    rw [List.forall_mem_cons] at turned
    have before : first + (lines.extract first heading.start).length = heading.start := by
      rw [length_extract (Nat.le_of_lt inside), Nat.add_sub_cancel' after]
    have taken : heading.start + 1 + (lines.extract (heading.start + 1) heading.stop).length = heading.stop := by
      rw [length_extract later.le, Nat.add_sub_cancel' nonempty]
    rw [drop_eq_extract_append after, readFrom_append, exchanged]
    apply rewritten_readFrom_append
    rw [before, List.drop_eq_getElem_cons inside, readFrom, drop_eq_extract_append nonempty, readFrom_append, taken]
    apply Rewritten.turned rfl
    · rw [length_readFrom, taken]
    · exact turned.1 _ (List.getElem?_eq_getElem inside) _
    · exact ih later turned.2 _

end

theorem suffix_of_afterMarker? {line rest : Text} (found : afterMarker? line = some rest) : rest <:+ line := by
  unfold afterMarker? at found
  obtain ⟨other, kept, rfl⟩ := Option.map_eq_some_iff.mp found
  have same := (Option.filter_eq_some_iff.mp kept).1
  have within : (line.dropWhile isGap).drop ((line.dropWhile isGap).takeWhile isDecimal).length <:+ line :=
    (List.drop_suffix _ _).trans (List.dropWhile_suffix isGap)
  refine (List.dropWhile_suffix isGap).trans (List.IsSuffix.trans ?_ within)
  split at same
  next => cases same
  next c tail behind =>
    have inner : other = tail := by
      split at same
      · exact (Option.some.inj (Option.ite_none_right_eq_some.mp same).2).symm
      · exact (Option.some.inj (Option.ite_none_right_eq_some.mp same).2).symm
    rw [behind, inner]
    exact List.suffix_cons c tail

theorem afterContainers_suffix (line : Text) : afterContainers line <:+ line := by
  have after : ∀ (fuel : Nat) (line : Text), afterMarkers fuel line <:+ line := by
    intro fuel
    induction fuel with
    | zero => exact fun line => List.suffix_rfl
    | succ fuel ih =>
      intro line
      rw [afterMarkers]
      split
      next rest found => exact (ih rest).trans (suffix_of_afterMarker? found)
      next => exact List.dropWhile_suffix isGap
  exact after line.length line

/-- A heading's new line is made of its old one, or of its content on one line. -/
theorem mem_headingLine {deepest depth : Int} {heading : Bindery.Markdown.Heading} {line : Text} {c : Char}
    (member : c ∈ headingLine deepest depth heading line) :
    c ∈ line ∨ c = '#' ∨ c = ' ' ∨ c ≠ '\n' ∧ ∃ content, heading.style = .underlined content ∧ c ∈ content := by
  have containers : c ∈ containerMarkers line → c ∈ line := fun inside => (List.take_prefix _ line).subset inside
  have hash : ∀ {level}, c ∈ markers '#' level → c = '#' := fun inside => List.eq_of_mem_replicate inside
  unfold headingLine at member
  cases style : heading.style with
  | hashes =>
    simp only [style, replaceHashes] at member
    split at member
    · exact Or.inl member
    · rcases List.mem_append.mp member with front | title
      · exact (List.mem_append.mp front).imp containers fun inside => Or.inl (hash inside)
      · exact Or.inl ((afterContainers_suffix line).subset (List.mem_of_mem_drop title))
  | underlined content =>
    simp only [style, writeOnOneLine] at member
    rcases List.mem_append.mp member with front | title
    · rcases List.mem_append.mp front with front | space
      · exact (List.mem_append.mp front).imp containers fun inside => Or.inl (hash inside)
      · exact Or.inr (Or.inr (Or.inl (List.mem_singleton.mp space)))
    · obtain ⟨d, inside, same⟩ := List.mem_map.mp title
      split at same
      · exact Or.inr (Or.inr (Or.inl same.symm))
      next other =>
        subst same
        exact Or.inr (Or.inr (Or.inr ⟨other, content, rfl, inside⟩))

/-! ### Bodies -/

/-- The headings of a body, as its blocks are read. -/
def headingsOf (body : Text) : List Bindery.Markdown.Heading :=
  headings (lines (unifyLineEnds body))

/-- What renumbering needs of the lines around a heading. The pattern takes the markers before the heading as blocks do,
and the line before it ends in no other blanks than gaps: a definition that ends there once the lines of the heading
are gone would be stripped of them. -/
structure Regular (lines : List Text) (heading : Bindery.Markdown.Heading) : Prop where
  clear : ∀ line, lines[heading.start]? = some line → Clear line
  plain : ∀ place line, place + 1 = heading.start → lines[place]? = some line → EndsPlainly line

theorem endsPlainly_replaceNull {text : Text} (plain : EndsPlainly text) : EndsPlainly (replaceNull text) := by
  have blank : Passes isBlank := by rw [Passes]; decide
  intro c member
  rw [replaceNull_eq, List.rtakeWhile, ← List.map_reverse, ← replaceNull_eq, takeWhile_replaceNull blank, replaceNull_eq,
    ← List.map_reverse] at member
  obtain ⟨d, inside, rfl⟩ := List.mem_map.mp member
  have gap := plain d inside
  exact (congrFun passes_isGap.comp_shown d).trans gap

theorem notMem_replaceNull {text : Text} {c : Char} (nonzero : c.toNat ≠ 0) (plain : c.toNat ≠ 0xfffd) (other : c ∉ text) :
    c ∉ replaceNull text := by
  intro member
  obtain ⟨d, inside, same⟩ := List.mem_map.mp (replaceNull_eq text ▸ member)
  rw [(shown_eq_iff nonzero plain).mp same] at inside
  exact other inside

section
variable {lines : List Text} (whole : ∀ line ∈ lines, '\n' ∉ line ∧ '\r' ∉ line)
include whole

theorem numbered_readFrom {headed : Nat → Prop} (number : Nat)
    (plain : ∀ place line, headed (number + place + 1) → lines[place]? = some line → EndsPlainly line) :
    Numbered headed number (readFrom number lines) := by
  induction lines generalizing number with
  | nil => trivial
  | cons line rest ih =>
    rw [List.forall_mem_cons] at whole
    refine ⟨⟨rfl, ⟨?_, ?_, Line.flush_ofText _ _, fun next => ?_⟩⟩, ih whole.2 (number + 1) fun place other next found => ?_⟩
    · exact notMem_replaceNull (by decide) (by decide) whole.1.1
    · exact notMem_replaceNull (by decide) (by decide) whole.1.2
    · exact endsPlainly_replaceNull (plain 0 line next rfl)
    · refine plain (place + 1) other ?_ found
      rwa [show number + (place + 1) + 1 = number + 1 + place + 1 by omega]

omit whole in
theorem readWithin_lines {headed : Nat → Prop} (numbered : Numbered headed 0 (readFrom 0 lines)) :
    readWithin deepestNesting .outermost (readFrom 0 lines) = ⟨headings lines, (readFrom 0 lines).length⟩ := by
  have reach : ∀ line ∈ readFrom 0 lines, Context.outermost.edge ≤ line.indent := by
    intro line member
    obtain ⟨place, text, _, rfl⟩ := mem_readFrom member
    exact Int.natCast_nonneg _
  have positive : 0 < deepestNesting := by decide
  rw [← taken_readWithin positive (Int.le_refl 0) numbered reach, headings, readLines_eq]

omit whole in
theorem sound_headings {headed : Nat → Prop} (numbered : Numbered headed 0 (readFrom 0 lines)) :
    Sound 0 (readFrom 0 lines) ⟨headings lines, (readFrom 0 lines).length⟩ :=
  readWithin_lines numbered ▸ (sound_readWithin deepestNesting).1 (Int.le_refl 0) numbered

theorem numbered_lines : Numbered (fun _ => False) 0 (readFrom 0 lines) :=
  numbered_readFrom whole 0 nofun

theorem within_headings : Within 0 (headings lines) lines.length := by
  have within := (sound_headings (numbered_lines whole)).within
  rwa [length_readFrom, Nat.zero_add] at within

theorem renumber_eq_exchanged (deepest depth : Int) :
    renumber deepest depth lines =
      exchanged (fun heading => headingLine deepest depth heading (lines.getD heading.start [])) lines 0 (headings lines) :=
  renumberFrom_eq_exchanged (within_headings whole) fun _ _ => rfl

/-- The headings of renumbered lines are those of the lines, in the same containers and at their new levels. -/
theorem places_renumber {deepest : Int} (low : 1 ≤ deepest) (high : deepest ≤ 6) (depth : Int)
    (regular : ∀ heading ∈ headings lines, Regular lines heading) :
    (headings (renumber deepest depth lines)).map (fun heading => (heading.level, heading.path)) =
      (headings lines).map fun heading => (renumberedLevel deepest depth heading.level, heading.path) := by
  have numbered : Numbered (fun place => ∃ heading ∈ headings lines, heading.start = place) 0 (readFrom 0 lines) := by
    apply numbered_readFrom whole
    rintro place line ⟨heading, member, start⟩ found
    exact (regular heading member).plain place line (by omega) found
  have read := readWithin_lines numbered
  have turned : ∀ heading ∈ headings lines, ∀ line, lines[heading.start]? = some line → ∀ place,
      Turned (renumberedLevel deepest depth heading.level) (Line.ofText heading.start (replaceNull line))
        (Line.ofText place (replaceNull (headingLine deepest depth heading (lines.getD heading.start [])))) := by
    intro heading member line found
    rw [List.getD_eq_getElem?_getD, found, Option.getD_some]
    have among : Line.ofText (0 + heading.start) (replaceNull line) ∈ readFrom 0 lines := ofText_mem_readFrom found
    rw [Nat.zero_add] at among
    have leads := (sound_headings numbered).leads heading member _ among rfl
    exact turned_headingLine low high depth ((regular heading member).clear line found) leads.2
  have rewritten := rewritten_exchanged (within_headings whole) turned 0
  rw [← renumber_eq_exchanged whole, List.drop_zero] at rewritten
  have simulates : Simulates (renumberedLevel deepest depth) (readWithin deepestNesting) := simulates_readWithin _ _
  have renews := simulates.whole (show 0 ≤ Context.outermost.edge from Int.le_refl 0) numbered
    (by rw [read]; exact fun heading member => ⟨heading, member, rfl⟩) (by rw [read]) (by rw [read]; exact rewritten)
  rw [read] at renews
  have places := renews.places
  rwa [← readLines_eq] at places

/-- The content of an underlined heading is made of lines. -/
theorem notMem_of_underlined {heading : Bindery.Markdown.Heading} (found : heading ∈ headings lines) {content : Text}
    (style : heading.style = .underlined content) : '\r' ∉ content := by
  have bounds := (within_headings whole).bounds found
  have place : heading.start < lines.length := by omega
  have among : Line.ofText (0 + heading.start) (replaceNull lines[heading.start]) ∈ readFrom 0 lines :=
    ofText_mem_readFrom (List.getElem?_eq_getElem place)
  obtain ⟨_, begins⟩ := ((sound_headings (numbered_lines whole)).leads heading found _ among (Nat.zero_add heading.start)).2.exists_holds
  simpa only [Heading.Begins, style] using begins

theorem whole_of_mem_renumber {deepest depth : Int} {line : Text} (member : line ∈ renumber deepest depth lines) :
    '\n' ∉ line ∧ '\r' ∉ line := by
  rw [renumber_eq_exchanged whole] at member
  rcases mem_exchanged member with among | ⟨heading, found, rfl⟩
  · exact whole line among
  · have bounds := (within_headings whole).bounds found
    have inside : heading.start < lines.length := by omega
    have own : '\n' ∉ lines.getD heading.start [] ∧ '\r' ∉ lines.getD heading.start [] := by
      rw [← List.getElem_eq_getD (h := inside)]
      exact whole _ (List.getElem_mem inside)
    constructor
    · intro newline
      rcases mem_headingLine newline with old | hash | space | ⟨other, _⟩
      · exact own.1 old
      · exact absurd hash (by decide)
      · exact absurd space (by decide)
      · exact other rfl
    · intro carriage
      rcases mem_headingLine carriage with old | hash | space | ⟨_, content, style, inside⟩
      · exact own.2 old
      · exact absurd hash (by decide)
      · exact absurd space (by decide)
      · exact notMem_of_underlined whole found style inside

end

theorem headingsOf_nil : headingsOf [] = [] := by decide +kernel

/-- Lines of a body with the ends of lines unified hold no ends of lines. -/
theorem whole_of_mem_lines {body line : Text} (member : line ∈ lines (unifyLineEnds body)) : '\n' ∉ line ∧ '\r' ∉ line :=
  ⟨notMem_of_mem_lines member, fun carriage => notMem_unifyLineEnds body (mem_of_mem_lines member carriage)⟩

theorem renumber_eq_unlines (deepest depth : Int) (body : Text) :
    Heading.renumber .markdown deepest depth body = unlines (renumber deepest depth (lines (unifyLineEnds body))) := by
  by_cases empty : body = []
  · have headless : headings [[]] = [] := headingsOf_nil
    rw [empty]
    show [] = unlines (renumberFrom deepest depth (headings [[]]) 0 0 [[]])
    rw [headless]
    rfl
  · rw [Heading.renumber, if_neg (by simpa using empty)]

theorem lines_renumber (deepest depth : Int) (body : Text) :
    lines (Heading.renumber .markdown deepest depth body) = renumber deepest depth (lines (unifyLineEnds body)) := by
  have nonempty : renumber deepest depth (lines (unifyLineEnds body)) ≠ [] := by
    obtain ⟨first, rest, same⟩ := List.exists_cons_of_ne_nil (lines_ne_nil (unifyLineEnds body))
    rw [same, renumber, renumberFrom]
    split <;> exact List.cons_ne_nil _ _
  rw [renumber_eq_unlines]
  apply lines_unlines _ nonempty
  intro line member
  exact (whole_of_mem_renumber (fun _ => whole_of_mem_lines) member).1

theorem unifyLineEnds_renumber (deepest depth : Int) (body : Text) :
    unifyLineEnds (Heading.renumber .markdown deepest depth body) = Heading.renumber .markdown deepest depth body := by
  apply unifyLineEnds_eq_self
  intro carriage
  rw [renumber_eq_unlines] at carriage
  rcases mem_unlines carriage with newline | ⟨line, member, inside⟩
  · exact absurd newline (by decide)
  · exact (whole_of_mem_renumber (fun _ => whole_of_mem_lines) member).2 inside

/-- Every heading of a renumbered body is one of the body, in its containers and at its new level, as far as the lines
around the headings are regular. -/
theorem headingsOf_renumber {deepest : Int} (low : 1 ≤ deepest) (high : deepest ≤ 6) (depth : Int) {body : Text}
    (regular : ∀ heading ∈ headingsOf body, Regular (lines (unifyLineEnds body)) heading) :
    (headingsOf (Heading.renumber .markdown deepest depth body)).map (fun heading => ((heading.level : Int), heading.path)) =
      (headingsOf body).map fun heading => (targetLevel deepest depth heading.level, heading.path) := by
  have places := congrArg (List.map fun place : Nat × List Container => ((place.1 : Int), place.2))
    (places_renumber (fun _ => whole_of_mem_lines) low high depth regular)
  rw [List.map_map, List.map_map] at places
  rw [headingsOf, unifyLineEnds_renumber, lines_renumber]
  refine places.trans (List.map_congr_left fun heading _ => ?_)
  exact congrArg (fun level => (level, heading.path)) (coe_renumberedLevel low depth heading.level)

/-- A heading in a quote, and one in an item of an item that goes over two lines. -/
def nestedBody : Text :=
  "> #### Top\n\n1. - Next\n     part\n     ---\n"

theorem headingsOf_nestedBody : headingsOf nestedBody =
    [⟨0, 1, 4, .hashes, [.quote]⟩, ⟨2, 5, 2, .underlined "Next\npart", [.numberedItem, .bulletItem]⟩] := by decide +kernel

theorem lines_nestedBody : lines (unifyLineEnds nestedBody) = ["> #### Top", "", "1. - Next", "     part", "     ---", ""] := by
  decide +kernel

theorem nested_headings_renumbered :
    (∀ heading ∈ headingsOf nestedBody, Regular (lines (unifyLineEnds nestedBody)) heading) ∧
      (headingsOf (Heading.renumber .markdown 6 3 nestedBody)).map (fun heading => ((heading.level : Int), heading.path)) =
        [(5, [.quote]), (4, [.numberedItem, .bulletItem])] := by
  have regular : ∀ heading ∈ headingsOf nestedBody, Regular (lines (unifyLineEnds nestedBody)) heading := by
    rw [headingsOf_nestedBody, lines_nestedBody, List.forall_mem_cons, List.forall_mem_singleton]
    refine ⟨⟨?_, ?_⟩, ⟨?_, ?_⟩⟩
    · rintro _ ⟨⟩
      show afterContainers _ = _
      decide
    · intro place line before
      cases before
    · rintro _ ⟨⟩
      show afterContainers _ = _
      decide
    · intro place line before found
      obtain rfl : place = 1 := Nat.succ.inj before
      obtain rfl := Option.some.inj found
      intro c blank
      cases blank
  have renumbered := headingsOf_renumber (by decide : (1 : Int) ≤ 6) (Int.le_refl 6) 3 regular
  rw [headingsOf_nestedBody] at renumbered
  exact ⟨regular, renumbered⟩

/-- Hashes right behind a quote mark stay as they are, since the pattern wants a gap there. -/
example : (headingsOf (Heading.renumber .markdown 6 3 "># Top")).map (·.level) = [1] := by decide +kernel

end Bindery.Heading.Markdown
