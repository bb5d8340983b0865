import Bindery.Proofs.DocumentLines
import Bindery.Proofs.SectionHeadings

/-! Verbatim blocks in a document as a whole. Every body is renumbered by itself, from its first line on and outside of
any block, but it is read with all that stands before it. What is open at the heading of a section was left open by
bodies, and no heading closes it. -/

namespace Bindery
open Text

namespace Heading.AsciiDoc

/-- The verbatim block that is open behind lines. -/
def openAfter (fence : Option Text) (lines : List Text) : Option Text :=
  lines.foldl fenceAfter fence

theorem openAfter_cons (fence : Option Text) (line : Text) (rest : List Text) :
    openAfter fence (line :: rest) = openAfter (fenceAfter fence line) rest :=
  rfl

theorem openAfter_append (fence : Option Text) (front rest : List Text) :
    openAfter fence (front ++ rest) = openAfter (openAfter fence front) rest :=
  List.foldl_append

theorem readLines_append (fence : Option Text) (front rest : List Text) :
    readLines fence (front ++ rest) = readLines fence front ++ readLines (openAfter fence front) rest := by
  induction front generalizing fence with
  | nil => rfl
  | cons line front ih =>
    rw [List.cons_append, readLines, readLines, ih]
    rfl

theorem length_readLines (fence : Option Text) (lines : List Text) : (readLines fence lines).length = lines.length := by
  induction lines generalizing fence with
  | nil => rfl
  | cons line rest ih => rw [readLines, List.length_cons, List.length_cons, ih]

theorem isFence_openAfter {fence : Option Text} (sound : IsFence fence) (lines : List Text) :
    IsFence (openAfter fence lines) := by
  induction lines generalizing fence with
  | nil => exact sound
  | cons line rest ih => exact ih (isFence_fenceAfter sound line)

/-- Lines that neither start like a fence nor stand in a block leave none open. -/
theorem openAfter_eq_none {lines : List Text} (inert : ∀ line ∈ lines, ∀ c ∈ line.head?, c ∉ fenceMarks) :
    openAfter none lines = none := by
  induction lines with
  | nil => rfl
  | cons line rest ih =>
    obtain ⟨here, later⟩ := List.forall_mem_cons.mp inert
    have unopened : fenceAfter none line = none := by
      cases line with
      | nil => rfl
      | cons c tail => exact fenceOpened?_eq_none (here c rfl)
    rw [openAfter_cons, unopened, ih later]

theorem openAfter_flatMap {α : Type} {parts : List α} {linesOf : α → List Text}
    (closed : ∀ part ∈ parts, openAfter none (linesOf part) = none) : openAfter none (parts.flatMap linesOf) = none := by
  induction parts with
  | nil => rfl
  | cons part rest ih =>
    obtain ⟨here, later⟩ := List.forall_mem_cons.mp closed
    rw [List.flatMap_cons, openAfter_append, here, ih later]

/-- Nothing is open at the start of any part just where all parts but the last close what they open. -/
theorem forall_openAfter_eq_none_iff {α : Type} (parts : List α) (linesOf : α → List Text) :
    (∀ before part after, parts = before ++ part :: after → openAfter none (before.flatMap linesOf) = none) ↔
      ∀ part ∈ parts.dropLast, openAfter none (linesOf part) = none := by
  constructor
  · intro starts part member
    obtain ⟨before, after, split⟩ := List.append_of_mem member
    obtain ⟨shorter, last, rfl⟩ := List.eq_nil_or_concat parts |>.resolve_left (by
      rintro rfl
      cases member)
    rw [List.concat_eq_append, List.dropLast_concat] at split
    subst split
    -- The part ends where the one behind it starts.
    obtain ⟨next, rest, behind⟩ : ∃ next rest, after ++ [last] = next :: rest := by
      cases after with
      | nil => exact ⟨last, [], rfl⟩
      | cons next rest => exact ⟨next, rest ++ [last], rfl⟩
    have own : openAfter none (before.flatMap linesOf) = none :=
      starts before part (after ++ [last]) (by simp)
    have next : openAfter none ((before ++ [part]).flatMap linesOf) = none :=
      starts (before ++ [part]) next rest (by simp [← behind])
    rwa [List.flatMap_append, List.flatMap_singleton, openAfter_append, own] at next
  · intro closed before part after split
    apply openAfter_flatMap
    intro earlier member
    apply closed
    rw [split, List.dropLast_append_of_ne_nil (List.cons_ne_nil part after)]
    exact List.mem_append_left _ member

/-! ### Bodies -/

theorem fenceAfter_nil {fence : Option Text} (sound : IsFence fence) : fenceAfter fence [] = fence := by
  cases fence with
  | none => rfl
  | some closing =>
    obtain ⟨c, tail, rfl, _⟩ := sound closing rfl
    rfl

theorem fenceAfter_concat {c : Char} (blank : isBlank c = true) (fence : Option Text) (line : Text) :
    fenceAfter fence (line ++ [c]) = fenceAfter fence line := by
  cases fence <;> simp only [fenceAfter, fenceOpened?, stripEnd_concat blank]

/-- Blanks at the end of a text open no block and close none. -/
theorem openAfter_lines_append {blanks : Text} (blank : blanks.all isBlank = true) (text : Text) :
    openAfter none (lines (text ++ blanks)) = openAfter none (lines text) := by
  apply told_lines_append (openAfter none) _ _ blank
  · intro front
    rw [openAfter_append]
    exact fenceAfter_nil (isFence_openAfter isFence_none front)
  · intro front line c last
    rw [openAfter_append, openAfter_append]
    exact fenceAfter_concat last _ line

theorem openAfter_strip_unlines {lines : List Text} (whole : ∀ line ∈ lines, '\n' ∉ line) :
    openAfter none (Text.lines (strip (unlines lines))) = openAfter none ((told lines).modifyHead stripStart) := by
  obtain ⟨blanks, blank, ending⟩ := exists_stripEnd_append (unlines ((told lines).modifyHead stripStart))
  rw [strip, stripStart_unlines, ← openAfter_lines_append blank, ← ending]
  by_cases empty : (told lines).modifyHead stripStart = []
  · rw [empty]
    rfl
  · rw [lines_unlines _ empty]
    intro line member newline
    have kept : ∀ line ∈ told lines, '\n' ∉ line := fun line member => whole line ((List.dropWhile_sublist _).subset member)
    cases toldLines : told lines with
    | nil => exact empty (by rw [toldLines]; rfl)
    | cons first rest =>
      rw [toldLines] at member kept
      rcases List.mem_cons.mp member with rfl | later
      · exact kept first List.mem_cons_self ((List.dropWhile_sublist _).subset newline)
      · exact kept line (List.mem_cons_of_mem _ later) newline

/-- The verbatim block that a body leaves open once it is stripped. -/
def blockLeftOpen (body : Text) : Option Text :=
  openAfter none (lines (strip (unifyLineEnds body)))

section
variable {deepest : Int} (low : 1 ≤ deepest) (high : deepest ≤ 6) (depth : Int)
include low high

theorem openAfter_renumberFrom {again : Option Text} (sound : IsFence again) (fence : Option Text) (lines : List Text) :
    openAfter again (renumberFrom deepest depth fence lines) = openAfter again lines := by
  induction lines generalizing fence again with
  | nil => rfl
  | cons line rest ih =>
    have after := (readLine_renumberLine low high depth sound fence line).1
    rw [renumberFrom_cons, openAfter_cons, openAfter_cons, after]
    exact ih (isFence_fenceAfter sound line) (fenceAfter fence line)

theorem openAfter_modifyHead (lines : List Text) :
    openAfter none ((renumberFrom deepest depth none lines).modifyHead stripStart) =
      openAfter none (lines.modifyHead stripStart) := by
  cases lines with
  | nil => rfl
  | cons first rest =>
    rcases flush_or_exists_blank first with flush | ⟨c, tail, rfl, blank⟩
    · have start := (renumberLine_start low high depth none first).1
      have renumbered := openAfter_renumberFrom low high depth isFence_none none (first :: rest)
      rw [renumberFrom_cons] at renumbered ⊢
      rwa [List.modifyHead_cons, List.modifyHead_cons, stripStart_eq_self flush, stripStart_eq_self (start ▸ flush)]
    · -- An indented line is no heading, so it is stripped as it was.
      obtain ⟨read, after⟩ := readLine_of_isBlank blank tail
      rw [renumberFrom_cons, List.modifyHead_cons, List.modifyHead_cons, read, after]
      exact openAfter_renumberFrom low high depth (isFence_fenceAfter isFence_none (stripStart (c :: tail))) none rest

theorem whole_of_mem_renumberFrom {body line : Text}
    (member : line ∈ renumberFrom deepest depth none (lines (unifyLineEnds body))) : '\n' ∉ line := by
  intro newline
  obtain ⟨before, inside, chars⟩ := mem_of_mem_renumberFrom low high depth member
  exact notMem_of_mem_lines inside (chars _ newline)

theorem notMem_renumber (body : Text) : '\r' ∉ Heading.renumber .asciiDoc deepest depth body := by
  intro carriage
  rw [renumber_eq_unlines] at carriage
  rcases mem_unlines carriage with same | ⟨line, member, here⟩
  · exact absurd same (by decide)
  · obtain ⟨original, kept, chars⟩ := mem_of_mem_renumberFrom low high depth member
    exact notMem_unifyLineEnds body (mem_of_mem_lines kept (chars _ here))

/-- Renumbering neither opens nor closes a block. -/
theorem openAfter_strip_renumber (body : Text) :
    openAfter none (lines (strip (Heading.renumber .asciiDoc deepest depth body))) = blockLeftOpen body := by
  have whole : ∀ line ∈ lines (unifyLineEnds body), '\n' ∉ line := fun line => notMem_of_mem_lines
  rw [renumber_eq_unlines, openAfter_strip_unlines (fun line => whole_of_mem_renumberFrom low high depth),
    told_renumberFrom low high depth,
    openAfter_modifyHead low high depth, ← openAfter_strip_unlines whole, unlines_lines]
  rfl

theorem notMem_strip_renumber (body : Text) : '\r' ∉ strip (Heading.renumber .asciiDoc deepest depth body) := by
  intro inside
  have before : '\r' ∈ Heading.renumber .asciiDoc deepest depth body := by
    obtain ⟨blanks, _, ending⟩ := exists_stripEnd_append (stripStart (Heading.renumber .asciiDoc deepest depth body))
    apply (List.dropWhile_sublist isBlank).subset
    rw [← stripStart, ending]
    exact List.mem_append_left blanks inside
  exact notMem_renumber low high depth body before

end

/-! ### Headings of sections -/

/-- Past spaces and tabs, a heading starts with something that is no blank. -/
def StartsSolid (heading : Text) : Prop :=
  ∃ c ∈ (heading.dropWhile isGap).head?, isBlank c = false

theorem level?_readLine_iff {depth : Nat} (atLeastOne : 1 ≤ depth) (atMostSix : depth ≤ 6) (heading : Text) :
    (readLine none (List.replicate depth '=' ++ " " ++ heading)).level? = some depth ↔ StartsSolid heading := by
  constructor
  · intro found
    rcases readLine_cases none (List.replicate depth '=' ++ " " ++ heading) with
      ⟨marker, level, gap, title, _, read, parts, text⟩ | ⟨headless, _⟩
    · rw [read] at found
      obtain rfl : level = depth := Option.some.inj found
      rw [Line.toText, List.append_assoc, List.append_assoc] at text
      obtain ⟨_, behind⟩ := List.append_inj text (by simp)
      obtain ⟨c, rest, rfl, present⟩ := parts.present
      have title : heading.dropWhile isGap = c :: rest := by
        have skipped : (' ' :: heading).dropWhile isGap = heading.dropWhile isGap := List.dropWhile_cons_of_pos (by decide)
        rw [← skipped]
        show (" " ++ heading : Text).dropWhile isGap = _
        rw [behind, dropWhile_append_of_stop parts.blankGap (isGap_of_not_isBlank present)]
      exact ⟨c, by rw [title]; rfl, present⟩
    · rw [headless] at found
      cases found
  · rintro ⟨c, first, present⟩
    obtain ⟨rest, title⟩ := List.head?_eq_some_iff.mp first
    have parts : IsHeading '=' depth (' ' :: heading.takeWhile isGap) (c :: rest) :=
      { marked := by decide
        atLeastOne := atLeastOne
        atMostSix := atMostSix
        separate := List.cons_ne_nil _ _
        blankGap := List.forall_mem_cons.mpr ⟨by decide, fun g member => List.mem_takeWhile_imp member⟩
        present := ⟨c, rest, rfl, present⟩ }
    have text : List.replicate depth '=' ++ " " ++ heading =
        (Line.heading '=' depth (' ' :: heading.takeWhile isGap) (c :: rest)).toText := by
      rw [Line.toText, ← title, List.append_assoc, List.append_assoc, List.cons_append, List.takeWhile_append_dropWhile]
      rfl
    rw [text, parts.readLine_toText]
    rfl

/-- Nothing is recognised as a heading while a block is open. -/
theorem eq_none_of_level? {fence : Option Text} {line : Text} {level : Nat} (read : (readLine fence line).level? = some level) :
    fence = none := by
  cases fence with
  | none => rfl
  | some closing => cases read

end Heading.AsciiDoc

namespace Document
open Heading.AsciiDoc

/-- Neither feed nor return. -/
def IsOneLine (text : Text) : Prop :=
  '\n' ∉ text ∧ '\r' ∉ text

instance (text : Text) : Decidable (IsOneLine text) :=
  inferInstanceAs (Decidable (_ ∧ _))

/-- Title, values and headings take one line each. -/
structure IsUnbroken (document : Document) : Prop where
  title : IsOneLine document.title
  frontMatter : ∀ field ∈ document.frontMatter, IsOneLine field.value
  metadata : ∀ field ∈ document.metadataFields, IsOneLine field.value
  headings : ∀ part ∈ document.preorder, IsOneLine part.heading

/-- The lines of a document before the heading of a section, by the sections before it. -/
def linesAhead (document : Document) (before : List Section) : List Text :=
  AsciiDoc.frontLines document ++ before.flatMap (sectionLines '=')

theorem isOneLine_append {front rest : Text} : IsOneLine (front ++ rest) ↔ IsOneLine front ∧ IsOneLine rest := by
  simp only [IsOneLine, List.mem_append, not_or]
  tauto

theorem mem_endAllButLast {ending line : Text} {lines : List Text} (member : line ∈ endAllButLast ending lines) :
    ∃ before ∈ lines, line = before ∨ line = before ++ ending := by
  fun_induction endAllButLast ending lines with
  | case1 => cases member
  | case2 last => exact ⟨last, List.mem_cons_self, Or.inl (List.mem_singleton.mp member)⟩
  | case3 first rest _ ih =>
    rcases List.mem_cons.mp member with rfl | later
    · exact ⟨first, List.mem_cons_self, Or.inr rfl⟩
    · obtain ⟨before, inside, same⟩ := ih later
      exact ⟨before, List.mem_cons_of_mem _ inside, same⟩

/-! ### Lines before the sections -/

theorem mem_partLines_unlines {written : List Text} (whole : ∀ line ∈ written, IsOneLine line) {line : Text}
    (member : line ∈ partLines (unlines written)) : line ∈ written ∨ line = [] := by
  by_cases empty : written = []
  · subst empty
    exact Or.inr (by simpa [partLines, lines_nil] using member)
  · rw [partLines, lines_unlines (fun line inside => (whole line inside).1) empty] at member
    exact (List.mem_append.mp member).imp id List.mem_singleton.mp

/-- The lines of the metadata, where there are any. -/
def metadataLines (document : Document) : List Text :=
  "[.book-metadata]" :: ("== " ++ metadataHeading) :: [] ::
    endAllButLast " +" (document.metadataFields.map AsciiDoc.metadataLine)

theorem metadata_eq (document : Document) :
    AsciiDoc.metadata document = [] ∨ AsciiDoc.metadata document = unlines (metadataLines document) := by
  rw [AsciiDoc.metadata]
  split
  next => exact Or.inl rfl
  next => exact Or.inr rfl

/-- What a line of the header or of the metadata is: unbroken, and started by something that no fence starts with. -/
def IsFrontLine (line : Text) : Prop :=
  IsOneLine line ∧ ∀ c ∈ line.head?, c ∉ fenceMarks

theorem isFrontLine_nil : IsFrontLine [] :=
  ⟨by decide, nofun⟩

theorem isFrontLine_cons {c : Char} {rest : Text} (plain : IsOneLine [c]) (other : c ∉ fenceMarks) (whole : IsOneLine rest) :
    IsFrontLine (c :: rest) := by
  refine ⟨isOneLine_append.mpr ⟨plain, whole⟩, ?_⟩
  intro first head
  obtain rfl := Option.some.inj head
  exact other

section
variable {document : Document} (unbroken : document.IsUnbroken)
  (keyed : ∀ field ∈ document.frontMatter ++ document.metadataFields, IsOneLine field.key)
include unbroken keyed

theorem isFrontLine_of_mem_header {line : Text} (member : line ∈ AsciiDoc.statements document) : IsFrontLine line := by
  rcases List.mem_cons.mp member with rfl | later
  · have whole : IsOneLine (" " ++ document.title) := isOneLine_append.mpr ⟨by decide, unbroken.title⟩
    show IsFrontLine ('=' :: (" " ++ document.title))
    exact isFrontLine_cons (by decide) (by decide) whole
  · obtain ⟨field, kept, rfl⟩ := List.mem_map.mp later
    have present : field ∈ document.frontMatter := List.mem_of_mem_filter kept
    have key := keyed field (List.mem_append_left _ present)
    have whole : IsOneLine (field.key ++ ": " ++ field.value) :=
      isOneLine_append.mpr ⟨isOneLine_append.mpr ⟨key, by decide⟩, unbroken.frontMatter field present⟩
    show IsFrontLine (':' :: (field.key ++ ": " ++ field.value))
    exact isFrontLine_cons (by decide) (by decide) whole

theorem isFrontLine_of_mem_metadata {line : Text} (member : line ∈ metadataLines document) : IsFrontLine line := by
  rcases List.mem_cons.mp member with rfl | member
  · exact isFrontLine_cons (by decide) (by decide) (by decide)
  rcases List.mem_cons.mp member with rfl | member
  · exact isFrontLine_cons (by decide) (by decide) (by decide)
  rcases List.mem_cons.mp member with rfl | member
  · exact isFrontLine_nil
  obtain ⟨before, written, ended⟩ := mem_endAllButLast member
  obtain ⟨field, present, rfl⟩ := List.mem_map.mp written
  have key := keyed field (List.mem_append_right _ present)
  have whole : IsOneLine (field.key ++ ":* " ++ field.value) :=
    isOneLine_append.mpr ⟨isOneLine_append.mpr ⟨key, by decide⟩, unbroken.metadata field present⟩
  rcases ended with rfl | rfl
  · show IsFrontLine ('*' :: (field.key ++ ":* " ++ field.value))
    exact isFrontLine_cons (by decide) (by decide) whole
  · show IsFrontLine ('*' :: (field.key ++ ":* " ++ field.value ++ " +"))
    exact isFrontLine_cons (by decide) (by decide) (isOneLine_append.mpr ⟨whole, by decide⟩)

theorem isFrontLine_of_mem {line : Text} (member : line ∈ AsciiDoc.frontLines document) : IsFrontLine line := by
  have headed : ∀ line ∈ AsciiDoc.statements document, IsFrontLine line := fun line =>
    isFrontLine_of_mem_header unbroken keyed
  have written : ∀ line ∈ metadataLines document, IsFrontLine line := fun line =>
    isFrontLine_of_mem_metadata unbroken keyed
  rw [AsciiDoc.frontLines, List.mem_append, AsciiDoc.header_eq] at member
  rcases member with inHeader | inMetadata
  · rcases mem_partLines_unlines (fun line inside => (headed line inside).1) inHeader with inside | rfl
    · exact headed line inside
    · exact isFrontLine_nil
  · obtain ⟨part, kept, inPart⟩ := List.mem_flatMap.mp inMetadata
    obtain rfl := List.mem_singleton.mp (List.mem_of_mem_filter kept)
    rcases metadata_eq document with absent | present
    · rw [absent] at kept
      cases kept
    · rw [present] at inPart
      rcases mem_partLines_unlines (fun line inside => (written line inside).1) inPart with inside | rfl
      · exact written line inside
      · exact isFrontLine_nil

end

/-! ### Lines of sections -/

section
variable {part : Section} (whole : IsOneLine part.heading)
include whole

theorem isOneLine_headingLine : IsOneLine (headingLine '=' part) := by
  refine isOneLine_append.mpr ⟨isOneLine_append.mpr ⟨?_, by decide⟩, whole⟩
  exact ⟨fun newline => absurd (List.eq_of_mem_replicate newline) (by decide),
    fun carriage => absurd (List.eq_of_mem_replicate carriage) (by decide)⟩

theorem sectionLines_eq :
    sectionLines '=' part = headingLine '=' part :: [] :: if part.body.isEmpty then [] else partLines part.body := by
  rw [sectionLines, sectionParts, List.flatMap_cons, partLines, lines_of_notMem (isOneLine_headingLine whole).1]
  cases part.body.isEmpty with
  | true => rfl
  | false => simp

theorem openAfter_sectionLines (atLeastOne : 1 ≤ part.depth) :
    openAfter none (sectionLines '=' part) = openAfter none (lines part.body) := by
  obtain ⟨count, depth⟩ := Nat.exists_eq_add_of_le' atLeastOne
  have unopened : fenceAfter none (headingLine '=' part) = none := by
    rw [headingLine, depth]
    exact fenceOpened?_eq_none (by decide)
  rw [sectionLines_eq whole, openAfter_cons, unopened, openAfter_cons, fenceAfter_nil isFence_none]
  cases body : part.body with
  | nil => rfl
  | cons c rest =>
    rw [List.isEmpty_cons, if_neg Bool.false_ne_true, partLines, openAfter_append]
    exact fenceAfter_nil (isFence_openAfter isFence_none _)

theorem notMem_of_mem_sectionLines (unified : '\r' ∉ part.body) {line : Text} (member : line ∈ sectionLines '=' part) :
    '\r' ∉ line := by
  rw [sectionLines_eq whole] at member
  rcases List.mem_cons.mp member with rfl | later
  · exact (isOneLine_headingLine whole).2
  rcases List.mem_cons.mp later with rfl | later
  · exact List.not_mem_nil
  split at later
  · cases later
  · rcases List.mem_append.mp later with inBody | behind
    · exact fun carriage => unified (mem_of_mem_lines inBody carriage)
    · rw [List.mem_singleton.mp behind]
      exact List.not_mem_nil

end

/-! ### Documents read from the first line on -/

def scan (text : Text) : List Line :=
  readLines none (lines (unifyLineEnds text))

/-- The verbatim block that is open where a text has come to a line. -/
def openAt (text : Text) (place : Nat) : Option Text :=
  openAfter none ((lines (unifyLineEnds text)).take place)

/-- Where the heading of a section stands among the lines of a document, by the sections before it. -/
def headingPlace (document : Document) (before : List Section) : Nat :=
  (linesAhead document before).length

/-- No block is open at the heading of any section. -/
def IsReached (document : Document) : Prop :=
  ∀ before part after, document.preorder = before ++ part :: after →
    openAt document.toAsciiDoc (document.headingPlace before) = none

/-- The heading of every section is one of its depth. -/
def IsRecognised (document : Document) : Prop :=
  ∀ before part after, document.preorder = before ++ part :: after →
    (scan document.toAsciiDoc)[document.headingPlace before]?.bind Line.level? = some part.depth

/-- What bodies and field names of an assembled document are like. -/
structure IsRegular (document : Document) : Prop where
  keyed : ∀ field ∈ document.frontMatter ++ document.metadataFields, IsOneLine field.key
  unified : ∀ part ∈ document.preorder, '\r' ∉ part.body
  atLeastOne : ∀ part ∈ document.preorder, 1 ≤ part.depth
  atMostSix : ∀ part ∈ document.preorder, part.depth ≤ 6

section
variable {document : Document} (regular : document.IsRegular) (unbroken : document.IsUnbroken)
include regular unbroken

theorem notMem_toAsciiDoc : '\r' ∉ document.toAsciiDoc := by
  intro carriage
  rw [← unlines_lines document.toAsciiDoc] at carriage
  rcases mem_unlines carriage with same | ⟨line, member, inside⟩
  · exact absurd same (by decide)
  rw [AsciiDoc.lines_toAsciiDoc, List.mem_append] at member
  rcases member with front | behind
  · exact (isFrontLine_of_mem unbroken regular.keyed front).1.2 inside
  · obtain ⟨part, present, line⟩ := List.mem_flatMap.mp behind
    exact notMem_of_mem_sectionLines (unbroken.headings part present) (regular.unified part present) line inside

section
variable {before after : List Section} {part : Section} (split : document.preorder = before ++ part :: after)
include split

theorem exists_lines_eq :
    ∃ behind, lines (unifyLineEnds document.toAsciiDoc) = linesAhead document before ++ headingLine '=' part :: behind := by
  have present : part ∈ document.preorder := split ▸ List.mem_append_right before List.mem_cons_self
  have own := sectionLines_eq (unbroken.headings part present)
  rw [unifyLineEnds_eq_self (notMem_toAsciiDoc regular unbroken), AsciiDoc.lines_toAsciiDoc, split, List.flatMap_append,
    List.flatMap_cons, own, List.cons_append, ← List.append_assoc]
  exact ⟨_, rfl⟩

theorem openAt_headingPlace :
    openAt document.toAsciiDoc (document.headingPlace before) = openAfter none (before.flatMap (sectionLines '=')) := by
  obtain ⟨behind, whole⟩ := exists_lines_eq regular unbroken split
  have front : openAfter none (AsciiDoc.frontLines document) = none :=
    openAfter_eq_none fun line member => (isFrontLine_of_mem unbroken regular.keyed member).2
  rw [openAt, whole, headingPlace, List.take_left, linesAhead, openAfter_append, front]

theorem level?_headingPlace_iff :
    (scan document.toAsciiDoc)[document.headingPlace before]?.bind Line.level? = some part.depth ↔
      openAt document.toAsciiDoc (document.headingPlace before) = none ∧ StartsSolid part.heading := by
  have present : part ∈ document.preorder := split ▸ List.mem_append_right before List.mem_cons_self
  obtain ⟨behind, whole⟩ := exists_lines_eq regular unbroken split
  have reading : (scan document.toAsciiDoc)[document.headingPlace before]? =
      some (readLine (openAt document.toAsciiDoc (document.headingPlace before)) (headingLine '=' part)) := by
    rw [scan, openAt, whole, headingPlace, List.take_left, readLines_append, List.getElem?_append_right (length_readLines _ _).le,
      length_readLines, Nat.sub_self]
    rfl
  have solid := level?_readLine_iff (regular.atLeastOne part present) (regular.atMostSix part present) part.heading
  rw [reading, Option.bind_some]
  constructor
  · intro read
    have closed := eq_none_of_level? read
    rw [closed] at read ⊢
    exact ⟨rfl, solid.mp read⟩
  · rintro ⟨closed, starts⟩
    rw [closed]
    exact solid.mpr starts

end

theorem isReached_iff :
    document.IsReached ↔ ∀ part ∈ document.preorder.dropLast, openAfter none (lines part.body) = none := by
  have starts : document.IsReached ↔ ∀ before part after, document.preorder = before ++ part :: after →
      openAfter none (before.flatMap (sectionLines '=')) = none := by
    apply forall₃_congr
    intro before part after
    apply forall_congr'
    intro split
    rw [openAt_headingPlace regular unbroken split]
  rw [starts, forall_openAfter_eq_none_iff]
  apply forall₂_congr
  intro part earlier
  have present : part ∈ document.preorder := (List.dropLast_sublist _).subset earlier
  rw [openAfter_sectionLines (unbroken.headings part present) (regular.atLeastOne part present)]

theorem isRecognised_iff :
    document.IsRecognised ↔ document.IsReached ∧ ∀ part ∈ document.preorder, StartsSolid part.heading := by
  constructor
  · intro recognised
    constructor
    · intro before part after split
      exact ((level?_headingPlace_iff regular unbroken split).mp (recognised before part after split)).1
    · intro part member
      obtain ⟨before, after, split⟩ := List.append_of_mem member
      exact ((level?_headingPlace_iff regular unbroken split).mp (recognised before part after split)).2
  · rintro ⟨reached, solid⟩ before part after split
    have present : part ∈ document.preorder := split ▸ List.mem_append_right before List.mem_cons_self
    exact (level?_headingPlace_iff regular unbroken split).mpr ⟨reached before part after split, solid part present⟩

end
end Document

namespace Compositor
open Heading.AsciiDoc Document

theorem map_eq_map_of_forall₂ {nodes : List Node} {parts : List Section} {α : Type} {ofNode : Node → α} {ofPart : Section → α}
    (mirrored : List.Forall₂ (fun node part => ofPart part = ofNode node) nodes parts) : parts.map ofPart = nodes.map ofNode := by
  induction mirrored with
  | nil => rfl
  | cons here rest ih => rw [List.map_cons, List.map_cons, here, ih]

section
variable {compositor : Compositor} (asciiDoc : compositor.markup = .asciiDoc) (room : 3 ≤ compositor.deepest)
  (known : compositor.deepest ≤ 6)
include asciiDoc room known

theorem isRegular_of_assemble {isTrueRoot : Bool} {reference : Option Text} {graph : ContentGraph} {document : Document}
    (assembled : compositor.assemble isTrueRoot reference graph = .ok document)
    (sections : document.sections = mirrorAll compositor 0 graph.entries) : document.IsRegular := by
  have mirrored : List.Forall₂ (fun _ part => '\r' ∉ part.body ∧ 1 ≤ part.depth ∧ part.depth ≤ 6)
      graph.nodes document.preorder := by
    rw [Document.preorder, sections]
    refine forall₂_mirrorAll (fun nesting node children => ?_) 0 graph.entries
    obtain ⟨_, lower, upper⟩ := cast_depth_sectionFor room known nesting node children
    refine ⟨?_, by omega, by omega⟩
    rw [sectionFor, asciiDoc]
    exact notMem_strip_renumber (by omega) known _ node.body
  have each : ∀ part ∈ document.preorder, '\r' ∉ part.body ∧ 1 ≤ part.depth ∧ part.depth ≤ 6 := by
    intro part member
    obtain ⟨_, _, holds⟩ := exists_node_of_mem mirrored member
    exact holds
  obtain ⟨frontMatter, metadata⟩ := fields_of_assemble assembled
  refine ⟨?_, fun part member => (each part member).1, fun part member => (each part member).2.1,
    fun part member => (each part member).2.2⟩
  rw [List.forall_mem_append]
  constructor
  · intro field member
    rw [frontMatter] at member
    exact (frontMatterKeys_plain field.key (mem_frontMatterKeys member)).2
  · intro field member
    rw [metadataFields, metadata] at member
    cases isTrueRoot with
    | true => exact metadataKeys_plain field.key (mem_metadataKeys member)
    | false => cases member

/-- Every heading of an assembled document stands on a line of its own. At none of them is a block open just where
every body but the last closes the blocks that it opens; and then they are recognised if they start solid. -/
theorem sections_recognised_iff (isTrueRoot : Bool) (reference : Option Text) (graph : ContentGraph) :
    ∃ document, compositor.assemble isTrueRoot reference graph = .ok document ∧ (document.IsUnbroken →
      (∀ before part after, document.preorder = before ++ part :: after →
        (lines (unifyLineEnds document.toAsciiDoc))[document.headingPlace before]? = some (headingLine '=' part)) ∧
      (document.IsReached ↔ ∀ node ∈ graph.nodes.dropLast, blockLeftOpen node.body = none) ∧
      (document.IsRecognised ↔ (∀ node ∈ graph.nodes.dropLast, blockLeftOpen node.body = none) ∧
        ∀ node ∈ graph.nodes, StartsSolid (compositor.headingText node))) := by
  obtain ⟨document, assembled, sections⟩ := exists_assemble room known isTrueRoot reference graph
  have regular := isRegular_of_assemble asciiDoc room known assembled sections
  refine ⟨document, assembled, fun unbroken => ?_⟩
  have bodies : document.preorder.map (fun part => openAfter none (lines part.body)) =
      graph.nodes.map fun node => blockLeftOpen node.body := by
    rw [Document.preorder, sections]
    refine map_eq_map_of_forall₂ (forall₂_mirrorAll (fun nesting node children => ?_) 0 graph.entries)
    rw [sectionFor, asciiDoc]
    exact openAfter_strip_renumber (by omega) known _ node.body
  have headings : document.preorder.map Section.heading = graph.nodes.map compositor.headingText := by
    rw [Document.preorder, sections]
    exact map_eq_map_of_forall₂ (forall₂_mirrorAll (fun _ _ _ => rfl) 0 graph.entries)
  have reached : document.IsReached ↔ ∀ node ∈ graph.nodes.dropLast, blockLeftOpen node.body = none := by
    have closed : ∀ {α : Type} (items : List α) (block : α → Option Text),
        (∀ item ∈ items.dropLast, block item = none) ↔ ∀ left ∈ (items.map block).dropLast, left = none := by
      intro α items block
      rw [← List.map_dropLast, List.forall_mem_map]
    rw [isReached_iff regular unbroken, closed, bodies, ← closed]
  have solid : (∀ part ∈ document.preorder, StartsSolid part.heading) ↔
      ∀ node ∈ graph.nodes, StartsSolid (compositor.headingText node) := by
    rw [← List.forall_mem_map, headings, List.forall_mem_map]
  refine ⟨fun before part after split => ?_, reached, ?_⟩
  · obtain ⟨behind, whole⟩ := exists_lines_eq regular unbroken split
    rw [whole, headingPlace, List.getElem?_append_right le_rfl, Nat.sub_self]
    rfl
  · rw [isRecognised_iff regular unbroken, reached, solid]

end

def bookOfTwoChapters : ContentGraph where
  root := ⟨"work-1", "alice", .index, some 30040, [⟨"d", "work"⟩, ⟨"title", "Work"⟩], "", 0⟩
  entries :=
    [.leaf ⟨"chapter-1", "alice", .leaf, some 30041, [⟨"d", "first"⟩, ⟨"title", "First"⟩], "----\nopen", 0⟩,
     .leaf ⟨"chapter-2", "alice", .leaf, some 30041, [⟨"d", "second"⟩, ⟨"title", "Second"⟩], "text", 0⟩]

/-- The block that the first chapter opens is still open at the heading of the second. -/
theorem open_block_swallows_section :
    ∃ document, plainCompositor.assemble true none bookOfTwoChapters = .ok document ∧ document.IsUnbroken ∧
      ¬ document.IsReached ∧ ¬ document.IsRecognised := by
  have asciiDoc : plainCompositor.markup = .asciiDoc := rfl
  obtain ⟨document, assembled, reads⟩ :=
    sections_recognised_iff asciiDoc (by decide) (by decide) true none bookOfTwoChapters
  have unbroken : document.IsUnbroken := by
    cases assembled
    constructor <;> decide
  obtain ⟨_, reached, recognised⟩ := reads unbroken
  have left : ¬ ∀ node ∈ bookOfTwoChapters.nodes.dropLast, blockLeftOpen node.body = none := by decide
  exact ⟨document, assembled, unbroken, fun arrives => left (reached.mp arrives), fun all => left (recognised.mp all).1⟩

end Compositor
end Bindery
