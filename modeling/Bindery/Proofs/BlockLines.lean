import Bindery.Markdown.Block
import Bindery.Proofs.TextLines

/-! Lines of Markdown as containers see them. What a container sees of a line is settled by its markers and the
gaps after them, so a line may be given another number, or another text after its markers, and nothing changes
about where its parts begin. -/

namespace Bindery.Markdown
open Text

/-! ### Gaps -/

/-- A text that begins with something else than a gap. -/
def Solid (text : Text) : Prop :=
  ∃ c rest, text = c :: rest ∧ isGap c = false

/-- A solid text stays so when another solid text takes the place of its end. -/
theorem Solid.exchange {front text other : Text} (solid : Solid (front ++ text)) (instead : Solid other) :
    Solid (front ++ other) := by
  cases front with
  | nil => exact instead
  | cons c rest =>
    obtain ⟨d, more, same, inked⟩ := solid
    exact ⟨c, rest ++ other, rfl, by rw [(List.cons.inj same).1, inked]⟩

theorem Solid.ne_nil {text : Text} (solid : Solid text) : text ≠ [] := by
  obtain ⟨c, rest, rfl, _⟩ := solid
  exact List.cons_ne_nil c rest

theorem dropWhile_isGap_append {gap text : Text} (blank : ∀ c ∈ gap, isGap c = true) (solid : Solid text) :
    (gap ++ text).dropWhile isGap = text := by
  obtain ⟨c, rest, rfl, inked⟩ := solid
  exact dropWhile_append_of_stop blank inked rest

theorem not_isGap_of_mem_head?_dropWhile {text : Text} : ∀ c ∈ (text.dropWhile isGap).head?, isGap c = false := by
  intro c first
  have stops := List.head?_dropWhile_not isGap text
  rw [Option.mem_def.mp first] at stops
  simpa using stops

theorem spanGap_fst (base column : Nat) (text : Text) : (spanGap base column text).1 = (text.takeWhile isGap).length := by
  induction text generalizing column with
  | nil => rfl
  | cons c rest ih =>
    by_cases tab : c = '\t'
    · simp [spanGap, tab, ih, isGap]
    · by_cases space : c = ' '
      · simp [spanGap, space, ih, isGap]
      · simp [spanGap, tab, space, isGap]

theorem le_spanGap_snd (base column : Nat) (text : Text) : column ≤ (spanGap base column text).2 := by
  induction text generalizing column with
  | nil => exact Nat.le_refl column
  | cons c rest ih =>
    unfold spanGap
    split
    · exact Nat.le_trans (Nat.le_add_right _ _) (ih _)
    · split
      · exact Nat.le_trans (Nat.le_add_right _ _) (ih _)
      · exact Nat.le_refl column

/-- The column after a gap hangs on the gap alone. -/
theorem spanGap_append {gap text : Text} (blank : ∀ c ∈ gap, isGap c = true) (solid : Solid text) (base column : Nat) :
    spanGap base column (gap ++ text) = spanGap base column gap := by
  induction gap generalizing column with
  | nil =>
    obtain ⟨c, rest, rfl, inked⟩ := solid
    simp only [isGap, Bool.or_eq_false_iff, decide_eq_false_iff_not] at inked
    simp [spanGap, inked]
  | cons c gap ih =>
    have later := ih (fun d member => blank d (List.mem_cons_of_mem c member))
    simp only [List.cons_append, spanGap, later]

/-- The blanks at the end of a text are spaces and tabs. -/
def EndsPlainly (text : Text) : Prop :=
  ∀ c ∈ text.rtakeWhile isBlank, isGap c = true

theorem EndsPlainly.of_suffix {text suffix : Text} (plain : EndsPlainly text) (within : suffix <:+ text) : EndsPlainly suffix := by
  intro c member
  obtain ⟨front, rfl⟩ := within
  apply plain
  rw [List.rtakeWhile, List.mem_reverse] at member ⊢
  rw [List.reverse_append, List.takeWhile_append]
  split
  · exact List.mem_append_left _ ((List.takeWhile_sublist isBlank).subset member)
  · exact member

namespace Line

/-- No gap stands before the content. -/
def Flush (line : Line) : Prop :=
  ∀ c ∈ line.content.head?, isGap c = false

theorem Flush.solid {line : Line} (flush : line.Flush) (present : line.isEmpty = false) : Solid line.content := by
  unfold isEmpty at present
  unfold Flush at flush
  cases content : line.content with
  | nil => simp [content] at present
  | cons c rest => exact ⟨c, rest, rfl, flush c (by simp [content])⟩

theorem content_ofText (number : Nat) (text : Text) : (ofText number text).content = text.dropWhile isGap := by
  simp only [ofText, content, spanGap_fst]
  exact drop_length_takeWhile isGap text

theorem flush_ofText (number : Nat) (text : Text) : (ofText number text).Flush := by
  rw [Flush, content_ofText]
  exact not_isGap_of_mem_head?_dropWhile

/-! ### Other numbers -/

/-- The same line at another place. -/
def movedTo (number : Nat) (line : Line) : Line :=
  { line with number := number }

@[simp] theorem indent_movedTo (number : Nat) (line : Line) : (line.movedTo number).indent = line.indent := rfl
@[simp] theorem content_movedTo (number : Nat) (line : Line) : (line.movedTo number).content = line.content := rfl
@[simp] theorem isEmpty_movedTo (number : Nat) (line : Line) : (line.movedTo number).isEmpty = line.isEmpty := rfl
@[simp] theorem withoutIndent_movedTo (edge : Int) (number : Nat) (line : Line) :
    (line.movedTo number).withoutIndent edge = line.withoutIndent edge := rfl
@[simp] theorem number_lazily (line : Line) : line.lazily.number = line.number := rfl
@[simp] theorem number_insideQuote (line : Line) : line.insideQuote.number = line.number := rfl

/-! ### Inside a quote -/

theorem insideQuote_indent_nonneg (line : Line) : 0 ≤ line.insideQuote.indent := by
  simp only [insideQuote]
  have reached := le_spanGap_snd
  split <;> try split
  all_goals
    simp only [Int.sub_nonneg, Int.ofNat_le]
    exact reached _ _ _

theorem content_insideQuote (line : Line) : line.insideQuote.content = (line.content.drop 1).dropWhile isGap := by
  have spanned : ∀ (base start : Nat) (text : Text), text.drop (spanGap base start text).1 = text.dropWhile isGap := by
    intro base start text
    rw [spanGap_fst, drop_length_takeWhile]
  generalize after : line.content.drop 1 = inner
  unfold insideQuote content at *
  simp only [after]
  split <;> try split
  all_goals simp only [spanned]
  all_goals rfl

theorem flush_insideQuote (line : Line) : line.insideQuote.Flush := by
  rw [Flush, content_insideQuote]
  exact not_isGap_of_mem_head?_dropWhile

theorem suffix_insideQuote (line : Line) : line.insideQuote.text <:+ line.text := by
  have inner : line.content.drop 1 <:+ line.text := (List.drop_suffix 1 _).trans (List.drop_suffix _ _)
  generalize after : line.content.drop 1 = rest at inner
  unfold insideQuote
  simp only [after]
  split <;> try split
  all_goals first | exact inner | exact (List.suffix_cons _ _).trans inner

/-- Two lines that are alike up to a solid text after the same mark and gap are alike inside a quote. -/
theorem insideQuote_exchange {line other : Line} {gap text instead : Text} (blank : ∀ c ∈ gap, isGap c = true)
    (solid : Solid text) (solid' : Solid instead) (content : line.content = '>' :: (gap ++ text))
    (content' : other.content = '>' :: (gap ++ instead)) (indent : other.indent = line.indent)
    (origin : other.origin = line.origin) :
    other.insideQuote.indent = line.insideQuote.indent ∧ other.insideQuote.origin = line.insideQuote.origin := by
  simp only [insideQuote, content, content', List.drop_succ_cons, List.drop_zero, indent, origin]
  cases gap with
  | nil =>
    obtain ⟨c, rest, rfl, inked⟩ := solid
    obtain ⟨d, more, rfl, inked'⟩ := solid'
    simp only [isGap, Bool.or_eq_false_iff, decide_eq_false_iff_not] at inked inked'
    simp [inked, inked', spanGap]
  | cons c gap =>
    have inner := spanGap_append (fun d member => blank d (List.mem_cons_of_mem c member)) solid
    have inner' := spanGap_append (fun d member => blank d (List.mem_cons_of_mem c member)) solid'
    have outer := spanGap_append blank solid
    have outer' := spanGap_append blank solid'
    have kind : c = ' ' ∨ c = '\t' := by simpa [isGap] using blank c List.mem_cons_self
    rcases kind with rfl | rfl
    · simp [inner, inner']
    · simp only [List.cons_append] at outer outer' ⊢
      split <;> simp [inner, inner', outer, outer']

end Line

/-! ### Inside an item -/

theorem listMarker?_append {digits : Text} (decimal : ∀ c ∈ digits, isAsciiDigit c = true) {sign : Char}
    (other : isAsciiDigit sign = false) (rest : Text) :
    listMarker? (digits ++ sign :: rest) =
      if !endsMarker rest then none
      else if digits.isEmpty then
        if sign = '*' || sign = '-' || sign = '+' then some ⟨none, sign, 1⟩ else none
      else if (sign = '.' || sign = ')') && digits.length ≤ 9 then
        some ⟨some ((String.ofList digits).toNat?.getD 0), sign, digits.length + 1⟩
      else none := by
  unfold listMarker?
  simp only [takeWhile_append_of_stop decimal other, List.drop_left]

/-- A marker is settled by its own characters, as long as it ends after them. -/
theorem exists_of_listMarker? {content : Text} {marker : ListMarker} (found : listMarker? content = some marker) :
    ∃ digits sign rest, content = digits ++ sign :: rest ∧ (∀ c ∈ digits, isAsciiDigit c = true) ∧
      (digits = [] → sign = '*' ∨ sign = '-' ∨ sign = '+') ∧ marker.width = digits.length + 1 ∧ endsMarker rest = true ∧
      ∀ other, endsMarker other = true → listMarker? (digits ++ sign :: other) = some marker := by
  have decimal : ∀ c ∈ content.takeWhile isAsciiDigit, isAsciiDigit c = true := fun c member => List.mem_takeWhile_imp member
  have whole : content.takeWhile isAsciiDigit ++ content.dropWhile isAsciiDigit = content := List.takeWhile_append_dropWhile
  cases after : content.dropWhile isAsciiDigit with
  | nil => simp [listMarker?, drop_length_takeWhile, after] at found
  | cons sign rest =>
    have other : isAsciiDigit sign = false := by
      have stops := List.head?_dropWhile_not isAsciiDigit content
      simpa [after] using stops
    rw [after] at whole
    generalize content.takeWhile isAsciiDigit = digits at decimal whole
    subst whole
    have shape := listMarker?_append decimal other
    rw [shape] at found
    have ends : endsMarker rest = true := by
      by_contra open_
      simp [open_] at found
    refine ⟨digits, sign, rest, rfl, decimal, ?_, ?_, ends, fun instead closed => ?_⟩
    · rintro rfl
      by_contra neither
      simp only [not_or] at neither
      simp [neither] at found
    · simp only [ends, Bool.not_true, Bool.false_eq_true, if_false] at found
      split at found
      next empty =>
        obtain ⟨_, same⟩ := Option.ite_none_right_eq_some.mp found
        rw [List.isEmpty_iff.mp empty, ← Option.some.inj same]
        rfl
      next =>
        obtain ⟨_, same⟩ := Option.ite_none_right_eq_some.mp found
        rw [← Option.some.inj same]
    · rw [ends] at found
      rw [shape, closed]
      exact found

theorem endsMarker_append {front text : Text} (solid : Solid text) (ends : endsMarker (front ++ text) = true) :
    front ≠ [] ∧ ∀ other, endsMarker (front ++ other) = true := by
  cases front with
  | nil =>
    obtain ⟨c, rest, rfl, inked⟩ := solid
    exact absurd ends (by simp [endsMarker, inked])
  | cons c rest => exact ⟨List.cons_ne_nil c rest, fun other => ends⟩

namespace Line

/-- A line without the marker of the item that begins on it. -/
def insideItem (marker : ListMarker) (line : Line) : Line :=
  let (gap, column) := spanGap line.origin (line.indent.toNat + marker.width) (line.content.drop marker.width)
  { line with shift := line.shift + marker.width + gap, indent := column }


theorem content_insideItem (marker : ListMarker) (line : Line) :
    (line.insideItem marker).content = (line.content.drop marker.width).dropWhile isGap := by
  have taken : ∀ (text : Text) (gap : Nat), gap = (text.takeWhile isGap).length → text.drop gap = text.dropWhile isGap := by
    rintro text gap rfl
    exact drop_length_takeWhile isGap text
  rw [← taken _ _ (spanGap_fst line.origin (line.indent.toNat + marker.width) _)]
  simp only [insideItem, content, List.drop_drop]

theorem flush_insideItem (marker : ListMarker) (line : Line) : (line.insideItem marker).Flush := by
  rw [Flush, content_insideItem]
  exact not_isGap_of_mem_head?_dropWhile

theorem width_le_insideItem_indent (marker : ListMarker) (line : Line) :
    line.indent.toNat + marker.width ≤ (line.insideItem marker).indent := by
  simp only [insideItem, ← Int.natCast_add, Int.ofNat_le]
  exact le_spanGap_snd _ _ _

end Line

/-- The column at which the content of an item begins. -/
def itemEdge (marker : ListMarker) (line : Line) : Nat :=
  let start := line.indent.toNat + marker.width
  let gap := (line.insideItem marker).indent.toNat - start
  start + if (line.insideItem marker).isEmpty || gap > 4 then 1 else gap

def itemContext (context : Context) (marker : ListMarker) (line : Line) : Context :=
  ⟨itemEdge marker line, context.edge,
    context.path ++ [if marker.number.isSome then .numberedItem else .bulletItem]⟩

def quoteContext (context : Context) : Context :=
  ⟨0, context.listEdge, context.path ++ [.quote]⟩

theorem readItem_eq (inside : BlockReader) (context : Context) (marker : ListMarker) (line : Line) (rest : List Line) :
    readItem inside context marker line rest =
      if (line.insideItem marker).isEmpty && (rest.head?.all Line.isEmpty) then ⟨[], min 2 (rest.length + 1)⟩
      else inside (itemContext context marker line) (line.insideItem marker :: rest) := by
  have blank : (line.insideItem marker).isEmpty = ((line.content.drop marker.width).drop
      (spanGap line.origin (line.indent.toNat + marker.width) (line.content.drop marker.width)).1).isEmpty := by
    rw [Line.isEmpty, Line.content_insideItem, spanGap_fst, drop_length_takeWhile]
  unfold readItem itemContext itemEdge
  simp only [blank]
  rfl

theorem le_itemEdge (marker : ListMarker) (line : Line) : line.indent.toNat + marker.width ≤ itemEdge marker line :=
  Nat.le_add_right _ _

/-- The first line of an item reaches the column of its content. -/
theorem itemEdge_le_indent {marker : ListMarker} {line : Line} (present : (line.insideItem marker).isEmpty = false) :
    itemEdge marker line ≤ (line.insideItem marker).indent := by
  have reached := line.width_le_insideItem_indent marker
  simp only [itemEdge, present, Bool.false_or, decide_eq_true_eq]
  split <;> omega

/-! ### Lines one after another -/

/-- A single line with no gap before its content. Where a heading starts on the next line, this one ends in no other
blanks than gaps. -/
structure Line.Tidy (headed : Nat → Prop) (line : Line) : Prop where
  single : '\n' ∉ line.text
  unreturned : '\r' ∉ line.text
  flush : line.Flush
  plain : headed (line.number + 1) → EndsPlainly line.text

variable {headed : Nat → Prop}

theorem Line.Tidy.insideQuote {line : Line} (tidy : line.Tidy headed) : line.insideQuote.Tidy headed where
  single newline := tidy.single (line.suffix_insideQuote.subset newline)
  unreturned carriage := tidy.unreturned (line.suffix_insideQuote.subset carriage)
  flush := line.flush_insideQuote
  plain next := (tidy.plain next).of_suffix line.suffix_insideQuote

theorem Line.Tidy.insideItem {line : Line} (tidy : line.Tidy headed) (marker : ListMarker) : (line.insideItem marker).Tidy headed :=
  { tidy with flush := line.flush_insideItem marker }

theorem Line.Tidy.lazily {line : Line} (tidy : line.Tidy headed) : line.lazily.Tidy headed :=
  { tidy with }

/-- Tidy lines that are numbered one after another from a number on. -/
def Numbered (headed : Nat → Prop) : Nat → List Line → Prop
  | _, [] => True
  | number, line :: rest => (line.number = number ∧ line.Tidy headed) ∧ Numbered headed (number + 1) rest

theorem Numbered.drop {number : Nat} {lines : List Line} (numbered : Numbered headed number lines) (count : Nat) :
    Numbered headed (number + count) (lines.drop count) := by
  induction count generalizing number lines with
  | zero => exact numbered
  | succ count ih =>
    cases lines with
    | nil => trivial
    | cons line rest =>
      rw [List.drop_succ_cons, Nat.add_comm count 1, ← Nat.add_assoc]
      exact ih numbered.2

theorem numbered_append {number : Nat} {front back : List Line} :
    Numbered headed number (front ++ back) ↔ Numbered headed number front ∧ Numbered headed (number + front.length) back := by
  induction front generalizing number with
  | nil => simp [Numbered]
  | cons line front ih =>
    rw [List.cons_append, Numbered, Numbered, ih, List.length_cons, Nat.add_comm front.length 1, Nat.add_assoc]
    exact and_assoc.symm

theorem Numbered.bounds {number : Nat} {lines : List Line} (numbered : Numbered headed number lines) {line : Line}
    (member : line ∈ lines) : number ≤ line.number ∧ line.number < number + lines.length := by
  induction lines generalizing number with
  | nil => cases member
  | cons first rest ih =>
    rw [List.length_cons]
    rcases List.mem_cons.mp member with rfl | later
    · have same := numbered.1.1
      omega
    · have bounds := ih numbered.2 later
      omega

theorem Numbered.tidy {number : Nat} {lines : List Line} (numbered : Numbered headed number lines) {line : Line}
    (member : line ∈ lines) : line.Tidy headed := by
  induction lines generalizing number with
  | nil => cases member
  | cons first rest ih =>
    rcases List.mem_cons.mp member with rfl | later
    · exact numbered.1.2
    · exact ih numbered.2 later

theorem Numbered.mem_drop {number count : Nat} {lines : List Line} (numbered : Numbered headed number lines) {line : Line}
    (member : line ∈ lines) (after : number + count ≤ line.number) : line ∈ lines.drop count := by
  rw [← List.take_append_drop count lines] at member
  rcases List.mem_append.mp member with before | later
  · rw [← List.take_append_drop count lines, numbered_append] at numbered
    have bounds := numbered.1.bounds before
    rw [List.length_take] at bounds
    omega
  · exact later

theorem Numbered.insideQuote {number : Nat} {line : Line} {rest inner : List Line}
    (numbered : Numbered headed number (line :: rest)) (later : Numbered headed (number + 1) inner) :
    Numbered headed number (line.insideQuote :: inner) :=
  ⟨⟨numbered.1.1, numbered.1.2.insideQuote⟩, later⟩

theorem Numbered.insideItem {number : Nat} {line : Line} {rest : List Line} (numbered : Numbered headed number (line :: rest))
    (marker : ListMarker) : Numbered headed number (line.insideItem marker :: rest) :=
  ⟨⟨numbered.1.1, numbered.1.2.insideItem marker⟩, numbered.2⟩

theorem numbered_quoteLines {context : Context} {afterEmpty : Bool} {number : Nat} {lines : List Line}
    (numbered : Numbered headed number lines) : Numbered headed number (quoteLines context afterEmpty lines) := by
  induction lines generalizing number afterEmpty with
  | nil => trivial
  | cons line rest ih =>
    unfold quoteLines
    split
    · trivial
    · split
      · exact numbered.insideQuote (ih numbered.2)
      · split
        · trivial
        · exact ⟨⟨numbered.1.1, numbered.1.2.lazily⟩, ih numbered.2⟩

end Bindery.Markdown
