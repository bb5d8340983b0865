import Bindery.Text.Basic
import Mathlib.Data.List.DropRight
import Mathlib.Data.List.Induction

/-! Texts and their lines. Taking a text apart into lines and putting lines together undo one another where
the ends of lines are alike, and stripping a text touches its first and its last line only. -/

namespace Bindery.Text

/-! ### Runs of one class -/

theorem drop_length_takeWhile (p : Char → Bool) (text : Text) :
    text.drop (text.takeWhile p).length = text.dropWhile p := by
  conv_lhs => enter [2]; rw [← List.takeWhile_append_dropWhile (p := p) (l := text)]
  exact List.drop_left

theorem takeWhile_append_of_stop {p : Char → Bool} {front : Text} (inside : ∀ c ∈ front, p c = true)
    {stop : Char} (outside : p stop = false) (rest : Text) : (front ++ stop :: rest).takeWhile p = front := by
  rw [List.takeWhile_append_of_pos inside, List.takeWhile_cons_of_neg (by simp [outside]), List.append_nil]

theorem dropWhile_append_of_stop {p : Char → Bool} {front : Text} (inside : ∀ c ∈ front, p c = true)
    {stop : Char} (outside : p stop = false) (rest : Text) : (front ++ stop :: rest).dropWhile p = stop :: rest := by
  rw [List.dropWhile_append_of_pos inside, List.dropWhile_cons_of_neg (by simp [outside])]

theorem takeWhile_append_of_head? {p : Char → Bool} {front text : Text} (inside : ∀ c ∈ front, p c = true)
    (outside : ∀ c ∈ text.head?, p c = false) : (front ++ text).takeWhile p = front := by
  rw [List.takeWhile_append_of_pos inside]
  cases text with
  | nil => rw [List.takeWhile_nil, List.append_nil]
  | cons c rest => rw [List.takeWhile_cons_of_neg (Bool.eq_false_iff.mp (outside c rfl)), List.append_nil]

theorem dropWhile_append_of_head? {p : Char → Bool} {front text : Text} (inside : ∀ c ∈ front, p c = true)
    (outside : ∀ c ∈ text.head?, p c = false) : (front ++ text).dropWhile p = text := by
  rw [List.dropWhile_append_of_pos inside]
  cases text with
  | nil => rfl
  | cons c rest => exact List.dropWhile_cons_of_neg (Bool.eq_false_iff.mp (outside c rfl))

theorem map_eq_self {α : Type} {f : α → α} {items : List α} (same : ∀ item ∈ items, f item = item) : items.map f = items :=
  (List.map_congr_left same).trans (List.map_id items)

/-! ### Starts of texts -/

theorem dropStart?_append (start rest : Text) : dropStart? start (start ++ rest) = some rest := by
  induction start with
  | nil => rfl
  | cons c start ih => rw [List.cons_append, dropStart?, if_pos rfl, ih]

theorem dropStart?_eq_some {start text rest : Text} : dropStart? start text = some rest ↔ text = start ++ rest := by
  constructor
  · intro dropped
    induction start generalizing text with
    | nil => exact Option.some.inj dropped
    | cons s start ih =>
      cases text with
      | nil => cases dropped
      | cons c text =>
        rw [dropStart?] at dropped
        split at dropped
        next same => rw [same, List.cons_append, ih dropped]
        next => cases dropped
  · rintro rfl
    exact dropStart?_append start rest

/-! ### Pieces put together -/

theorem join_singleton (separator part : Text) : join separator [part] = part :=
  List.intercalate_singleton

theorem join_cons_cons (separator part next : Text) (rest : List Text) :
    join separator (part :: next :: rest) = part ++ separator ++ join separator (next :: rest) := by
  rw [join, List.intercalate_cons_cons]
  rfl

theorem join_append {separator : Text} {parts others : List Text} (nonempty : parts ≠ []) (also : others ≠ []) :
    join separator (parts ++ others) = join separator parts ++ separator ++ join separator others := by
  induction parts with
  | nil => exact absurd rfl nonempty
  | cons part parts ih =>
    cases parts with
    | nil =>
      obtain ⟨next, rest, rfl⟩ := List.exists_cons_of_ne_nil also
      rw [join_singleton, List.singleton_append, join_cons_cons]
    | cons next parts =>
      have later := ih (List.cons_ne_nil next parts)
      rw [List.cons_append] at later
      rw [List.cons_append, List.cons_append, join_cons_cons, later, join_cons_cons]
      simp only [List.append_assoc]

theorem join_concat {separator : Text} {parts : List Text} (nonempty : parts ≠ []) (last : Text) :
    join separator (parts ++ [last]) = join separator parts ++ separator ++ last := by
  rw [join_append nonempty (List.cons_ne_nil last []), join_singleton]

theorem mem_join {separator : Text} {parts : List Text} {c : Char} (inside : c ∈ join separator parts) :
    c ∈ separator ∨ ∃ part ∈ parts, c ∈ part := by
  induction parts with
  | nil => cases inside
  | cons part rest ih =>
    cases rest with
    | nil => exact Or.inr ⟨part, List.mem_cons_self, by rwa [join_singleton] at inside⟩
    | cons next rest =>
      rw [join_cons_cons, List.mem_append, List.mem_append] at inside
      rcases inside with (here | between) | later
      · exact Or.inr ⟨part, List.mem_cons_self, here⟩
      · exact Or.inl between
      · exact (ih later).imp id fun ⟨other, member, found⟩ => ⟨other, List.mem_cons_of_mem _ member, found⟩

/-! ### Ends of lines -/

theorem notMem_unifyLineEnds (text : Text) : '\r' ∉ unifyLineEnds text := by
  fun_induction unifyLineEnds text with
  | case1 => exact List.not_mem_nil
  | case2 rest ih => simpa using ih
  | case3 c rest alone ih =>
    by_cases carriage : c = '\r'
    · simpa [carriage] using ih
    · simpa [carriage] using ⟨Ne.symm carriage, ih⟩

theorem unifyLineEnds_eq_self {text : Text} (unified : '\r' ∉ text) : unifyLineEnds text = text := by
  fun_induction unifyLineEnds text with
  | case1 => rfl
  | case2 rest ih => exact absurd List.mem_cons_self unified
  | case3 c rest alone ih =>
    obtain ⟨first, later⟩ := List.ne_and_not_mem_of_not_mem_cons unified
    rw [if_neg (Ne.symm first), ih later]

theorem notMem_of_mem_lines {text line : Text} (member : line ∈ lines text) : '\n' ∉ line := by
  unfold lines at member
  induction text generalizing line with
  | nil => simp_all
  | cons c rest ih =>
    rw [List.splitOn_cons_eq_if_modifyHead] at member
    split at member
    next newline =>
      rcases List.mem_cons.mp member with rfl | later
      · exact List.not_mem_nil
      · exact ih later
    next other =>
      obtain ⟨first, more, split⟩ := List.exists_cons_of_ne_nil (List.splitOn_ne_nil '\n' rest)
      rw [split] at member ih
      rcases List.mem_cons.mp member with rfl | later
      · exact List.not_mem_cons_of_ne_of_not_mem (fun same => other (by simp [← same])) (ih List.mem_cons_self)
      · exact ih (List.mem_cons_of_mem _ later)

/-! ### Lines put together -/

@[simp] theorem unlines_nil : unlines [] = [] := rfl

@[simp] theorem unlines_singleton (line : Text) : unlines [line] = line :=
  join_singleton ['\n'] line

@[simp] theorem unlines_cons_cons (line next : Text) (rest : List Text) :
    unlines (line :: next :: rest) = line ++ '\n' :: unlines (next :: rest) :=
  (join_cons_cons ['\n'] line next rest).trans (List.append_assoc line ['\n'] _)

theorem mem_unlines {lines : List Text} {c : Char} (inside : c ∈ unlines lines) :
    c = '\n' ∨ ∃ line ∈ lines, c ∈ line :=
  (mem_join inside).imp List.mem_singleton.mp id

theorem mem_unlines_of_mem {lines : List Text} {line : Text} (member : line ∈ lines) {c : Char} (inside : c ∈ line) :
    c ∈ unlines lines := by
  induction lines with
  | nil => cases member
  | cons first rest ih =>
    cases rest with
    | nil => simpa [List.mem_singleton.mp member] using inside
    | cons next rest =>
      rw [unlines_cons_cons, List.mem_append, List.mem_cons]
      rcases List.mem_cons.mp member with rfl | later
      · exact Or.inl inside
      · exact Or.inr (Or.inr (ih later))

theorem unlines_lines (text : Text) : unlines (lines text) = text :=
  List.intercalate_splitOn '\n'

theorem mem_of_mem_lines {text line : Text} (member : line ∈ lines text) {c : Char} (inside : c ∈ line) : c ∈ text :=
  unlines_lines text ▸ mem_unlines_of_mem member inside

theorem lines_unlines {lines : List Text} (whole : ∀ line ∈ lines, '\n' ∉ line) (nonempty : lines ≠ []) :
    Text.lines (unlines lines) = lines :=
  List.splitOn_intercalate '\n' whole nonempty

theorem lines_ne_nil (text : Text) : lines text ≠ [] :=
  List.splitOn_ne_nil '\n' text

theorem unlines_concat (lines : List Text) (line : Text) (c : Char) :
    unlines (lines ++ [line]) ++ [c] = unlines (lines ++ [line ++ [c]]) := by
  induction lines with
  | nil => simp
  | cons first rest ih => cases rest <;> simp_all

/-- Another character at the end of a text stands at the end of its last line. -/
theorem exists_lines_concat {c : Char} (inLine : c ≠ '\n') (text : Text) :
    ∃ before last, lines text = before ++ [last] ∧ lines (text ++ [c]) = before ++ [last ++ [c]] := by
  obtain ⟨before, last, split⟩ := List.eq_nil_or_concat (lines text) |>.resolve_left (lines_ne_nil text)
  rw [List.concat_eq_append] at split
  refine ⟨before, last, split, ?_⟩
  rw [← unlines_lines text, split, unlines_concat]
  have whole : ∀ line ∈ before ++ [last], '\n' ∉ line := fun line member =>
    notMem_of_mem_lines (split ▸ member)
  refine lines_unlines ?_ (by simp)
  rw [List.forall_mem_append, List.forall_mem_singleton] at whole ⊢
  exact ⟨whole.1, by simpa [Ne.symm inLine] using whole.2⟩

theorem lines_concat_newline (text : Text) : lines (text ++ ['\n']) = lines text ++ [[]] := by
  simp [lines, List.splitOn_append_cons_self]

/-! ### Blanks around a text -/

/-- Blanks behind a text do not change what its lines tell, if an empty last line tells nothing and a blank at the end of
the last line neither. -/
theorem told_lines_append {β : Type} (tell : List Text → β) (empty : ∀ front, tell (front ++ [[]]) = tell front)
    (longer : ∀ front line c, isBlank c = true → tell (front ++ [line ++ [c]]) = tell (front ++ [line]))
    {blanks : Text} (blank : blanks.all isBlank = true) (text : Text) :
    tell (lines (text ++ blanks)) = tell (lines text) := by
  induction blanks using List.reverseRecOn with
  | nil => rw [List.append_nil]
  | append_singleton blanks c ih =>
    obtain ⟨others, last⟩ : blanks.all isBlank = true ∧ isBlank c = true := by simpa using blank
    rw [← ih others, ← List.append_assoc]
    by_cases newline : c = '\n'
    · subst newline
      rw [lines_concat_newline, empty]
    · obtain ⟨front, line, split, more⟩ := exists_lines_concat newline (text ++ blanks)
      rw [split, more, longer front line c last]

theorem exists_stripEnd_append (text : Text) : ∃ blanks, blanks.all isBlank ∧ text = stripEnd text ++ blanks := by
  refine ⟨text.rtakeWhile isBlank, ?_, List.rdropWhile_append_rtakeWhile.symm⟩
  exact List.all_eq_true.mpr fun c member => List.mem_rtakeWhile_imp member

theorem stripStart_eq_nil {text : Text} : stripStart text = [] ↔ text.all isBlank = true := by
  simp [stripStart]

theorem stripStart_eq_self {text : Text} (flush : ∀ c ∈ text.head?, isBlank c = false) : stripStart text = text := by
  cases text with
  | nil => rfl
  | cons c rest => exact List.dropWhile_cons_of_neg (by simp [flush c rfl])

/-- A text is flush or starts with a blank. -/
theorem flush_or_exists_blank (text : Text) :
    (∀ c ∈ text.head?, isBlank c = false) ∨ ∃ c rest, text = c :: rest ∧ isBlank c = true := by
  cases text with
  | nil => exact Or.inl nofun
  | cons c rest =>
    cases blank : isBlank c with
    | false => exact Or.inl (by simpa using blank)
    | true => exact Or.inr ⟨c, rest, rfl, blank⟩

theorem stripStart_append_of_blank {text : Text} (blank : text.all isBlank = true) (rest : Text) :
    stripStart (text ++ rest) = stripStart rest :=
  List.dropWhile_append_of_pos (List.all_eq_true.mp blank)

theorem stripStart_append_of_not_blank {text : Text} (present : ¬ text.all isBlank = true) (rest : Text) :
    stripStart (text ++ rest) = stripStart text ++ rest := by
  have nonempty : (stripStart text).isEmpty = false := by simpa [stripStart_eq_nil] using present
  unfold stripStart at nonempty ⊢
  rw [List.dropWhile_append, nonempty]
  simp

theorem strip_append_of_blank {blanks : Text} (blank : blanks.all isBlank = true) (text : Text) :
    strip (text ++ blanks) = strip text := by
  have ending : ∀ text : Text, stripEnd (text ++ blanks) = stripEnd text := by
    intro text
    show List.rdropWhile isBlank (text ++ blanks) = List.rdropWhile isBlank text
    unfold List.rdropWhile
    rw [List.reverse_append, List.dropWhile_append_of_pos]
    simpa using blank
  by_cases empty : text.all isBlank = true
  · have both : (text ++ blanks).all isBlank = true := by simp only [List.all_append, empty, blank, Bool.and_self]
    rw [strip, strip, stripStart_eq_nil.mpr both, stripStart_eq_nil.mpr empty]
  · rw [strip, strip, stripStart_append_of_not_blank empty, ending]

/-- Lines from the first that is not blank on. -/
def told (lines : List Text) : List Text :=
  lines.dropWhile (·.all isBlank)

/-- Stripping the start of a text takes away blank lines and then the indentation of a line. -/
theorem stripStart_unlines (lines : List Text) :
    stripStart (unlines lines) = unlines ((told lines).modifyHead stripStart) := by
  induction lines with
  | nil => rfl
  | cons line rest ih =>
    by_cases blank : line.all isBlank = true
    · have skipped : told (line :: rest) = told rest := List.dropWhile_cons_of_pos blank
      rw [skipped, ← ih]
      cases rest with
      | nil => rw [unlines_singleton, stripStart_eq_nil.mpr blank]; rfl
      | cons next rest =>
        rw [unlines_cons_cons, stripStart_append_of_blank blank]
        rfl
    · have kept : told (line :: rest) = line :: rest := List.dropWhile_cons_of_neg blank
      rw [kept]
      cases rest with
      | nil => simp
      | cons next rest => rw [unlines_cons_cons, stripStart_append_of_not_blank blank, List.modifyHead_cons, unlines_cons_cons]

end Bindery.Text
