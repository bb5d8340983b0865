import Bindery.Proofs.GuardedHeadings

/-! Lines before and after their headings were given other levels. A heading takes one line then, and all other lines
stay; containers see of them what they saw before, up to the first heading that they do not hold. -/

namespace Bindery.Markdown
open Text

/-! ### Lines that stay -/

theorem Kept.append {lines others rest rest' : List Line} (kept : Kept lines others) (later : Kept rest rest') :
    Kept (lines ++ rest) (others ++ rest') :=
  List.rel_append kept later

theorem kept_cons {line other : Line} {lines others : List Line} :
    Kept (line :: lines) (other :: others) ↔ (∃ number, other = line.movedTo number) ∧ Kept lines others :=
  List.forall₂_cons

/-- What all readers can tell about the first line after a block. -/
structure Alike (line other : Line) : Prop where
  indent : other.indent = line.indent
  isEmpty : other.isEmpty = line.isEmpty
  isQuoted : isQuoted other.content = isQuoted line.content
  nextMarker? : ∀ context marker, nextMarker? context marker other = nextMarker? context marker line

theorem alike_movedTo (line : Line) (number : Nat) : Alike line (line.movedTo number) :=
  ⟨rfl, rfl, rfl, fun _ _ => rfl⟩

theorem Turned.alike {level : Nat} {line other : Line} (turned : Turned level line other) : Alike line other where
  indent := turned.indent_eq
  isEmpty := turned.present.2.trans turned.present.1.symm
  isQuoted := turned.isQuoted_eq
  nextMarker? := turned.nextMarker?_eq

theorem Turned.insideQuote {level : Nat} {line other : Line} (turned : Turned level line other)
    (quoted : isQuoted line.content = true) : Turned level line.insideQuote other.insideQuote := by
  cases turned with
  | here _ unquoted => exact absurd quoted (by simp [unquoted])
  | quote _ _ _ inner => exact inner
  | item _ _ marked => exact absurd quoted (by simp [(kinds_of_listMarker? marked).1])

theorem Turned.insideItem {level : Nat} {line other : Line} (turned : Turned level line other) {marker : ListMarker}
    (marked : listMarker? line.content = some marker) : listMarker? other.content = some marker ∧
      isRule other.content = false ∧ Turned level (line.insideItem marker) (other.insideItem marker) := by
  cases turned with
  | here _ _ unmarked => rw [unmarked] at marked; cases marked
  | quote _ quoted => exact absurd quoted (by simp [(kinds_of_listMarker? marked).1])
  | item _ own found found' _ unruled' inner =>
    obtain rfl : own = marker := Option.some.inj (found.symm.trans marked)
    exact ⟨found', unruled', inner⟩

/-! ### Lines with headings of other levels -/

/-- The lines from a number on, with the headings on them, and the lines that took their place. -/
inductive Rewritten (level : Nat → Nat) : Nat → List Heading → List Line → List Line → Prop where
  | nil {number} : Rewritten level number [] [] []
  | kept {number headings line other rest rest'} (same : ∃ place, other = line.movedTo place)
      (later : Rewritten level (number + 1) headings rest rest') :
      Rewritten level number headings (line :: rest) (other :: rest')
  | turned {number heading headings line other further rest rest'} (start : heading.start = number)
      (stop : heading.stop = number + 1 + further.length) (turned : Turned (level heading.level) line other)
      (later : Rewritten level heading.stop headings rest rest') :
      Rewritten level number (heading :: headings) (line :: (further ++ rest)) (other :: rest')

namespace Rewritten
variable {level : Nat → Nat} {number : Nat} {headings : List Heading} {lines others : List Line}

theorem le_start (rewritten : Rewritten level number headings lines others) : ∀ heading ∈ headings, number ≤ heading.start := by
  induction rewritten with
  | nil => exact nofun
  | kept _ _ ih => exact fun heading member => Nat.le_of_succ_le (ih heading member)
  | turned start stop _ _ ih =>
    rw [List.forall_mem_cons]
    refine ⟨Nat.le_of_eq start.symm, fun heading member => ?_⟩
    have after := ih heading member
    omega

theorem kept_of_no_headings (rewritten : Rewritten level number [] lines others) : Kept lines others := by
  generalize empty : ([] : List Heading) = found at rewritten
  induction rewritten with
  | nil => exact List.Forall₂.nil
  | kept same _ ih => exact List.Forall₂.cons same (ih empty)
  | turned => cases empty

/-- The first heading comes after lines that stay. -/
theorem exists_first {heading : Heading} (rewritten : Rewritten level number (heading :: headings) lines others) :
    ∃ front front' line other rest rest', lines = front ++ line :: rest ∧ others = front' ++ other :: rest' ∧ Kept front front' ∧
      Turned (level heading.level) line other ∧ heading.start = number + front.length := by
  generalize begins : heading :: headings = found at rewritten
  induction rewritten with
  | nil => cases begins
  | @kept number _ line other _ _ same _ ih =>
    obtain ⟨front, front', first, first', rest, rest', rfl, rfl, kept, turned, start⟩ := ih begins
    refine ⟨line :: front, other :: front', first, first', rest, rest', rfl, rfl, List.Forall₂.cons same kept, turned, ?_⟩
    rw [start, List.length_cons]
    omega
  | @turned number _ _ line other further rest rest' start stop turned =>
    obtain ⟨rfl, _⟩ := List.cons.inj begins
    exact ⟨[], [], line, other, _, _, rfl, rfl, List.Forall₂.nil, turned, start⟩

/-- Headings within the first lines and headings after them were rewritten each for themselves. -/
theorem split {front back : List Line} {earlier later : List Heading}
    (rewritten : Rewritten level number (earlier ++ later) (front ++ back) others)
    (within : Within number earlier (number + front.length)) (after : ∀ heading ∈ later, number + front.length ≤ heading.start) :
    ∃ front' back', others = front' ++ back' ∧ Rewritten level number earlier front front' ∧
      Rewritten level (number + front.length) later back back' := by
  generalize whole : front ++ back = lines at rewritten
  generalize all : earlier ++ later = headings at rewritten
  induction rewritten generalizing front earlier with
  | nil =>
    obtain ⟨rfl, rfl⟩ := List.append_eq_nil_iff.mp whole
    obtain ⟨rfl, rfl⟩ := List.append_eq_nil_iff.mp all
    exact ⟨[], [], rfl, .nil, .nil⟩
  | @kept number headings line other rest rest' same rewritten ih =>
    cases front with
    | nil =>
      obtain rfl : earlier = [] := within.eq_nil
      subst whole all
      exact ⟨[], other :: rest', rfl, .nil, .kept same rewritten⟩
    | cons first front =>
      obtain ⟨rfl, tail⟩ := List.cons.inj whole
      rw [List.length_cons, Nat.add_comm front.length 1, ← Nat.add_assoc] at within after ⊢
      have within' : Within (number + 1) earlier (number + 1 + front.length) := by
        cases earlier with
        | nil => exact Nat.le_add_right _ _
        | cons heading more => exact ⟨rewritten.le_start heading (all ▸ List.mem_cons_self), within.2⟩
      obtain ⟨front', back', rfl, rewritten₁, rewritten₂⟩ := ih within' after tail all
      exact ⟨other :: front', back', rfl, .kept same rewritten₁, rewritten₂⟩
  | @turned number heading headings line other further rest rest' start stop turned rewritten ih =>
    cases earlier with
    | nil =>
      have empty : front = [] := by
        have bound := after heading (by rw [show later = heading :: headings from all]; exact List.mem_cons_self)
        exact List.length_eq_zero_iff.mp (by omega)
      subst empty
      obtain rfl : later = heading :: headings := all
      obtain rfl : back = line :: (further ++ rest) := whole
      exact ⟨[], other :: rest', rfl, .nil, .turned start stop turned rewritten⟩
    | cons first earlier =>
      obtain ⟨rfl, found⟩ := List.cons.inj all
      have bounds := within.2.2.le
      cases front with
      | nil =>
        rw [List.length_nil] at bounds
        omega
      | cons begin front =>
        obtain ⟨rfl, tail⟩ := List.cons.inj whole
        rw [List.length_cons] at bounds
        obtain ⟨inner, rfl⟩ : further <+: front :=
          List.prefix_of_prefix_length_le ⟨rest, tail.symm⟩ ⟨back, rfl⟩ (by omega)
        obtain rfl : inner ++ back = rest := List.append_cancel_left ((List.append_assoc further inner back).symm.trans tail)
        have place : number + (begin :: (further ++ inner)).length = first.stop + inner.length := by
          rw [stop, List.length_cons, List.length_append]
          omega
        rw [place] at within after ⊢
        obtain ⟨front', back', rfl, rewritten₁, rewritten₂⟩ := ih within.2.2 after rfl found
        exact ⟨other :: front', back', rfl, .turned start stop turned rewritten₁, rewritten₂⟩

theorem alike {line other : Line} (rewritten : Rewritten level number headings (line :: lines) (other :: others)) : Alike line other := by
  cases rewritten with
  | kept same =>
    obtain ⟨place, rfl⟩ := same
    exact alike_movedTo line place
  | turned _ _ turned => exact turned.alike

/-- Some line takes the place of a first line. -/
theorem exists_cons {line : Line} (rewritten : Rewritten level number headings (line :: lines) others) :
    ∃ other rest, others = other :: rest := by
  cases rewritten with
  | kept => exact ⟨_, _, rfl⟩
  | turned => exact ⟨_, _, rfl⟩

end Rewritten

/-! ### Lines after a block -/

/-- What came after a block and what comes after it now: lines that stay, up to the first line of a heading. The end of
a quote may have taken the place of a line that belonged to it lazily. -/
inductive After (headed : Nat → Prop) (context : Context) : List Line → List Line → Prop where
  | stays {lines others} (kept : Kept lines others) : After headed context lines others
  | ends {lines others line} (kept : Kept lines others) (marked : headed line.number) (outside : line.indent < 0) (rest : List Line) :
      After headed context (lines ++ line :: rest) others
  | turned {lines others level line other} (kept : Kept lines others) (marked : headed line.number)
      (turned : Turned level line other) (guarded : Guarded context (· ∈ lines) line) (rest rest' : List Line) :
      After headed context (lines ++ line :: rest) (others ++ other :: rest')

variable {headed : Nat → Prop}

theorem Kept.after {context : Context} {lines others rest rest' : List Line} (kept : Kept lines others)
    (after : After headed context rest rest') : After headed context (lines ++ rest) (others ++ rest') := by
  cases after with
  | stays later => exact .stays (kept.append later)
  | ends later marked outside rest =>
    rw [← List.append_assoc]
    exact .ends (kept.append later) marked outside rest
  | turned later marked turned guarded rest rest' =>
    rw [← List.append_assoc, ← List.append_assoc]
    refine .turned (kept.append later) marked turned (guarded.mono (fun _ reaches => reaches) ?_) rest rest'
    exact fun other member _ => List.mem_append_right _ member

theorem Kept.meets_nil {lines others : List Line} (kept : Kept lines others) (rest : List Line) : Meets (lines ++ rest) others := by
  have meets := kept.meets (Meets.ends rest)
  rwa [List.append_nil] at meets

namespace After
variable {context : Context} {lines others : List Line}

theorem meets (after : After headed context lines others) : Meets lines others := by
  cases after with
  | stays kept => simpa using kept.meets_nil []
  | ends kept _ _ rest => exact kept.meets_nil _
  | turned kept _ turned _ rest rest' => exact kept.meets (.turned turned rest rest')

theorem deeper {inner : Context} (after : After headed context lines others)
    (contained : ∀ line, Reaches context line → Reaches inner line) : After headed inner lines others := by
  cases after with
  | stays kept => exact .stays kept
  | ends kept marked outside rest => exact .ends kept marked outside rest
  | turned kept marked turned guarded rest rest' =>
    exact .turned kept marked turned (guarded.mono contained fun _ member _ => member) rest rest'

theorem eq_nil (after : After headed context [] others) : others = [] := by
  generalize empty : ([] : List Line) = lines at after
  cases after with
  | stays kept =>
    subst empty
    exact List.forall₂_nil_left_iff.mp kept
  | ends => exact absurd empty (by simp)
  | turned => exact absurd empty (by simp)

/-- The line after a block is still there, or it was outside of the container. -/
theorem first {line : Line} (after : After headed context (line :: lines) others) :
    others = [] ∧ line.indent < 0 ∨ ∃ other rest, others = other :: rest ∧ Alike line other := by
  generalize whole : line :: lines = all at after
  have of_kept : ∀ {front front' rest}, Kept front front' → line :: lines = front ++ rest → front ≠ [] →
      ∃ other more, front' = other :: more ∧ Alike line other := by
    intro front front' rest kept same nonempty
    cases kept with
    | nil => exact absurd rfl nonempty
    | cons moved later =>
      obtain ⟨rfl, _⟩ := List.cons.inj same
      obtain ⟨number, rfl⟩ := moved
      exact ⟨_, _, rfl, alike_movedTo line number⟩
  cases after with
  | stays kept =>
    refine Or.inr (of_kept kept (whole.trans (List.append_nil _).symm) ?_)
    rintro rfl
    cases whole
  | @ends front _ other kept _ outside rest =>
    rcases eq_or_ne front [] with rfl | nonempty
    · obtain ⟨rfl, _⟩ := List.cons.inj whole
      exact Or.inl ⟨List.forall₂_nil_left_iff.mp kept, outside⟩
    · exact Or.inr (of_kept kept whole nonempty)
  | @turned front _ _ first other kept _ turned _ rest rest' =>
    rcases eq_or_ne front [] with rfl | nonempty
    · obtain ⟨rfl, _⟩ := List.cons.inj whole
      rw [List.forall₂_nil_left_iff.mp kept]
      exact Or.inr ⟨other, rest', rfl, turned.alike⟩
    · obtain ⟨next, more, rfl, alike⟩ := of_kept kept whole nonempty
      exact Or.inr ⟨next, _, rfl, alike⟩

end After

/-- Lines that were rewritten come after a block as others do, if their first heading is guarded. -/
theorem Rewritten.after {level : Nat → Nat} {number : Nat} {headings : List Heading} {context : Context}
    {front front' rest rest' : List Line} (rewritten : Rewritten level number headings front front')
    (numbered : Numbered headed number (front ++ rest)) (marked : ∀ heading ∈ headings, headed heading.start)
    (guarded : ∀ heading ∈ headings.head?, ∀ line ∈ front ++ rest, line.number = heading.start →
      Guarded context (fun other => other ∈ front ++ rest ∧ other.number < heading.start) line)
    (after : After headed context rest rest') : After headed context (front ++ rest) (front' ++ rest') := by
  cases headings with
  | nil => exact rewritten.kept_of_no_headings.after after
  | cons heading headings =>
    obtain ⟨before, before', line, other, more, more', rfl, rfl, kept, turned, start⟩ := rewritten.exists_first
    rw [List.append_assoc] at numbered guarded
    obtain ⟨numbers, numbers'⟩ := numbered_append.mp numbered
    have place : line.number = heading.start := numbers'.1.1.trans start.symm
    rw [List.append_assoc, List.append_assoc]
    refine .turned kept (place ▸ marked heading List.mem_cons_self) turned ?_ _ _
    refine (guarded heading rfl line (by simp) place).mono (fun _ reaches => reaches) ?_
    rintro earlier ⟨member, below⟩ _
    rcases List.mem_append.mp member with among | later
    · exact among
    · have bounds := numbers'.bounds later
      omega

/-- A block and what stands after it were rewritten each for itself, and one still comes after the other. -/
theorem Rewritten.split_block {level : Nat → Nat} {number : Nat} {earlier later : List Heading} {context : Context} {line : Line}
    {block back others rest rest' : List Line} (rewritten : Rewritten level number (earlier ++ later) (line :: block ++ back) others)
    (within : Within number earlier (number + (line :: block).length)) {stop : Nat}
    (within' : Within (number + (line :: block).length) later stop)
    (numbered : Numbered headed (number + (line :: block).length) (back ++ rest)) (marked : ∀ heading ∈ later, headed heading.start)
    (guarded : ∀ heading ∈ later.head?, ∀ line ∈ back ++ rest, line.number = heading.start →
      Guarded context (fun other => other ∈ back ++ rest ∧ other.number < heading.start) line)
    (after : After headed context rest rest') :
    ∃ other block' back', others = other :: (block' ++ back') ∧ Rewritten level number earlier (line :: block) (other :: block') ∧
      Rewritten level (number + (line :: block).length) later back back' ∧ After headed context (back ++ rest) (back' ++ rest') := by
  obtain ⟨_, back', rfl, rewritten₁, rewritten₂⟩ := rewritten.split within fun heading found => (within'.bounds found).1
  obtain ⟨other, block', rfl⟩ := rewritten₁.exists_cons
  exact ⟨other, block', back', rfl, rewritten₁, rewritten₂, rewritten₂.after numbered marked guarded after⟩

/-! ### Quotes -/

theorem quoteStep_movedTo (context : Context) (afterEmpty : Bool) (line : Line) (number : Nat) :
    quoteStep context afterEmpty (line.movedTo number) =
      (quoteStep context afterEmpty line).map fun (inner, afterEmpty) => (inner.movedTo number, afterEmpty) := by
  show (if line.isEmpty then none
    else if isQuoted line.content && line.indent ≥ context.edge then some (line.insideQuote.movedTo number, line.insideQuote.isEmpty)
    else if afterEmpty || breaksParagraph context false line then none
    else some (line.lazily.movedTo number, afterEmpty)) = _
  unfold quoteStep
  split_ifs <;> rfl

theorem quoteStep_quoted {context : Context} {line : Line} (quoted : isQuoted line.content = true)
    (reaches : context.edge ≤ line.indent) (afterEmpty : Bool) :
    quoteStep context afterEmpty line = some (line.insideQuote, line.insideQuote.isEmpty) := by
  rw [quoteStep, isEmpty_of_isQuoted quoted, if_neg Bool.false_ne_true, if_pos (by simp [quoted, reaches])]

/-- Lines that a quote goes on with: each is in the quote with its mark, or it leaves a paragraph open. -/
def Held (context : Context) (lines inner : List Line) : Prop :=
  ∀ line ∈ lines, isQuoted line.content = true ∧ line.insideQuote ∈ inner ∨
    isQuoted line.content = false ∧ breaksParagraph context false line = false

/-- Lines that stay end a quote as before, or they go on with it as before. -/
theorem Kept.quoteLines_cases {lines others : List Line} (kept : Kept lines others) (context : Context) (afterEmpty : Bool) :
    (∃ inner inner', Kept inner inner' ∧ ∀ rest rest', quoteLines context afterEmpty (lines ++ rest) = inner ∧
      quoteLines context afterEmpty (others ++ rest') = inner') ∨
    ∃ inner inner' afterEmpty', Kept inner inner' ∧
      (∀ rest rest', quoteLines context afterEmpty (lines ++ rest) = inner ++ quoteLines context afterEmpty' rest ∧
        quoteLines context afterEmpty (others ++ rest') = inner' ++ quoteLines context afterEmpty' rest') ∧
      Held context lines inner := by
  induction kept generalizing afterEmpty with
  | nil => exact Or.inr ⟨[], [], afterEmpty, .nil, fun _ _ => ⟨rfl, rfl⟩, nofun⟩
  | @cons line other lines others same _ ih =>
    obtain ⟨number, rfl⟩ := same
    cases step : quoteStep context afterEmpty line with
    | none =>
      refine Or.inl ⟨[], [], .nil, fun rest rest' => ?_⟩
      simp only [List.cons_append, quoteLines_cons, quoteStep_movedTo, step, Option.map_none, and_self]
    | some pair =>
      obtain ⟨first, after⟩ := pair
      have moved : quoteStep context afterEmpty (line.movedTo number) = some (first.movedTo number, after) := by
        rw [quoteStep_movedTo, step]
        rfl
      rcases ih after with ⟨inner, inner', kept, ended⟩ | ⟨inner, inner', afterEmpty', kept, goes, held⟩
      · refine Or.inl ⟨first :: inner, first.movedTo number :: inner', .cons ⟨number, rfl⟩ kept, fun rest rest' => ?_⟩
        obtain ⟨same, same'⟩ := ended rest rest'
        simp only [List.cons_append, quoteLines_cons, step, moved, same, same', and_self]
      · refine Or.inr ⟨first :: inner, first.movedTo number :: inner', afterEmpty', .cons ⟨number, rfl⟩ kept, fun rest rest' => ?_, ?_⟩
        · obtain ⟨same, same'⟩ := goes rest rest'
          simp only [List.cons_append, quoteLines_cons, step, moved, same, same', and_self]
        · rw [Held, List.forall_mem_cons]
          refine ⟨?_, fun other member => (held other member).imp_left (And.imp_right (List.mem_cons_of_mem first))⟩
          rcases quoteStep_cases step with ⟨quoted, _, same⟩ | ⟨unquoted, open_, _⟩
          · exact Or.inl ⟨quoted, (Prod.mk.inj same).1 ▸ List.mem_cons_self⟩
          · exact Or.inr ⟨unquoted, open_⟩

/-- A line that is not in a quote ends it, or stays in it lazily. -/
theorem quoteLines_of_outside {context : Context} {line : Line} (outside : ¬ (isQuoted line.content = true ∧ context.edge ≤ line.indent))
    (afterEmpty : Bool) (rest : List Line) :
    quoteLines context afterEmpty (line :: rest) = [] ∨ ∃ more, quoteLines context afterEmpty (line :: rest) = line.lazily :: more := by
  rw [quoteLines_cons]
  cases step : quoteStep context afterEmpty line with
  | none => exact Or.inl rfl
  | some pair =>
    rcases quoteStep_cases step with ⟨quoted, reaches, _⟩ | ⟨_, _, same⟩
    · exact absurd ⟨quoted, reaches⟩ outside
    · exact Or.inr ⟨_, by rw [same]⟩

theorem quoteLines_of_breaks {context : Context} {line : Line} (outside : ¬ (isQuoted line.content = true ∧ context.edge ≤ line.indent))
    (breaks : breaksParagraph context false line = true) (afterEmpty : Bool) (rest : List Line) :
    quoteLines context afterEmpty (line :: rest) = [] := by
  rw [quoteLines_cons]
  cases step : quoteStep context afterEmpty line with
  | none => rfl
  | some pair =>
    rcases quoteStep_cases step with ⟨quoted, reaches, _⟩ | ⟨_, open_, _⟩
    · exact absurd ⟨quoted, reaches⟩ outside
    · exact absurd breaks (Bool.eq_false_iff.mp open_)

/-- A line that is not in a quote and is gone was the end of the quote, or it was in it lazily. -/
theorem Kept.ends_quote {inner inner' : List Line} (kept : Kept inner inner') {context : Context} {line : Line}
    (marked : headed line.number) (unheld : ¬ (isQuoted line.content = true ∧ context.edge ≤ line.indent)) (afterEmpty : Bool)
    (rest : List Line) :
    After headed (quoteContext context) (inner ++ quoteLines context afterEmpty (line :: rest)) inner' := by
  rcases quoteLines_of_outside unheld afterEmpty rest with ended | ⟨more, lazy⟩
  · rw [ended, List.append_nil]
    exact .stays kept
  · have marked' : headed line.lazily.number := marked
    rw [lazy]
    exact .ends kept marked' (by simp [Line.lazily]) more

/-- The first line of a heading after lines that a quote goes on with. -/
theorem Kept.turned_quote {inner inner' : List Line} (kept : Kept inner inner') {context : Context} {lines : List Line}
    (held : Held context lines inner) {level : Nat} {line other : Line} (marked : headed line.number)
    (turned : Turned level line other) (guarded : Guarded context (· ∈ lines) line) (afterEmpty : Bool) (rest rest' : List Line) :
    After headed (quoteContext context) (inner ++ quoteLines context afterEmpty (line :: rest))
      (inner' ++ quoteLines context afterEmpty (other :: rest')) := by
  have alike := turned.alike
  -- Where the heading is not in the quote, the quote ends before it now.
  have closes : ¬ (isQuoted line.content = true ∧ context.edge ≤ line.indent) → breaksParagraph context false other = true →
      After headed (quoteContext context) (inner ++ quoteLines context afterEmpty (line :: rest))
        (inner' ++ quoteLines context afterEmpty (other :: rest')) := by
    intro unheld breaks
    have unheld' : ¬ (isQuoted other.content = true ∧ context.edge ≤ other.indent) := by rwa [alike.isQuoted, alike.indent]
    rw [quoteLines_of_breaks unheld' breaks, List.append_nil]
    exact kept.ends_quote marked unheld afterEmpty rest
  cases guarded with
  | here reaches unquoted => exact closes (by simp [unquoted]) (turned.breaks (reaches.congr_indent alike.indent)).2
  | @listed _ _ _ first before reaches marker found =>
    rcases held first before with ⟨quoted, _⟩ | ⟨_, open_⟩
    · exact absurd quoted (by simp [(kinds_of_listMarker? found).1])
    · exact absurd (reaches.breaks_of_marked found).2 (by simp [open_])
  | quoted _ _ _ quoted guarded =>
    by_cases edge : context.edge ≤ line.indent
    · rw [quoteLines_cons, quoteLines_cons, quoteStep_quoted quoted edge,
        quoteStep_quoted (alike.isQuoted.trans quoted) (alike.indent ▸ edge)]
      have guarded' : Guarded (quoteContext context) (· ∈ inner) line.insideQuote := by
        refine guarded.mono (fun _ reaches => reaches) ?_
        rintro _ ⟨outer, ⟨member, _⟩, marks, rfl⟩ _
        rcases held outer member with ⟨_, found⟩ | ⟨unquoted, _⟩
        · exact found
        · exact absurd marks (by simp [unquoted])
      have marked' : headed line.insideQuote.number := marked
      exact .turned kept marked' (turned.insideQuote quoted) guarded' _ _
    · refine closes (fun both => edge both.2) (breaksParagraph_of_quoted_before (alike.isQuoted.trans quoted) ?_)
      rw [alike.indent]
      omega

/-- What comes after a block inside of a quote that begins before it. -/
theorem After.quoteLines {context : Context} {lines others : List Line} (after : After headed context lines others)
    (outside : 0 ≤ context.edge) (afterEmpty : Bool) :
    After headed (quoteContext context) (quoteLines context afterEmpty lines) (quoteLines context afterEmpty others) := by
  cases after with
  | stays kept =>
    rcases kept.quoteLines_cases context afterEmpty with ⟨inner, inner', within, ended⟩ | ⟨inner, inner', _, within, goes, _⟩
    · obtain ⟨same, same'⟩ := ended [] []
      rw [List.append_nil] at same same'
      rw [same, same']
      exact .stays within
    · obtain ⟨same, same'⟩ := goes [] []
      rw [List.append_nil] at same same'
      rw [same, same']
      exact .stays (within.append .nil)
  | @ends front _ line kept marked outdented rest =>
    rcases kept.quoteLines_cases context afterEmpty with ⟨inner, inner', within, ended⟩ | ⟨inner, inner', afterEmpty', within, goes, _⟩
    · obtain ⟨same, same'⟩ := ended (line :: rest) []
      rw [List.append_nil] at same'
      rw [same, same']
      exact .stays within
    · obtain ⟨same, same'⟩ := goes (line :: rest) []
      rw [List.append_nil] at same'
      rw [same, same', Markdown.quoteLines, List.append_nil]
      exact within.ends_quote marked (by omega) afterEmpty' rest
  | @turned front front' level line other kept marked turned guarded rest rest' =>
    rcases kept.quoteLines_cases context afterEmpty with
      ⟨inner, inner', within, ended⟩ | ⟨inner, inner', afterEmpty', within, goes, held⟩
    · obtain ⟨same, same'⟩ := ended (line :: rest) (other :: rest')
      rw [same, same']
      exact .stays within
    · obtain ⟨same, same'⟩ := goes (line :: rest) (other :: rest')
      rw [same, same']
      exact within.turned_quote held marked turned guarded afterEmpty' rest rest'

/-- The further lines of a heading are all in the quote that it is in, and the quote may go on lazily after them. -/
theorem quoteLines_through {context : Context} {further rest : List Line}
    (within : further.length ≤ (quoteLines context false (further ++ rest)).length) {number stop : Nat}
    (numbered : Numbered headed number (further ++ rest)) (bound : number + further.length ≤ stop)
    (filled : ∀ line ∈ quoteLines context false (further ++ rest), line.number < stop → line.isEmpty = false) :
    ∃ inner, quoteLines context false (further ++ rest) = inner ++ quoteLines context false rest ∧
      inner.length = further.length := by
  induction further generalizing number with
  | nil => exact ⟨[], rfl, rfl⟩
  | cons line further ih =>
    rw [List.cons_append] at within numbered filled ⊢
    rw [List.length_cons] at bound
    rw [quoteLines_cons] at within filled ⊢
    cases step : quoteStep context false line with
    | none => simp [step] at within
    | some pair =>
      obtain ⟨first, after⟩ := pair
      simp only [step, List.length_cons] at within filled ⊢
      rw [List.forall_mem_cons] at filled
      have below : first.number < stop := by
        have place : first.number = line.number := by
          rcases quoteStep_cases step with ⟨_, _, same⟩ | ⟨_, _, same⟩
          · rw [(Prod.mk.inj same).1, Line.number_insideQuote]
          · rw [(Prod.mk.inj same).1, Line.number_lazily]
        have own := numbered.1.1
        omega
      have open_ : after = false := by
        rcases quoteStep_cases step with ⟨_, _, same⟩ | ⟨_, _, same⟩
        · obtain ⟨rfl, rfl⟩ := Prod.mk.inj same
          exact filled.1 below
        · exact (Prod.mk.inj same).2
      subst open_
      obtain ⟨inner, whole, length⟩ := ih (by omega) numbered.2 (by omega) filled.2
      exact ⟨first :: inner, by rw [whole, List.cons_append], congrArg Nat.succ length⟩

/-- A quote that all lines of a heading are in, none of them lazily at its start or empty, has them all with their marks off. -/
theorem quoteLines_heading {context : Context} {afterEmpty : Bool} {line : Line} {further rest : List Line}
    (within : further.length + 1 ≤ (quoteLines context afterEmpty (line :: (further ++ rest))).length) {number stop : Nat}
    (numbered : Numbered headed number (line :: (further ++ rest))) (bound : number + 1 + further.length ≤ stop)
    (filled : ∀ other ∈ quoteLines context afterEmpty (line :: (further ++ rest)), number ≤ other.number → other.number < stop →
      other.isEmpty = false)
    (inside : ∀ other ∈ quoteLines context afterEmpty (line :: (further ++ rest)), other.number = number → 0 ≤ other.indent) :
    isQuoted line.content = true ∧ context.edge ≤ line.indent ∧ ∃ inner, inner.length = further.length ∧
      quoteLines context afterEmpty (line :: (further ++ rest)) =
        line.insideQuote :: (inner ++ quoteLines context false rest) := by
  have place : line.number = number := numbered.1.1
  rw [quoteLines_cons] at within filled inside ⊢
  cases step : quoteStep context afterEmpty line with
  | none => simp [step] at within
  | some pair =>
    obtain ⟨first, after⟩ := pair
    simp only [step, List.length_cons, Nat.add_le_add_iff_right] at within filled inside ⊢
    obtain ⟨quoted, reaches, same⟩ | ⟨_, _, same⟩ := quoteStep_cases step
    · obtain ⟨rfl, rfl⟩ := Prod.mk.inj same
      have present : line.insideQuote.isEmpty = false :=
        filled line.insideQuote List.mem_cons_self (Nat.le_of_eq place.symm) (show line.number < stop by omega)
      rw [present] at within filled ⊢
      have numbered' : Numbered headed (number + 1) (quoteLines context false (further ++ rest)) := numbered_quoteLines numbered.2
      have filled' : ∀ other ∈ quoteLines context false (further ++ rest), other.number < stop → other.isEmpty = false := by
        intro other member
        have bounds := numbered'.bounds member
        exact filled other (List.mem_cons_of_mem _ member) (by omega)
      obtain ⟨inner, whole, length⟩ := quoteLines_through within numbered.2 bound filled'
      exact ⟨quoted, reaches, inner, length, by rw [whole]⟩
    · have nonneg := inside first List.mem_cons_self (by rw [(Prod.mk.inj same).1]; exact place)
      rw [(Prod.mk.inj same).1] at nonneg
      exact absurd nonneg (by simp [Line.lazily])

/-- Inside of a quote, the headings in it were rewritten as outside. -/
theorem Rewritten.quoteLines {level : Nat → Nat} {number : Nat} {headings : List Heading} {front front' rest : List Line}
    (rewritten : Rewritten level number headings front front') (numbered : Numbered headed number (front ++ rest))
    {context : Context} {afterEmpty : Bool} (within : front.length ≤ (quoteLines context afterEmpty (front ++ rest)).length)
    (filled : ∀ heading ∈ headings, ∀ line ∈ quoteLines context afterEmpty (front ++ rest), heading.start ≤ line.number →
      line.number < heading.stop → line.isEmpty = false)
    (inside : ∀ heading ∈ headings, ∀ line ∈ quoteLines context afterEmpty (front ++ rest), line.number = heading.start →
      0 ≤ line.indent) :
    ∃ inner inner' afterEmpty', quoteLines context afterEmpty (front ++ rest) = inner ++ quoteLines context afterEmpty' rest ∧
      (∀ rest', quoteLines context afterEmpty (front' ++ rest') = inner' ++ quoteLines context afterEmpty' rest') ∧
      inner.length = front.length ∧ inner'.length = front'.length ∧ Rewritten level number headings inner inner' := by
  induction rewritten generalizing afterEmpty with
  | nil => exact ⟨[], [], afterEmpty, rfl, fun _ => rfl, rfl, rfl, .nil⟩
  | @kept number headings line other lines others same rewritten ih =>
    obtain ⟨place, rfl⟩ := same
    rw [List.cons_append] at within numbered filled inside ⊢
    rw [quoteLines_cons] at within filled inside ⊢
    cases step : quoteStep context afterEmpty line with
    | none => simp [step] at within
    | some pair =>
      obtain ⟨first, after⟩ := pair
      simp only [step, List.length_cons, Nat.add_le_add_iff_right] at within filled inside ⊢
      obtain ⟨inner, inner', afterEmpty', whole, whole', length, length', later⟩ := ih numbered.2 within
        (fun heading found line member => filled heading found line (List.mem_cons_of_mem _ member))
        (fun heading found line member => inside heading found line (List.mem_cons_of_mem _ member))
      refine ⟨first :: inner, first.movedTo place :: inner', afterEmpty', by rw [whole, List.cons_append], fun rest' => ?_,
        congrArg Nat.succ length, congrArg Nat.succ length', .kept ⟨place, rfl⟩ later⟩
      rw [List.cons_append, quoteLines_cons, quoteStep_movedTo, step, Option.map_some]
      simp only [whole', List.cons_append]
  | @turned number heading headings line other further lines others start stop turned rewritten ih =>
    rw [List.cons_append, List.append_assoc] at within numbered filled inside ⊢
    rw [List.length_cons, List.length_append] at within
    obtain ⟨quoted, reaches, through, length, whole⟩ := quoteLines_heading (Nat.le_trans (by omega) within) numbered
      (Nat.le_of_eq stop.symm) (start ▸ filled heading List.mem_cons_self) (start ▸ inside heading List.mem_cons_self)
    rw [whole] at within filled inside ⊢
    have behind : ∀ other ∈ Markdown.quoteLines context false (lines ++ rest),
        other ∈ line.insideQuote :: (through ++ Markdown.quoteLines context false (lines ++ rest)) :=
      fun other member => List.mem_cons_of_mem _ (List.mem_append_right through member)
    rw [List.length_cons, List.length_append] at within
    obtain ⟨inner, inner', afterEmpty', later, later', count, count', rewritten'⟩ := ih
      (stop ▸ (numbered_append.mp numbered.2).2) (by omega)
      (fun heading found other member => filled heading (List.mem_cons_of_mem _ found) other (behind other member))
      (fun heading found other member => inside heading (List.mem_cons_of_mem _ found) other (behind other member))
    have alike := turned.alike
    have inner_turned := turned.insideQuote quoted
    refine ⟨line.insideQuote :: (through ++ inner), other.insideQuote :: inner', afterEmpty', ?_, fun rest' => ?_, ?_,
      congrArg Nat.succ count', .turned start (length ▸ stop) inner_turned rewritten'⟩
    · rw [later, List.cons_append, List.append_assoc]
    · rw [List.cons_append, quoteLines_cons, quoteStep_quoted (alike.isQuoted.trans quoted) (alike.indent ▸ reaches),
        inner_turned.present.2]
      simp only [later', List.cons_append]
    · rw [List.length_cons, List.length_cons, List.length_append, List.length_append, length, count]

end Bindery.Markdown
