import Bindery.Proofs.DefinitionExtents

/-! What the reading of blocks finds. Headings lie one after another among the lines that were read. No line of a
heading is empty, and the markers on its first line lead to its content. -/

namespace Bindery.Markdown
open Text

variable {headed : Nat → Prop}

/-- Headings one after another, from a line on and before another. -/
def Within : Nat → List Heading → Nat → Prop
  | first, [], last => first ≤ last
  | first, heading :: rest, last =>
    first ≤ heading.start ∧ heading.start < heading.stop ∧ Within heading.stop rest last

theorem Within.mono {first last later : Nat} {headings : List Heading} (within : Within first headings last)
    (le : last ≤ later) : Within first headings later := by
  induction headings generalizing first with
  | nil => exact Nat.le_trans within le
  | cons heading rest ih => exact ⟨within.1, within.2.1, ih within.2.2⟩

theorem Within.from_earlier {first earlier last : Nat} {headings : List Heading} (within : Within first headings last)
    (le : earlier ≤ first) : Within earlier headings last := by
  cases headings with
  | nil => exact Nat.le_trans le within
  | cons heading rest => exact ⟨Nat.le_trans le within.1, within.2⟩

theorem Within.append {first middle last : Nat} {front back : List Heading} (before : Within first front middle)
    (after : Within middle back last) : Within first (front ++ back) last := by
  induction front generalizing first with
  | nil => exact after.from_earlier before
  | cons heading rest ih => exact ⟨before.1, before.2.1, ih before.2.2⟩

theorem Within.le {first last : Nat} {headings : List Heading} (within : Within first headings last) : first ≤ last := by
  induction headings generalizing first with
  | nil => exact within
  | cons heading rest ih =>
    have below := ih within.2.2
    have after := within.1
    have nonempty := within.2.1
    omega

theorem Within.eq_nil {number : Nat} {headings : List Heading} (within : Within number headings number) : headings = [] := by
  cases headings with
  | nil => rfl
  | cons heading more =>
    have after := within.2.2.le
    have below := within.1
    have filled := within.2.1
    omega

theorem Within.bounds {first last : Nat} {headings : List Heading} (within : Within first headings last)
    {heading : Heading} (member : heading ∈ headings) :
    first ≤ heading.start ∧ heading.start < heading.stop ∧ heading.stop ≤ last := by
  induction headings generalizing first with
  | nil => cases member
  | cons other rest ih =>
    obtain ⟨after, nonempty, later⟩ := within
    rcases List.mem_cons.mp member with rfl | deeper
    · exact ⟨after, nonempty, later.le⟩
    · obtain ⟨lower, filled, upper⟩ := ih later deeper
      exact ⟨by omega, filled, upper⟩

theorem Within.pairwise {first last : Nat} {headings : List Heading} (within : Within first headings last) :
    headings.Pairwise fun heading later => heading.stop ≤ later.start := by
  induction headings generalizing first with
  | nil => exact .nil
  | cons heading rest ih => exact .cons (fun later member => (within.2.2.bounds member).1) (ih within.2.2)

/-! ### Sound readings -/

/-- What the markers before a heading lead to. -/
def Heading.Begins (heading : Heading) (content : Text) : Prop :=
  match heading.style with
  | .hashes => hashLevel? content = some heading.level
  | .underlined title => '\r' ∉ title

/-- What was found among lines that are numbered from a number on. -/
structure Sound (number : Nat) (lines : List Line) (reading : Reading) : Prop where
  taken_le : reading.taken ≤ lines.length
  within : Within number reading.headings (number + reading.taken)
  filled : ∀ heading ∈ reading.headings, ∀ line ∈ lines, heading.start ≤ line.number → line.number < heading.stop →
    line.isEmpty = false
  leads : ∀ heading ∈ reading.headings, ∀ line ∈ lines, line.number = heading.start →
    0 ≤ line.indent ∧ Leads heading.Begins line

theorem sound_of_no_headings {number taken : Nat} {lines : List Line} (le : taken ≤ lines.length) :
    Sound number lines ⟨[], taken⟩ :=
  ⟨le, Nat.le_add_right _ _, nofun, nofun⟩

/-- A reading followed by another one, from the line where the first one ends. -/
theorem Sound.append {number : Nat} {lines : List Line} {first second : Reading} (numbered : Numbered headed number lines)
    (sound : Sound number lines first) (next : Sound (number + first.taken) (lines.drop first.taken) second) :
    Sound number lines ⟨first.headings ++ second.headings, first.taken + second.taken⟩ := by
  have behind : ∀ heading ∈ second.headings, ∀ line ∈ lines, heading.start ≤ line.number → line ∈ lines.drop first.taken := by
    intro heading found line member after
    have bounds := next.within.bounds found
    exact numbered.mem_drop member (by omega)
  constructor
  · have below := sound.taken_le
    have rest := next.taken_le
    rw [List.length_drop] at rest
    show first.taken + second.taken ≤ lines.length
    omega
  · have after := next.within
    rw [Nat.add_assoc] at after
    exact sound.within.append after
  · intro heading found line member after before
    rcases List.mem_append.mp found with here | later
    · exact sound.filled heading here line member after before
    · exact next.filled heading later line (behind heading later line member after) after before
  · intro heading found line member start
    rcases List.mem_append.mp found with here | later
    · exact sound.leads heading here line member start
    · exact next.leads heading later line (behind heading later line member (by omega)) start

/-- Readers inside of containers whose column is not negative. -/
def Reads (reader : BlockReader) : Prop :=
  ∀ {headed : Nat → Prop} {context : Context} {number : Nat} {lines : List Line}, 0 ≤ context.edge → Numbered headed number lines →
    Sound number lines (reader context lines)

/-- Readers that take a first line that is empty or reaches the edge. -/
def Starts (reader : BlockReader) : Prop :=
  ∀ {context : Context} {line : Line} {rest : List Line}, line.isEmpty = true ∨ context.edge ≤ line.indent →
    1 ≤ (reader context (line :: rest)).taken

/-! ### Quotes -/

theorem isEmpty_of_isQuoted {line : Line} (quoted : isQuoted line.content = true) : line.isEmpty = false := by
  obtain ⟨rest, content⟩ := exists_of_isQuoted quoted
  rw [Line.isEmpty, content]
  rfl

/-- A line inside a quote, and whether the quote ends before a line without its mark then. -/
def quoteStep (context : Context) (afterEmpty : Bool) (line : Line) : Option (Line × Bool) :=
  if line.isEmpty then none
  else if isQuoted line.content && line.indent ≥ context.edge then some (line.insideQuote, line.insideQuote.isEmpty)
  else if afterEmpty || breaksParagraph context false line then none
  else some (line.lazily, afterEmpty)

theorem quoteLines_cons (context : Context) (afterEmpty : Bool) (line : Line) (rest : List Line) :
    quoteLines context afterEmpty (line :: rest) =
      match quoteStep context afterEmpty line with
      | none => []
      | some (inner, afterEmpty) => inner :: quoteLines context afterEmpty rest := by
  rw [quoteLines]
  unfold quoteStep
  split
  · rfl
  · split
    · rfl
    · split <;> rfl

theorem breaksParagraph_of_quoted_before {context : Context} {line : Line} (quoted : isQuoted line.content = true)
    (before : line.indent < context.edge) : breaksParagraph context false line = true := by
  have near : context.isCode line = false := by
    simp only [Context.isCode, decide_eq_false_iff_not]
    omega
  simp [breaksParagraph, breaksList, near, quoted]

theorem quoteStep_cases {context : Context} {afterEmpty : Bool} {line : Line} {step : Line × Bool}
    (goes : quoteStep context afterEmpty line = some step) :
    isQuoted line.content = true ∧ context.edge ≤ line.indent ∧ step = (line.insideQuote, line.insideQuote.isEmpty) ∨
      isQuoted line.content = false ∧ breaksParagraph context false line = false ∧ step = (line.lazily, afterEmpty) := by
  obtain ⟨_, later⟩ := Option.ite_none_left_eq_some.mp goes
  split at later
  next quoted =>
    simp only [Bool.and_eq_true, decide_eq_true_eq] at quoted
    exact Or.inl ⟨quoted.1, quoted.2, (Option.some.inj later).symm⟩
  next other =>
    simp only [Bool.and_eq_true, decide_eq_true_eq] at other
    obtain ⟨open_, same⟩ := Option.ite_none_left_eq_some.mp later
    simp only [Bool.or_eq_true, not_or, Bool.not_eq_true] at open_
    refine Or.inr ⟨?_, open_.2, (Option.some.inj same).symm⟩
    by_contra quoted
    rw [Bool.not_eq_false] at quoted
    have breaks := breaksParagraph_of_quoted_before quoted (Int.not_le.mp fun reaches => other ⟨quoted, reaches⟩)
    exact absurd open_.2 (by simp [breaks])

/-- A quote ends, or goes on with a line that is in it or lazily so. -/
theorem quoteLines_cases (context : Context) (afterEmpty : Bool) (line : Line) (rest : List Line) :
    quoteLines context afterEmpty (line :: rest) = [] ∨
      line.isEmpty = false ∧
        ((isQuoted line.content = true ∧ context.edge ≤ line.indent) ∧ quoteLines context afterEmpty (line :: rest) =
            line.insideQuote :: quoteLines context line.insideQuote.isEmpty rest ∨
          quoteLines context afterEmpty (line :: rest) = line.lazily :: quoteLines context afterEmpty rest) := by
  rw [quoteLines_cons]
  cases step : quoteStep context afterEmpty line with
  | none => exact Or.inl rfl
  | some inner =>
    have present : line.isEmpty = false := Bool.not_eq_true _ ▸ (Option.ite_none_left_eq_some.mp step).1
    rcases quoteStep_cases step with ⟨quoted, reaches, rfl⟩ | ⟨_, _, rfl⟩
    · exact Or.inr ⟨present, Or.inl ⟨⟨quoted, reaches⟩, rfl⟩⟩
    · exact Or.inr ⟨present, Or.inr rfl⟩

theorem length_quoteLines_le (context : Context) (afterEmpty : Bool) (lines : List Line) :
    (quoteLines context afterEmpty lines).length ≤ lines.length := by
  induction lines generalizing afterEmpty with
  | nil => exact Nat.le_refl 0
  | cons line rest ih =>
    rcases quoteLines_cases context afterEmpty line rest with ended | ⟨_, ⟨_, goes⟩ | goes⟩
    · simp [ended]
    · rw [goes]
      exact Nat.succ_le_succ (ih _)
    · rw [goes]
      exact Nat.succ_le_succ (ih _)

/-- A line before the end of a quote is in the quote or lazily so. -/
theorem exists_mem_quoteLines {context : Context} {afterEmpty : Bool} {number : Nat} {lines : List Line}
    (numbered : Numbered headed number lines) {line : Line} (member : line ∈ lines)
    (before : line.number < number + (quoteLines context afterEmpty lines).length) :
    line.isEmpty = false ∧
      ((isQuoted line.content = true ∧ context.edge ≤ line.indent) ∧ line.insideQuote ∈ quoteLines context afterEmpty lines ∨
        line.lazily ∈ quoteLines context afterEmpty lines) := by
  induction lines generalizing number afterEmpty with
  | nil => cases member
  | cons first rest ih =>
    have further : ∀ {afterEmpty inner}, line ∈ rest →
        line.number < number + (inner :: quoteLines context afterEmpty rest).length → line.isEmpty = false ∧
          ((isQuoted line.content = true ∧ context.edge ≤ line.indent) ∧
              line.insideQuote ∈ inner :: quoteLines context afterEmpty rest ∨
            line.lazily ∈ inner :: quoteLines context afterEmpty rest) := by
      intro afterEmpty inner deeper below
      rw [List.length_cons] at below
      obtain ⟨present, within⟩ := ih numbered.2 deeper (show _ < number + 1 + (quoteLines context afterEmpty rest).length by omega)
      exact ⟨present, within.imp (And.imp_right (List.mem_cons_of_mem _)) (List.mem_cons_of_mem _)⟩
    rcases quoteLines_cases context afterEmpty first rest with ended | ⟨present, ⟨quoted, goes⟩ | goes⟩
    · have bounds := numbered.bounds member
      rw [ended, List.length_nil] at before
      omega
    · rw [goes] at before ⊢
      rcases List.mem_cons.mp member with rfl | deeper
      · exact ⟨present, Or.inl ⟨quoted, List.mem_cons_self⟩⟩
      · exact further deeper before
    · rw [goes] at before ⊢
      rcases List.mem_cons.mp member with rfl | deeper
      · exact ⟨present, Or.inr List.mem_cons_self⟩
      · exact further deeper before

theorem sound_readQuote {inside : BlockReader} (reads : Reads inside) {context : Context} {line : Line}
    {rest : List Line} {number : Nat} (outside : 0 ≤ context.edge) (numbered : Numbered headed number (line :: rest))
    (quoted : isQuoted line.content = true) (reaches : context.edge ≤ line.indent) :
    Sound number (line :: rest) (readQuote inside context line rest) := by
  have numbered' : Numbered headed number (line.insideQuote :: quoteLines context line.insideQuote.isEmpty rest) :=
    numbered.insideQuote (numbered_quoteLines numbered.2)
  have inner : Sound number _ (readQuote inside context line rest) := reads (Int.le_refl 0) numbered'
  -- Each line that the quote takes has its counterpart inside.
  have counterpart : ∀ other ∈ line :: rest, other.number < number + (readQuote inside context line rest).taken →
      other.isEmpty = false ∧ ((isQuoted other.content = true ∧ context.edge ≤ other.indent) ∧
          other.insideQuote ∈ line.insideQuote :: quoteLines context line.insideQuote.isEmpty rest ∨
        other.lazily ∈ line.insideQuote :: quoteLines context line.insideQuote.isEmpty rest) := by
    intro other member before
    rcases List.mem_cons.mp member with rfl | later
    · exact ⟨isEmpty_of_isQuoted quoted, Or.inl ⟨⟨quoted, reaches⟩, List.mem_cons_self⟩⟩
    · have below : (readQuote inside context line rest).taken ≤
          (quoteLines context line.insideQuote.isEmpty rest).length + 1 := inner.taken_le
      obtain ⟨present, within⟩ := exists_mem_quoteLines numbered.2 later
        (show _ < number + 1 + (quoteLines context line.insideQuote.isEmpty rest).length by omega)
      exact ⟨present, within.imp (And.imp_right (List.mem_cons_of_mem _)) (List.mem_cons_of_mem _)⟩
  constructor
  · have below : (readQuote inside context line rest).taken ≤
        (quoteLines context line.insideQuote.isEmpty rest).length + 1 := inner.taken_le
    have shorter := length_quoteLines_le context line.insideQuote.isEmpty rest
    rw [List.length_cons]
    omega
  · exact inner.within
  · intro heading found other member after before
    have bounds := inner.within.bounds found
    exact (counterpart other member (Nat.lt_of_lt_of_le before bounds.2.2)).1
  · intro heading found other member start
    have bounds := inner.within.bounds found
    have before : other.number < number + (readQuote inside context line rest).taken :=
      Nat.lt_of_lt_of_le (by omega) bounds.2.2
    obtain ⟨_, ⟨⟨quoted, reaches⟩, within⟩ | lazy⟩ := counterpart other member before
    · obtain ⟨_, leads⟩ := inner.leads heading found _ within start
      exact ⟨by omega, .quote quoted leads⟩
    · obtain ⟨nonneg, _⟩ := inner.leads heading found _ lazy start
      exact absurd nonneg (by simp [Line.lazily])

/-! ### Lists -/

theorem present_of_insideItem {line : Line} {marker : ListMarker} (present : (line.insideItem marker).isEmpty = false) :
    line.isEmpty = false := by
  by_contra empty
  rw [Bool.not_eq_false, Line.isEmpty, List.isEmpty_iff] at empty
  rw [Line.isEmpty, Line.content_insideItem, empty, List.drop_nil] at present
  cases present

theorem starts_readItem {inside : BlockReader} (starts : Starts inside) (context : Context) (marker : ListMarker) (line : Line)
    (rest : List Line) : 1 ≤ (readItem inside context marker line rest).taken := by
  rw [readItem_eq]
  split
  · show 1 ≤ min 2 (rest.length + 1)
    omega
  · apply starts
    cases present : (line.insideItem marker).isEmpty with
    | true => exact Or.inl rfl
    | false => exact Or.inr (itemEdge_le_indent present)

theorem sound_readItem {inside : BlockReader} (reads : Reads inside) {context : Context} {marker : ListMarker} {line : Line}
    {rest : List Line} {number : Nat} (numbered : Numbered headed number (line :: rest)) (inner : 0 ≤ line.indent)
    (marked : listMarker? line.content = some marker) (unruled : isRule line.content = false) :
    Sound number (line :: rest) (readItem inside context marker line rest) := by
  rw [readItem_eq]
  split
  · apply sound_of_no_headings
    rw [List.length_cons]
    exact Nat.min_le_right _ _
  · have sound : Sound number (line.insideItem marker :: rest)
        (inside (itemContext context marker line) (line.insideItem marker :: rest)) :=
      reads (Int.natCast_nonneg _) (numbered.insideItem marker)
    refine ⟨sound.taken_le, sound.within, fun heading found => ?_, fun heading found => ?_⟩
    · have filled := sound.filled heading found
      rw [List.forall_mem_cons] at filled ⊢
      exact ⟨fun after before => present_of_insideItem (filled.1 after before), filled.2⟩
    · have leads := sound.leads heading found
      rw [List.forall_mem_cons] at leads ⊢
      exact ⟨fun start => ⟨inner, .item marker marked unruled (leads.1 start).2⟩, leads.2⟩

/-- A further item begins where an item of the list may begin. -/
theorem of_nextMarker?_eq_some {context : Context} {marker next : ListMarker} {line : Line}
    (found : nextMarker? context marker line = some next) :
    context.edge ≤ line.indent ∧ context.isCode line = false ∧ isRule line.content = false ∧
      listMarker? line.content = some next := by
  unfold nextMarker? at found
  obtain ⟨free, later⟩ := Option.ite_none_left_eq_some.mp found
  simp only [Bool.or_eq_true, decide_eq_true_eq, not_or, Bool.not_eq_true] at free
  obtain ⟨⟨reaches, near⟩, goes⟩ := free
  refine ⟨by omega, near, ?_, (Option.filter_eq_some_iff.mp later).1⟩
  simp only [breaksList, near, Bool.not_false, Bool.true_and, Bool.or_eq_false_iff] at goes
  exact goes.2

/-- A list ends where no further item begins. -/
theorem readItems_of_last {inside : BlockReader} {context : Context} {marker : ListMarker} {line : Line} {rest : List Line}
    (last : ∀ next ∈ (rest.drop ((readItem inside context marker line rest).taken - 1)).head?,
      nextMarker? context marker next = none) :
    readItems inside context marker line rest =
      ⟨(readItem inside context marker line rest).headings, (readItem inside context marker line rest).taken - 1 + 1⟩ := by
  rw [readItems]
  split
  · rfl
  next next more later =>
    rw [last next (by rw [later]; rfl)]

theorem readItems_of_next {inside : BlockReader} {context : Context} {marker further : ListMarker} {line next : Line}
    {rest more : List Line} (later : rest.drop ((readItem inside context marker line rest).taken - 1) = next :: more)
    (found : nextMarker? context marker next = some further) :
    readItems inside context marker line rest =
      ⟨(readItem inside context marker line rest).headings ++ (readItems inside context further next more).headings,
        (readItem inside context marker line rest).taken - 1 + 1 + (readItems inside context further next more).taken⟩ := by
  rw [readItems]
  split
  next spent => simp [later] at spent
  next first others same =>
    obtain ⟨rfl, rfl⟩ := List.cons.inj (same.symm.trans later)
    rw [found]

theorem sound_readItems {inside : BlockReader} (reads : Reads inside) (starts : Starts inside) {context : Context}
    {marker : ListMarker} {line : Line} {rest : List Line} {number : Nat} (outside : 0 ≤ context.edge)
    (numbered : Numbered headed number (line :: rest)) (inner : 0 ≤ line.indent) (marked : listMarker? line.content = some marker)
    (unruled : isRule line.content = false) : Sound number (line :: rest) (readItems inside context marker line rest) := by
  fun_induction readItems inside context marker line rest generalizing number with
  | case1 marker line rest item used =>
    have whole : used + 1 = item.taken := Nat.sub_add_cancel (starts_readItem starts context marker line rest)
    rw [whole]
    exact sound_readItem reads numbered inner marked unruled
  | case2 marker line rest item used next more later =>
    have whole : used + 1 = item.taken := Nat.sub_add_cancel (starts_readItem starts context marker line rest)
    rw [whole]
    exact sound_readItem reads numbered inner marked unruled
  | case3 marker line rest item used next more later further found others =>
    rename_i ih
    have whole : used + 1 = item.taken := Nat.sub_add_cancel (starts_readItem starts context marker line rest)
    have dropped : (line :: rest).drop item.taken = next :: more := by rw [← whole, List.drop_succ_cons, later]
    have numbered' : Numbered headed (number + item.taken) (next :: more) := dropped ▸ numbered.drop item.taken
    obtain ⟨reaches, _, unruled', marked'⟩ := of_nextMarker?_eq_some found
    rw [whole]
    apply (sound_readItem reads numbered inner marked unruled).append numbered
    show Sound (number + item.taken) ((line :: rest).drop item.taken) others
    rw [dropped]
    exact ih numbered' (by omega) marked' unruled'

/-! ### Blocks -/

/-- A line that opens no block of its own kind by its first characters, up to tags and hashes. -/
structure Plain (context : Context) (line : Line) : Prop where
  near : context.isCode line = false
  unfenced : fenceMark? line.content = none
  unquoted : isQuoted line.content = false
  unruled : isRule line.content = false
  unlisted : opensList? context false line = none

/-- What the block that begins on a line can be, and how it is read then. -/
inductive BlockCase (insideQuote insideItem : BlockReader) (context : Context) (line : Line) (rest : List Line) :
    Reading → Prop where
  | code (code : context.isCode line = true) :
      BlockCase insideQuote insideItem context line rest ⟨[], codeExtent context rest + 1⟩
  | fence (near : context.isCode line = false) (mark : Char) (width : Nat) (fenced : fenceMark? line.content = some (mark, width)) :
      BlockCase insideQuote insideItem context line rest ⟨[], fenceExtent context mark width rest + 1⟩
  | quote (near : context.isCode line = false) (unfenced : fenceMark? line.content = none) (quoted : isQuoted line.content = true) :
      BlockCase insideQuote insideItem context line rest (readQuote insideQuote context line rest)
  | rule (near : context.isCode line = false) (unfenced : fenceMark? line.content = none) (unquoted : isQuoted line.content = false)
      (ruled : isRule line.content = true) : BlockCase insideQuote insideItem context line rest ⟨[], 1⟩
  | list (near : context.isCode line = false) (unfenced : fenceMark? line.content = none) (unquoted : isQuoted line.content = false)
      (unruled : isRule line.content = false) (marker : ListMarker) (opens : opensList? context false line = some marker) :
      BlockCase insideQuote insideItem context line rest (readItems insideItem context marker line rest)
  | definition (plain : Plain context line) (further : Nat) (defines : readDefinition? context line rest = some further) :
      BlockCase insideQuote insideItem context line rest ⟨[], further + 1⟩
  | html (plain : Plain context line) (undefined : readDefinition? context line rest = none) (kind : HtmlKind)
      (tagged : htmlKind? line.content = some kind) : BlockCase insideQuote insideItem context line rest
        ⟨[], if kind.endsOn line.content then 1 else htmlExtent context kind rest + 1⟩
  | hashes (plain : Plain context line) (undefined : readDefinition? context line rest = none)
      (untagged : htmlKind? line.content = none) (level : Nat) (hashed : hashLevel? line.content = some level) :
      BlockCase insideQuote insideItem context line rest
        ⟨[⟨line.number, line.number + 1, level, .hashes, context.path⟩], 1⟩
  | underlined (plain : Plain context line) (undefined : readDefinition? context line rest = none)
      (untagged : htmlKind? line.content = none) (unhashed : hashLevel? line.content = none) (level before : Nat)
      (under : underline? context rest = some (level, before)) : BlockCase insideQuote insideItem context line rest
        ⟨[⟨line.number, line.number + before + 2, level,
          .underlined (paragraphText context.edge (line :: rest.take before)), context.path⟩], before + 2⟩
  | paragraph (plain : Plain context line) (undefined : readDefinition? context line rest = none)
      (untagged : htmlKind? line.content = none) (unhashed : hashLevel? line.content = none)
      (bare : underline? context rest = none) :
      BlockCase insideQuote insideItem context line rest ⟨[], paragraphExtent context true rest + 1⟩

theorem readBlock_cases (insideQuote insideItem : BlockReader) (context : Context) (line : Line) (rest : List Line) :
    BlockCase insideQuote insideItem context line rest (readBlock insideQuote insideItem context line rest) := by
  unfold readBlock
  split
  next code => exact .code code
  next near =>
  rw [Bool.not_eq_true] at near
  split
  next mark width fenced => exact .fence near mark width fenced
  next unfenced =>
  have unfenced : fenceMark? line.content = none := Option.eq_none_iff_forall_ne_some.mpr fun pair => unfenced pair.1 pair.2
  split
  next quoted => exact .quote near unfenced quoted
  next unquoted =>
  rw [Bool.not_eq_true] at unquoted
  split
  next ruled => exact .rule near unfenced unquoted ruled
  next unruled =>
  rw [Bool.not_eq_true] at unruled
  split
  next marker opens => exact .list near unfenced unquoted unruled marker opens
  next unlisted =>
  have plain : Plain context line := ⟨near, unfenced, unquoted, unruled, Option.eq_none_iff_forall_ne_some.mpr unlisted⟩
  split
  next further defines => exact .definition plain further defines
  next undefined =>
  have undefined : readDefinition? context line rest = none := Option.eq_none_iff_forall_ne_some.mpr undefined
  split
  next kind tagged => exact .html plain undefined kind tagged
  next untagged =>
  have untagged : htmlKind? line.content = none := Option.eq_none_iff_forall_ne_some.mpr untagged
  split
  next level hashed => exact .hashes plain undefined untagged level hashed
  next unhashed =>
  have unhashed : hashLevel? line.content = none := Option.eq_none_iff_forall_ne_some.mpr unhashed
  split
  next level before under => exact .underlined plain undefined untagged unhashed level before under
  next bare =>
  exact .paragraph plain undefined untagged unhashed (Option.eq_none_iff_forall_ne_some.mpr fun pair => bare pair.1 pair.2)

/-- The block that begins on a line is read in one way. -/
theorem BlockCase.readBlock_eq {insideQuote insideItem : BlockReader} {context : Context} {line : Line} {rest : List Line}
    {reading : Reading} (kind : BlockCase insideQuote insideItem context line rest reading) :
    readBlock insideQuote insideItem context line rest = reading := by
  cases kind with
  | code code => simp [readBlock, code]
  | fence near mark width fenced => simp [readBlock, near, fenced]
  | quote near unfenced quoted => simp [readBlock, near, unfenced, quoted]
  | rule near unfenced unquoted ruled => simp [readBlock, near, unfenced, unquoted, ruled]
  | list near unfenced unquoted unruled marker opens => simp [readBlock, near, unfenced, unquoted, unruled, opens]
  | definition plain further defines =>
    simp [readBlock, plain.near, plain.unfenced, plain.unquoted, plain.unruled, plain.unlisted, defines]
  | html plain undefined kind tagged =>
    simp [readBlock, plain.near, plain.unfenced, plain.unquoted, plain.unruled, plain.unlisted, undefined, tagged]
  | hashes plain undefined untagged level hashed =>
    simp [readBlock, plain.near, plain.unfenced, plain.unquoted, plain.unruled, plain.unlisted, undefined, untagged, hashed]
  | underlined plain undefined untagged unhashed level before under =>
    simp [readBlock, plain.near, plain.unfenced, plain.unquoted, plain.unruled, plain.unlisted, undefined, untagged, unhashed, under]
  | paragraph plain undefined untagged unhashed bare =>
    simp [readBlock, plain.near, plain.unfenced, plain.unquoted, plain.unruled, plain.unlisted, undefined, untagged, unhashed, bare]

theorem starts_readQuote {inside : BlockReader} (starts : Starts inside) (context : Context) (line : Line) (rest : List Line) :
    1 ≤ (readQuote inside context line rest).taken :=
  starts (Or.inr line.insideQuote_indent_nonneg)

theorem starts_readItems (inside : BlockReader) (context : Context) (marker : ListMarker) (line : Line) (rest : List Line) :
    1 ≤ (readItems inside context marker line rest).taken := by
  fun_cases readItems inside context marker line rest with
  | case1 => exact Nat.le_add_left 1 _
  | case2 => exact Nat.le_add_left 1 _
  | case3 =>
    rw [Nat.add_right_comm]
    exact Nat.le_add_left 1 _

theorem starts_readBlock {insideQuote insideItem : BlockReader} (starts : Starts insideQuote) (context : Context) (line : Line)
    (rest : List Line) : 1 ≤ (readBlock insideQuote insideItem context line rest).taken := by
  have kinds := readBlock_cases insideQuote insideItem context line rest
  generalize readBlock insideQuote insideItem context line rest = reading at kinds ⊢
  cases kinds with
  | quote near unfenced quoted => exact starts_readQuote starts context line rest
  | list near unfenced unquoted unruled marker opens => exact starts_readItems insideItem context marker line rest
  | html plain undefined kind tagged =>
    show 1 ≤ if kind.endsOn line.content then 1 else htmlExtent context kind rest + 1
    split <;> omega
  | rule => exact Nat.le_refl 1
  | hashes => exact Nat.le_refl 1
  | underlined => exact Nat.le_add_left 1 _
  | code | fence | definition | paragraph => exact Nat.le_add_left 1 _

/-- Where no list opens at the edge of a container, no marker of an item stands there. -/
theorem Plain.unmarked {context : Context} {line : Line} (plain : Plain context line) (reaches : context.edge ≤ line.indent) :
    listMarker? line.content = none := by
  have opens := plain.unlisted
  rw [opensList?, plain.near, show (decide (line.indent < context.edge)) = false from decide_eq_false (by omega)] at opens
  simpa [Option.filter_eq_none_iff, ← Option.eq_none_iff_forall_ne_some] using opens

theorem listMarker?_of_opensList? {context : Context} {inParagraph : Bool} {line : Line} {marker : ListMarker}
    (opens : opensList? context inParagraph line = some marker) : listMarker? line.content = some marker := by
  obtain ⟨_, later⟩ := Option.ite_none_left_eq_some.mp opens
  obtain ⟨_, found⟩ := Option.ite_none_left_eq_some.mp later
  exact (Option.filter_eq_some_iff.mp found).1

/-- One heading that takes lines which are not empty, the first of them without markers. -/
theorem sound_of_heading {context : Context} {line : Line} {rest : List Line} {number further level : Nat} {style : HeadingStyle}
    (numbered : Numbered headed number (line :: rest)) (inner : 0 ≤ line.indent) (plain : Plain context line)
    (reaches : context.edge ≤ line.indent) (present : line.isEmpty = false) (le : further ≤ rest.length)
    (filled : ∀ other ∈ rest.take further, other.isEmpty = false)
    (begins : Heading.Begins ⟨line.number, line.number + further + 1, level, style, context.path⟩ line.content) :
    Sound number (line :: rest) ⟨[⟨line.number, line.number + further + 1, level, style, context.path⟩], further + 1⟩ := by
  have first := numbered.1.1
  constructor
  · exact Nat.succ_le_succ le
  · refine ⟨Nat.le_of_eq first.symm, by simp only; omega, ?_⟩
    show line.number + further + 1 ≤ number + (further + 1)
    omega
  · intro heading found other member after before
    rw [List.mem_singleton] at found
    subst found
    rcases List.mem_cons.mp member with rfl | later
    · exact present
    · rw [← List.take_append_drop further rest] at later
      rcases List.mem_append.mp later with among | behind
      · exact filled other among
      · have bounds := (numbered.2.drop further).bounds behind
        simp only at before
        omega
  · intro heading found other member start
    rw [List.mem_singleton] at found
    subst found
    rcases List.mem_cons.mp member with rfl | later
    · exact ⟨inner, .here plain.unquoted (plain.unmarked reaches) present begins⟩
    · have bounds := numbered.2.bounds later
      simp only at start
      omega

theorem sound_readBlock {insideQuote insideItem : BlockReader} (reads : Reads insideQuote) (reads' : Reads insideItem)
    (starts : Starts insideItem) {context : Context} {line : Line} {rest : List Line} {number : Nat} (outside : 0 ≤ context.edge)
    (numbered : Numbered headed number (line :: rest)) (reaches : context.edge ≤ line.indent) (present : line.isEmpty = false) :
    Sound number (line :: rest) (readBlock insideQuote insideItem context line rest) := by
  have inner : 0 ≤ line.indent := Int.le_trans outside reaches
  have leaf : ∀ further, further ≤ rest.length → Sound number (line :: rest) ⟨[], further + 1⟩ := by
    intro further le
    exact sound_of_no_headings (Nat.succ_le_succ le)
  have kinds := readBlock_cases insideQuote insideItem context line rest
  generalize readBlock insideQuote insideItem context line rest = reading at kinds ⊢
  cases kinds with
  | code => exact leaf _ (codeExtent_eq context rest ▸ extentOf_le _ rest)
  | fence near mark width => exact leaf _ (fenceExtent_eq context mark width rest ▸ extentOf_le _ rest)
  | quote near unfenced quoted => exact sound_readQuote reads outside numbered quoted reaches
  | rule => exact leaf 0 (Nat.zero_le _)
  | list near unfenced unquoted unruled marker opens =>
    exact sound_readItems reads' starts outside numbered inner (listMarker?_of_opensList? opens) unruled
  | definition plain further defines =>
    have within : further ≤ paragraphExtent context false rest :=
      readDefinition?_le (fun other member => (numbered.tidy member).single) defines
    rw [paragraphExtent_eq] at within
    exact leaf further (Nat.le_trans within (extentOf_le _ rest))
  | html plain undefined kind tagged =>
    split
    · exact leaf 0 (Nat.zero_le _)
    · exact leaf _ (htmlExtent_eq context kind rest ▸ extentOf_le _ rest)
  | hashes plain undefined untagged level hashed =>
    exact sound_of_heading numbered inner plain reaches present (Nat.zero_le _) (by simp) hashed
  | underlined plain undefined untagged unhashed level before under =>
    obtain ⟨below, filled⟩ := underline?_bounds under
    apply sound_of_heading numbered inner plain reaches present below filled
    apply notMem_paragraphText
    intro other member
    refine (numbered.tidy ?_).unreturned
    exact (List.cons_sublist_cons.mpr (List.take_sublist before rest)).subset member
  | paragraph => exact leaf _ (paragraphExtent_eq context true rest ▸ extentOf_le _ rest)

theorem starts_readBlocks (insideQuote insideItem : BlockReader) : Starts (readBlocks insideQuote insideItem) := by
  intro context line rest first
  rw [readBlocks]
  split
  · exact Nat.le_add_left 1 _
  next present =>
    split
    next outside =>
      rcases first with empty | reaches
      · exact absurd empty present
      · omega
    next =>
      simp only
      omega

theorem sound_readBlocks {insideQuote insideItem : BlockReader} (reads : Reads insideQuote) (starts : Starts insideQuote)
    (reads' : Reads insideItem) (starts' : Starts insideItem) : Reads (readBlocks insideQuote insideItem) := by
  intro headed context number lines outside numbered
  fun_induction readBlocks insideQuote insideItem context lines generalizing number with
  | case1 => exact sound_of_no_headings (Nat.le_refl 0)
  | case2 line rest empty others =>
    rename_i ih
    rw [Nat.add_comm]
    exact (sound_of_no_headings (Nat.succ_le_succ (Nat.zero_le _)) : Sound number (line :: rest) ⟨[], 1⟩).append numbered
      (ih numbered.2)
  | case3 => exact sound_of_no_headings (Nat.zero_le _)
  | case4 line rest present reaches block used others =>
    rename_i ih
    have whole : used + 1 = block.taken := Nat.sub_add_cancel (starts_readBlock starts context line rest)
    rw [Bool.not_eq_true] at present
    rw [whole]
    have sound : Sound number (line :: rest) block :=
      sound_readBlock reads reads' starts' outside numbered (by omega) present
    apply sound.append numbered
    have dropped : (line :: rest).drop block.taken = rest.drop used := by rw [← whole, List.drop_succ_cons]
    rw [dropped]
    exact ih (dropped ▸ numbered.drop block.taken)

/-! ### Nested containers -/

/-- What is passed over: everything, or the empty lines before one that leaves the container. -/
theorem passOver_cases (context : Context) (lines : List Line) :
    passOver context lines = ⟨[], lines.length⟩ ∨ ∃ empty line rest, lines = empty ++ line :: rest ∧
      (∀ other ∈ empty, other.isEmpty = true) ∧ line.isEmpty = false ∧ line.indent < context.edge ∧
      passOver context lines = ⟨[], empty.length⟩ := by
  have whole : lines.takeWhile Line.isEmpty ++ lines.dropWhile Line.isEmpty = lines := List.takeWhile_append_dropWhile
  have empty : ∀ other ∈ lines.takeWhile Line.isEmpty, other.isEmpty = true := fun other member => List.mem_takeWhile_imp member
  have stops := List.head?_dropWhile_not Line.isEmpty lines
  unfold passOver
  split
  · exact Or.inl rfl
  next line rest dropped =>
    rw [dropped] at whole stops
    split
    next outside =>
      refine Or.inr ⟨_, line, rest, whole.symm, empty, by simpa using stops, outside, ?_⟩
      have length := congrArg List.length whole
      rw [List.length_append, List.length_cons] at length
      exact congrArg (Reading.mk []) (by omega)
    · exact Or.inl rfl

theorem starts_passOver : Starts passOver := by
  intro context line rest first
  rcases passOver_cases context (line :: rest) with all | ⟨empty, other, others, whole, _, present, outside, passed⟩
  · rw [all]
    exact Nat.le_add_left 1 _
  · rw [passed]
    cases empty with
    | nil =>
      obtain ⟨rfl, _⟩ := List.cons.inj whole
      rcases first with blank | reaches
      · exact absurd blank (by simp [present])
      · omega
    | cons => exact Nat.le_add_left 1 _

theorem sound_passOver : Reads passOver := by
  intro headed context number lines outside numbered
  rcases passOver_cases context lines with all | ⟨empty, other, others, whole, _, _, _, passed⟩
  · exact all ▸ sound_of_no_headings (Nat.le_refl _)
  · rw [passed]
    apply sound_of_no_headings
    rw [whole, List.length_append]
    exact Nat.le_add_right _ _

theorem sound_readWithin (room : Nat) : Reads (readWithin room) ∧ Starts (readWithin room) := by
  fun_induction readWithin room with
  | case1 => exact ⟨sound_passOver, starts_passOver⟩
  | case2 =>
    exact ⟨sound_readBlocks sound_passOver starts_passOver sound_passOver starts_passOver, starts_readBlocks _ _⟩
  | case3 room quote item =>
    exact ⟨sound_readBlocks quote.1 quote.2 item.1 item.2, starts_readBlocks _ _⟩

end Bindery.Markdown
