import Bindery.Proofs.RewrittenLines

/-! Reading blocks again after their headings were given other levels. Every reader finds the same headings in the
same containers, at their other levels, and takes the lines that came from those it took before. -/

namespace Bindery.Markdown
open Text

/-- A reading finds headings that were found before, at other levels, and takes so many lines. -/
structure Renews (level : Nat → Nat) (headings : List Heading) (taken : Nat) (reading : Reading) : Prop where
  places : reading.headings.map (fun heading => (heading.level, heading.path)) =
    headings.map fun heading => (level heading.level, heading.path)
  taken : reading.taken = taken

theorem Renews.append {level : Nat → Nat} {earlier later : List Heading} {count count' : Nat} {first second : Reading}
    (renews : Renews level earlier count first) (renews' : Renews level later count' second) :
    Renews level (earlier ++ later) (count + count') ⟨first.headings ++ second.headings, first.taken + second.taken⟩ where
  places := by rw [List.map_append, List.map_append, renews.places, renews'.places]
  taken := by rw [renews.taken, renews'.taken]

/-- Readers that find the same headings in rewritten lines, whatever comes after these. -/
def Simulates (level : Nat → Nat) (reader : BlockReader) : Prop :=
  ∀ {headed : Nat → Prop} {context : Context} {number : Nat} {front front' rest rest' : List Line}, 0 ≤ context.edge →
    Numbered headed number (front ++ rest) → (∀ heading ∈ (reader context (front ++ rest)).headings, headed heading.start) →
    (reader context (front ++ rest)).taken = front.length →
    Rewritten level number (reader context (front ++ rest)).headings front front' → After headed context rest rest' →
    Renews level (reader context (front ++ rest)).headings front'.length (reader context (front' ++ rest'))

variable {level : Nat → Nat} {headed : Nat → Prop}

/-- Lines that nothing comes after. -/
theorem Simulates.whole {reader : BlockReader} (simulates : Simulates level reader) {context : Context} {number : Nat}
    {lines others : List Line} (outside : 0 ≤ context.edge) (numbered : Numbered headed number lines)
    (marked : ∀ heading ∈ (reader context lines).headings, headed heading.start)
    (taken : (reader context lines).taken = lines.length)
    (rewritten : Rewritten level number (reader context lines).headings lines others) :
    Renews level (reader context lines).headings others.length (reader context others) := by
  have renews := @simulates headed context number lines others [] [] outside
  simp only [List.append_nil] at renews
  exact renews numbered marked taken rewritten (.stays .nil)

/-! ### Quotes -/

theorem simulates_readQuote {inside : BlockReader} (simulates : Simulates level inside) (reads : Reads inside) {context : Context}
    {number : Nat} {line other : Line} {block block' rest rest' : List Line} (outside : 0 ≤ context.edge)
    (numbered : Numbered headed number (line :: block ++ rest)) (quoted : isQuoted line.content = true)
    (edge : context.edge ≤ line.indent)
    (marked : ∀ heading ∈ (readQuote inside context line (block ++ rest)).headings, headed heading.start)
    (taken : (readQuote inside context line (block ++ rest)).taken = (line :: block).length)
    (rewritten : Rewritten level number (readQuote inside context line (block ++ rest)).headings (line :: block) (other :: block'))
    (after : After headed context rest rest') :
    Renews level (readQuote inside context line (block ++ rest)).headings (other :: block').length
      (readQuote inside context other (block' ++ rest')) := by
  have alike := rewritten.alike
  rw [readQuote_eq inside quoted edge] at marked taken rewritten ⊢
  rw [readQuote_eq inside (alike.isQuoted.trans quoted) (alike.indent ▸ edge)]
  rw [← List.cons_append] at marked taken rewritten ⊢
  have numbered' : Numbered headed number (quoteLines context false (line :: block ++ rest)) := numbered_quoteLines numbered
  have sound := reads (show 0 ≤ (quoteContext context).edge from Int.le_refl 0) numbered'
  have bound := sound.taken_le
  rw [taken] at bound
  obtain ⟨inner, inner', afterEmpty, whole, whole', count, count', inner_rewritten⟩ := rewritten.quoteLines numbered bound sound.filled
    (fun heading found line member start => (sound.leads heading found line member start).1)
  rw [← List.cons_append, whole', ← count']
  rw [whole] at numbered' marked taken inner_rewritten ⊢
  exact simulates (Int.le_refl 0) numbered' marked (taken.trans count.symm) inner_rewritten (after.quoteLines outside afterEmpty)

/-! ### Lists -/

/-- The first line of an item, as the item sees it. -/
theorem Rewritten.insideItem {number : Nat} {headings : List Heading} {line other : Line} {block block' : List Line}
    (rewritten : Rewritten level number headings (line :: block) (other :: block')) {marker : ListMarker}
    (marked : listMarker? line.content = some marker) (unruled : isRule line.content = false) :
    listMarker? other.content = some marker ∧ isRule other.content = false ∧
      Rewritten level number headings (line.insideItem marker :: block) (other.insideItem marker :: block') := by
  cases rewritten with
  | kept same later =>
    obtain ⟨place, rfl⟩ := same
    exact ⟨marked, unruled, .kept ⟨place, rfl⟩ later⟩
  | turned start stop turned later =>
    obtain ⟨marked', unruled', inner⟩ := turned.insideItem marked
    exact ⟨marked', unruled', .turned start stop inner later⟩

theorem itemContext_eq {context : Context} {marker : ListMarker} {line other : Line} (indent : other.indent = line.indent)
    (inner : Alike (line.insideItem marker) (other.insideItem marker)) :
    itemContext context marker other = itemContext context marker line := by
  simp only [itemContext, itemEdge, indent, inner.indent, inner.isEmpty]

/-- What could begin where an item stands could begin inside of it. -/
theorem reaches_itemContext {context : Context} {marker : ListMarker} {line : Line} (edge : context.edge ≤ line.indent)
    {other : Line} (reaches : Reaches context other) : Reaches (itemContext context marker line) other where
  inside := reaches.inside
  near := by
    have near := reaches.near
    have deeper := le_itemEdge marker line
    simp only [itemContext]
    omega
  listed _ _ := reaches.near

theorem Rewritten.nil_of_nil {number : Nat} {headings : List Heading} {others : List Line}
    (rewritten : Rewritten level number headings [] others) : headings = [] ∧ others = [] := by
  cases rewritten
  exact ⟨rfl, rfl⟩

/-- An item of two empty lines still is one. -/
theorem After.empty_item {context : Context} {block block' rest rest' : List Line} (after : After headed context rest rest')
    (kept : Kept block block') (blank : (block ++ rest).head?.all Line.isEmpty = true)
    (taken : min 2 ((block ++ rest).length + 1) = block.length + 1) :
    (block' ++ rest').head?.all Line.isEmpty = true ∧ min 2 ((block' ++ rest').length + 1) = block'.length + 1 := by
  have lengths := kept.length_eq
  cases kept with
  | nil =>
    obtain rfl : rest = [] := by
      rw [List.nil_append, List.length_nil] at taken
      exact List.length_eq_zero_iff.mp (by omega)
    rw [after.eq_nil]
    exact ⟨rfl, rfl⟩
  | cons same later =>
    obtain ⟨place, rfl⟩ := same
    refine ⟨blank, ?_⟩
    simp only [List.cons_append, List.length_cons, List.length_append] at taken lengths ⊢
    omega

/-- An item that has become one of empty lines had one line, and the line after it is gone. -/
theorem Rewritten.emptied_item {number : Nat} {headings : List Heading} {line other : Line} {block block' rest rest' : List Line}
    (rewritten : Rewritten level number headings (line :: block) (other :: block')) {context : Context}
    (after : After headed context rest rest') (empty : line.isEmpty = true)
    (shown : ¬ (block ++ rest).head?.all Line.isEmpty = true) (blank : (block' ++ rest').head?.all Line.isEmpty = true) :
    headings = [] ∧ block' = [] ∧ rest' = [] := by
  cases rewritten with
  | turned _ _ turned => exact absurd empty (by simp [turned.present.1])
  | kept _ later =>
    cases block with
    | cons first block =>
      obtain ⟨first', more, rfl⟩ := later.exists_cons
      exact absurd blank (by simpa [later.alike.isEmpty] using shown)
    | nil =>
      obtain ⟨headless, rfl⟩ := later.nil_of_nil
      cases rest with
      | nil => exact absurd rfl shown
      | cons next rest =>
        rcases after.first with ⟨gone, _⟩ | ⟨next', more, rfl, alike⟩
        · exact ⟨headless, rfl, gone⟩
        · exact absurd blank (by simpa [alike.isEmpty] using shown)

section
variable {inside : BlockReader} (simulates : Simulates level inside) {context : Context} {marker : ListMarker} {number : Nat}
  {line other : Line} {block block' rest rest' : List Line}
  (numbered : Numbered headed number (line :: block ++ rest)) (edge : context.edge ≤ line.indent)
  (found : listMarker? line.content = some marker) (unruled : isRule line.content = false)
  (marked : ∀ heading ∈ (readItem inside context marker line (block ++ rest)).headings, headed heading.start)
  (taken : (readItem inside context marker line (block ++ rest)).taken = (line :: block).length)
  (rewritten : Rewritten level number (readItem inside context marker line (block ++ rest)).headings (line :: block) (other :: block'))
  (after : After headed context rest rest')
include simulates numbered edge found unruled marked taken rewritten after

theorem simulates_readItem :
    Renews level (readItem inside context marker line (block ++ rest)).headings (other :: block').length
      (readItem inside context marker other (block' ++ rest')) := by
  obtain ⟨_, _, inner⟩ := rewritten.insideItem found unruled
  have indent := rewritten.alike.indent
  have alike := inner.alike
  rw [readItem_eq] at marked taken inner
  rw [readItem_eq inside context marker line, readItem_eq inside context marker other]
  split at marked
  next blank =>
    rw [if_pos blank] at taken inner ⊢
    simp only [Bool.and_eq_true] at blank
    obtain ⟨blank', taken'⟩ := after.empty_item (kept_cons.mp inner.kept_of_no_headings).2 blank.2 taken
    rw [if_pos ((Bool.and_eq_true _ _).mpr ⟨alike.isEmpty.trans blank.1, blank'⟩)]
    exact ⟨rfl, taken'⟩
  next filled =>
    rw [if_neg filled] at taken inner ⊢
    split
    next blank' =>
      simp only [Bool.and_eq_true] at blank' filled
      have empty : (line.insideItem marker).isEmpty = true := alike.isEmpty.symm.trans blank'.1
      obtain ⟨headless, rfl, rfl⟩ := inner.emptied_item after empty (fun all => filled ⟨empty, all⟩) blank'.2
      rw [headless]
      exact ⟨rfl, rfl⟩
    next =>
      have numbered' : Numbered headed number (line.insideItem marker :: block ++ rest) := numbered.insideItem marker
      have outside : 0 ≤ (itemContext context marker line).edge := Int.natCast_nonneg _
      rw [itemContext_eq indent alike]
      rw [← List.cons_append] at marked taken inner ⊢
      exact simulates outside numbered' marked taken inner (after.deeper fun _ reaches => reaches_itemContext edge reaches)

/-- The last item of a list is the last one still. -/
theorem simulates_last_item (last : ∀ next ∈ rest.head?, nextMarker? context marker next = none) :
    Renews level (readItem inside context marker line (block ++ rest)).headings (other :: block').length
      (readItems inside context marker other (block' ++ rest')) := by
  have renews := simulates_readItem simulates numbered edge found unruled marked taken rewritten after
  have behind : (block' ++ rest').drop ((readItem inside context marker other (block' ++ rest')).taken - 1) = rest' := by
    rw [renews.taken, List.length_cons, Nat.add_sub_cancel, List.drop_left]
  have last' : ∀ next ∈ rest'.head?, nextMarker? context marker next = none := by
    cases rest with
    | nil =>
      rw [after.eq_nil]
      exact nofun
    | cons next rest =>
      rcases after.first with ⟨rfl, _⟩ | ⟨next', more, rfl, alike⟩
      · exact nofun
      · rintro _ ⟨⟩
        rw [alike.nextMarker?, last next rfl]
  rw [readItems_of_last (by rwa [behind])]
  exact ⟨renews.places, by rw [renews.taken]; rfl⟩

end

/-- What is left of a text after some lines of its first part begins in that part. -/
theorem exists_of_drop_append {block rest more : List Line} {next : Line} {used : Nat} (below : used < block.length)
    (later : (block ++ rest).drop used = next :: more) :
    ∃ first second, block = first ++ next :: second ∧ first.length = used ∧ more = second ++ rest := by
  rw [List.drop_append_of_le_length (Nat.le_of_lt below)] at later
  obtain ⟨second, same⟩ : ∃ second, block.drop used = next :: second := by
    cases left : block.drop used with
    | nil => exact absurd (List.drop_eq_nil_iff.mp left) (Nat.not_le.mpr below)
    | cons first second =>
      rw [left] at later
      exact ⟨second, by rw [(List.cons.inj later).1]⟩
  rw [same] at later
  refine ⟨block.take used, second, by rw [← same, List.take_append_drop], List.length_take_of_le (Nat.le_of_lt below), ?_⟩
  exact (List.cons.inj later).2.symm

/-- An item and the items after it are found again, if those after it are. -/
theorem simulates_item_and_items {inside : BlockReader} (simulates : Simulates level inside) (reads : Reads inside)
    (starts : Starts inside) {context : Context} {marker further : ListMarker} {number : Nat} {line next other : Line}
    {block more block' rest rest' : List Line} (outside : 0 ≤ context.edge)
    (numbered : Numbered headed number (line :: block ++ (next :: more ++ rest))) (edge : context.edge ≤ line.indent)
    (found : listMarker? line.content = some marker) (unruled : isRule line.content = false)
    (goes : nextMarker? context marker next = some further) {item others : Reading}
    (item_eq : readItem inside context marker line (block ++ (next :: more ++ rest)) = item)
    (others_eq : readItems inside context further next (more ++ rest) = others)
    (count : item.taken = (line :: block).length) (marked : ∀ heading ∈ item.headings ++ others.headings, headed heading.start)
    (rewritten : Rewritten level number (item.headings ++ others.headings) (line :: block ++ next :: more) (other :: block'))
    (after : After headed context rest rest')
    (later : ∀ {next' more'}, Rewritten level (number + (line :: block).length) others.headings (next :: more) (next' :: more') →
      Renews level others.headings (next' :: more').length (readItems inside context further next' (more' ++ rest'))) :
    Renews level (item.headings ++ others.headings) (other :: block').length
      (readItems inside context marker other (block' ++ rest')) := by
  obtain ⟨edge', near, unruled', found'⟩ := of_nextMarker?_eq_some goes
  have numbered' : Numbered headed (number + (line :: block).length) (next :: more ++ rest) := (numbered_append.mp numbered).2
  have sound : Sound number (line :: (block ++ (next :: more ++ rest))) item :=
    item_eq ▸ sound_readItem reads numbered (Int.le_trans outside edge) found unruled
  have sound' : Sound (number + (line :: block).length) (next :: (more ++ rest)) others :=
    others_eq ▸ sound_readItems reads starts outside numbered' (Int.le_trans outside edge') found' unruled'
  obtain ⟨_, first', back', whole, rewritten₁, rewritten₂, after'⟩ := rewritten.split_block (count ▸ sound.within) sound'.within
    numbered' (fun heading found => marked heading (List.mem_append_right _ found))
    (fun heading _ line member same => guarded_of_marked numbered' (reaches_of_edge_le outside edge' near) found' member same) after
  obtain ⟨next', more', rfl⟩ := rewritten₂.exists_cons
  obtain ⟨rfl, rfl⟩ := List.cons.inj whole
  have first_renews : Renews level item.headings (other :: first').length
      (readItem inside context marker other (first' ++ (next' :: more' ++ rest'))) := by
    rw [← item_eq] at rewritten₁ count marked ⊢
    exact simulates_readItem simulates numbered edge found unruled
      (fun heading found => marked heading (List.mem_append_left _ found)) count rewritten₁ after'
  have behind : (first' ++ (next' :: more' ++ rest')).drop
      ((readItem inside context marker other (first' ++ (next' :: more' ++ rest'))).taken - 1) = next' :: (more' ++ rest') := by
    rw [first_renews.taken, List.length_cons, Nat.add_sub_cancel, List.drop_left, List.cons_append]
  have goes' : nextMarker? context marker next' = some further := (rewritten₂.alike.nextMarker? context marker).trans goes
  rw [List.append_assoc, readItems_of_next behind goes', first_renews.taken]
  have renews := first_renews.append (later rewritten₂)
  rw [first_renews.taken, ← List.length_append] at renews
  exact renews

theorem simulates_readItems {inside : BlockReader} (simulates : Simulates level inside) (reads : Reads inside) (starts : Starts inside)
    {context : Context} {marker : ListMarker} {number : Nat} {line other : Line} {block block' rest rest' : List Line}
    (outside : 0 ≤ context.edge) (numbered : Numbered headed number (line :: block ++ rest)) (edge : context.edge ≤ line.indent)
    (found : listMarker? line.content = some marker) (unruled : isRule line.content = false)
    (marked : ∀ heading ∈ (readItems inside context marker line (block ++ rest)).headings, headed heading.start)
    (taken : (readItems inside context marker line (block ++ rest)).taken = (line :: block).length)
    (rewritten : Rewritten level number (readItems inside context marker line (block ++ rest)).headings (line :: block) (other :: block'))
    (after : After headed context rest rest') :
    Renews level (readItems inside context marker line (block ++ rest)).headings (other :: block').length
      (readItems inside context marker other (block' ++ rest')) := by
  generalize whole : block ++ rest = tail at marked taken rewritten ⊢
  fun_induction readItems inside context marker line tail generalizing number block other block'
  all_goals subst whole
  case case1 marker line item used spent =>
    have all : used + 1 = item.taken := Nat.sub_add_cancel (starts_readItem starts context marker line _)
    have count : used = block.length := Nat.succ.inj taken
    rw [count, List.drop_left] at spent
    exact simulates_last_item simulates numbered edge found unruled marked (all ▸ taken) rewritten after (by simp [spent])
  case case2 marker line next more unmarked item used later =>
    have all : used + 1 = item.taken := Nat.sub_add_cancel (starts_readItem starts context marker line _)
    have count : used = block.length := Nat.succ.inj taken
    rw [count, List.drop_left] at later
    refine simulates_last_item simulates numbered edge found unruled marked (all ▸ taken) rewritten after ?_
    rw [later]
    rintro _ ⟨⟩
    exact unmarked
  case case3 marker line next more further goes others ih item used later =>
    have all : used + 1 = item.taken := Nat.sub_add_cancel (starts_readItem starts context marker line _)
    have filled : 1 ≤ others.taken := starts_readItems inside context further next more
    have total : used + 1 + others.taken = block.length + 1 := taken
    obtain ⟨block, more, rfl, length, rfl⟩ := exists_of_drop_append (by omega) later
    rw [List.length_append, List.length_cons] at total
    rw [← List.cons_append] at numbered rewritten
    rw [List.append_assoc] at numbered
    obtain ⟨edge', _, unruled', found'⟩ := of_nextMarker?_eq_some goes
    refine simulates_item_and_items simulates reads starts outside numbered edge found unruled goes (by rw [← List.append_assoc]) rfl
      (by rw [List.length_cons, length, all]) marked rewritten after fun rewritten' => ?_
    exact ih (numbered_append.mp numbered).2 edge' found' unruled' rfl (fun heading found => marked heading (List.mem_append_right _ found))
      (show others.taken = more.length + 1 by omega) rewritten'

/-! ### Blocks -/

/-- A line of hashes is a heading by itself. -/
theorem readBlock_of_hashLevel? {insideQuote insideItem : BlockReader} {context : Context} {line : Line} {found : Nat}
    (near : context.isCode line = false) (hashed : hashLevel? line.content = some found) (rest : List Line) :
    readBlock insideQuote insideItem context line rest =
      ⟨[⟨line.number, line.number + 1, found, .hashes, context.path⟩], 1⟩ := by
  obtain ⟨more, content⟩ := exists_of_hashLevel? hashed
  have unmarked : listMarker? line.content = none :=
    content ▸ listMarker?_eq_none (by decide) (by decide) (by decide) (by decide) more
  have plain : Plain context line := by
    refine ⟨near, content ▸ fenceMark?_eq_none (by decide) (by decide) more, by rw [content]; rfl,
      isRule_eq_false_of_hash (by simp [content]), ?_⟩
    simp [opensList?, unmarked]
  have undefined : readDefinition? context line rest = none := by simp [readDefinition?, content]
  exact (BlockCase.hashes plain undefined (content ▸ htmlKind?_eq_none (by decide) more) found hashed).readBlock_eq

theorem Plain.movedTo {context : Context} {line : Line} (plain : Plain context line) (number : Nat) : Plain context (line.movedTo number) :=
  ⟨plain.near, plain.unfenced, plain.unquoted, plain.unruled, plain.unlisted⟩

/-- A block without headings is the same one where its lines stay. -/
theorem renews_of_kept {line : Line} {block block' : List Line} {number taken : Nat} {other : Line} {reading : Reading}
    (rewritten : Rewritten level number [] (line :: block) (other :: block')) (count : taken + 1 = (line :: block).length)
    (same : ∀ place, other = line.movedTo place → Kept block block' → reading = ⟨[], taken + 1⟩) :
    Renews level [] (other :: block').length reading := by
  obtain ⟨⟨place, moved⟩, kept⟩ := kept_cons.mp rewritten.kept_of_no_headings
  rw [same place moved kept, count, List.length_cons, List.length_cons, kept.length_eq]
  exact ⟨rfl, rfl⟩

/-! ### Definitions -/

/-- The line before a heading ends in gaps, if in blanks at all. -/
theorem Numbered.plain_before {number : Nat} {lines rest : List Line} {line : Line}
    (numbered : Numbered headed number (lines ++ line :: rest)) (marked : headed line.number) :
    ∀ last ∈ lines.getLast?, last.Flush ∧ EndsPlainly last.text := by
  intro last found
  obtain ⟨front, rfl⟩ := List.getLast?_eq_some_iff.mp found
  rw [List.append_assoc] at numbered
  obtain ⟨⟨place, tidy⟩, ⟨place', _⟩, _⟩ := (numbered_append.mp numbered).2
  exact ⟨tidy.flush, tidy.plain (by rwa [place, ← place'])⟩

theorem Guarded.breaks {context : Context} {among : Line → Prop} {line : Line} (guarded : Guarded context among line) :
    Reaches context line ∨ ∃ first, among first ∧ Breaks context first := by
  cases guarded with
  | here reaches _ => exact Or.inl reaches
  | listed before reaches _ marked => exact Or.inr ⟨_, before, reaches.breaks_of_marked marked⟩
  | quoted before reaches opens _ _ =>
    rcases before with early | rfl
    · exact Or.inr ⟨_, early, reaches.breaks_of_quoted opens⟩
    · exact Or.inl reaches

theorem Breaks.not_goes {context : Context} {line : Line} (breaks : Breaks context line) : paragraphShare context false line ≠ .goes := by
  intro goes
  have both := (paragraphShare_eq_goes.mp goes).2
  rw [breaks.1, breaks.2] at both
  cases both

/-- A paragraph that would reach what comes after lines that stay ends with these lines now. -/
theorem After.exists_cut {context : Context} {rest rest' : List Line} (after : After headed context rest rest') :
    ∃ lines others tail tail', rest = lines ++ tail ∧ rest' = others ++ tail' ∧ Kept lines others ∧ Meets tail tail' ∧
      (tail = [] ∨ ∃ line more, tail = line :: more ∧ headed line.number ∧
        ((∀ line ∈ lines, paragraphShare context false line = .goes) → paragraphExtent context false tail' = 0)) := by
  cases after with
  | stays kept => exact ⟨_, _, [], [], (List.append_nil _).symm, (List.append_nil _).symm, kept, .ends [], Or.inl rfl⟩
  | ends kept marked outside rest =>
    exact ⟨_, _, _, [], rfl, (List.append_nil _).symm, kept, .ends _, Or.inr ⟨_, _, rfl, marked, fun _ => rfl⟩⟩
  | @turned lines _ _ line other kept marked turned guarded rest rest' =>
    refine ⟨_, _, _, _, rfl, rfl, kept, .turned turned rest rest', Or.inr ⟨_, _, rfl, marked, fun goes => ?_⟩⟩
    rcases guarded.breaks with reaches | ⟨first, early, breaks⟩
    · have stops := paragraphShare_eq_stops (turned.breaks (reaches.congr_indent turned.indent_eq)).not_goes
      simp [paragraphExtent_eq, extentOf, stops]
    · exact absurd (goes first early) breaks.not_goes

/-- A paragraph whose lines stay defines what it defined. -/
theorem readDefinition?_of_within {context : Context} {place : Nat} {line : Line} {lines others tail tail' : List Line}
    (kept : Kept lines others) (meets : Meets tail tail')
    (within : paragraphExtent context false (lines ++ tail) ≤ lines.length) :
    readDefinition? context (line.movedTo place) (others ++ tail') = readDefinition? context line (lines ++ tail) := by
  have same : paragraphExtent context false (others ++ tail') = paragraphExtent context false (lines ++ tail) := by
    rw [paragraphExtent_eq] at within
    rw [paragraphExtent_eq, paragraphExtent_eq]
    exact (stable_paragraphShare context false).extentOf_eq kept meets within
  rw [readDefinition?, readDefinition?, same, paragraphText, paragraphText, List.map_cons, List.map_cons,
    kept.map_take_withoutIndent within, Line.withoutIndent_movedTo, Line.content_movedTo]

theorem readDefinition?_of_kept {context : Context} {number place further : Nat} {line : Line} {block block' rest rest' : List Line}
    (kept : Kept block block') (numbered : Numbered headed number (line :: block ++ rest)) (after : After headed context rest rest')
    (read : readDefinition? context line (block ++ rest) = some further) (inside : further ≤ block.length) :
    readDefinition? context (line.movedTo place) (block' ++ rest') = some further := by
  obtain ⟨lines, others, tail, tail', rfl, rfl, later, meets, cut⟩ := after.exists_cut
  rw [← List.append_assoc] at read ⊢
  have stays := kept.append later
  by_cases within : paragraphExtent context false (block ++ lines ++ tail) ≤ (block ++ lines).length
  · rwa [readDefinition?_of_within stays meets within]
  · have goes := goes_of_le_paragraphExtent (Nat.le_of_not_le within)
    rcases cut with rfl | ⟨line', more, rfl, marked, ends⟩
    · rw [List.append_nil, paragraphExtent_eq] at within
      exact absurd (extentOf_le _ _) within
    · have extent : paragraphExtent context false (block' ++ others ++ tail') = (block' ++ others).length := by
        rw [paragraphExtent_append (stays.goes_iff.mpr goes), ends fun line member => goes line (List.mem_append_right _ member),
          Nat.add_zero]
      refine readDefinition?_cut stays ?_ read (Nat.le_trans inside (by simp)) extent
      have numbered' : Numbered headed number (line :: (block ++ lines) ++ line' :: more) := by
        rwa [List.cons_append, List.append_assoc]
      exact numbered'.plain_before marked

/-- What ends a paragraph ends all that could be one. -/
theorem breaksParagraph_of_inParagraph {context : Context} {line : Line} (breaks : breaksParagraph context true line = true) :
    breaksParagraph context false line = true := by
  have opens : (opensList? context true line).isSome = true → (opensList? context false line).isSome = true := by
    unfold opensList?
    split
    · exact id
    · split
      · exact id
      · cases listMarker? line.content <;> simp
  simp only [breaksParagraph, Bool.or_eq_true] at breaks ⊢
  exact breaks.imp_left (Or.imp_left (Or.imp_right opens))

theorem paragraphExtent_false_le (context : Context) (lines : List Line) :
    paragraphExtent context false lines ≤ paragraphExtent context true lines := by
  induction lines with
  | nil => exact Nat.le_refl 0
  | cons line lines ih =>
    rw [paragraphExtent, paragraphExtent]
    split
    · exact Nat.le_refl 0
    · split
      next goes =>
        have goes' : (continues context line || !breaksParagraph context true line) = true := by
          cases broken : breaksParagraph context true line with
          | false => simp
          | true => simpa [breaksParagraph_of_inParagraph broken] using goes
        rw [if_pos goes']
        exact Nat.succ_le_succ ih
      · exact Nat.zero_le _

/-! ### Blocks of all kinds -/

/-- The line of a heading is a heading by itself now. -/
theorem renews_of_heading {insideQuote insideItem : BlockReader} {context : Context} {line other : Line}
    {block block' : List Line} {number : Nat} {heading : Heading}
    (rewritten : Rewritten level number [heading] (line :: block) (other :: block')) (start : heading.start = number)
    (stop : heading.stop = number + (line :: block).length) (path : heading.path = context.path) (plain : Plain context line)
    (unmarked : listMarker? line.content = none) (rest' : List Line) :
    Renews level [heading] (other :: block').length (readBlock insideQuote insideItem context other (block' ++ rest')) := by
  cases rewritten with
  | kept _ later =>
    have after := later.le_start heading List.mem_cons_self
    omega
  | @turned _ _ _ _ _ further rest _ _ stop' turned later =>
    obtain rfl : rest = [] := by
      rw [stop', List.length_cons, List.length_append] at stop
      exact List.length_eq_zero_iff.mp (by omega)
    obtain ⟨_, rfl⟩ := later.nil_of_nil
    cases turned with
    | here indent _ _ _ hashes =>
      have near : context.isCode other = false := (isCode_eq indent).trans plain.near
      rw [readBlock_of_hashLevel? near hashes]
      exact ⟨by rw [List.map_singleton, List.map_singleton, path], rfl⟩
    | quote _ quoted => exact absurd quoted (by simp [plain.unquoted])
    | item _ _ marked => rw [unmarked] at marked; cases marked

/-- A block that goes on while lines are of a kind is the same one where its lines stay. -/
theorem renews_of_extent {share : Line → Share} (stable : Stable share) {line other : Line} {block block' rest rest' : List Line}
    {number : Nat} (rewritten : Rewritten level number [] (line :: block) (other :: block'))
    (count : extentOf share (block ++ rest) + 1 = (line :: block).length) (meets : Meets rest rest') {reading : Reading}
    (same : ∀ place, other = line.movedTo place → Kept block block' → reading = ⟨[], extentOf share (block' ++ rest') + 1⟩) :
    Renews level [] (other :: block').length reading := by
  refine renews_of_kept rewritten count fun place moved kept => ?_
  rw [same place moved kept, stable.extentOf_eq kept meets (Nat.le_of_eq (Nat.succ.inj count))]

theorem renews_of_html {insideQuote insideItem : BlockReader} {context : Context} {line other : Line}
    {block block' rest rest' : List Line} {number : Nat} (plain : Plain context line) {form : HtmlKind}
    (tagged : htmlKind? line.content = some form) (rewritten : Rewritten level number [] (line :: block) (other :: block'))
    (count : (if form.endsOn line.content then 1 else htmlExtent context form (block ++ rest) + 1) = (line :: block).length)
    (meets : Meets rest rest') :
    Renews level [] (other :: block').length (readBlock insideQuote insideItem context other (block' ++ rest')) := by
  have kind : ∀ place, BlockCase insideQuote insideItem context (line.movedTo place) (block' ++ rest')
      ⟨[], if form.endsOn line.content then 1 else htmlExtent context form (block' ++ rest') + 1⟩ := by
    intro place
    refine .html (plain.movedTo place) (if_neg fun start => ?_) form tagged
    obtain ⟨more, content⟩ := List.head?_eq_some_iff.mp start
    have untagged : htmlKind? line.content = none := content ▸ htmlKind?_eq_none (by decide) more
    rw [untagged] at tagged
    cases tagged
  split at count
  next closed =>
    refine renews_of_kept rewritten count ?_
    rintro place rfl _
    rw [(kind place).readBlock_eq, if_pos closed]
  next open_ =>
    rw [htmlExtent_eq] at count
    refine renews_of_extent (stable_htmlShare context form) rewritten count meets ?_
    rintro place rfl _
    rw [(kind place).readBlock_eq, if_neg open_, htmlExtent_eq]

theorem renews_of_paragraph {insideQuote insideItem : BlockReader} {context : Context} {line other : Line}
    {block block' rest rest' : List Line} {number : Nat} (plain : Plain context line)
    (undefined : readDefinition? context line (block ++ rest) = none) (untagged : htmlKind? line.content = none)
    (unhashed : hashLevel? line.content = none) (bare : underline? context (block ++ rest) = none)
    (rewritten : Rewritten level number [] (line :: block) (other :: block'))
    (count : paragraphExtent context true (block ++ rest) + 1 = (line :: block).length) (meets : Meets rest rest') :
    Renews level [] (other :: block').length (readBlock insideQuote insideItem context other (block' ++ rest')) := by
  have whole : paragraphExtent context true (block ++ rest) = block.length := Nat.succ.inj count
  rw [paragraphExtent_eq] at count
  refine renews_of_extent (stable_paragraphShare context true) rewritten count meets ?_
  rintro place rfl kept
  have undefined' : readDefinition? context (line.movedTo place) (block' ++ rest') = none := by
    rw [readDefinition?_of_within kept meets (whole ▸ paragraphExtent_false_le context _), undefined]
  have kind : BlockCase insideQuote insideItem context (line.movedTo place) (block' ++ rest')
      ⟨[], paragraphExtent context true (block' ++ rest') + 1⟩ :=
    .paragraph (plain.movedTo place) undefined' untagged unhashed (underline?_eq_none kept meets whole bare)
  rw [kind.readBlock_eq, paragraphExtent_eq]

theorem simulates_readBlock {insideQuote insideItem : BlockReader} (simulates : Simulates level insideQuote) (reads : Reads insideQuote)
    (simulates' : Simulates level insideItem) (reads' : Reads insideItem) (starts : Starts insideItem) {context : Context} {number : Nat}
    {line other : Line} {block block' rest rest' : List Line} (outside : 0 ≤ context.edge)
    (numbered : Numbered headed number (line :: block ++ rest)) (edge : context.edge ≤ line.indent)
    (marked : ∀ heading ∈ (readBlock insideQuote insideItem context line (block ++ rest)).headings, headed heading.start)
    (taken : (readBlock insideQuote insideItem context line (block ++ rest)).taken = (line :: block).length)
    (rewritten : Rewritten level number (readBlock insideQuote insideItem context line (block ++ rest)).headings (line :: block)
      (other :: block')) (after : After headed context rest rest') :
    Renews level (readBlock insideQuote insideItem context line (block ++ rest)).headings (other :: block').length
      (readBlock insideQuote insideItem context other (block' ++ rest')) := by
  have place : line.number = number := numbered.1.1
  have alike := rewritten.alike
  have meets := after.meets
  have kinds := readBlock_cases insideQuote insideItem context line (block ++ rest)
  generalize readBlock insideQuote insideItem context line (block ++ rest) = reading at kinds marked taken rewritten ⊢
  cases kinds with
  | code code =>
    rw [codeExtent_eq] at taken
    refine renews_of_extent (stable_codeShare context) rewritten taken meets ?_
    rintro place rfl _
    have kind : BlockCase insideQuote insideItem context (line.movedTo place) (block' ++ rest') _ := .code code
    rw [kind.readBlock_eq, codeExtent_eq]
  | fence near mark width fenced =>
    rw [fenceExtent_eq] at taken
    refine renews_of_extent (stable_fenceShare context mark width) rewritten taken meets ?_
    rintro place rfl _
    have near' : context.isCode (line.movedTo place) = false := near
    rw [(BlockCase.fence near' mark width fenced).readBlock_eq, fenceExtent_eq]
  | quote near unfenced quoted =>
    have quoted' := alike.isQuoted.trans quoted
    obtain ⟨more, content⟩ := exists_of_isQuoted quoted'
    have unfenced' : fenceMark? other.content = none := content ▸ fenceMark?_eq_none (by decide) (by decide) more
    rw [(BlockCase.quote ((isCode_eq alike.indent).trans near) unfenced' quoted').readBlock_eq]
    exact simulates_readQuote simulates reads outside numbered quoted edge marked taken rewritten after
  | rule near unfenced unquoted ruled =>
    refine renews_of_kept rewritten taken ?_
    rintro place rfl _
    have near' : context.isCode (line.movedTo place) = false := near
    exact (BlockCase.rule near' unfenced unquoted ruled).readBlock_eq
  | list near unfenced unquoted unruled marker opens =>
    have found := listMarker?_of_opensList? opens
    obtain ⟨found', unruled', _⟩ := rewritten.insideItem found unruled
    obtain ⟨unquoted', unfenced', _⟩ := kinds_of_listMarker? found'
    have reaches := (reaches_of_edge_le outside edge near).congr_indent alike.indent
    rw [(BlockCase.list reaches.isCode_eq_false unfenced' unquoted' unruled' marker (reaches.opensList?_eq found')).readBlock_eq]
    exact simulates_readItems simulates' reads' starts outside numbered edge found unruled marked taken rewritten after
  | definition plain further defines =>
    refine renews_of_kept rewritten taken ?_
    rintro place rfl kept
    have defines' : readDefinition? context (line.movedTo place) (block' ++ rest') = some further :=
      readDefinition?_of_kept kept numbered after defines (Nat.le_of_eq (Nat.succ.inj taken))
    exact (BlockCase.definition (plain.movedTo place) further defines').readBlock_eq
  | html plain _ _ tagged => exact renews_of_html plain tagged rewritten taken meets
  | hashes plain =>
    refine renews_of_heading rewritten place ?_ rfl plain (plain.unmarked edge) rest'
    rw [← taken, place]
  | underlined plain =>
    refine renews_of_heading rewritten place ?_ rfl plain (plain.unmarked edge) rest'
    rw [← taken, place, Nat.add_assoc]
  | paragraph plain undefined untagged unhashed bare =>
    exact renews_of_paragraph plain undefined untagged unhashed bare rewritten taken meets

/-! ### Containers -/

section
variable (insideQuote insideItem : BlockReader) {context : Context} {line : Line} (rest : List Line)

theorem readBlocks_of_empty (empty : line.isEmpty = true) : readBlocks insideQuote insideItem context (line :: rest) =
    ⟨(readBlocks insideQuote insideItem context rest).headings, (readBlocks insideQuote insideItem context rest).taken + 1⟩ := by
  rw [readBlocks, if_pos empty]

theorem readBlocks_of_outside (present : line.isEmpty = false) (outside : line.indent < context.edge) :
    readBlocks insideQuote insideItem context (line :: rest) = ⟨[], 0⟩ := by
  rw [readBlocks, present, if_neg Bool.false_ne_true, if_pos outside]

theorem readBlocks_of_block (present : line.isEmpty = false) (edge : context.edge ≤ line.indent) {block : Reading}
    (read : readBlock insideQuote insideItem context line rest = block) {others : Reading}
    (later : readBlocks insideQuote insideItem context (rest.drop (block.taken - 1)) = others) :
    readBlocks insideQuote insideItem context (line :: rest) =
      ⟨block.headings ++ others.headings, block.taken - 1 + 1 + others.taken⟩ := by
  rw [readBlocks, present, if_neg Bool.false_ne_true, if_neg (Int.not_lt.mpr edge)]
  simp only [read, later]

end

section
variable {insideQuote insideItem : BlockReader} (simulates : Simulates level insideQuote) (reads : Reads insideQuote)
  (starts : Starts insideQuote) (guards : Guards insideQuote) (simulates' : Simulates level insideItem) (reads' : Reads insideItem)
  (starts' : Starts insideItem)
include simulates reads starts guards simulates' reads' starts'

/-- A block and the blocks after it are found again, if those after it are. -/
theorem simulates_block_and_blocks {context : Context} {number : Nat} {line : Line} {front back front' rest rest' : List Line}
    (outside : 0 ≤ context.edge) (numbered : Numbered headed number (line :: front ++ (back ++ rest)))
    (present : line.isEmpty = false) (edge : context.edge ≤ line.indent) {block others : Reading}
    (block_eq : readBlock insideQuote insideItem context line (front ++ (back ++ rest)) = block)
    (others_eq : readBlocks insideQuote insideItem context (back ++ rest) = others)
    (count : block.taken = (line :: front).length) (marked : ∀ heading ∈ block.headings ++ others.headings, headed heading.start)
    (rewritten : Rewritten level number (block.headings ++ others.headings) (line :: front ++ back) front')
    (after : After headed context rest rest')
    (later : ∀ {back'}, Rewritten level (number + (line :: front).length) others.headings back back' →
      Renews level others.headings back'.length (readBlocks insideQuote insideItem context (back' ++ rest'))) :
    Renews level (block.headings ++ others.headings) front'.length (readBlocks insideQuote insideItem context (front' ++ rest')) := by
  have numbered' : Numbered headed (number + (line :: front).length) (back ++ rest) := (numbered_append.mp numbered).2
  have sound : Sound number (line :: (front ++ (back ++ rest))) block :=
    block_eq ▸ sound_readBlock reads reads' starts' outside numbered edge present
  have sound' := sound_readBlocks reads starts reads' starts' outside numbered'
  have guarded := guards_readBlocks guards reads starts reads' starts' outside numbered'
  rw [others_eq] at sound' guarded
  obtain ⟨other, first', back', rfl, rewritten₁, rewritten₂, after'⟩ := rewritten.split_block (count ▸ sound.within) sound'.within
    numbered' (fun heading found => marked heading (List.mem_append_right _ found)) guarded after
  have alike := rewritten₁.alike
  have first_renews : Renews level block.headings (other :: first').length
      (readBlock insideQuote insideItem context other (first' ++ (back' ++ rest'))) := by
    rw [← block_eq] at rewritten₁ count marked ⊢
    exact simulates_readBlock simulates reads simulates' reads' starts' outside numbered edge
      (fun heading found => marked heading (List.mem_append_left _ found)) count rewritten₁ after'
  have behind : readBlocks insideQuote insideItem context ((first' ++ (back' ++ rest')).drop
      ((readBlock insideQuote insideItem context other (first' ++ (back' ++ rest'))).taken - 1)) =
        readBlocks insideQuote insideItem context (back' ++ rest') := by
    rw [first_renews.taken, List.length_cons, Nat.add_sub_cancel, List.drop_left]
  have read := readBlocks_of_block _ _ _ (alike.isEmpty.trans present) (alike.indent ▸ edge) rfl behind
  have renews := first_renews.append (later rewritten₂)
  rw [first_renews.taken] at read renews
  rw [List.cons_append, List.append_assoc, ← List.cons_append, List.length_append]
  exact read ▸ renews

theorem simulates_readBlocks : Simulates level (readBlocks insideQuote insideItem) := by
  intro headed context number front front' rest rest' outside numbered marked taken rewritten after
  generalize whole : front ++ rest = lines at numbered marked taken rewritten ⊢
  fun_induction readBlocks insideQuote insideItem context lines generalizing number front front'
  case case1 =>
    obtain ⟨rfl, rfl⟩ := List.append_eq_nil_iff.mp whole
    obtain ⟨_, rfl⟩ := rewritten.nil_of_nil
    rw [after.eq_nil, List.append_nil, readBlocks]
    exact ⟨rfl, rfl⟩
  case case2 line tail empty others ih =>
    cases front with
    | nil => cases taken
    | cons first front =>
      obtain rfl : line = first := (List.cons.inj whole).1.symm
      obtain rfl : tail = front ++ rest := (List.cons.inj whole).2.symm
      simp only at marked rewritten ⊢
      generalize others.headings = found at ih marked rewritten ⊢
      cases rewritten with
      | turned _ _ turned => exact absurd empty (by simp [turned.present.1])
      | @kept _ _ _ other _ front' same later =>
        obtain ⟨place, rfl⟩ := same
        have renews := ih rfl numbered.2 marked (Nat.succ.inj taken) later
        rw [List.cons_append, readBlocks_of_empty _ _ _ (show (line.movedTo place).isEmpty = true from empty)]
        exact ⟨renews.places, congrArg Nat.succ renews.taken⟩
  case case3 line tail present before =>
    obtain rfl : front = [] := List.length_eq_zero_iff.mp taken.symm
    obtain ⟨_, rfl⟩ := rewritten.nil_of_nil
    obtain rfl : rest = line :: tail := whole
    rw [List.nil_append]
    rcases after.first with ⟨rfl, _⟩ | ⟨other, more, rfl, alike⟩
    · rw [readBlocks]
      exact ⟨rfl, rfl⟩
    · rw [Bool.not_eq_true, ← alike.isEmpty] at present
      rw [readBlocks_of_outside _ _ _ present (alike.indent ▸ before)]
      exact ⟨rfl, rfl⟩
  case case4 line tail present reaches block used others ih =>
    have edge : context.edge ≤ line.indent := Int.not_lt.mp reaches
    rw [Bool.not_eq_true] at present
    have all : used + 1 = block.taken := Nat.sub_add_cancel (starts_readBlock starts context line tail)
    cases front with
    | nil =>
      exact absurd (show used + 1 + others.taken = 0 from taken) (by omega)
    | cons first front =>
      obtain rfl : line = first := (List.cons.inj whole).1.symm
      obtain rfl : tail = front ++ rest := (List.cons.inj whole).2.symm
      have total : used + 1 + others.taken = front.length + 1 := taken
      obtain ⟨front, back, rfl, length⟩ : ∃ first second, front = first ++ second ∧ first.length = used :=
        ⟨front.take used, front.drop used, (List.take_append_drop used front).symm, List.length_take_of_le (by omega)⟩
      have later : (front ++ back ++ rest).drop used = back ++ rest := by
        rw [List.append_assoc, ← length, List.drop_left]
      rw [List.length_append] at total
      rw [List.append_assoc, ← List.cons_append] at numbered
      refine simulates_block_and_blocks simulates reads starts guards simulates' reads' starts' outside numbered present edge
        (by rw [← List.append_assoc]) (by rw [← later]) (by rw [List.length_cons, length, all]) marked rewritten after
        fun rewritten' => ?_
      exact ih later.symm (later ▸ (numbered_append.mp numbered).2)
        (fun heading found => marked heading (List.mem_append_right _ found)) (show others.taken = back.length by omega) rewritten'

end

theorem passOver_of_empty {context : Context} {line : Line} (empty : line.isEmpty = true) (rest : List Line) :
    passOver context (line :: rest) = ⟨[], (passOver context rest).taken + 1⟩ := by
  have shorter := (List.dropWhile_sublist Line.isEmpty (l := rest)).length_le
  rw [passOver, passOver, List.dropWhile_cons_of_pos empty]
  split
  · rfl
  next first more found =>
    rw [found, List.length_cons] at shorter
    split
    · have count : rest.length + 1 - (more.length + 1) = rest.length - (more.length + 1) + 1 := by omega
      rw [List.length_cons, count]
    · rfl

theorem passOver_of_present {context : Context} {line : Line} (present : line.isEmpty = false) (rest : List Line) :
    passOver context (line :: rest) = ⟨[], if line.indent < context.edge then 0 else rest.length + 1⟩ := by
  rw [passOver, List.dropWhile_cons_of_neg (by simp [present])]
  simp only [List.length_cons, Nat.sub_self]
  split <;> rfl

theorem simulates_passOver : Simulates level passOver := by
  intro headed context number front front' rest rest' outside numbered marked taken rewritten after
  have headless : ∀ lines, (passOver context lines).headings = [] := by
    intro lines
    rcases passOver_cases context lines with all | ⟨_, _, _, _, _, _, _, passed⟩
    · rw [all]
    · rw [passed]
  rw [headless] at rewritten ⊢
  have kept := rewritten.kept_of_no_headings
  refine ⟨by rw [headless]; rfl, ?_⟩
  clear numbered marked rewritten
  induction kept with
  | nil =>
    cases rest with
    | nil =>
      rw [after.eq_nil]
      rfl
    | cons line rest =>
      cases present : line.isEmpty with
      | true =>
        rw [List.nil_append, passOver_of_empty present] at taken
        cases taken
      | false =>
        rw [List.nil_append, passOver_of_present present] at taken
        have before : line.indent < context.edge := by
          by_contra reaches
          rw [if_neg reaches] at taken
          cases taken
        rcases after.first with ⟨rfl, _⟩ | ⟨other, more, rfl, alike⟩
        · rfl
        · rw [List.nil_append, passOver_of_present (alike.isEmpty.trans present), alike.indent, if_pos before]
          rfl
  | @cons line other front front' same kept ih =>
    obtain ⟨place, rfl⟩ := same
    rw [List.cons_append] at taken ⊢
    cases present : line.isEmpty with
    | true =>
      rw [passOver_of_empty present] at taken
      rw [passOver_of_empty (show (line.movedTo place).isEmpty = true from present)]
      exact congrArg Nat.succ (ih (Nat.succ.inj taken))
    | false =>
      rw [passOver_of_present present] at taken
      rw [passOver_of_present (show (line.movedTo place).isEmpty = false from present), Line.indent_movedTo]
      split at taken
      · cases taken
      next reaches =>
        obtain rfl : rest = [] := by
          simp only [List.length_append, List.length_cons] at taken
          exact List.length_eq_zero_iff.mp (by omega)
        rw [if_neg reaches, after.eq_nil, List.append_nil]
        rfl

theorem simulates_readWithin (level : Nat → Nat) (room : Nat) : Simulates level (readWithin room) := by
  fun_induction readWithin room with
  | case1 => exact simulates_passOver
  | case2 =>
    exact simulates_readBlocks simulates_passOver sound_passOver starts_passOver guards_passOver simulates_passOver sound_passOver
      starts_passOver
  | case3 room quote item =>
    exact simulates_readBlocks quote (sound_readWithin _).1 (sound_readWithin _).2 (guards_readWithin _) item (sound_readWithin _).1
      (sound_readWithin _).2

/-- Blocks that are in no container take all lines. -/
theorem taken_readBlocks {insideQuote insideItem : BlockReader} (reads : Reads insideQuote) (starts : Starts insideQuote)
    (reads' : Reads insideItem) (starts' : Starts insideItem) {context : Context} {number : Nat} {lines : List Line}
    (outside : 0 ≤ context.edge) (numbered : Numbered headed number lines) (reach : ∀ line ∈ lines, context.edge ≤ line.indent) :
    (readBlocks insideQuote insideItem context lines).taken = lines.length := by
  fun_induction readBlocks insideQuote insideItem context lines generalizing number
  case case1 => rfl
  case case2 line rest empty others ih =>
    exact congrArg Nat.succ (ih numbered.2 fun other member => reach other (List.mem_cons_of_mem line member))
  case case3 line rest present before => exact absurd before (Int.not_lt.mpr (reach line List.mem_cons_self))
  case case4 line rest present edge block used others ih =>
    have all : used + 1 = block.taken := Nat.sub_add_cancel (starts_readBlock starts context line rest)
    have below := (sound_readBlock reads reads' starts' outside numbered (Int.not_lt.mp edge) (Bool.not_eq_true _ ▸ present)).taken_le
    have later : Numbered headed (number + 1 + used) (rest.drop used) := numbered.2.drop used
    have count : others.taken = (rest.drop used).length :=
      ih later fun other member => reach other (List.mem_cons_of_mem line (List.mem_of_mem_drop member))
    have within : block.taken ≤ (line :: rest).length := below
    show used + 1 + others.taken = (line :: rest).length
    rw [List.length_cons] at within ⊢
    rw [count, List.length_drop]
    omega

theorem taken_readWithin {room : Nat} (positive : 0 < room) {context : Context} {number : Nat} {lines : List Line}
    (outside : 0 ≤ context.edge) (numbered : Numbered headed number lines) (reach : ∀ line ∈ lines, context.edge ≤ line.indent) :
    (readWithin room context lines).taken = lines.length := by
  match room, positive with
  | 1, _ => exact taken_readBlocks sound_passOver starts_passOver sound_passOver starts_passOver outside numbered reach
  | room + 2, _ =>
    exact taken_readBlocks (sound_readWithin _).1 (sound_readWithin _).2 (sound_readWithin _).1 (sound_readWithin _).2 outside
      numbered reach

end Bindery.Markdown
