import Bindery.Proofs.BlockReadings

/-! What stands between a place among lines and the first heading after it. A paragraph that begins before the place would
not reach the heading: the heading begins a block there, or another line before it begins a list or a quote, and the
same holds inside of the quote. -/

namespace Bindery.Markdown
open Text

/-- The line of a heading is guarded from what was open before the lines among which it was found. -/
inductive Guarded : Context → (Line → Prop) → Line → Prop where
  | here {context among line} (reaches : Reaches context line) (unquoted : isQuoted line.content = false) :
      Guarded context among line
  | listed {context among line first} (before : among first) (reaches : Reaches context first) (marker : ListMarker)
      (marked : listMarker? first.content = some marker) : Guarded context among line
  | quoted {context among line first} (before : among first ∨ first = line) (reaches : Reaches context first)
      (opens : isQuoted first.content = true) (quoted : isQuoted line.content = true)
      (inner : Guarded (quoteContext context)
        (fun other => ∃ outer, (among outer ∧ 0 ≤ outer.indent) ∧ isQuoted outer.content = true ∧ other = outer.insideQuote)
        line.insideQuote) : Guarded context among line

/-- Lines that a lazy line stands for guard nothing, and neither do lines that a list around them would end at. -/
theorem Guarded.mono {context deeper : Context} {among among' : Line → Prop} {line : Line} (guarded : Guarded context among line)
    (contained : ∀ other, Reaches context other → Reaches deeper other)
    (more : ∀ other, among other → 0 ≤ other.indent → among' other) : Guarded deeper among' line := by
  induction guarded generalizing deeper among' with
  | here reaches unquoted => exact .here (contained _ reaches) unquoted
  | listed before reaches marker marked => exact .listed (more _ before reaches.inside) (contained _ reaches) marker marked
  | @quoted context among line first before reaches opens quoted _ ih =>
    refine .quoted (before.imp_left fun early => more _ early reaches.inside) (contained _ reaches) opens quoted (ih ?_ ?_)
    · intro other inner
      exact ⟨inner.inside, inner.near, fun _ before => absurd before (Int.not_lt.mpr inner.inside)⟩
    · rintro other ⟨outer, ⟨early, inside⟩, quoted, rfl⟩ _
      exact ⟨outer, ⟨more _ early inside, inside⟩, quoted, rfl⟩

/-- Readers whose first heading is guarded by the lines that they read before it. -/
def Guards (reader : BlockReader) : Prop :=
  ∀ {headed : Nat → Prop} {context : Context} {number : Nat} {lines : List Line}, 0 ≤ context.edge → Numbered headed number lines →
    ∀ heading ∈ (reader context lines).headings.head?, ∀ line ∈ lines, line.number = heading.start →
      Guarded context (fun other => other ∈ lines ∧ other.number < heading.start) line

variable {headed : Nat → Prop}

theorem eq_first_of_number {number : Nat} {line other : Line} {rest : List Line} (numbered : Numbered headed number (line :: rest))
    (member : other ∈ line :: rest) (same : other.number = line.number) : other = line := by
  rcases List.mem_cons.mp member with rfl | later
  · rfl
  · have bounds := numbered.2.bounds later
    have first := numbered.1.1
    omega

/-- Lines inside a quote stand for lines with its mark, or for others lazily. -/
theorem exists_of_mem_quoteLines {context : Context} {afterEmpty : Bool} {lines : List Line} {line : Line}
    (member : line ∈ quoteLines context afterEmpty lines) : ∃ outer ∈ lines,
      isQuoted outer.content = true ∧ context.edge ≤ outer.indent ∧ line = outer.insideQuote ∨ line = outer.lazily := by
  induction lines generalizing afterEmpty with
  | nil => cases member
  | cons first rest ih =>
    rcases quoteLines_cases context afterEmpty first rest with ended | ⟨_, ⟨⟨quoted, reaches⟩, goes⟩ | goes⟩
    · rw [ended] at member
      cases member
    · rw [goes] at member
      rcases List.mem_cons.mp member with rfl | later
      · exact ⟨first, List.mem_cons_self, Or.inl ⟨quoted, reaches, rfl⟩⟩
      · obtain ⟨outer, among, same⟩ := ih later
        exact ⟨outer, List.mem_cons_of_mem first among, same⟩
    · rw [goes] at member
      rcases List.mem_cons.mp member with rfl | later
      · exact ⟨first, List.mem_cons_self, Or.inr rfl⟩
      · obtain ⟨outer, among, same⟩ := ih later
        exact ⟨outer, List.mem_cons_of_mem first among, same⟩

/-- A quote holds the lines from its first one on that are in it. -/
theorem readQuote_eq (inside : BlockReader) {context : Context} {line : Line} (quoted : isQuoted line.content = true)
    (reaches : context.edge ≤ line.indent) (rest : List Line) :
    readQuote inside context line rest = inside (quoteContext context) (quoteLines context false (line :: rest)) := by
  rw [quoteLines, isEmpty_of_isQuoted quoted, if_neg Bool.false_ne_true, if_pos (by simp [quoted, reaches])]
  rfl

theorem guarded_readQuote {inside : BlockReader} (guards : Guards inside) (reads : Reads inside) {context : Context}
    {line : Line} {rest : List Line} {number : Nat} (outside : 0 ≤ context.edge) (numbered : Numbered headed number (line :: rest))
    (quoted : isQuoted line.content = true) (edge : context.edge ≤ line.indent) (near : context.isCode line = false) :
    ∀ heading ∈ (readQuote inside context line rest).headings.head?, ∀ other ∈ line :: rest, other.number = heading.start →
      Guarded context (fun before => before ∈ line :: rest ∧ before.number < heading.start) other := by
  intro heading found other member start
  have sound := sound_readQuote reads outside numbered quoted edge
  rw [readQuote_eq inside quoted edge] at found sound
  have numbered' : Numbered headed number (quoteLines context false (line :: rest)) := numbered_quoteLines numbered
  have inner := reads (show 0 ≤ (quoteContext context).edge from Int.le_refl 0) numbered'
  have among := List.mem_of_mem_head? found
  have bounds := inner.within.bounds among
  have length := inner.taken_le
  have before : other.number < number + (quoteLines context false (line :: rest)).length := by omega
  obtain ⟨_, ⟨⟨marked, _⟩, within⟩ | lazy⟩ := exists_mem_quoteLines numbered member before
  · have first : (line.number < heading.start ∧ line ∈ line :: rest) ∨ line = other := by
      rcases Nat.lt_or_ge line.number heading.start with before | after
      · exact Or.inl ⟨before, List.mem_cons_self⟩
      · refine Or.inr (eq_first_of_number numbered member ?_).symm
        have lowest := numbered.1.1
        omega
    refine .quoted (first.imp_left And.symm) (reaches_of_edge_le outside edge near) quoted marked ?_
    apply (guards (Int.le_refl 0) numbered' heading found _ within start).mono (fun _ reaches => reaches)
    rintro before ⟨member, early⟩ inside
    obtain ⟨outer, origin, ⟨marked, reaches, rfl⟩ | rfl⟩ := exists_of_mem_quoteLines member
    · exact ⟨outer, ⟨⟨origin, early⟩, Int.le_trans outside reaches⟩, marked, rfl⟩
    · exact absurd inside (by simp [Line.lazily])
  · obtain ⟨nonneg, _⟩ := inner.leads heading among _ lazy start
    exact absurd nonneg (by simp [Line.lazily])

/-- The first line of a list guards all headings in it. -/
theorem guarded_of_marked {context : Context} {line : Line} {rest : List Line} {number : Nat}
    (numbered : Numbered headed number (line :: rest)) (reaches : Reaches context line) {marker : ListMarker}
    (marked : listMarker? line.content = some marker) {start : Nat} {other : Line} (member : other ∈ line :: rest)
    (same : other.number = start) : Guarded context (fun before => before ∈ line :: rest ∧ before.number < start) other := by
  rcases List.mem_cons.mp member with rfl | later
  · exact .here reaches (kinds_of_listMarker? marked).1
  · have bounds := numbered.2.bounds later
    have first := numbered.1.1
    exact .listed ⟨List.mem_cons_self, by omega⟩ reaches marker marked

theorem guarded_readBlock {insideQuote : BlockReader} (guards : Guards insideQuote) (reads : Reads insideQuote) (insideItem : BlockReader)
    {context : Context} {line : Line} {rest : List Line} {number : Nat} (outside : 0 ≤ context.edge)
    (numbered : Numbered headed number (line :: rest)) (edge : context.edge ≤ line.indent) :
    ∀ heading ∈ (readBlock insideQuote insideItem context line rest).headings.head?, ∀ other ∈ line :: rest,
      other.number = heading.start → Guarded context (fun before => before ∈ line :: rest ∧ before.number < heading.start) other := by
  have own : ∀ {heading : Heading}, Plain context line → heading.start = line.number → ∀ other ∈ line :: rest,
      other.number = heading.start → Guarded context (fun before => before ∈ line :: rest ∧ before.number < heading.start) other := by
    intro heading plain start other member same
    obtain rfl := eq_first_of_number numbered member (same.trans start)
    exact .here (reaches_of_edge_le outside edge plain.near) plain.unquoted
  have kinds := readBlock_cases insideQuote insideItem context line rest
  generalize readBlock insideQuote insideItem context line rest = reading at kinds ⊢
  intro heading found
  cases kinds with
  | code | fence | rule | definition | html | paragraph => cases found
  | quote near unfenced quoted => exact guarded_readQuote guards reads outside numbered quoted edge near heading found
  | list near unfenced unquoted unruled marker opens =>
    intro other member same
    exact guarded_of_marked numbered (reaches_of_edge_le outside edge near) (listMarker?_of_opensList? opens) member same
  | hashes plain undefined untagged level hashed =>
    obtain rfl := Option.some.inj found
    exact own plain rfl
  | underlined plain undefined untagged unhashed level before under =>
    obtain rfl := Option.some.inj found
    exact own plain rfl

theorem guards_readBlocks {insideQuote insideItem : BlockReader} (guards : Guards insideQuote) (reads : Reads insideQuote)
    (starts : Starts insideQuote) (reads' : Reads insideItem) (starts' : Starts insideItem) :
    Guards (readBlocks insideQuote insideItem) := by
  intro headed context number lines outside numbered
  fun_induction readBlocks insideQuote insideItem context lines generalizing number with
  | case1 =>
    intro heading found
    cases found
  | case2 line rest empty others =>
    rename_i ih
    intro heading found other member same
    have numbers := (sound_readBlocks reads starts reads' starts' outside numbered.2).within.bounds (List.mem_of_mem_head? found)
    have first := numbered.1.1
    have later : other ∈ rest := (List.mem_cons.mp member).resolve_left (by rintro rfl; omega)
    apply (ih numbered.2 heading found other later same).mono (fun _ reaches => reaches)
    rintro before ⟨among, early⟩ _
    exact ⟨List.mem_cons_of_mem line among, early⟩
  | case3 =>
    intro heading found
    cases found
  | case4 line rest present reaches block used others =>
    rename_i ih
    have edge : context.edge ≤ line.indent := Int.not_lt.mp reaches
    intro heading found
    cases own : block.headings with
    | cons first more =>
      rw [own] at found
      apply guarded_readBlock guards reads insideItem outside numbered edge heading
      show heading ∈ block.headings.head?
      rwa [own]
    | nil =>
      rw [own, List.nil_append] at found
      have whole : used + 1 = block.taken := Nat.sub_add_cancel (starts_readBlock starts context line rest)
      have dropped : (line :: rest).drop (used + 1) = rest.drop used := rfl
      have numbered' : Numbered headed (number + (used + 1)) (rest.drop used) := dropped ▸ numbered.drop (used + 1)
      have bounds := (sound_readBlocks reads starts reads' starts' outside numbered').within.bounds (List.mem_of_mem_head? found)
      intro other member same
      have later : other ∈ rest.drop used := dropped ▸ numbered.mem_drop member (by omega)
      apply (ih numbered' heading found other later same).mono (fun _ reaches => reaches)
      rintro before ⟨among, early⟩ _
      exact ⟨List.mem_cons_of_mem line (List.mem_of_mem_drop among), early⟩

theorem guards_passOver : Guards passOver := by
  intro headed context number lines outside numbered
  rcases passOver_cases context lines with all | ⟨_, _, _, _, _, _, _, passed⟩
  · rw [all]
    exact nofun
  · rw [passed]
    exact nofun

theorem guards_readWithin (room : Nat) : Guards (readWithin room) := by
  fun_induction readWithin room with
  | case1 => exact guards_passOver
  | case2 => exact guards_readBlocks guards_passOver sound_passOver starts_passOver sound_passOver starts_passOver
  | case3 room quote item =>
    exact guards_readBlocks quote (sound_readWithin _).1 (sound_readWithin _).2 (sound_readWithin _).1 (sound_readWithin _).2

end Bindery.Markdown
