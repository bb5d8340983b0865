import Bindery.Proofs.BlockExtents
import Bindery.Proofs.DefinitionReaders

/-! How far definitions of link targets reach among the lines of a paragraph. A definition takes whole lines, so it
stays one where lines after it go. -/

namespace Bindery.Markdown
open Text

/-! ### Texts of paragraphs -/

theorem rtakeWhile_append_of_present {text : Text} (present : isPresent text = true) (front : Text) :
    (front ++ text).rtakeWhile isBlank = text.rtakeWhile isBlank := by
  have stops : ¬ (text.reverse.takeWhile isBlank).length = text.reverse.length := by
    intro whole
    have all := (List.takeWhile_prefix isBlank).eq_of_length whole
    rw [List.takeWhile_eq_self_iff] at all
    simp only [isPresent, Bool.not_eq_true', List.all_eq_false] at present
    obtain ⟨c, member, inked⟩ := present
    exact inked (all c (List.mem_reverse.mpr member))
  rw [List.rtakeWhile, List.reverse_append, List.takeWhile_append, if_neg stops, List.rtakeWhile]

namespace Line

/-- Only what stands before its content is taken from a line. -/
theorem content_suffix_withoutIndent {line : Line} (flush : line.Flush) (edge : Int) :
    line.content <:+ line.withoutIndent edge := by
  have cut : ∀ (text : Text) (shift column : Nat), (∀ c ∈ (text.drop shift).head?, isGap c = false) →
      text.drop shift <:+ cutFrom edge line.origin column shift text := by
    intro text
    induction text with
    | nil =>
      intro shift column _
      rw [List.drop_nil]
      exact List.nil_suffix
    | cons c rest ih =>
      intro shift column flush
      have behind : ∀ {column : Nat}, (isGap c = true ∨ 0 < shift) →
          (c :: rest).drop shift <:+ cutFrom edge line.origin column (shift - 1) rest := by
        intro column before
        cases shift with
        | zero => exact absurd (before.resolve_right (Nat.lt_irrefl 0)) (by simp [flush c rfl])
        | succ shift => exact ih shift column flush
      unfold cutFrom
      split
      · exact (List.drop_suffix _ _).trans (List.suffix_append _ _)
      · split
        next tab => exact behind (Or.inl (by simp [isGap, tab]))
        next =>
          split
          next taken =>
            simp only [Bool.or_eq_true, decide_eq_true_eq] at taken
            exact behind (taken.imp (fun space => by simp [isGap, space]) id)
          next => exact List.drop_suffix _ _
  exact cut line.text line.shift 0 flush

theorem isPresent_content {line : Line} (flush : line.Flush) (plain : EndsPlainly line.text) (present : line.isEmpty = false) :
    isPresent line.content = true := by
  obtain ⟨c, rest, content, inked⟩ := flush.solid present
  by_contra blank
  simp only [isPresent, Bool.not_eq_true', Bool.not_eq_false] at blank
  have ends : EndsPlainly line.content := plain.of_suffix (List.drop_suffix _ _)
  have whole : line.content.rtakeWhile isBlank = line.content := List.rtakeWhile_eq_self_iff.mpr (List.all_eq_true.mp blank)
  have gap := ends c (by rw [whole, content]; exact List.mem_cons_self)
  exact absurd gap (by simp [inked])

theorem isPresent_withoutIndent {line : Line} (flush : line.Flush) (present : isPresent line.content = true) (edge : Int) :
    isPresent (line.withoutIndent edge) = true := by
  simp only [isPresent, Bool.not_eq_true', List.all_eq_false] at present ⊢
  obtain ⟨c, member, other⟩ := present
  exact ⟨c, (content_suffix_withoutIndent flush edge).subset member, other⟩

theorem endsPlainly_withoutIndent {line : Line} (flush : line.Flush) (plain : EndsPlainly line.text)
    (present : line.isEmpty = false) (edge : Int) : EndsPlainly (line.withoutIndent edge) := by
  intro c member
  obtain ⟨front, whole⟩ := content_suffix_withoutIndent flush edge
  rw [← whole, rtakeWhile_append_of_present (isPresent_content flush plain present)] at member
  exact plain.of_suffix (List.drop_suffix _ _) c member

theorem mem_withoutIndent {line : Line} {edge : Int} {c : Char} (member : c ∈ line.withoutIndent edge) :
    c = ' ' ∨ c ∈ line.text := by
  have cut : ∀ (text : Text) (shift column : Nat), c ∈ cutFrom edge line.origin column shift text → c = ' ' ∨ c ∈ text := by
    intro text
    induction text with
    | nil => exact fun _ _ member => Or.inl (List.eq_of_mem_replicate member)
    | cons d rest ih =>
      intro shift column member
      unfold cutFrom at member
      split at member
      · exact (List.mem_append.mp member).imp List.eq_of_mem_replicate id
      · split at member
        · exact (ih _ _ member).imp id (List.mem_cons_of_mem d)
        · split at member
          · exact (ih _ _ member).imp id (List.mem_cons_of_mem d)
          · exact Or.inr member
  exact cut line.text line.shift 0 member

end Line

theorem notMem_paragraphText {lines : List Line} (unreturned : ∀ line ∈ lines, '\r' ∉ line.text) (edge : Int) :
    '\r' ∉ paragraphText edge lines := by
  intro member
  have within : '\r' ∈ unlines (lines.map (Line.withoutIndent edge)) :=
    ((List.rdropWhile_prefix isBlank _).sublist.trans (List.dropWhile_sublist isBlank)).subset member
  rcases mem_unlines within with newline | ⟨text, mapped, inside⟩
  · exact absurd newline (by decide)
  · obtain ⟨line, among, rfl⟩ := List.mem_map.mp mapped
    rcases Line.mem_withoutIndent inside with space | own
    · exact absurd space (by decide)
    · exact unreturned line among own

theorem count_unlines {lines : List Text} (single : ∀ line ∈ lines, '\n' ∉ line) :
    (unlines lines).count '\n' = lines.length - 1 := by
  induction lines with
  | nil => rfl
  | cons line rest ih =>
    rw [List.forall_mem_cons] at single
    have alone := List.count_eq_zero.mpr single.1
    cases rest with
    | nil => simpa using alone
    | cons next rest =>
      rw [unlines_cons_cons, List.count_append, List.count_cons_self, ih single.2, alone]
      simp

theorem unlines_append {front back : List Text} (nonempty : front ≠ []) (nonempty' : back ≠ []) :
    unlines (front ++ back) = unlines front ++ '\n' :: unlines back := by
  induction front with
  | nil => exact absurd rfl nonempty
  | cons line rest ih =>
    cases rest with
    | nil =>
      obtain ⟨next, others, rfl⟩ := List.exists_cons_of_ne_nil nonempty'
      rw [List.singleton_append, unlines_cons_cons, unlines_singleton]
    | cons next rest =>
      rw [List.cons_append, List.cons_append, unlines_cons_cons, unlines_cons_cons, List.append_assoc, List.cons_append,
        ← ih (List.cons_ne_nil next rest), List.cons_append]

theorem stripEnd_append_of_present {text : Text} (present : isPresent text = true) (front : Text) :
    stripEnd (front ++ text) = front ++ stripEnd text := by
  have whole : stripEnd (front ++ text) ++ (front ++ text).rtakeWhile isBlank = front ++ text :=
    List.rdropWhile_append_rtakeWhile
  have own : stripEnd text ++ text.rtakeWhile isBlank = text := List.rdropWhile_append_rtakeWhile
  rw [rtakeWhile_append_of_present present] at whole
  have same : stripEnd (front ++ text) ++ text.rtakeWhile isBlank = front ++ stripEnd text ++ text.rtakeWhile isBlank := by
    rw [whole, List.append_assoc, own]
  exact List.append_cancel_right same

theorem endsPlainly_unlines {lines : List Text} (ends : ∀ line ∈ lines.getLast?, isPresent line = true ∧ EndsPlainly line) :
    EndsPlainly (unlines lines) := by
  rcases List.eq_nil_or_concat lines with rfl | ⟨front, last, rfl⟩
  · exact nofun
  · rw [List.concat_eq_append] at *
    obtain ⟨present, plain⟩ := ends last (by simp)
    by_cases alone : front = []
    · rw [alone, List.nil_append, unlines_singleton]
      exact plain
    · rw [unlines_append alone (List.cons_ne_nil last []), unlines_singleton, List.append_cons]
      intro c ending
      rw [rtakeWhile_append_of_present present] at ending
      exact plain c ending

theorem exists_unlines_cons (first : Text) (lines : List Text) :
    ∃ rest, unlines (first :: lines) = first ++ rest ∧ lines.length ≤ rest.count '\n' := by
  induction lines generalizing first with
  | nil => exact ⟨[], by simp, Nat.le_refl 0⟩
  | cons next lines ih =>
    obtain ⟨rest, whole, count⟩ := ih next
    refine ⟨'\n' :: (next ++ rest), by rw [unlines_cons_cons, whole], ?_⟩
    rw [List.count_cons_self, List.count_append, List.length_cons]
    omega

/-- A definition that ends before the last lines of a text is one without them. -/
theorem definitionExtent?_cut {first : Text} {lines later : List Text} {further : Nat}
    (present : isPresent first = true) (ends : ∀ line ∈ (first :: lines).getLast?, isPresent line = true ∧ EndsPlainly line)
    (read : definitionExtent? (strip (unlines (first :: lines ++ later))) = some further) (inside : further ≤ lines.length) :
    definitionExtent? (strip (unlines (first :: lines))) = some further := by
  rcases eq_or_ne later [] with rfl | nonempty
  · rwa [List.append_nil] at read
  rw [unlines_append (List.cons_ne_nil _ _) nonempty] at read
  obtain ⟨rest, whole, count⟩ := exists_unlines_cons first lines
  have inked : ¬ first.all isBlank = true := by simpa [isPresent] using present
  have inked' : ¬ (first ++ rest).all isBlank = true := by
    rw [List.all_append, Bool.and_eq_true]
    exact fun both => inked both.1
  by_cases blank : (unlines later).all isBlank = true
  · rwa [strip_append_of_blank (by rw [List.all_cons, blank]; rfl)] at read
  · have present' : isPresent (unlines later) = true := by simpa [isPresent] using blank
    rw [strip, whole, stripStart_append_of_not_blank inked', List.append_cons, stripEnd_append_of_present present',
      ← List.append_cons] at read
    have before : definitionExtent? (stripStart (first ++ rest)) = some further := by
      apply definitionExtent?_cut_lines read
      rw [stripStart_append_of_not_blank inked, List.count_append]
      omega
    rw [whole, strip]
    have split : stripEnd (stripStart (first ++ rest)) ++ (stripStart (first ++ rest)).rtakeWhile isBlank =
      stripStart (first ++ rest) := List.rdropWhile_append_rtakeWhile
    rw [← split] at before
    apply definitionExtent?_cut_gaps _ before
    have plain := endsPlainly_unlines ends
    rw [whole] at plain
    exact plain.of_suffix (List.dropWhile_suffix _)

/-! ### Lines of a definition -/

theorem readDefinition?_le {context : Context} {line : Line} {rest : List Line} {further : Nat}
    (single : ∀ other ∈ line :: rest, '\n' ∉ other.text) (read : readDefinition? context line rest = some further) :
    further ≤ paragraphExtent context false rest := by
  obtain ⟨_, found⟩ := Option.ite_none_right_eq_some.mp read
  obtain ⟨before, after, whole, _, rfl⟩ := definitionExtent?_eq_some_iff.mp found
  have apart : ∀ text ∈ (line :: rest.take (paragraphExtent context false rest)).map (Line.withoutIndent context.edge),
      '\n' ∉ text := by
    intro text member newline
    obtain ⟨other, among, rfl⟩ := List.mem_map.mp member
    rcases Line.mem_withoutIndent newline with space | within
    · exact absurd space (by decide)
    · refine single other ?_ within
      rcases List.mem_cons.mp among with rfl | later
      · exact List.mem_cons_self
      · exact List.mem_cons_of_mem _ (List.mem_of_mem_take later)
  have total := count_unlines apart
  have stripped : ∀ text : Text, (strip text).count '\n' ≤ text.count '\n' := fun text =>
    ((List.rdropWhile_prefix isBlank _).sublist.trans (List.dropWhile_sublist isBlank)).count_le '\n'
  have below := stripped (unlines ((line :: rest.take (paragraphExtent context false rest)).map
    (Line.withoutIndent context.edge)))
  rw [← paragraphText, whole, List.count_append, total, List.length_map, List.length_cons, List.length_take] at below
  omega

theorem paragraphExtent_append {context : Context} {inParagraph : Bool} {lines : List Line}
    (goes : ∀ line ∈ lines, paragraphShare context inParagraph line = .goes) (rest : List Line) :
    paragraphExtent context inParagraph (lines ++ rest) = lines.length + paragraphExtent context inParagraph rest := by
  simp only [paragraphExtent_eq]
  induction lines with
  | nil => exact (Nat.zero_add _).symm
  | cons line lines ih =>
    rw [List.forall_mem_cons] at goes
    simp only [List.cons_append, extentOf, goes.1, ih goes.2, List.length_cons]
    omega

theorem goes_of_le_paragraphExtent {context : Context} {inParagraph : Bool} {lines rest : List Line}
    (le : lines.length ≤ paragraphExtent context inParagraph (lines ++ rest)) :
    ∀ line ∈ lines, paragraphShare context inParagraph line = .goes := by
  rw [paragraphExtent_eq] at le
  induction lines with
  | nil => exact nofun
  | cons line lines ih =>
    have own : paragraphShare context inParagraph line = .goes := by
      by_contra other
      simp [extentOf, paragraphShare_eq_stops other] at le
    rw [List.forall_mem_cons]
    refine ⟨own, ih ?_⟩
    simpa [extentOf, own] using le

theorem Kept.map_withoutIndent {lines others : List Line} (kept : Kept lines others) (edge : Int) :
    others.map (Line.withoutIndent edge) = lines.map (Line.withoutIndent edge) := by
  induction kept with
  | nil => rfl
  | cons same _ ih =>
    obtain ⟨number, rfl⟩ := same
    rw [List.map_cons, List.map_cons, ih]
    rfl

theorem Kept.map_take_withoutIndent {lines others : List Line} (kept : Kept lines others) {count : Nat} (le : count ≤ lines.length)
    (edge : Int) (rest rest' : List Line) :
    ((others ++ rest').take count).map (Line.withoutIndent edge) = ((lines ++ rest).take count).map (Line.withoutIndent edge) := by
  rw [List.take_append_of_le_length le, List.take_append_of_le_length (kept.length_eq ▸ le), List.map_take, List.map_take,
    kept.map_withoutIndent]

theorem Kept.goes_iff {context : Context} {inParagraph : Bool} {lines others : List Line} (kept : Kept lines others) :
    (∀ line ∈ others, paragraphShare context inParagraph line = .goes) ↔
      ∀ line ∈ lines, paragraphShare context inParagraph line = .goes := by
  induction kept with
  | nil => exact Iff.rfl
  | cons same _ ih =>
    obtain ⟨number, rfl⟩ := same
    rw [List.forall_mem_cons, List.forall_mem_cons, ih]
    exact Iff.rfl

/-- A definition stays one where the lines stay that a paragraph would have from it on. -/
theorem readDefinition?_cut {context : Context} {line : Line} {number further : Nat} {lines others rest rest' : List Line}
    (kept : Kept lines others) (ends : ∀ last ∈ (line :: lines).getLast?, last.Flush ∧ EndsPlainly last.text)
    (read : readDefinition? context line (lines ++ rest) = some further) (inside : further ≤ lines.length)
    (extent : paragraphExtent context false (others ++ rest') = others.length) :
    readDefinition? context (line.movedTo number) (others ++ rest') = some further := by
  obtain ⟨start, found⟩ := Option.ite_none_right_eq_some.mp read
  obtain ⟨more, content⟩ := List.head?_eq_some_iff.mp start
  have goes := kept.goes_iff.mp (goes_of_le_paragraphExtent (Nat.le_of_eq extent.symm))
  have present : ∀ other ∈ line :: lines, other.isEmpty = false := by
    rw [List.forall_mem_cons]
    refine ⟨?_, fun other member => (paragraphShare_eq_goes.mp (goes other member)).1⟩
    rw [Line.isEmpty, content]
    rfl
  have flush : line.Flush := by
    rw [Line.Flush, content]
    simp [isGap]
  apply Option.ite_none_right_eq_some.mpr
  refine ⟨start, ?_⟩
  rw [paragraphExtent_append goes, List.take_length_add_append] at found
  rw [extent, List.take_left, paragraphText, List.map_cons, kept.map_withoutIndent, Line.withoutIndent_movedTo]
  rw [paragraphText, List.map_cons, List.map_append, ← List.cons_append] at found
  refine definitionExtent?_cut ?_ ?_ found (by rwa [List.length_map])
  · apply Line.isPresent_withoutIndent flush
    have inked : isBlank '[' = false := by decide
    simp [content, isPresent, inked]
  · rw [← List.map_cons, List.getLast?_map]
    intro text last
    obtain ⟨other, found, rfl⟩ := Option.map_eq_some_iff.mp last
    obtain ⟨flush, plain⟩ := ends other found
    have filled := present other (List.mem_of_getLast? found)
    exact ⟨Line.isPresent_withoutIndent flush (Line.isPresent_content flush plain filled) _,
      Line.endsPlainly_withoutIndent flush plain filled _⟩

end Bindery.Markdown
