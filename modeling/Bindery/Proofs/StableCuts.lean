import Bindery.Proofs.QuoteStates

/-! Splitting is a stable partition. A text comes apart into pieces in which no separator begins outside quotes, and
each piece closes the quotes it opens unless it is the last; so a piece is read in the same state wherever it stands,
alone, in its text or among the others put together. -/

namespace Bindery

namespace Link
open Text Identifier

/-! ### Separators -/

/-- What stands between two parts: no quote, and a blank at its end. -/
structure IsSeparator (separator : Separator) (between : Text) : Prop where
  whole : separator between = between.length
  unquoted : Unquoted between
  closes : ∃ front c, between = front ++ [c] ∧ isBlank c = true

theorem IsSeparator.ne_nil {separator : Separator} {between : Text} (isSeparator : IsSeparator separator between) :
    between ≠ [] := by
  obtain ⟨front, c, rfl, _⟩ := isSeparator.closes
  simp

/-- What makes splitting stable. Where no separator begins, none begins once the text is cut off behind it, or goes on
with the usual separator where another one stood. -/
structure Separates (separator : Separator) (usual : Text) : Prop where
  usually : IsSeparator separator usual
  starts {rest : Text} (tight : IsTight rest) : separator (usual ++ rest) = usual.length
  found {text : Text} (separated : separator text ≠ 0) :
    ∃ between rest, text = between ++ rest ∧ separator text = between.length ∧ IsSeparator separator between
  shortened {text rest : Text} (nowhere : separator (text ++ rest) = 0) : separator text = 0
  exchanged {text blanks rest : Text} (ends : ∃ front c, text = front ++ [c] ∧ isBlank c = false)
    (blank : blanks.all isBlank = true) (separated : separator rest ≠ 0) (nowhere : separator (text ++ (blanks ++ rest)) = 0)
    (other : Text) : separator (text ++ (usual ++ other)) = 0

theorem exists_of_commaSeparator {text : Text} (separated : commaSeparator text ≠ 0) : ∃ rest, text = ", " ++ rest := by
  unfold commaSeparator at separated
  split at separated
  next rest => exact ⟨rest, rfl⟩
  next => exact absurd rfl separated

theorem separates_comma : Separates commaSeparator ", " where
  usually := ⟨rfl, by decide, [','], ' ', rfl, by decide⟩
  starts _ := rfl
  found separated := by
    obtain ⟨rest, rfl⟩ := exists_of_commaSeparator separated
    exact ⟨", ", rest, rfl, rfl, rfl, by decide, [','], ' ', rfl, by decide⟩
  shortened nowhere := by
    by_contra separated
    obtain ⟨rest, rfl⟩ := exists_of_commaSeparator separated
    exact absurd nowhere (by simp [commaSeparator])
  exchanged ends _ _ nowhere other := by
    obtain ⟨front, c, rfl, solid⟩ := ends
    by_contra separated
    obtain ⟨more, same⟩ := exists_of_commaSeparator separated
    cases front with
    | nil => simp at same
    | cons d front =>
      cases front with
      | nil =>
        have blank : c = ' ' := by simp_all
        rw [blank] at solid
        exact absurd solid (by decide)
      | cons e front =>
        obtain ⟨rfl, rfl, _⟩ : d = ',' ∧ e = ' ' ∧ _ := by simpa using same
        exact absurd nowhere (by simp [commaSeparator])

theorem pipeSeparator_eq {before after rest : Text} (nonempty : before ≠ []) (also : after ≠ []) (blank : before.all isBlank = true)
    (too : after.all isBlank = true) (flush : ∀ c ∈ rest.head?, isBlank c = false) :
    pipeSeparator (before ++ '|' :: (after ++ rest)) = (before ++ '|' :: after).length := by
  have bar : isBlank '|' = false := by decide
  have start : (before ++ '|' :: (after ++ rest)).takeWhile isBlank = before :=
    takeWhile_append_of_stop (List.all_eq_true.mp blank) bar _
  have next : (after ++ rest).takeWhile isBlank = after := by
    rw [List.takeWhile_append_of_pos (List.all_eq_true.mp too)]
    cases rest with
    | nil => simp
    | cons c rest => rw [List.takeWhile_cons_of_neg (by simp [flush c rfl]), List.append_nil]
  simp only [pipeSeparator, start, List.drop_left, next]
  simp [nonempty, also]
  omega

theorem pipeSeparator_ne_zero {before : Text} (nonempty : before ≠ []) (blank : before.all isBlank = true) {c : Char}
    (also : isBlank c = true) (rest : Text) : pipeSeparator (before ++ '|' :: c :: rest) ≠ 0 := by
  have bar : isBlank '|' = false := by decide
  have start : (before ++ '|' :: c :: rest).takeWhile isBlank = before :=
    takeWhile_append_of_stop (List.all_eq_true.mp blank) bar _
  simp only [pipeSeparator, start, List.drop_left, List.takeWhile_cons_of_pos also]
  simp [nonempty]

theorem exists_of_pipeSeparator {text : Text} (separated : pipeSeparator text ≠ 0) :
    ∃ before after rest, text = before ++ '|' :: (after ++ rest) ∧ before ≠ [] ∧ after ≠ [] ∧ before.all isBlank = true ∧
      after.all isBlank = true ∧ ∀ c ∈ rest.head?, isBlank c = false := by
  have front := List.takeWhile_append_dropWhile (p := isBlank) (l := text)
  simp only [pipeSeparator, drop_length_takeWhile] at separated
  split at separated
  next rest same =>
    rw [same] at front
    split at separated
    next => exact absurd rfl separated
    next present =>
      simp only [Bool.or_eq_true, decide_eq_true_eq, List.length_eq_zero_iff, not_or] at present
      refine ⟨text.takeWhile isBlank, rest.takeWhile isBlank, rest.dropWhile isBlank, ?_, present.1, present.2,
        List.all_takeWhile, List.all_takeWhile, fun c head => ?_⟩
      · rw [List.takeWhile_append_dropWhile]
        exact front.symm
      · have flush := List.head?_dropWhile_not isBlank rest
        rw [Option.mem_def.mp head] at flush
        simpa using flush
  next => exact absurd rfl separated

theorem exists_blank_of_pipeSeparator {text : Text} (separated : pipeSeparator text ≠ 0) :
    ∃ before c rest, text = before ++ '|' :: c :: rest ∧ before ≠ [] ∧ before.all isBlank = true ∧ isBlank c = true := by
  obtain ⟨before, after, rest, rfl, present, also, blank, too, _⟩ := exists_of_pipeSeparator separated
  obtain ⟨c, after, rfl⟩ := List.exists_cons_of_ne_nil also
  exact ⟨before, c, after ++ rest, rfl, present, blank, (Bool.and_eq_true_iff.mp too).1⟩

theorem isSeparator_pipe {before after : Text} (nonempty : before ≠ []) (also : after ≠ []) (blank : before.all isBlank = true)
    (too : after.all isBlank = true) : IsSeparator pipeSeparator (before ++ '|' :: after) where
  whole := by
    have whole : pipeSeparator (before ++ '|' :: (after ++ [])) = (before ++ '|' :: after).length :=
      pipeSeparator_eq nonempty also blank too (by simp)
    rwa [List.append_nil] at whole
  unquoted := unquoted_append.mpr ⟨unquoted_of_blank blank, List.forall_mem_cons.mpr ⟨by decide, unquoted_of_blank too⟩⟩
  closes := by
    obtain ⟨front, c, rfl⟩ := (List.eq_nil_or_concat after).resolve_left also
    exact ⟨before ++ '|' :: front, c, by simp, List.all_eq_true.mp too c (by simp)⟩

/-- A pipe behind blanks stands in the text itself if the text does not end in a blank. -/
theorem exists_append_of_pipe {text before tail more : Text} (ends : ∃ front c, text = front ++ [c] ∧ isBlank c = false)
    (blank : before.all isBlank = true) (same : text ++ tail = before ++ '|' :: more) :
    ∃ later, text = before ++ '|' :: later := by
  obtain ⟨front, d, rfl, solid⟩ := ends
  have outside : d ∉ before := fun inside => by
    rw [List.all_eq_true.mp blank d inside] at solid
    cases solid
  rcases List.append_eq_append_iff.mp same with ⟨further, split, _⟩ | ⟨further, split, last⟩
  · exact absurd (by rw [split]; simp) outside
  · cases further with
    | nil => exact absurd (by rw [← List.append_nil before, ← split]; simp) outside
    | cons e further =>
      obtain rfl : '|' = e := (List.cons.inj last).1
      exact ⟨further, split⟩

/-- A pipe that separates has a blank before it, so blanks go on up to it. -/
theorem exists_blank_of_blanks {blanks stop : Text} (blank : blanks.all isBlank = true) (separated : pipeSeparator stop ≠ 0) :
    ∃ c more, blanks ++ stop = c :: more ∧ isBlank c = true := by
  cases blanks with
  | cons c blanks => exact ⟨c, _, rfl, (Bool.and_eq_true_iff.mp blank).1⟩
  | nil =>
    obtain ⟨front, e, more, rfl, present, first, _⟩ := exists_blank_of_pipeSeparator separated
    obtain ⟨c, front, rfl⟩ := List.exists_cons_of_ne_nil present
    exact ⟨c, _, rfl, (Bool.and_eq_true_iff.mp first).1⟩

theorem separates_pipe : Separates pipeSeparator " | " where
  usually := @isSeparator_pipe " " " " (by decide) (by decide) (by decide) (by decide)
  starts tight := pipeSeparator_blanks (by decide) (by decide) tight
  found separated := by
    obtain ⟨before, after, rest, rfl, present, also, blank, too, flush⟩ := exists_of_pipeSeparator separated
    exact ⟨before ++ '|' :: after, rest, by simp, pipeSeparator_eq present also blank too flush,
      isSeparator_pipe present also blank too⟩
  shortened nowhere := by
    by_contra separated
    obtain ⟨before, c, more, rfl, present, blank, also⟩ := exists_blank_of_pipeSeparator separated
    exact absurd nowhere (by simpa using pipeSeparator_ne_zero present blank also _)
  exchanged {text blanks stop} ends blanked starts nowhere other := by
    by_contra separated
    obtain ⟨before, c, rest, same, present, blank, also⟩ := exists_blank_of_pipeSeparator separated
    obtain ⟨later, rfl⟩ := exists_append_of_pipe ends blank same
    -- The pipe was not seen before, so no blank followed it then; but one did.
    have follows : ∃ e more, later ++ (blanks ++ stop) = e :: more ∧ isBlank e = true := by
      cases later with
      | cons e later =>
        obtain ⟨rfl, _⟩ : e = c ∧ _ := by simpa using same
        exact ⟨e, _, rfl, also⟩
      | nil =>
        rw [List.nil_append]
        exact exists_blank_of_blanks blanked starts
    obtain ⟨e, more, start, first⟩ := follows
    refine pipeSeparator_ne_zero present blank first more ?_
    rw [← start]
    simpa using nowhere

/-! ### Pieces -/

/-- No separator begins outside quotes in a piece that some text follows. -/
def Uncut (separator : Separator) : QuoteState → Text → Text → Prop
  | _, [], _ => True
  | state, c :: piece, rest =>
    (state.span = none → separator (c :: (piece ++ rest)) = 0) ∧ Uncut separator (state.step c) piece rest

section
variable {separator : Separator} {state : QuoteState}

theorem uncut_append {piece more rest : Text} : Uncut separator state (piece ++ more) rest ↔
    Uncut separator state piece (more ++ rest) ∧ Uncut separator (state.through piece) more rest := by
  induction piece generalizing state with
  | nil => exact (true_and _).symm ▸ Iff.rfl
  | cons c piece ih => simp only [List.cons_append, Uncut, ih, List.append_assoc, and_assoc, QuoteState.through_cons]

theorem Uncut.exchange {piece rest other : Text} (uncut : Uncut separator state piece rest)
    (exchange : ∀ front back, back ≠ [] → piece = front ++ back → separator (back ++ rest) = 0 → separator (back ++ other) = 0) :
    Uncut separator state piece other := by
  induction piece generalizing state with
  | nil => trivial
  | cons c piece ih =>
    refine ⟨fun closed => exchange [] (c :: piece) (List.cons_ne_nil c piece) rfl (uncut.1 closed), ?_⟩
    refine ih uncut.2 fun front back nonempty same => exchange (c :: front) back nonempty ?_
    rw [same, List.cons_append]

theorem uncut_of_passes {piece rest : Text} (passes : Passes separator piece rest) : Uncut separator state piece rest := by
  induction piece generalizing state with
  | nil => trivial
  | cons c piece ih => exact ⟨fun _ => passes.1, ih passes.2⟩

theorem uncut_inside {quote : Char} (opened : state.span = some quote) {piece : Text} (absent : quote ∉ piece)
    (rest : Text) : Uncut separator state piece rest := by
  induction piece generalizing state with
  | nil => trivial
  | cons c piece ih =>
    obtain ⟨other, later⟩ := List.ne_and_not_mem_of_not_mem_cons absent
    refine ⟨fun closed => ?_, ih (QuoteState.step_inside opened (Ne.symm other)) later⟩
    rw [opened] at closed
    cases closed

end

/-! ### Cutting -/

/-- The parts of a text that is read on from a state. -/
def cutFrom (separator : Separator) (state : QuoteState) (text : Text) : List Text :=
  cutUnquoted separator 0 false text (state.mask text)

section
variable {separator : Separator} {usual : Text} (separates : Separates separator usual)
include separates

theorem separator_quote {c : Char} (quote : isQuoteMark c = true) (rest : Text) : separator (c :: rest) = 0 := by
  by_contra separated
  obtain ⟨between, more, same, _, isSeparator⟩ := separates.found separated
  obtain ⟨d, front, rfl⟩ := List.exists_cons_of_ne_nil isSeparator.ne_nil
  obtain ⟨rfl, _⟩ := List.cons.inj same
  rw [(List.forall_mem_cons.mp isSeparator.unquoted).1] at quote
  cases quote

theorem unquoted_take (text : Text) : Unquoted (text.take (separator text)) := by
  by_cases nowhere : separator text = 0
  · rw [nowhere]
    exact List.forall_mem_nil _
  · obtain ⟨between, rest, same, starts, isSeparator⟩ := separates.found nowhere
    rw [starts, same, List.take_left]
    exact isSeparator.unquoted

/-- A separator inside quotes ends inside them, so it makes no difference that it is passed over as a whole. -/
theorem cutUnquoted_inside {state : QuoteState} (opened : state.span ≠ none) {left : Nat} {text : Text}
    (unquoted : Unquoted (text.take left)) : cutUnquoted separator left false text (state.mask text) =
      cutUnquoted separator 0 false text (state.mask text) := by
  induction text generalizing state left with
  | nil => rfl
  | cons c rest ih =>
    cases left with
    | zero => rfl
    | succ left =>
      obtain ⟨plain, others⟩ := List.forall_mem_cons.mp unquoted
      have inside : (state.step c).span ≠ none := by rwa [QuoteState.step_span plain]
      have quoted : (state.span.isSome || (state.step c).span.isSome) = true := by
        simp [Option.isSome_iff_ne_none.mpr opened]
      rw [QuoteState.mask, quoted, cutUnquoted, cutUnquoted]
      cases starts : separator (c :: rest) with
      | zero => simp only [ih inside others, Bool.false_eq_true, if_false]
      | succ length =>
        have whole := unquoted_take separates (c :: rest)
        rw [starts] at whole
        simp only [ih inside others, ih inside (List.forall_mem_cons.mp whole).2, Bool.false_eq_true, if_false, if_true]

theorem cutFrom_cons {state : QuoteState} {c : Char} {rest first : Text} {parts : List Text}
    (uncut : state.span = none → separator (c :: rest) = 0) (cut : cutFrom separator (state.step c) rest = first :: parts) :
    cutFrom separator state (c :: rest) = (c :: first) :: parts := by
  unfold cutFrom at cut ⊢
  rw [QuoteState.mask, cutUnquoted]
  cases starts : separator (c :: rest) with
  | zero =>
    simp only [cut]
    rfl
  | succ length =>
    have opened : state.span ≠ none := fun closed => by
      rw [uncut closed] at starts
      cases starts
    have whole := unquoted_take separates (c :: rest)
    rw [starts] at whole
    obtain ⟨plain, others⟩ := List.forall_mem_cons.mp whole
    have inside : (state.step c).span ≠ none := by rwa [QuoteState.step_span plain]
    have quoted : (state.span.isSome || (state.step c).span.isSome) = true := by
      simp [Option.isSome_iff_ne_none.mpr opened]
    simp only [quoted, if_true, cutUnquoted_inside separates inside others, cut]
    rfl

theorem cutFrom_uncut {state : QuoteState} {piece rest first : Text} {parts : List Text} (uncut : Uncut separator state piece rest)
    (cut : cutFrom separator (state.through piece) rest = first :: parts) :
    cutFrom separator state (piece ++ rest) = (piece ++ first) :: parts := by
  induction piece generalizing state with
  | nil => exact cut
  | cons c piece ih => exact cutFrom_cons separates uncut.1 (ih uncut.2 cut)

theorem cutFrom_alone {state : QuoteState} {piece : Text} (uncut : Uncut separator state piece []) :
    cutFrom separator state piece = [piece] := by
  have nothing : cutFrom separator (state.through piece) [] = [[]] := rfl
  have whole := cutFrom_uncut separates uncut nothing
  rwa [List.append_nil] at whole

omit separates in
/-- Behind a separator a text is read as if it stood alone. -/
theorem cutFrom_separator {state : QuoteState} (closed : state.span = none) {between rest : Text}
    (isSeparator : IsSeparator separator between) (starts : separator (between ++ rest) = between.length) :
    cutFrom separator state (between ++ rest) = [] :: cutFrom separator .start rest := by
  have behind : state.through between = .start := by
    obtain ⟨front, c, rfl, blank⟩ := isSeparator.closes
    refine QuoteState.through_concat_blank blank ?_
    rw [QuoteState.through_span (unquoted_append.mp isSeparator.unquoted).1, closed]
  obtain ⟨c, more, rfl⟩ := List.exists_cons_of_ne_nil isSeparator.ne_nil
  have plain := (List.forall_mem_cons.mp isSeparator.unquoted).1
  have unquoted : (state.span.isSome || (state.step c).span.isSome) = false := by
    rw [QuoteState.step_span plain, closed]
    rfl
  have dropped := cutUnquoted_dropped separator more rest ((state.step c).mask more) (QuoteState.start.mask rest)
    ((state.step c).length_mask more)
  have masked : (state.step c).mask (more ++ rest) = (state.step c).mask more ++ QuoteState.start.mask rest := by
    rw [QuoteState.mask_append, ← behind]
    rfl
  rw [List.cons_append, List.length_cons] at starts
  unfold cutFrom
  rw [List.cons_append, QuoteState.mask, cutUnquoted]
  simp only [starts, unquoted, masked, dropped]
  rfl

end

/-! ### Coming apart -/

/-- How a text comes apart: pieces without separators outside of quotes, and separators between them. A piece that a
separator follows has closed its quotes. -/
inductive ComesApart (separator : Separator) : Text → List Text → Prop
  | last {piece : Text} (uncut : Uncut separator .start piece []) : ComesApart separator piece [piece]
  | cons {piece between rest : Text} {pieces : List Text} (uncut : Uncut separator .start piece (between ++ rest))
      (closed : ClosesQuotes piece) (isSeparator : IsSeparator separator between)
      (starts : separator (between ++ rest) = between.length) (later : ComesApart separator rest pieces) :
      ComesApart separator (piece ++ (between ++ rest)) (piece :: pieces)

theorem kept_cons (piece : Text) (pieces : List Text) :
    kept (piece :: pieces) = if strip piece = [] then kept pieces else strip piece :: kept pieces := by
  by_cases empty : strip piece = []
  · simp [kept, empty]
  · simp [kept, empty]

theorem isTight_of_mem_kept {pieces : List Text} {part : Text} (member : part ∈ kept pieces) : IsTight part := by
  obtain ⟨inside, present⟩ := List.mem_filter.mp member
  obtain ⟨piece, _, rfl⟩ := List.mem_map.mp inside
  exact isTight_strip (by simpa using present)

section
variable {separator : Separator} {usual : Text} (separates : Separates separator usual)
include separates

theorem ComesApart.cut_eq {text : Text} {pieces : List Text} (apart : ComesApart separator text pieces) :
    cutFrom separator .start text = pieces := by
  induction apart with
  | last uncut => exact cutFrom_alone separates uncut
  | cons uncut closed isSeparator starts later ih =>
    have cut := cutFrom_uncut separates uncut (cutFrom_separator closed isSeparator starts)
    rwa [List.append_nil, ih] at cut

theorem ComesApart.splitUnquoted_eq {text : Text} {pieces : List Text} (apart : ComesApart separator text pieces) :
    splitUnquoted separator text = kept pieces := by
  rw [splitUnquoted, quoteMask_eq, ← apart.cut_eq separates]
  rfl

/-- A text is one piece, or a first separator stands in it outside quotes. -/
theorem uncut_or_exists_separator (state : QuoteState) (text : Text) : Uncut separator state text [] ∨
    ∃ piece between rest, text = piece ++ (between ++ rest) ∧ Uncut separator state piece (between ++ rest) ∧
      (state.through piece).span = none ∧ IsSeparator separator between ∧ separator (between ++ rest) = between.length := by
  induction text generalizing state with
  | nil => exact Or.inl trivial
  | cons c text ih =>
    by_cases here : state.span = none ∧ separator (c :: text) ≠ 0
    · obtain ⟨between, rest, same, starts, isSeparator⟩ := separates.found here.2
      exact Or.inr ⟨[], between, rest, same, trivial, here.1, isSeparator, same ▸ starts⟩
    · have first : state.span = none → separator (c :: text) = 0 := fun closed =>
        not_not.mp fun separated => here ⟨closed, separated⟩
      rcases ih (state.step c) with whole | ⟨piece, between, rest, rfl, uncut, closed, isSeparator, starts⟩
      · exact Or.inl ⟨by rwa [List.append_nil], whole⟩
      · exact Or.inr ⟨c :: piece, between, rest, rfl, ⟨first, uncut⟩, closed, isSeparator, starts⟩

theorem exists_comesApart (text : Text) : ∃ pieces, ComesApart separator text pieces := by
  rcases uncut_or_exists_separator separates .start text with whole | ⟨piece, between, rest, rfl, uncut, closed, isSeparator, starts⟩
  · exact ⟨[text], .last whole⟩
  · have shorter : rest.length < (piece ++ (between ++ rest)).length := by
      have positive := List.length_pos_iff.mpr isSeparator.ne_nil
      simp only [List.length_append]
      omega
    obtain ⟨pieces, later⟩ := exists_comesApart rest
    exact ⟨piece :: pieces, .cons uncut closed isSeparator starts later⟩
termination_by text.length

theorem splitUnquoted_uncut {text : Text} (tight : IsTight text) (uncut : Uncut separator .start text []) :
    splitUnquoted separator text = [text] := by
  rw [(ComesApart.last uncut).splitUnquoted_eq separates]
  exact kept_eq_self (List.forall_mem_singleton.mpr tight)

/-! ### Stripped pieces -/

omit separates in
/-- Blanks in front of a piece change nothing for the rest of it. -/
theorem Uncut.strip_append {piece rest : Text} (uncut : Uncut separator .start piece rest) :
    ∃ after, after.all isBlank = true ∧ Uncut separator .start (strip piece) (after ++ rest) := by
  obtain ⟨before, after, blank, also, same⟩ := exists_strip_append piece
  refine ⟨after, also, ?_⟩
  rw [same] at uncut
  have behind := (uncut_append.mp uncut).2
  rw [QuoteState.through_blanks blank] at behind
  exact (uncut_append.mp behind).1

theorem Uncut.strip_alone {piece rest : Text} (uncut : Uncut separator .start piece rest) :
    Uncut separator .start (strip piece) [] := by
  obtain ⟨after, _, stripped⟩ := uncut.strip_append
  refine stripped.exchange fun front back _ _ nowhere => ?_
  rw [List.append_nil]
  exact separates.shortened nowhere

/-- The usual separator may stand behind a stripped piece in place of any other. -/
theorem Uncut.strip_usual {piece between rest : Text} (present : strip piece ≠ [])
    (uncut : Uncut separator .start piece (between ++ rest)) (isSeparator : IsSeparator separator between)
    (starts : separator (between ++ rest) = between.length) (other : Text) :
    Uncut separator .start (strip piece) (usual ++ other) := by
  obtain ⟨after, blank, stripped⟩ := uncut.strip_append
  refine stripped.exchange fun front back nonempty same nowhere => ?_
  have ends : ∃ front c, back = front ++ [c] ∧ isBlank c = false := by
    have solid := (isTight_strip present).getLast?_solid
    rw [same, List.getLast?_append_of_ne_nil _ nonempty, List.getLast?_eq_some_getLast nonempty] at solid
    exact ⟨_, _, (List.dropLast_append_getLast nonempty).symm, solid _ rfl⟩
  have stops : separator (between ++ rest) ≠ 0 := by
    rw [starts]
    exact (List.length_pos_iff.mpr isSeparator.ne_nil).ne'
  exact separates.exchanged ends blank stops nowhere other

omit separates in
theorem ClosesQuotes.strip {piece : Text} (closed : ClosesQuotes piece) : ClosesQuotes (strip piece) := by
  obtain ⟨before, after, blank, also, same⟩ := exists_strip_append piece
  unfold ClosesQuotes at closed ⊢
  rwa [same, QuoteState.through_append, QuoteState.through_blanks blank, QuoteState.through_append,
    QuoteState.through_span (unquoted_of_blank also)] at closed

/-! ### Parts and what stands between them -/

/-- Nothing but separators and blanks. -/
inductive IsFiller (separator : Separator) : Text → Prop
  | nil : IsFiller separator []
  | blank {c : Char} {rest : Text} (blank : isBlank c = true) (later : IsFiller separator rest) : IsFiller separator (c :: rest)
  | separator {between rest : Text} (nonempty : between ≠ []) (whole : separator between = between.length)
      (later : IsFiller separator rest) : IsFiller separator (between ++ rest)

/-- Parts that stand in a text one after another, with no blanks around them and nothing but filler between them. -/
inductive Partitions (separator : Separator) : Text → List Text → Prop
  | nil {filler : Text} (isFiller : IsFiller separator filler) : Partitions separator filler []
  | cons {filler part rest : Text} {parts : List Text} (isFiller : IsFiller separator filler) (tight : IsTight part)
      (later : Partitions separator rest parts) : Partitions separator (filler ++ (part ++ rest)) (part :: parts)

omit separates in
theorem IsFiller.of_blank {blanks : Text} (blank : blanks.all isBlank = true) : IsFiller separator blanks := by
  induction blanks with
  | nil => exact .nil
  | cons c rest ih =>
    obtain ⟨first, others⟩ := Bool.and_eq_true_iff.mp blank
    exact .blank first (ih others)

omit separates in
theorem IsFiller.append {filler other : Text} (isFiller : IsFiller separator filler) (also : IsFiller separator other) :
    IsFiller separator (filler ++ other) := by
  induction isFiller with
  | nil => exact also
  | blank blank _ ih => exact .blank blank ih
  | separator nonempty whole _ ih =>
    rw [List.append_assoc]
    exact .separator nonempty whole ih

omit separates in
theorem Partitions.fill {filler text : Text} {parts : List Text} (isFiller : IsFiller separator filler)
    (partitions : Partitions separator text parts) : Partitions separator (filler ++ text) parts := by
  cases partitions with
  | nil also => exact .nil (isFiller.append also)
  | cons also tight later =>
    rw [← List.append_assoc]
    exact .cons (isFiller.append also) tight later

omit separates in
theorem Partitions.piece {piece rest : Text} {pieces : List Text} (partitions : Partitions separator rest (kept pieces)) :
    Partitions separator (piece ++ rest) (kept (piece :: pieces)) := by
  obtain ⟨before, after, blank, also, same⟩ := exists_strip_append piece
  have behind := Partitions.fill (.of_blank also) partitions
  rw [kept_cons]
  split
  next empty =>
    rw [empty, List.nil_append] at same
    rw [same, List.append_assoc]
    exact behind.fill (.of_blank blank)
  next present =>
    have placed : piece ++ rest = before ++ (strip piece ++ (after ++ rest)) := by
      conv_lhs => rw [same]
      simp only [List.append_assoc]
    rw [placed]
    exact .cons (.of_blank blank) (isTight_strip present) behind

omit separates in
theorem ComesApart.partitions {text : Text} {pieces : List Text} (apart : ComesApart separator text pieces) :
    Partitions separator text (kept pieces) := by
  induction apart with
  | @last piece _ =>
    have nothing : Partitions separator [] (kept []) := .nil .nil
    have whole : Partitions separator (piece ++ []) (kept [piece]) := nothing.piece
    rwa [List.append_nil] at whole
  | cons _ _ isSeparator _ _ ih =>
    have between := IsFiller.separator isSeparator.ne_nil isSeparator.whole .nil
    rw [List.append_nil] at between
    exact (ih.fill between).piece

theorem ComesApart.alone {text : Text} {pieces : List Text} (apart : ComesApart separator text pieces) :
    ∀ part ∈ kept pieces, splitUnquoted separator part = [part] := by
  have each : ∀ piece ∈ pieces, Uncut separator .start (strip piece) [] := by
    induction apart with
    | last uncut => exact List.forall_mem_singleton.mpr (uncut.strip_alone separates)
    | cons uncut _ _ _ _ ih => exact List.forall_mem_cons.mpr ⟨uncut.strip_alone separates, ih⟩
  intro part member
  have tight := isTight_of_mem_kept member
  obtain ⟨piece, inside, rfl⟩ := List.mem_map.mp (List.mem_filter.mp member).1
  exact splitUnquoted_uncut separates tight (each piece inside)

/-- Parts that are put together again come apart as before. -/
theorem ComesApart.rejoined {text : Text} {pieces : List Text} (apart : ComesApart separator text pieces)
    (nonempty : kept pieces ≠ []) : ComesApart separator (join usual (kept pieces)) (kept pieces) := by
  induction apart with
  | last uncut =>
    rw [kept_cons] at nonempty ⊢
    split at nonempty
    next => exact absurd rfl nonempty
    next present =>
      rw [if_neg present]
      change ComesApart separator (join usual [_]) [_]
      rw [join_singleton]
      exact .last (uncut.strip_alone separates)
  | @cons piece between rest pieces uncut closed isSeparator starts later ih =>
    rw [kept_cons] at nonempty ⊢
    split at nonempty
    next empty =>
      rw [if_pos empty]
      exact ih nonempty
    next present =>
      rw [if_neg present]
      cases others : kept pieces with
      | nil =>
        rw [join_singleton]
        exact .last (uncut.strip_alone separates)
      | cons next more =>
        have tight : IsTight (join usual (next :: more)) :=
          IsTight.join (List.cons_ne_nil next more) fun part member => isTight_of_mem_kept (others ▸ member)
        rw [others] at ih
        rw [join_cons_cons, List.append_assoc]
        exact .cons (uncut.strip_usual separates present isSeparator starts _) closed.strip separates.usually
          (separates.starts tight) (ih (List.cons_ne_nil next more))

end

/-- What splitting makes of a text. The parts stand in it with nothing but separators and blanks around them, none of them
can be split, and put together with a separator they are split as before. -/
structure IsStable (separator : Separator) (usual text : Text) : Prop where
  partition : Partitions separator text (splitUnquoted separator text)
  alone : ∀ part ∈ splitUnquoted separator text, splitUnquoted separator part = [part]
  rejoined : splitUnquoted separator (join usual (splitUnquoted separator text)) = splitUnquoted separator text

theorem Separates.isStable {separator : Separator} {usual : Text} (separates : Separates separator usual) (text : Text) :
    IsStable separator usual text := by
  obtain ⟨pieces, apart⟩ := exists_comesApart separates text
  have split := apart.splitUnquoted_eq separates
  refine ⟨split ▸ apart.partitions, split ▸ apart.alone separates, ?_⟩
  rw [split]
  by_cases empty : kept pieces = []
  · rw [empty]
    rfl
  · rw [(apart.rejoined separates empty).splitUnquoted_eq separates]
    exact kept_eq_self fun part => isTight_of_mem_kept

/-- Splitting at commas and splitting at pipes are stable for every text, whatever quotes it opens. -/
theorem splitting_is_stable (text : Text) : IsStable commaSeparator ", " text ∧ IsStable pipeSeparator " | " text :=
  ⟨separates_comma.isStable text, separates_pipe.isStable text⟩

end Link
end Bindery
