import Bindery.Proofs.UnquotedCuts

/-! Reading past quotes. What matters of the text before a character is only whether a quote is still open and whether
one may be opened; from that state the rest of a text is masked, cut and searched for pipes. -/

namespace Bindery.Link
open Text Identifier

def nextSpan (span : Option Char) (opens : Bool) (c : Char) : Option Char :=
  match span with
  | some quote => if c = quote then none else some quote
  | none => if isQuoteMark c && opens then some c else none

theorem isQuoteMark_of_nextSpan {span : Option Char} (marked : ∀ quote ∈ span, isQuoteMark quote = true) (opens : Bool)
    (c : Char) : ∀ quote ∈ nextSpan span opens c, isQuoteMark quote = true := by
  intro quote next
  cases span with
  | some other =>
    obtain ⟨_, same⟩ := Option.ite_none_left_eq_some.mp next
    exact marked quote same
  | none =>
    obtain ⟨starts, same⟩ := Option.ite_none_right_eq_some.mp next
    obtain rfl := Option.some.inj same
    exact (Bool.and_eq_true_iff.mp starts).1

/-- The quote that is open, if one is, and whether a quote would open a span here. -/
@[ext]
structure QuoteState where
  span : Option Char
  opens : Bool
  marked : ∀ quote ∈ span, isQuoteMark quote = true

namespace QuoteState

def start : QuoteState where
  span := none
  opens := true
  marked := nofun

variable (state : QuoteState)

def step (c : Char) : QuoteState where
  span := nextSpan state.span state.opens c
  opens := opensToken (some c)
  marked := isQuoteMark_of_nextSpan state.marked state.opens c

def through (text : Text) : QuoteState :=
  text.foldl step state

def mask (state : QuoteState) : Text → List Bool
  | [] => []
  | c :: rest => (state.span.isSome || (state.step c).span.isSome) :: (state.step c).mask rest

theorem through_cons (c : Char) (rest : Text) : state.through (c :: rest) = (state.step c).through rest :=
  rfl

theorem through_append (text rest : Text) : state.through (text ++ rest) = (state.through text).through rest :=
  List.foldl_append

theorem length_mask (text : Text) : (state.mask text).length = text.length := by
  induction text generalizing state with
  | nil => rfl
  | cons c rest ih => rw [mask, List.length_cons, List.length_cons, ih]

theorem mask_append (text rest : Text) : state.mask (text ++ rest) = state.mask text ++ (state.through text).mask rest := by
  induction text generalizing state with
  | nil => rfl
  | cons c text ih => rw [List.cons_append, mask, mask, ih, List.cons_append, through_cons]

variable {state}

theorem quoteMaskFrom_eq {previous : Option Char} (same : opensToken previous = state.opens) (text : Text) :
    quoteMaskFrom state.span previous text = state.mask text := by
  induction text generalizing state previous with
  | nil => rfl
  | cons c rest ih =>
    have later : quoteMaskFrom (nextSpan state.span state.opens c) (some c) rest = (state.step c).mask rest :=
      @ih (state.step c) (some c) rfl
    rw [mask, ← later]
    change _ = (state.span.isSome || (nextSpan state.span state.opens c).isSome) :: _
    cases state.span with
    | some quote => rfl
    | none =>
      have mark : (decide (c = '\x22') || decide (c = '\x27')) = isQuoteMark c := Bool.or_comm _ _
      rw [quoteMaskFrom, mark, same]
      by_cases opened : (isQuoteMark c && state.opens) = true
      · simp [nextSpan, opened]
      · simp [nextSpan, opened]

/-! ### Characters that are no quotes -/

theorem step_span {c : Char} (plain : isQuoteMark c = false) : (state.step c).span = state.span := by
  change nextSpan state.span state.opens c = state.span
  unfold nextSpan
  cases known : state.span with
  | none => simp [plain]
  | some quote =>
    have other : c ≠ quote := by
      rintro rfl
      rw [state.marked c known] at plain
      cases plain
    simp [other]

theorem through_span {text : Text} (unquoted : Unquoted text) : (state.through text).span = state.span := by
  induction text generalizing state with
  | nil => rfl
  | cons c rest ih =>
    obtain ⟨plain, others⟩ := List.forall_mem_cons.mp unquoted
    rw [through_cons, ih others, step_span plain]

/-- Behind a blank a text is read as if it stood alone, unless a quote is open. -/
theorem step_blank {c : Char} (blank : isBlank c = true) (closed : state.span = none) : state.step c = start := by
  refine QuoteState.ext ?_ ?_
  · rw [step_span (isQuoteMark_of_isBlank blank), closed]
    rfl
  · change (isBlank c || c = '|' || c = ',') = true
    rw [blank, Bool.true_or, Bool.true_or]

theorem through_concat_blank {text : Text} {c : Char} (blank : isBlank c = true)
    (closed : (state.through text).span = none) : state.through (text ++ [c]) = start := by
  rw [through_append]
  exact step_blank blank closed

theorem through_blanks {blanks : Text} (blank : blanks.all isBlank = true) : start.through blanks = start := by
  induction blanks with
  | nil => rfl
  | cons c rest ih =>
    obtain ⟨first, others⟩ := Bool.and_eq_true_iff.mp blank
    rw [through_cons, step_blank first rfl, ih others]

/-! ### Inside quotes -/

section
variable {quote : Char} (opened : state.span = some quote)
include opened

theorem step_inside {c : Char} (other : c ≠ quote) : (state.step c).span = some quote := by
  simp [step, nextSpan, opened, other]

theorem through_inside {text : Text} (absent : quote ∉ text) : (state.through text).span = some quote := by
  induction text generalizing state with
  | nil => exact opened
  | cons c rest ih =>
    obtain ⟨other, later⟩ := List.ne_and_not_mem_of_not_mem_cons absent
    exact ih (step_inside opened (Ne.symm other)) later

end

end QuoteState

theorem quoteMask_eq (text : Text) : quoteMask text = QuoteState.start.mask text :=
  @QuoteState.quoteMaskFrom_eq .start none rfl text

/-- Every quote that a text opens it closes as well. -/
def ClosesQuotes (text : Text) : Prop :=
  (QuoteState.start.through text).span = none

instance (text : Text) : Decidable (ClosesQuotes text) :=
  inferInstanceAs (Decidable (_ = none))

/-! ### The last pipe -/

section
variable {state : QuoteState}

/-- The last pipe of a text is the last one of its end, if there is any. -/
theorem cutLastPipe_mask_append (text : Text) {rest before after : Text}
    (found : cutLastPipe rest ((state.through text).mask rest) = some (before, after)) :
    cutLastPipe (text ++ rest) (state.mask (text ++ rest)) = some (text ++ before, after) := by
  induction text generalizing state with
  | nil => exact found
  | cons c text ih =>
    rw [List.cons_append, QuoteState.mask, cutLastPipe, ih found]
    rfl

theorem cutLastPipe_mask_of_absent {rest : Text} (absent : '|' ∉ rest) (text : Text)
    (nothing : cutLastPipe text (state.mask text) = none) :
    cutLastPipe (text ++ rest) (state.mask (text ++ rest)) = none := by
  induction text generalizing state with
  | nil => exact cutLastPipe_eq_none absent _
  | cons c text ih =>
    rw [QuoteState.mask, cutLastPipe] at nothing
    rw [List.cons_append, QuoteState.mask, cutLastPipe]
    cases earlier : cutLastPipe text ((state.step c).mask text) with
    | some split => simp [earlier] at nothing
    | none =>
      rw [ih earlier]
      simpa [earlier] using nothing

theorem cutLastPipe_mask_inside {quote : Char} (opened : state.span = some quote) {text : Text} (absent : quote ∉ text) :
    cutLastPipe text (state.mask text) = none := by
  induction text generalizing state with
  | nil => rfl
  | cons c rest ih =>
    obtain ⟨other, later⟩ := List.ne_and_not_mem_of_not_mem_cons absent
    rw [QuoteState.mask, cutLastPipe, ih (QuoteState.step_inside opened (Ne.symm other)) later]
    simp [opened]

end

/-- A pipe behind closed quotes separates. -/
theorem splitLastPipe?_closed {before after : Text} {left : Char} (blank : isBlank left = true) (closed : ClosesQuotes before)
    (absent : '|' ∉ after) : splitLastPipe? (before ++ left :: '|' :: after) = some (before ++ [left], after) := by
  have state : QuoteState.start.through (before ++ [left]) = .start := QuoteState.through_concat_blank blank closed
  have alone : cutLastPipe ('|' :: after) ((QuoteState.start.through (before ++ [left])).mask ('|' :: after)) =
      some ([], after) := by
    rw [state, QuoteState.mask, cutLastPipe, cutLastPipe_eq_none absent]
    rfl
  have found := cutLastPipe_mask_append (before ++ [left]) alone
  rw [splitLastPipe?, quoteMask_eq, List.append_cons]
  rwa [List.append_nil] at found

end Bindery.Link
