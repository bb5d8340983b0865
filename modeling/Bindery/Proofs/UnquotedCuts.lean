import Bindery.Identifier.Basic
import Bindery.Link.Quoting
import Bindery.Proofs.Tokens

/-! Texts without quotes, cut at separators. A piece is passed over if a separator starts nowhere in it, whatever
comes after it; pieces that are put together with separators between them come apart again. -/

namespace Bindery.Link
open Text Identifier

def Unquoted (text : Text) : Prop :=
  ∀ c ∈ text, isQuoteMark c = false

theorem quoteMaskFrom_of_unquoted {text : Text} (unquoted : Unquoted text) (previous : Option Char) :
    quoteMaskFrom none previous text = List.replicate text.length false := by
  induction text generalizing previous with
  | nil => rfl
  | cons c rest ih =>
    obtain ⟨first, others⟩ := List.forall_mem_cons.mp unquoted
    have plain : ((c = '\x22' || c = '\x27') && opensToken previous) = false := by
      simp only [isQuoteMark, Bool.or_eq_false_iff, decide_eq_false_iff_not] at first
      simp [first]
    rw [quoteMaskFrom, plain, List.length_cons, List.replicate_succ, ih others]
    rfl

theorem quoteMask_of_unquoted {text : Text} (unquoted : Unquoted text) :
    quoteMask text = List.replicate text.length false :=
  quoteMaskFrom_of_unquoted unquoted none

theorem unquoted_append {text other : Text} : Unquoted (text ++ other) ↔ Unquoted text ∧ Unquoted other :=
  List.forall_mem_append

theorem unquoted_join {separator : Text} {parts : List Text} (between : Unquoted separator)
    (unquoted : ∀ part ∈ parts, Unquoted part) : Unquoted (join separator parts) := by
  intro c inside
  rcases mem_join inside with here | ⟨part, member, found⟩
  · exact between c here
  · exact unquoted part member c found

instance (text : Text) : Decidable (Unquoted text) :=
  List.decidableBAll (isQuoteMark · = false) text

theorem isQuoteMark_of_isBlank {c : Char} (blank : isBlank c = true) : isQuoteMark c = false := by
  by_contra quote
  have mark : c = '\x27' ∨ c = '\x22' := by simpa [isQuoteMark, or_iff_not_imp_left] using quote
  rcases mark with rfl | rfl
  · exact absurd blank (by decide)
  · exact absurd blank (by decide)

theorem unquoted_of_blank {blanks : Text} (blank : blanks.all isBlank = true) : Unquoted blanks := fun c member =>
  isQuoteMark_of_isBlank (List.all_eq_true.mp blank c member)

/-! ### The last pipe -/

theorem cutLastPipe_eq_none {text : Text} (absent : '|' ∉ text) (mask : List Bool) : cutLastPipe text mask = none := by
  induction text generalizing mask with
  | nil => rfl
  | cons c rest ih =>
    obtain ⟨other, later⟩ := List.ne_and_not_mem_of_not_mem_cons absent
    cases mask with
    | nil => rfl
    | cons quoted mask => simp [cutLastPipe, ih later, Ne.symm other]

theorem cutLastPipe_append {before after : Text} (absent : '|' ∉ after) :
    cutLastPipe (before ++ '|' :: after) (List.replicate (before ++ '|' :: after).length false) = some (before, after) := by
  induction before with
  | nil => simp [cutLastPipe, List.replicate_succ, cutLastPipe_eq_none absent]
  | cons c before ih =>
    rw [List.cons_append, List.length_cons, List.replicate_succ, cutLastPipe, ih]

theorem splitLastPipe?_eq_none {text : Text} (absent : '|' ∉ text) : splitLastPipe? text = none :=
  cutLastPipe_eq_none absent _

theorem splitLastPipe?_append {before after : Text} (unquoted : Unquoted (before ++ '|' :: after))
    (absent : '|' ∉ after) : splitLastPipe? (before ++ '|' :: after) = some (before, after) := by
  rw [splitLastPipe?, quoteMask_of_unquoted unquoted]
  exact cutLastPipe_append absent

/-! ### Separators -/

/-- A separator starts nowhere in a piece that some text follows. -/
def Passes (separator : Separator) : Text → Text → Prop
  | [], _ => True
  | c :: piece, rest => separator (c :: (piece ++ rest)) = 0 ∧ Passes separator piece rest

/-- A separator is dropped in full before the next part begins. -/
theorem cutUnquoted_dropped (separator : Separator) (text rest : Text) (mask later : List Bool)
    (long : mask.length = text.length) : cutUnquoted separator text.length true (text ++ rest) (mask ++ later) =
      cutUnquoted separator 0 false rest later := by
  induction text generalizing mask with
  | nil =>
    obtain rfl := List.length_eq_zero_iff.mp long
    cases rest with
    | nil => rfl
    | cons c rest => cases later <;> rfl
  | cons c text ih =>
    obtain ⟨quoted, mask, rfl⟩ := List.exists_cons_of_length_eq_add_one long
    exact ih mask (Nat.succ.inj long)

section
variable {separator : Separator}

theorem passes_append {piece more rest : Text} :
    Passes separator (piece ++ more) rest ↔
      Passes separator piece (more ++ rest) ∧ Passes separator more rest := by
  induction piece with
  | nil => exact (true_and _).symm ▸ Iff.rfl
  | cons c piece ih => simp only [List.cons_append, Passes, ih, List.append_assoc, and_assoc]

/-- The parts of a text without quotes. -/
def cuts (separator : Separator) (text : Text) : List Text :=
  cutUnquoted separator 0 false text (List.replicate text.length false)

theorem cuts_passed {piece rest first : Text} {parts : List Text} (passes : Passes separator piece rest)
    (cut : cuts separator rest = first :: parts) : cuts separator (piece ++ rest) = (piece ++ first) :: parts := by
  induction piece with
  | nil => exact cut
  | cons c piece ih =>
    obtain ⟨nowhere, later⟩ := passes
    have step := ih later
    unfold cuts at step ⊢
    rw [List.cons_append, List.length_cons, List.replicate_succ, cutUnquoted]
    simp only [nowhere, step]
    rfl

theorem cuts_separator {between rest : Text} (nonempty : between ≠ [])
    (starts : separator (between ++ rest) = between.length) :
    cuts separator (between ++ rest) = [] :: cuts separator rest := by
  obtain ⟨c, more, rfl⟩ := List.exists_cons_of_ne_nil nonempty
  have dropped := cutUnquoted_dropped separator more rest (List.replicate more.length false)
    (List.replicate rest.length false) List.length_replicate
  rw [← List.replicate_add, ← List.length_append] at dropped
  rw [List.cons_append, List.length_cons] at starts
  unfold cuts
  rw [List.cons_append, List.length_cons, List.replicate_succ, cutUnquoted]
  simp only [starts, dropped]
  rfl

theorem cuts_join {between : Text} (nonempty : between ≠ []) {part : Text} {parts : List Text}
    (passes : ∀ piece ∈ part :: parts, ∀ rest, Passes separator piece rest)
    (starts : ∀ rest, IsTight rest → separator (between ++ rest) = between.length)
    (tight : ∀ piece ∈ parts, IsTight piece) : cuts separator (join between (part :: parts)) = part :: parts := by
  induction parts generalizing part with
  | nil =>
    rw [join_singleton]
    have nothing : cuts separator [] = [[]] := rfl
    have whole := cuts_passed (passes part List.mem_cons_self []) nothing
    rwa [List.append_nil] at whole
  | cons next rest ih =>
    obtain ⟨passed, later⟩ := List.forall_mem_cons.mp passes
    have start := starts (join between (next :: rest)) (IsTight.join (List.cons_ne_nil next rest) tight)
    have cut := cuts_separator nonempty start
    rw [ih later (List.forall_mem_cons.mp tight).2] at cut
    have whole := cuts_passed (passed _) cut
    rwa [List.append_nil, ← List.append_assoc, ← join_cons_cons] at whole

/-- The pieces without the blanks around them. -/
def kept (pieces : List Text) : List Text :=
  (pieces.map strip).filter (!·.isEmpty)

theorem kept_eq_self {parts : List Text} (tight : ∀ part ∈ parts, IsTight part) : kept parts = parts := by
  have stripped : parts.map strip = parts := map_eq_self fun part member => (tight part member).strip_eq
  rw [kept, stripped]
  exact List.filter_eq_self.mpr fun part member => by simpa using (tight part member).ne_nil

theorem splitUnquoted_of_cuts {text : Text} {parts : List Text} (unquoted : Unquoted text)
    (cut : cuts separator text = parts) (tight : ∀ part ∈ parts, IsTight part) : splitUnquoted separator text = parts := by
  rw [cuts] at cut
  rw [splitUnquoted, quoteMask_of_unquoted unquoted, cut]
  exact kept_eq_self tight

/-- Pieces joined by separators come apart again. -/
theorem splitUnquoted_join {between : Text} {parts : List Text} (nonempty : between ≠ []) (present : parts ≠ [])
    (unquoted : Unquoted (join between parts)) (tight : ∀ part ∈ parts, IsTight part)
    (passes : ∀ part ∈ parts, ∀ rest, Passes separator part rest)
    (starts : ∀ rest, IsTight rest → separator (between ++ rest) = between.length) :
    splitUnquoted separator (join between parts) = parts := by
  obtain ⟨part, rest, rfl⟩ := List.exists_cons_of_ne_nil present
  exact splitUnquoted_of_cuts unquoted (cuts_join nonempty passes starts (List.forall_mem_cons.mp tight).2) tight

end

/-! ### Commas -/

theorem passes_comma {piece : Text} (absent : ',' ∉ piece) (rest : Text) : Passes commaSeparator piece rest := by
  induction piece with
  | nil => trivial
  | cons c piece ih =>
    obtain ⟨other, later⟩ := List.ne_and_not_mem_of_not_mem_cons absent
    refine ⟨?_, ih later⟩
    unfold commaSeparator
    split
    next same => exact absurd (List.cons.inj same).1.symm other
    next => rfl

/-- Commas alone separate nothing, if no blank comes after them. -/
theorem passes_comma_join {parts : List Text} (absent : ∀ part ∈ parts, ',' ∉ part) (tight : ∀ part ∈ parts, IsTight part)
    (rest : Text) : Passes commaSeparator (join "," parts) rest := by
  induction parts with
  | nil => trivial
  | cons part parts ih =>
    obtain ⟨without, others⟩ := List.forall_mem_cons.mp absent
    cases parts with
    | nil => rw [join_singleton]; exact passes_comma without rest
    | cons next parts =>
      obtain ⟨_, later⟩ := List.forall_mem_cons.mp tight
      obtain ⟨c, more, start, solid⟩ := (IsTight.join (List.cons_ne_nil next parts) later).starts
      have nowhere : commaSeparator (',' :: (join "," (next :: parts) ++ rest)) = 0 := by
        rw [start]
        unfold commaSeparator
        split
        next same =>
          have blank := (List.cons.inj (List.cons.inj same).2).1
          rw [blank] at solid
          exact absurd solid (by decide)
        next => rfl
      rw [join_cons_cons, List.append_assoc]
      exact passes_append.mpr ⟨passes_comma without _, nowhere, ih others later⟩

theorem splitUnquoted_commas {parts : List Text} (present : parts ≠ []) (unquoted : ∀ part ∈ parts, Unquoted part)
    (tight : ∀ part ∈ parts, IsTight part) (passes : ∀ part ∈ parts, ∀ rest, Passes commaSeparator part rest) :
    splitUnquoted commaSeparator (join ", " parts) = parts :=
  splitUnquoted_join (by decide) present (unquoted_join (by decide) unquoted) tight passes fun _ _ => rfl

/-! ### Pipes -/

theorem pipeSeparator_eq_zero {piece : Text} (absent : '|' ∉ piece) {c : Char} (present : c ∈ piece)
    (solid : isBlank c = false) (rest : Text) : pipeSeparator (piece ++ rest) = 0 := by
  have remains : piece.dropWhile isBlank ≠ [] := fun empty => by
    have blank := List.dropWhile_eq_nil_iff.mp empty c present
    rw [solid] at blank
    cases blank
  obtain ⟨d, more, first⟩ := List.exists_cons_of_ne_nil remains
  have other : d ≠ '|' := fun same =>
    absent (same ▸ (List.dropWhile_sublist isBlank).subset (first ▸ List.mem_cons_self))
  have start : (piece ++ rest).dropWhile isBlank = d :: (more ++ rest) := by
    rw [List.dropWhile_append, first]
    rfl
  simp only [pipeSeparator, drop_length_takeWhile, start]
  split
  next same => exact absurd (List.cons.inj same).1 other
  next => rfl

theorem passes_pipe {piece : Text} (absent : '|' ∉ piece) (closed : ∀ c ∈ piece.getLast?, isBlank c = false)
    (rest : Text) : Passes pipeSeparator piece rest := by
  induction piece with
  | nil => trivial
  | cons c piece ih =>
    have nonempty := List.cons_ne_nil c piece
    have solid := closed _ (List.getLast?_eq_some_getLast nonempty)
    have nowhere := pipeSeparator_eq_zero absent (List.getLast_mem nonempty) solid rest
    refine ⟨nowhere, ih (List.not_mem_of_not_mem_cons absent) fun d member => closed d ?_⟩
    cases piece with
    | nil => cases member
    | cons e piece => rwa [List.getLast?_cons_cons]

section
variable {left right : Char} (before : isBlank left = true) (after : isBlank right = true) {rest : Text} (tight : IsTight rest)
include before after tight

theorem pipeSeparator_blanks : pipeSeparator (left :: '|' :: right :: rest) = 3 := by
  obtain ⟨c, more, rfl, solid⟩ := tight.starts
  have bar : isBlank '|' = false := by decide
  simp [pipeSeparator, before, after, solid, bar]

theorem cuts_pipe {piece : Text} (absent : '|' ∉ piece) (solid : IsTight piece) :
    cuts pipeSeparator (piece ++ left :: '|' :: right :: rest) = piece :: cuts pipeSeparator rest := by
  have cut : cuts pipeSeparator (left :: '|' :: right :: rest) = [] :: cuts pipeSeparator rest :=
    cuts_separator (List.cons_ne_nil left ['|', right]) (pipeSeparator_blanks before after tight)
  have whole := cuts_passed (passes_pipe absent solid.getLast?_solid _) cut
  rwa [List.append_nil] at whole

end

theorem cuts_pipeless {piece : Text} (absent : '|' ∉ piece) (tight : IsTight piece) :
    cuts pipeSeparator piece = [piece] := by
  have nothing : cuts pipeSeparator [] = [[]] := rfl
  have whole := cuts_passed (passes_pipe absent tight.getLast?_solid []) nothing
  rwa [List.append_nil] at whole

end Bindery.Link
