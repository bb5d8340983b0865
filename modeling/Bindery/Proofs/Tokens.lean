import Bindery.Proofs.TextLines
import Mathlib.Data.List.Infix

/-! Texts put together from pieces. A token has no blank in it, a tight text has none around it; stripping leaves
both alone, and joined pieces are told apart again wherever no piece holds what joins them. -/

namespace Bindery.Text

structure IsToken (text : Text) : Prop where
  present : text ≠ []
  whole : ∀ c ∈ text, isBlank c = false

/-- No blank stands at the start of a text or at its end. -/
structure IsTight (text : Text) : Prop where
  starts : ∃ c rest, text = c :: rest ∧ isBlank c = false
  ends : ∃ front c, text = front ++ [c] ∧ isBlank c = false

theorem IsToken.isTight {text : Text} (token : IsToken text) : IsTight text := by
  obtain ⟨first, rest, start⟩ := List.exists_cons_of_ne_nil token.present
  obtain ⟨front, last, ending⟩ := (List.eq_nil_or_concat text).resolve_left token.present
  rw [List.concat_eq_append] at ending
  refine ⟨⟨first, rest, start, token.whole first ?_⟩, ⟨front, last, ending, token.whole last ?_⟩⟩
  · exact start ▸ List.mem_cons_self
  · exact ending ▸ List.mem_append_right _ (List.mem_singleton_self last)

namespace IsTight
variable {text other : Text}

theorem ne_nil (tight : IsTight text) : text ≠ [] := by
  obtain ⟨c, rest, rfl, _⟩ := tight.starts
  exact List.cons_ne_nil c rest

theorem getLast?_solid (tight : IsTight text) : ∀ c ∈ text.getLast?, isBlank c = false := by
  obtain ⟨front, c, rfl, solid⟩ := tight.ends
  simpa using solid

theorem append (tight : IsTight text) (middle : Text) (also : IsTight other) : IsTight (text ++ middle ++ other) := by
  obtain ⟨c, rest, rfl, present⟩ := tight.starts
  obtain ⟨front, d, rfl, last⟩ := also.ends
  exact ⟨⟨c, rest ++ middle ++ (front ++ [d]), by simp, present⟩, ⟨(c :: rest) ++ middle ++ front, d, by simp, last⟩⟩

theorem join {separator : Text} {parts : List Text} (nonempty : parts ≠ []) (tight : ∀ part ∈ parts, IsTight part) :
    IsTight (Text.join separator parts) := by
  induction parts with
  | nil => exact absurd rfl nonempty
  | cons part rest ih =>
    obtain ⟨first, others⟩ := List.forall_mem_cons.mp tight
    cases rest with
    | nil => rwa [join_singleton]
    | cons next rest =>
      rw [join_cons_cons]
      exact first.append separator (ih (List.cons_ne_nil next rest) others)

theorem stripStart_eq (tight : IsTight text) : stripStart text = text := by
  obtain ⟨c, rest, rfl, present⟩ := tight.starts
  exact List.dropWhile_cons_of_neg (by simp [present])

theorem stripEnd_eq (tight : IsTight text) : stripEnd text = text := by
  obtain ⟨front, c, rfl, present⟩ := tight.ends
  simp [stripEnd, present]

theorem strip_eq (tight : IsTight text) : strip text = text := by
  rw [strip, tight.stripStart_eq, tight.stripEnd_eq]

theorem strip_blank_cons (tight : IsTight text) {c : Char} (blank : isBlank c = true) : strip (c :: text) = text := by
  rw [strip, stripStart, List.dropWhile_cons_of_pos blank]
  exact tight.strip_eq

theorem strip_concat_blank (tight : IsTight text) {c : Char} (blank : isBlank c = true) : strip (text ++ [c]) = text := by
  obtain ⟨d, rest, same, present⟩ := tight.starts
  have start : stripStart (text ++ [c]) = text ++ [c] := by
    rw [same]
    exact List.dropWhile_cons_of_neg (by simp [present])
  have ending : stripEnd (text ++ [c]) = stripEnd text := List.rdropWhile_concat_pos isBlank text c blank
  rw [strip, start, ending, tight.stripEnd_eq]

end IsTight

theorem exists_strip_append (text : Text) : ∃ before after, before.all isBlank = true ∧ after.all isBlank = true ∧
    text = before ++ (strip text ++ after) := by
  obtain ⟨after, blank, same⟩ := exists_stripEnd_append (stripStart text)
  refine ⟨text.takeWhile isBlank, after, List.all_takeWhile, blank, ?_⟩
  rw [strip, ← same]
  exact (List.takeWhile_append_dropWhile (p := isBlank)).symm

theorem isTight_strip {text : Text} (present : strip text ≠ []) : IsTight (strip text) := by
  constructor
  · obtain ⟨c, rest, same⟩ := List.exists_cons_of_ne_nil present
    have front : strip text <+: stripStart text := List.rdropWhile_prefix isBlank _
    obtain ⟨more, whole⟩ := front
    rw [same, List.cons_append] at whole
    refine ⟨c, rest, same, ?_⟩
    have flush := List.head?_dropWhile_not isBlank text
    rw [show text.dropWhile isBlank = c :: (rest ++ more) from whole.symm] at flush
    simpa using flush
  · have solid := List.rdropWhile_last_not isBlank (stripStart text) present
    exact ⟨_, _, (List.dropLast_append_getLast present).symm, Bool.eq_false_iff.mpr solid⟩

theorem isTight_of_strip_eq {text : Text} (present : text ≠ []) (stripped : strip text = text) : IsTight text := by
  rw [← stripped] at present ⊢
  exact isTight_strip present

/-! ### Cuts and runs -/

theorem cutAt_eq_some {mark : Char} {text before after : Text} :
    cutAt mark text = some (before, after) ↔ text = before ++ mark :: after ∧ mark ∉ before := by
  induction text generalizing before with
  | nil => simp [cutAt]
  | cons c rest ih =>
    rw [cutAt]
    split
    next same =>
      subst same
      cases before with
      | nil => simp
      | cons d before =>
        refine iff_of_false (by simp) ?_
        rintro ⟨whole, absent⟩
        rw [(List.cons.inj whole).1] at absent
        exact absent List.mem_cons_self
    next other =>
      cases before with
      | nil => simp [other]
      | cons d before =>
        simp only [Option.map_eq_some_iff, Prod.exists, Prod.mk.injEq, List.cons.injEq, List.cons_append, List.mem_cons, not_or]
        constructor
        · rintro ⟨inner, later, cut, ⟨rfl, rfl⟩, rfl⟩
          obtain ⟨rfl, absent⟩ := ih.mp cut
          exact ⟨⟨rfl, rfl⟩, Ne.symm other, absent⟩
        · rintro ⟨⟨rfl, rfl⟩, _, absent⟩
          exact ⟨before, after, ih.mpr ⟨rfl, absent⟩, ⟨rfl, rfl⟩, rfl⟩

section
variable {separates : Char → Bool} {run : Text} (whole : ∀ c ∈ run, separates c = false) (present : run ≠ [])
include whole present

theorem runsOutside_eq_singleton : runsOutside separates run = [run] := by
  rw [runsOutside, List.splitOnP_eq_singleton whole]
  simpa using present

theorem runsOutside_append_cons {stop : Char} (stops : separates stop = true) (rest : Text) :
    runsOutside separates (run ++ stop :: rest) = run :: runsOutside separates rest := by
  rw [runsOutside, List.splitOnP_append_cons_of_forall_mem whole stop stops]
  exact List.filter_cons_of_pos (by simpa using present)

end

theorem runsOutside_cons_of_stop {separates : Char → Bool} {stop : Char} (stops : separates stop = true) (rest : Text) :
    runsOutside separates (stop :: rest) = runsOutside separates rest := by
  rw [runsOutside, List.splitOnP_cons_eq_if_modifyHead, if_pos stops]
  exact List.filter_cons_of_neg Bool.false_ne_true

theorem runsOutside_append_of_stops {separates : Char → Bool} {front : Text} (stops : ∀ c ∈ front, separates c = true)
    (text : Text) : runsOutside separates (front ++ text) = runsOutside separates text := by
  induction front with
  | nil => rfl
  | cons c rest ih =>
    obtain ⟨first, others⟩ := List.forall_mem_cons.mp stops
    rw [List.cons_append, runsOutside_cons_of_stop first, ih others]

/-- What stands between two texts keeps their runs apart. -/
theorem runsOutside_between {separates : Char → Bool} {between : Text} (present : between ≠ [])
    (stops : ∀ c ∈ between, separates c = true) (text other : Text) :
    runsOutside separates (text ++ between ++ other) = runsOutside separates text ++ runsOutside separates other := by
  obtain ⟨stop, more, rfl⟩ := List.exists_cons_of_ne_nil present
  obtain ⟨first, others⟩ := List.forall_mem_cons.mp stops
  rw [List.append_assoc, List.cons_append, runsOutside, List.splitOnP_append_cons _ _ first, List.filter_append]
  exact congrArg (runsOutside separates text ++ ·) (runsOutside_append_of_stops others other)

theorem exists_runsOutside_cons (separates : Char → Bool) {c : Char} (inside : separates c = false) (rest : Text) :
    ∃ run runs, runsOutside separates (c :: rest) = (c :: run) :: runs := by
  obtain ⟨run, runs, split⟩ := List.exists_cons_of_ne_nil (List.splitOnP_ne_nil separates rest)
  refine ⟨run, runs.filter (!·.isEmpty), ?_⟩
  simp [runsOutside, List.splitOnP_cons_eq_if_modifyHead, inside, split]

theorem of_mem_splitOnP {separates : Char → Bool} {text part : Text} (member : part ∈ text.splitOnP separates) :
    ∀ c ∈ part, separates c = false := by
  induction text generalizing part with
  | nil =>
    rw [List.splitOnP_nil, List.mem_singleton] at member
    simp [member]
  | cons c rest ih =>
    rw [List.splitOnP_cons_eq_if_modifyHead] at member
    split at member
    next =>
      rcases List.mem_cons.mp member with rfl | later
      · exact List.forall_mem_nil _
      · exact ih later
    next inside =>
      obtain ⟨first, more, parts⟩ := List.exists_cons_of_ne_nil (List.splitOnP_ne_nil separates rest)
      rw [parts] at member ih
      rcases List.mem_cons.mp member with rfl | later
      · exact List.forall_mem_cons.mpr ⟨by simpa using inside, ih List.mem_cons_self⟩
      · exact ih (List.mem_cons_of_mem _ later)

theorem of_mem_runsOutside {separates : Char → Bool} {text run : Text} (member : run ∈ runsOutside separates text) :
    run ≠ [] ∧ ∀ c ∈ run, separates c = false := by
  obtain ⟨inside, present⟩ := List.mem_filter.mp member
  exact ⟨by simpa using present, of_mem_splitOnP inside⟩

/-- Runs that are joined by something outside of them are told apart again. -/
theorem runsOutside_join {separates : Char → Bool} {stop : Char} (stops : separates stop = true) {runs : List Text}
    (all : ∀ run ∈ runs, run ≠ [] ∧ ∀ c ∈ run, separates c = false) : runsOutside separates (join [stop] runs) = runs := by
  induction runs with
  | nil => rfl
  | cons run rest ih =>
    obtain ⟨⟨present, whole⟩, others⟩ := List.forall_mem_cons.mp all
    cases rest with
    | nil => rw [join_singleton]; exact runsOutside_eq_singleton whole present
    | cons next rest =>
      have joined : run ++ [stop] ++ join [stop] (next :: rest) = run ++ stop :: join [stop] (next :: rest) :=
        List.append_assoc _ _ _
      rw [join_cons_cons, joined, runsOutside_append_cons whole present stops, ih others]

/-- Tokens that are joined by blanks are the words of a text. -/
theorem words_join {tokens : List Text} (all : ∀ token ∈ tokens, IsToken token) : words (join " " tokens) = tokens :=
  runsOutside_join (by decide) fun token member => ⟨(all token member).present, (all token member).whole⟩

end Bindery.Text
