import Bindery.Proofs.Tokens
import Bindery.Identifier.Basic

/-! Identifiers of texts put together. Each text keeps its identifier where blanks or marks stand between them, and
quotes leave no trace anywhere. -/

namespace Bindery.Identifier
open Text

/-! ### Quotes -/

/-- A text, and the same text with quotes put into it. -/
inductive PutsQuotes : Text → Text → Prop where
  | nil : PutsQuotes [] []
  | kept (c : Char) {text quoted : Text} (rest : PutsQuotes text quoted) : PutsQuotes (c :: text) (c :: quoted)
  | quote {mark : Char} (quotes : isQuoteMark mark = true) {text quoted : Text} (rest : PutsQuotes text quoted) :
      PutsQuotes text (mark :: quoted)

theorem PutsQuotes.filter_eq {text quoted : Text} (puts : PutsQuotes text quoted) :
    quoted.filter (!isQuoteMark ·) = text.filter (!isQuoteMark ·) := by
  induction puts with
  | nil => rfl
  | kept c rest ih => rw [List.filter_cons, List.filter_cons, ih]
  | quote quotes rest ih =>
    rw [List.filter_cons_of_neg (by simp [quotes])]
    exact ih

theorem PutsQuotes.normalize_eq {text quoted : Text} (puts : PutsQuotes text quoted) : normalize quoted = normalize text := by
  unfold normalize pieces fold
  rw [puts.filter_eq]

/-! ### Between two texts -/

/-- A blank, or one of the marks that join the parts of a name. -/
def joins (c : Char) : Bool :=
  c ∈ "-_:,|.".toList || isBlank c

theorem of_isBlank {P : Char → Prop}
    (tried : ∀ range ∈ blankRanges, ∀ n ∈ List.range' range.1 (range.2 + 1 - range.1), P (Char.ofNat n))
    {c : Char} (blank : isBlank c = true) : P c := by
  obtain ⟨range, member, inside⟩ := List.any_eq_true.mp blank
  simp only [Bool.and_eq_true, decide_eq_true_eq] at inside
  have found := tried range member c.toNat (List.mem_range'_1.mpr (by omega))
  rwa [Char.ofNat_toNat] at found

theorem fold_of_joins {c : Char} (between : joins c = true) : fold [c] = [c] ∧ (!isIdentifierChar c) = true := by
  rcases Bool.or_eq_true_iff.mp between with mark | blank
  · have tried : "-_:,|.".toList.all (fun c => fold [c] = [c] ∧ (!isIdentifierChar c) = true) = true := by decide
    exact of_decide_eq_true (List.all_eq_true.mp tried c (of_decide_eq_true mark))
  · exact of_isBlank (P := fun c => fold [c] = [c] ∧ (!isIdentifierChar c) = true) (by decide +kernel) blank

theorem fold_append (text other : Text) : fold (text ++ other) = fold text ++ fold other := by
  rw [fold, List.filter_append, List.flatMap_append]
  rfl

section
variable {between : Text} (joined : ∀ c ∈ between, joins c = true)
include joined

theorem fold_between : fold between = between := by
  induction between with
  | nil => rfl
  | cons c rest ih =>
    obtain ⟨first, others⟩ := List.forall_mem_cons.mp joined
    rw [← List.singleton_append, fold_append, (fold_of_joins first).1, ih others]

theorem pieces_between (present : between ≠ []) (text other : Text) :
    pieces (text ++ between ++ other) = pieces text ++ pieces other := by
  rw [pieces, fold_append, fold_append, fold_between joined]
  exact runsOutside_between present (fun c member => (fold_of_joins (joined c member)).2) (fold text) (fold other)

end

theorem pieces_eq_nil_of_normalize {text : Text} (nothing : normalize text = []) : pieces text = [] := by
  have same : runsOutside (!isIdentifierChar ·) (normalize text) = pieces text :=
    runsOutside_join (by decide) fun run member => of_mem_runsOutside member
  rw [nothing] at same
  exact same.symm

theorem normalize_of_pieces {text : Text} (empty : pieces text = []) : normalize text = [] := by
  rw [normalize, empty]
  rfl

theorem join_pieces (text other : Text) :
    join ['-'] (pieces text ++ pieces other) = join ['-'] ([normalize text, normalize other].filter (!·.isEmpty)) := by
  by_cases first : normalize text = []
  · rw [pieces_eq_nil_of_normalize first, List.filter_cons_of_neg (by simp [first])]
    by_cases second : normalize other = []
    · rw [pieces_eq_nil_of_normalize second, List.filter_cons_of_neg (by simp [second])]
      rfl
    · rw [List.filter_cons_of_pos (by simp [second])]
      exact (join_singleton ['-'] (normalize other)).symm
  · rw [List.filter_cons_of_pos (by simp [first])]
    by_cases second : normalize other = []
    · rw [pieces_eq_nil_of_normalize second, List.filter_cons_of_neg (by simp [second]), List.append_nil]
      exact (join_singleton ['-'] (normalize text)).symm
    · rw [List.filter_cons_of_pos (by simp [second]), List.filter_nil, join_cons_cons, join_singleton]
      exact join_append (fun empty => first (normalize_of_pieces empty)) (fun empty => second (normalize_of_pieces empty))

/-- Whatever blanks and marks stand between two texts, one hyphen stands between their identifiers, or none where one of
the two has no identifier. Quotes may stand anywhere. -/
theorem normalize_joins_parts :
    (∀ text between other : Text, between ≠ [] → (∀ c ∈ between, joins c = true) →
      normalize (text ++ between ++ other) = join "-" ([normalize text, normalize other].filter (!·.isEmpty))) ∧
    ∀ text quoted : Text, PutsQuotes text quoted → normalize quoted = normalize text := by
  constructor
  · intro text between other present joined
    rw [normalize, pieces_between joined present]
    exact join_pieces text other
  · intro text quoted puts
    exact puts.normalize_eq

theorem psalm_joined_to_number :
    normalize ("Psalm".toList ++ " : ".toList ++ "23".toList) = "psalm-23".toList ∧ normalize "'Job'" = normalize "Job" := by
  obtain ⟨parts, quotes⟩ := normalize_joins_parts
  constructor
  · exact (parts "Psalm" " : " "23" (by decide) (List.all_eq_true.mp (by decide))).trans (by decide)
  · exact quotes "Job" "'Job'" (.quote rfl (.kept 'J' (.kept 'o' (.kept 'b' (.quote rfl .nil)))))

end Bindery.Identifier
