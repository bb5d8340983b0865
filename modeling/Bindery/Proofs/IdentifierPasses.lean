import Bindery.Proofs.LineBreaks

/-! Identifiers in passes. A text loses its quotes and is put in lower case, every run of other characters becomes one
hyphen, and hyphens at the ends go. What is left are the runs of identifier characters with hyphens between them. -/

namespace Bindery

namespace Text

/-! ### Lower case in context -/

/-- The sigma that closes a word is the only letter whose lower case depends on the letters around it. -/
theorem forall₂_lowerAfter {R : Char → Char → Prop} (refl : ∀ c, R c c) (sigma : R (Char.ofNat 0x3c2) (Char.ofNat 0x3c3))
    (before text : Text) : List.Forall₂ R (lowerAfter before text) (text.flatMap lowerChar) := by
  induction text generalizing before with
  | nil => exact .nil
  | cons c rest ih =>
    rw [lowerAfter, List.flatMap_cons]
    apply List.rel_append _ (ih (c :: before))
    split
    next closing =>
      simp only [Bool.and_eq_true, decide_eq_true_eq] at closing
      obtain rfl : c = Char.ofNat 0x3a3 := by rw [← closing.1.1, Char.ofNat_toNat]
      exact .cons sigma .nil
    next => exact List.forall₂_same.mpr fun d _ => refl d

end Text

namespace Identifier
open Text

theorem runsOutside_lowerCase (text : Text) :
    runsOutside (!isIdentifierChar ·) (lowerCase text) = runsOutside (!isIdentifierChar ·) (text.flatMap lowerChar) :=
  congrArg (List.filter _) (splitOnP_congr (forall₂_lowerAfter (fun _ => Or.inl rfl) (Or.inr (by decide)) [] text))

/-! ### Runs as hyphens -/

/-- Every run of other characters becomes one hyphen. Inside such a run no further hyphen is due. -/
def foldRuns : (inside : Bool) → Text → Text
  | _, [] => []
  | inside, c :: rest =>
    if isIdentifierChar c then c :: foldRuns false rest
    else if inside then foldRuns true rest
    else '-' :: foldRuns true rest

def trimHyphens (text : Text) : Text :=
  (text.dropWhile (· = '-')).rdropWhile (· = '-')

/-- One pass after the other. -/
def passes (text : Text) : Text :=
  trimHyphens (foldRuns false (lowerCase (text.filter (!isQuoteMark ·))))

/-- Runs so far are kept with hyphens between them. A hyphen behind them all is there only if there is a run before it. -/
private theorem exists_foldRuns_append (run : Text) (whole : ∀ c ∈ run, (!isIdentifierChar c) = false) (text : Text) :
    ∃ trail, (∀ c ∈ trail, c = '-') ∧ (runsOutside (!isIdentifierChar ·) (run ++ text) = [] → trail = []) ∧
      run ++ foldRuns run.isEmpty text = join "-" (runsOutside (!isIdentifierChar ·) (run ++ text)) ++ trail := by
  -- The run that is being read comes with the text, so that the induction sees it grow.
  induction text generalizing run with
  | nil =>
    refine ⟨[], List.forall_mem_nil _, fun _ => rfl, ?_⟩
    cases run with
    | nil => rfl
    | cons c more =>
      rw [List.append_nil (c :: more), runsOutside_eq_singleton whole (List.cons_ne_nil c more), join_singleton]
      rfl
  | cons c rest ih =>
    cases inside : isIdentifierChar c with
    | true =>
      have grown : ∀ d ∈ run ++ [c], (!isIdentifierChar d) = false :=
        List.forall_mem_append.mpr ⟨whole, List.forall_mem_singleton.mpr (by rw [inside]; rfl)⟩
      have present : List.isEmpty (run ++ [c]) = false := by simp
      simpa [foldRuns, inside, present] using ih (run ++ [c]) grown
    | false =>
      have stops : (!isIdentifierChar c) = true := by rw [inside]; rfl
      obtain ⟨trail, hyphens, empties, folded⟩ := ih [] (List.forall_mem_nil _)
      simp only [List.nil_append] at empties folded
      cases run with
      | nil =>
        rw [List.nil_append, runsOutside_cons_of_stop stops]
        refine ⟨trail, hyphens, empties, ?_⟩
        simpa [foldRuns, inside] using folded
      | cons d more =>
        rw [runsOutside_append_cons whole (List.cons_ne_nil d more) stops]
        cases runs : runsOutside (!isIdentifierChar ·) rest with
        | nil =>
          rw [runs, empties runs] at folded
          refine ⟨['-'], fun _ => List.mem_singleton.mp, fun absent => absurd absent (List.cons_ne_nil _ _), ?_⟩
          have ended : foldRuns true rest = [] := folded
          simp [foldRuns, inside, join_singleton, ended]
        | cons next later =>
          rw [runs] at folded
          refine ⟨trail, hyphens, fun absent => absurd absent (List.cons_ne_nil _ _), ?_⟩
          simpa [foldRuns, inside, join_cons_cons] using folded

theorem foldRuns_false (text : Text) : foldRuns false text = foldRuns true text ∨ foldRuns false text = '-' :: foldRuns true text := by
  cases text with
  | nil => exact Or.inl rfl
  | cons c rest => cases inside : isIdentifierChar c <;> simp [foldRuns, inside]

theorem exists_foldRuns (text : Text) : ∃ lead trail, (∀ c ∈ lead, c = '-') ∧ (∀ c ∈ trail, c = '-') ∧
    foldRuns false text = lead ++ (join "-" (runsOutside (!isIdentifierChar ·) text) ++ trail) := by
  obtain ⟨trail, hyphens, _, folded⟩ := exists_foldRuns_append [] (List.forall_mem_nil _) text
  have folded : foldRuns true text = join "-" (runsOutside (!isIdentifierChar ·) text) ++ trail := folded
  rcases foldRuns_false text with same | led
  · exact ⟨[], trail, List.forall_mem_nil _, hyphens, same.trans folded⟩
  · exact ⟨['-'], trail, fun _ => List.mem_singleton.mp, hyphens, led.trans (congrArg (List.cons '-') folded)⟩

/-! ### Ends without hyphens -/

theorem ne_hyphen {c : Char} (inside : (!isIdentifierChar c) = false) : c ≠ '-' := by
  intro hyphen
  rw [hyphen] at inside
  exact absurd inside (by decide)

section
variable {runs : List Text} (all : ∀ run ∈ runs, run ≠ [] ∧ ∀ c ∈ run, (!isIdentifierChar c) = false)
include all

theorem ne_hyphen_of_head?_join : ∀ c ∈ (join "-" runs).head?, c ≠ '-' := by
  cases runs with
  | nil => exact fun c absent => absurd absent (Option.not_mem_none c)
  | cons run rest =>
    obtain ⟨present, whole⟩ := all run List.mem_cons_self
    have first : (join "-" (run :: rest)).head? = run.head? := by
      cases rest with
      | nil => rw [join_singleton]
      | cons next rest => rw [join_cons_cons, List.append_assoc, List.head?_append_of_ne_nil _ present]
    intro c starts
    rw [first] at starts
    exact ne_hyphen (whole c (List.mem_of_head? starts))

theorem ne_hyphen_of_getLast?_join : ∀ c ∈ (join "-" runs).getLast?, c ≠ '-' := by
  rcases List.eq_nil_or_concat runs with rfl | ⟨front, run, rfl⟩
  · exact fun c absent => absurd absent (Option.not_mem_none c)
  · rw [List.concat_eq_append] at all ⊢
    obtain ⟨present, whole⟩ := all run (List.mem_append_right front (List.mem_singleton_self run))
    have last : (join "-" (front ++ [run])).getLast? = run.getLast? := by
      cases front with
      | nil => rw [List.nil_append, join_singleton]
      | cons first more => rw [join_concat (List.cons_ne_nil first more), List.getLast?_append_of_ne_nil _ present]
    intro c ends
    rw [last] at ends
    exact ne_hyphen (whole c (List.mem_of_getLast? ends))

end

theorem trimHyphens_eq {lead core trail : Text} (leads : ∀ c ∈ lead, c = '-') (trails : ∀ c ∈ trail, c = '-')
    (starts : ∀ c ∈ core.head?, c ≠ '-') (ends : ∀ c ∈ core.getLast?, c ≠ '-') :
    trimHyphens (lead ++ (core ++ trail)) = core := by
  have leads : ∀ c ∈ lead, decide (c = '-') = true := fun c member => decide_eq_true (leads c member)
  have trails : ∀ c ∈ trail, decide (c = '-') = true := fun c member => decide_eq_true (trails c member)
  cases core with
  | nil =>
    -- Nothing stands between the two ends, so the first cut takes both.
    have gone : (lead ++ ([] ++ trail)).dropWhile (· = '-') = [] :=
      List.dropWhile_eq_nil_iff.mpr (List.forall_mem_append.mpr ⟨leads, trails⟩)
    rw [trimHyphens, gone, List.rdropWhile_nil]
  | cons c rest =>
    have front : (lead ++ (c :: rest ++ trail)).dropWhile (· = '-') = c :: rest ++ trail :=
      dropWhile_append_of_head? leads fun d first => decide_eq_false (starts d first)
    have back : (trail.reverse ++ (c :: rest).reverse).dropWhile (· = '-') = (c :: rest).reverse := by
      apply dropWhile_append_of_head?
      · exact fun d member => trails d (List.mem_reverse.mp member)
      · rw [List.head?_reverse]
        exact fun d last => decide_eq_false (ends d last)
    rw [trimHyphens, front, List.rdropWhile, List.reverse_append, back, List.reverse_reverse]

theorem normalize_eq_passes (text : Text) : normalize text = passes text := by
  obtain ⟨lead, trail, leads, trails, folded⟩ := exists_foldRuns (lowerCase (text.filter (!isQuoteMark ·)))
  have all : ∀ run ∈ pieces text, run ≠ [] ∧ ∀ c ∈ run, (!isIdentifierChar c) = false := fun run => of_mem_runsOutside
  rw [passes, folded, runsOutside_lowerCase]
  exact (trimHyphens_eq leads trails (ne_hyphen_of_head?_join all) (ne_hyphen_of_getLast?_join all)).symm

end Identifier
end Bindery
