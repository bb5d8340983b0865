import Bindery.Proofs.BlockExtents
import Bindery.Proofs.EscapedTargets

/-! How far definitions of link targets reach. A definition is read up to the end of a line, so nothing changes about
it when lines after it go, unless there were only blanks where its target is. -/

namespace Bindery.Markdown
open Text

/-! ### Readers and the rest of a text -/

theorem length_lt_of_suffix {c : Char} {rest text : Text} (suffix : c :: rest <:+ text) : rest.length < text.length :=
  suffix.length_le

theorem not_suffix_of_append {c : Char} {rest back text : Text} (le : text.length ≤ back.length) :
    ¬ c :: (rest ++ back) <:+ text := by
  intro suffix
  have below := length_lt_of_suffix suffix
  rw [List.length_append] at below
  omega

theorem exists_of_map_eq_some {reading : Option (Text × Text)} {extend : Text × Text → Text × Text} {value rest : Text}
    (read : reading.map extend = some (value, rest)) (keeps : ∀ pair, (extend pair).2 = pair.2) :
    ∃ inner, reading = some (inner, rest) ∧ extend (inner, rest) = (value, rest) := by
  obtain ⟨⟨inner, after⟩, found, same⟩ := Option.map_eq_some_iff.mp read
  have kept := keeps (inner, after)
  rw [same] at kept
  obtain rfl : rest = after := kept
  exact ⟨inner, found, same⟩

theorem map_eq_some_append {back rest value : Text} {first second : Option (Text × Text)} {extend : Text × Text → Text × Text}
    (agree : ∀ inner, first = some (inner, rest ++ back) ↔ second = some (inner, rest))
    (keeps : ∀ pair, (extend pair).2 = pair.2) (same : ∀ pair other, pair.1 = other.1 → (extend pair).1 = (extend other).1) :
    first.map extend = some (value, rest ++ back) ↔ second.map extend = some (value, rest) := by
  constructor
  · intro read
    obtain ⟨inner, found, built⟩ := exists_of_map_eq_some read keeps
    have first : (extend (inner, rest ++ back)).1 = value := congrArg Prod.fst built
    rw [(agree inner).mp found, Option.map_some, Option.some.injEq, Prod.ext_iff]
    exact ⟨(same (inner, rest) (inner, rest ++ back) rfl).trans first, keeps _⟩
  · intro read
    obtain ⟨inner, found, built⟩ := exists_of_map_eq_some read keeps
    have first : (extend (inner, rest)).1 = value := congrArg Prod.fst built
    rw [(agree inner).mpr found, Option.map_some, Option.some.injEq, Prod.ext_iff]
    exact ⟨(same (inner, rest ++ back) (inner, rest) rfl).trans first, keeps _⟩

theorem readLabel_suffix {text label rest : Text} (read : readLabel text = some (label, rest)) : ']' :: rest <:+ text := by
  fun_induction readLabel text generalizing label with
  | case1 => cases read
  | case2 => cases read
  | case3 =>
    cases read
    exact List.suffix_rfl
  | case4 c text ih =>
    obtain ⟨inner, found, _⟩ := exists_of_map_eq_some read fun _ => rfl
    exact ((ih found).trans (List.suffix_cons c text)).trans (List.suffix_cons '\\' _)
  | case5 c text _ _ _ ih =>
    obtain ⟨inner, found, _⟩ := exists_of_map_eq_some read fun _ => rfl
    exact (ih found).trans (List.suffix_cons c text)

/-- A backslash that takes nothing of the front with it takes nothing of what follows, unless it stands between the two. -/
theorem takes_nothing_append {c : Char} {text back : Text} (escapes : ∀ d others, c = '\\' → text = d :: others → False)
    (inside : ¬ (c = '\\' ∧ text = [] ∧ back ≠ [])) : ∀ d others, c = '\\' → text ++ back = d :: others → False := by
  intro d others backslash whole
  cases text with
  | cons e text => exact escapes e text backslash rfl
  | nil => exact inside ⟨backslash, rfl, by simp [show back = d :: others from whole]⟩

/-- A label that ends in the front of a text is read from the front alone. -/
theorem readLabel_append {front back label rest : Text} :
    readLabel (front ++ back) = some (label, rest ++ back) ↔ readLabel front = some (label, rest) := by
  fun_induction readLabel front generalizing label with
  | case1 => exact ⟨fun read => absurd (readLabel_suffix read) (not_suffix_of_append (Nat.le_refl _)), nofun⟩
  | case2 => simp [readLabel]
  | case3 text =>
    rw [List.cons_append, readLabel]
    simp only [Option.some.injEq, Prod.mk.injEq, List.append_cancel_right_eq]
  | case4 c text ih =>
    rw [List.cons_append, List.cons_append, readLabel]
    exact map_eq_some_append (fun _ => ih) (fun _ => rfl) fun _ _ same => by simp [same]
  | case5 c text opens closes escapes ih =>
    by_cases escape : c = '\\' ∧ text = [] ∧ back ≠ []
    · obtain ⟨rfl, rfl, more⟩ := escape
      obtain ⟨d, others, rfl⟩ := List.exists_cons_of_ne_nil more
      refine ⟨fun read => ?_, fun read => by simp [readLabel] at read⟩
      obtain ⟨inner, found, _⟩ := exists_of_map_eq_some (read : (readLabel others).map _ = _) fun _ => rfl
      exact absurd (readLabel_suffix found) (not_suffix_of_append (Nat.le_succ _))
    · rw [List.cons_append, readLabel.eq_5 _ _ opens closes (takes_nothing_append escapes escape)]
      exact map_eq_some_append (fun _ => ih) (fun _ => rfl) fun _ _ same => by simp [same]

theorem bracketedTarget_suffix {text target rest : Text} (read : bracketedTarget text = some (target, rest)) :
    '>' :: rest <:+ text := by
  fun_induction bracketedTarget text generalizing target with
  | case1 => cases read
  | case2 => cases read
  | case3 => cases read
  | case4 =>
    cases read
    exact List.suffix_rfl
  | case5 c text ih =>
    obtain ⟨inner, found, _⟩ := exists_of_map_eq_some read fun _ => rfl
    exact ((ih found).trans (List.suffix_cons c text)).trans (List.suffix_cons '\\' _)
  | case6 c text _ _ _ _ ih =>
    obtain ⟨inner, found, _⟩ := exists_of_map_eq_some read fun _ => rfl
    exact (ih found).trans (List.suffix_cons c text)

theorem bracketedTarget_append {front back target rest : Text} :
    bracketedTarget (front ++ back) = some (target, rest ++ back) ↔ bracketedTarget front = some (target, rest) := by
  fun_induction bracketedTarget front generalizing target with
  | case1 => exact ⟨fun read => absurd (bracketedTarget_suffix read) (not_suffix_of_append (Nat.le_refl _)), nofun⟩
  | case2 => simp [bracketedTarget]
  | case3 => simp [bracketedTarget]
  | case4 text =>
    rw [List.cons_append, bracketedTarget]
    simp only [Option.some.injEq, Prod.mk.injEq, List.append_cancel_right_eq]
  | case5 c text ih =>
    rw [List.cons_append, List.cons_append, bracketedTarget]
    exact map_eq_some_append (fun _ => ih) (fun _ => rfl) fun _ _ same => by simp [same]
  | case6 c text newline opens closes escapes ih =>
    by_cases escape : c = '\\' ∧ text = [] ∧ back ≠ []
    · obtain ⟨rfl, rfl, more⟩ := escape
      obtain ⟨d, others, rfl⟩ := List.exists_cons_of_ne_nil more
      refine ⟨fun read => ?_, fun read => by simp [bracketedTarget] at read⟩
      obtain ⟨inner, found, _⟩ := exists_of_map_eq_some (read : (bracketedTarget others).map _ = _) fun _ => rfl
      exact absurd (bracketedTarget_suffix found) (not_suffix_of_append (Nat.le_succ _))
    · rw [List.cons_append, bracketedTarget.eq_6 _ _ newline opens closes (takes_nothing_append escapes escape)]
      exact map_eq_some_append (fun _ => ih) (fun _ => rfl) fun _ _ same => by simp [same]

/-! ### Bare targets -/

theorem bareTarget_cons {c : Char} (plain : c ≠ '\\') (opened : Nat) (text : Text) :
    bareTarget opened (c :: text) =
      let finish := if opened = 0 then some ([], c :: text) else none
      if c.toNat ≤ 32 || c.toNat = 127 then finish
      else if c = '(' then
        if opened ≥ 32 then none
        else (bareTarget (opened + 1) text).map fun (target, after) => (c :: target, after)
      else if c = ')' then
        if opened = 0 then finish
        else (bareTarget (opened - 1) text).map fun (target, after) => (c :: target, after)
      else (bareTarget opened text).map fun (target, after) => (c :: target, after) :=
  bareTarget.eq_4 opened c text (fun _ same => absurd same plain) (fun _ _ same => absurd same plain)

theorem bareTarget_of_low {c : Char} (low : (c.toNat ≤ 32 || c.toNat = 127) = true) (opened : Nat) (text : Text) :
    bareTarget opened (c :: text) = if opened = 0 then some ([], c :: text) else none := by
  have plain : c ≠ '\\' := by
    rintro rfl
    exact absurd low (by decide)
  rw [bareTarget_cons plain]
  exact if_pos low

/-- A character that neither opens, closes nor ends a target, and does not escape the next one, is in the target. -/
theorem bareTarget_append_plain (opened : Nat) {c : Char} {text back : Text} (inked : ¬ (c.toNat ≤ 32 || c.toNat = 127) = true)
    (opens : ¬ c = '(') (closes : ¬ c = ')') (escapes : ∀ d others, c = '\\' → text = d :: others → False)
    (inside : ¬ (c = '\\' ∧ text = [] ∧ back ≠ [])) :
    bareTarget opened (c :: text ++ back) =
      (bareTarget opened (text ++ back)).map fun (target, after) => (c :: target, after) := by
  have split := takes_nothing_append escapes inside
  rw [List.cons_append, bareTarget.eq_4 _ _ _ (fun tail same => split ' ' tail same) split, if_neg inked, if_neg opens,
    if_neg closes]

/-- How a target is read off a text that something comes after: some characters are taken and it is read on, or it ends
there, or is refused. Only a backslash at the very end takes a part of what comes after. -/
inductive ReadsOn (back : Text) : Nat → Text → Prop where
  | spent {opened : Nat} : ReadsOn back opened []
  | torn {opened : Nat} (more : back ≠ []) : ReadsOn back opened ['\\']
  | refused {opened : Nat} {text : Text} (refuses : bareTarget opened (text ++ back) = none) : ReadsOn back opened text
  | ended {opened : Nat} {text : Text} (alone : bareTarget opened text = if opened = 0 then some ([], text) else none)
      (also : bareTarget opened (text ++ back) = if opened = 0 then some ([], text ++ back) else none) : ReadsOn back opened text
  | taken {opened next : Nat} {text : Text} (start : Text)
      (alone : bareTarget opened (start ++ text) = (bareTarget next text).map fun (target, after) => (start ++ target, after))
      (also : bareTarget opened (start ++ (text ++ back)) =
        (bareTarget next (text ++ back)).map fun (target, after) => (start ++ target, after))
      (later : ReadsOn back next text) : ReadsOn back opened (start ++ text)

theorem readsOn (back : Text) (opened : Nat) (text : Text) : ReadsOn back opened text := by
  fun_induction bareTarget opened text with
  | case1 => exact .spent
  | case2 => exact .ended rfl rfl
  | case3 opened c text other ih => exact .taken ['\\', c] (bareTarget.eq_3 _ _ _ other) (bareTarget.eq_3 _ _ _ other) ih
  | case4 opened c text _ _ low => exact .ended (bareTarget_of_low low opened text) (bareTarget_of_low low opened _)
  | case5 opened text full _ _ high =>
    refine .refused ?_
    rw [List.cons_append, bareTarget_cons (by decide)]
    simp only [high, full, if_true]
    rfl
  | case6 opened text room _ _ high ih =>
    have takes (others : Text) : bareTarget opened ('(' :: others) =
        (bareTarget (opened + 1) others).map fun (target, after) => ('(' :: target, after) := by
      rw [bareTarget_cons (by decide)]
      simp only [high, room, if_false, if_true]
      rfl
    exact .taken ['('] (takes text) (takes _) ih
  | case7 text _ _ high opens =>
    have ends (others : Text) : bareTarget 0 (')' :: others) = some ([], ')' :: others) := by
      rw [bareTarget_cons (by decide)]
      simp only [high, opens, if_false, if_true]
      rfl
    exact .ended (ends text) (ends _)
  | case8 opened text inside _ _ high opens ih =>
    have takes (others : Text) : bareTarget opened (')' :: others) =
        (bareTarget (opened - 1) others).map fun (target, after) => (')' :: target, after) := by
      rw [bareTarget_cons (by decide)]
      simp only [high, opens, inside, if_false, if_true]
      rfl
    exact .taken [')'] (takes text) (takes _) ih
  | case9 opened c text spaced escapes high opens closes ih =>
    by_cases last : c = '\\' ∧ text = [] ∧ back ≠ []
    · obtain ⟨rfl, rfl, more⟩ := last
      exact .torn more
    · have alone := bareTarget_append_plain opened high opens closes escapes (by simp : ¬ (c = '\\' ∧ text = [] ∧ [] ≠ []))
      rw [List.append_nil, List.append_nil] at alone
      have also := bareTarget_append_plain opened high opens closes escapes last
      exact .taken [c] alone also ih

theorem bareTarget_suffix {opened : Nat} {text target rest : Text} (read : bareTarget opened text = some (target, rest)) :
    rest <:+ text := by
  have finish {opened : Nat} {text target : Text} (finished : (if opened = 0 then some ([], text) else none) = some (target, rest)) :
      rest <:+ text := by
    obtain ⟨_, same⟩ := Option.ite_none_right_eq_some.mp finished
    cases same
    exact List.suffix_rfl
  induction readsOn [] opened text generalizing target with
  | spent => exact finish read
  | torn more => exact absurd rfl more
  | refused refuses =>
    rw [List.append_nil, read] at refuses
    cases refuses
  | ended alone => exact finish (alone ▸ read)
  | taken start alone _ _ ih =>
    rw [alone] at read
    obtain ⟨inner, found, _⟩ := exists_of_map_eq_some read fun _ => rfl
    exact (ih found).trans (List.suffix_append start _)

theorem finish_cut {opened : Nat} {front back target rest : Text}
    (read : (if opened = 0 then some ([], front ++ back) else none) = some (target, rest ++ back)) :
    (if opened = 0 then some ([], front) else none) = some (target, rest) := by
  obtain ⟨closed, same⟩ := Option.ite_none_right_eq_some.mp read
  obtain ⟨rfl, whole⟩ := Prod.mk.inj (Option.some.inj same)
  rw [if_pos closed, List.append_cancel_right whole]

/-- A backslash before the character that ends a target takes that character with it, or is left over. -/
theorem bareTarget_backslash_cut {opened : Nat} {back target rest : Text} (more : back ≠ [])
    (unescaped : rest.head? ≠ some '\\') : bareTarget opened (['\\'] ++ back) ≠ some (target, rest ++ back) := by
  obtain ⟨d, others, rfl⟩ := List.exists_cons_of_ne_nil more
  intro read
  by_cases space : d = ' '
  · subst space
    obtain ⟨_, same⟩ := Option.ite_none_right_eq_some.mp read
    have whole : ['\\'] ++ ' ' :: others = rest ++ ' ' :: others := (Prod.mk.inj (Option.some.inj same)).2
    exact unescaped (by rw [← List.append_cancel_right whole]; rfl)
  · rw [List.singleton_append, bareTarget.eq_3 _ _ _ space] at read
    obtain ⟨inner, found, _⟩ := exists_of_map_eq_some read fun _ => rfl
    have below := (bareTarget_suffix found).length_le
    simp only [List.length_append, List.length_cons] at below
    omega

/-- A target that ends before a gap or the end of a line is read from what stands before it alone. -/
theorem bareTarget_cut {opened : Nat} {front back target rest : Text} (stops : ∀ c ∈ back.head?, c.toNat ≤ 32)
    (unescaped : rest.head? ≠ some '\\')
    (read : bareTarget opened (front ++ back) = some (target, rest ++ back)) : bareTarget opened front = some (target, rest) := by
  induction readsOn back opened front generalizing target with
  | @spent opened =>
    have ends : bareTarget opened ([] ++ back) = if opened = 0 then some ([], [] ++ back) else none := by
      cases back with
      | nil => rfl
      | cons c others => exact bareTarget_of_low (by simp [stops c rfl]) opened others
    exact finish_cut (ends ▸ read)
  | torn more => exact absurd read (bareTarget_backslash_cut more unescaped)
  | refused refuses => cases refuses.symm.trans read
  | ended alone also => exact alone.trans (finish_cut (also ▸ read))
  | taken start alone also _ ih =>
    rw [List.append_assoc, also] at read
    obtain ⟨inner, found, same⟩ := exists_of_map_eq_some read fun _ => rfl
    cases same
    rw [alone, ih found]
    rfl

/-! ### Titles of targets -/

theorem titleUpTo_suffix {mark : Char} {text title rest : Text} (read : titleUpTo mark text = some (title, rest)) :
    mark :: rest <:+ text := by
  fun_induction titleUpTo mark text generalizing title with
  | case1 => cases read
  | case2 =>
    cases read
    exact List.suffix_rfl
  | case3 => cases read
  | case4 =>
    cases read
    exact List.suffix_rfl
  | case5 => cases read
  | case6 d text _ _ ih =>
    obtain ⟨inner, found, _⟩ := exists_of_map_eq_some read fun _ => rfl
    exact ((ih found).trans (List.suffix_cons d text)).trans (List.suffix_cons '\\' _)
  | case7 c d text _ _ _ ih =>
    obtain ⟨inner, found, _⟩ := exists_of_map_eq_some read fun _ => rfl
    exact (ih found).trans (List.suffix_cons c _)

theorem titleUpTo_mark (mark : Char) (text : Text) : titleUpTo mark (mark :: text) = some ([], text) := by
  cases text <;> simp [titleUpTo]

/-- A title that ends in the front of a text is read from the front alone. -/
theorem titleUpTo_append {mark : Char} {front back title rest : Text} :
    titleUpTo mark (front ++ back) = some (title, rest ++ back) ↔ titleUpTo mark front = some (title, rest) := by
  fun_induction titleUpTo mark front generalizing title with
  | case1 => exact ⟨fun read => absurd (titleUpTo_suffix read) (not_suffix_of_append (Nat.le_refl _)), nofun⟩
  | case2 =>
    rw [List.singleton_append, titleUpTo_mark]
    simp
  | case3 c other =>
    refine ⟨fun read => ?_, nofun⟩
    cases back with
    | nil => simp [titleUpTo, other] at read
    | cons d others =>
      rw [List.singleton_append, titleUpTo, if_neg other] at read
      obtain ⟨_, read⟩ := Option.ite_none_left_eq_some.mp read
      split at read
      · obtain ⟨inner, found, _⟩ := exists_of_map_eq_some read fun _ => rfl
        exact absurd (titleUpTo_suffix found) (not_suffix_of_append (Nat.le_succ _))
      · obtain ⟨inner, found, _⟩ := exists_of_map_eq_some read fun _ => rfl
        exact absurd (titleUpTo_suffix found) (not_suffix_of_append (Nat.le_refl _))
  | case4 d text =>
    rw [List.cons_append, titleUpTo_mark]
    simp only [Option.some.injEq, Prod.mk.injEq, List.append_cancel_right_eq]
  | case5 c d text other paren =>
    rw [List.cons_append, List.cons_append, titleUpTo, if_neg other, if_pos paren]
    simp
  | case6 d text other paren ih =>
    rw [List.cons_append, List.cons_append, titleUpTo, if_neg other, if_neg paren, if_pos rfl]
    exact map_eq_some_append (fun _ => ih) (fun _ => rfl) fun _ _ same => by simp [same]
  | case7 c d text other paren plain ih =>
    rw [List.cons_append, List.cons_append, titleUpTo, if_neg other, if_neg paren, if_neg plain]
    exact map_eq_some_append (fun _ => ih) (fun _ => rfl) fun _ _ same => by simp [same]

theorem readTitle_suffix {text title rest : Text} (read : readTitle text = some (title, rest)) :
    ∃ mark, isGap mark = false ∧ mark :: rest <:+ text := by
  unfold readTitle at read
  split at read
  · exact ⟨_, by decide, (titleUpTo_suffix read).trans (List.suffix_cons _ _)⟩
  · exact ⟨_, by decide, (titleUpTo_suffix read).trans (List.suffix_cons _ _)⟩
  · exact ⟨_, by decide, (titleUpTo_suffix read).trans (List.suffix_cons _ _)⟩
  · cases read

theorem readTitle_append {front back title rest : Text} :
    readTitle (front ++ back) = some (title, rest ++ back) ↔ readTitle front = some (title, rest) := by
  cases front with
  | nil =>
    refine ⟨fun read => ?_, nofun⟩
    obtain ⟨mark, _, suffix⟩ := readTitle_suffix read
    exact absurd suffix (not_suffix_of_append (Nat.le_refl _))
  | cons c text =>
    rw [List.cons_append]
    unfold readTitle
    split
    case h_1 rest same | h_2 rest same | h_3 rest same =>
      obtain ⟨rfl, rfl⟩ := List.cons.inj same
      exact titleUpTo_append
    case h_4 => simp_all

/-! ### Spaces and ends of lines -/

def isSpacing (c : Char) : Bool :=
  isGap c || c = '\n'

theorem skipSpace_suffix (text : Text) : skipSpace text <:+ text :=
  List.dropWhile_suffix _

theorem skipSpace_append {front : Text} (inked : ¬ front.all isSpacing = true) (back : Text) :
    skipSpace (front ++ back) = skipSpace front ++ back := by
  have present : (front.dropWhile isSpacing).isEmpty = false := by
    apply Bool.eq_false_iff.mpr
    intro empty
    exact inked (List.all_eq_true.mpr (List.dropWhile_eq_nil_iff.mp (List.isEmpty_iff.mp empty)))
  show (front ++ back).dropWhile isSpacing = front.dropWhile isSpacing ++ back
  rw [List.dropWhile_append, present]
  simp

theorem skipSpace_append_of_all {front : Text} (blank : front.all isSpacing = true) (back : Text) :
    skipSpace (front ++ back) = skipSpace back :=
  List.dropWhile_append_of_pos (List.all_eq_true.mp blank)

/-- What begins with the rest of a line, of which only gaps are left. -/
structure Ending (back : Text) : Prop where
  present : back ≠ []
  ends : endsLine back = true

theorem Ending.head {back : Text} (ending : Ending back) : ∃ c rest, back = c :: rest ∧ isSpacing c = true := by
  obtain ⟨c, rest, rfl⟩ := List.exists_cons_of_ne_nil ending.present
  refine ⟨c, rest, rfl, ?_⟩
  have ends := ending.ends
  by_cases gap : isGap c = true
  · simp [isSpacing, gap]
  · rw [endsLine, List.dropWhile_cons_of_neg gap] at ends
    simpa [isSpacing, gap] using ends

theorem Ending.not_suffix {back rest : Text} (ending : Ending back) (suffix : rest ++ back <:+ skipSpace back) : False := by
  obtain ⟨c, others, rfl, space⟩ := ending.head
  have shorter : skipSpace (c :: others) <:+ others := by
    show (c :: others).dropWhile isSpacing <:+ others
    rw [List.dropWhile_cons_of_pos space]
    exact List.dropWhile_suffix _
  have below := (suffix.trans shorter).length_le
  simp only [List.length_append, List.length_cons] at below
  omega

theorem endsLine_append {back : Text} (ending : Ending back) (front : Text) : endsLine (front ++ back) = endsLine front := by
  unfold endsLine
  by_cases blank : front.all isGap = true
  · have ends := ending.ends
    unfold endsLine at ends
    rw [List.dropWhile_append_of_pos (List.all_eq_true.mp blank), ends,
      List.dropWhile_eq_nil_iff.mpr (List.all_eq_true.mp blank)]
  · have present : (front.dropWhile isGap).isEmpty = false := by
      apply Bool.eq_false_iff.mpr
      intro empty
      exact blank (List.all_eq_true.mpr (List.dropWhile_eq_nil_iff.mp (List.isEmpty_iff.mp empty)))
    rw [List.dropWhile_append, present]
    obtain ⟨c, rest, same⟩ := List.exists_cons_of_ne_nil (List.isEmpty_eq_false_iff.mp present)
    simp [same]

/-- The title between the target of a definition and the end of a line. -/
def title? (behind : Text) : Option (Text × Text) :=
  if (skipSpace behind).length = behind.length then none else readTitle (skipSpace behind)

/-- What remains after the target of a definition and its title, if it has one. -/
def afterTitle? (behind : Text) : Option Text :=
  match title? behind with
  | some (title, after) =>
    if endsLine after then some after else if !title.isEmpty && endsLine behind then some behind else none
  | none => if endsLine behind then some behind else none

theorem afterDefinition?_eq_some_iff {text rest : Text} :
    afterDefinition? text = some rest ↔ ∃ inner label after target behind, text = '[' :: inner ∧
      readLabel inner = some (label, ':' :: after) ∧ readTarget (skipSpace after) = some (target, behind) ∧
      (isSafeTarget target = true ∧ isPresent label = true) ∧ afterTitle? behind = some rest := by
  have checked : ∀ {label target behind : Text}, (if !isSafeTarget target || !isPresent label then none
      else afterTitle? behind) = some rest ↔
        (isSafeTarget target = true ∧ isPresent label = true) ∧ afterTitle? behind = some rest := by
    intro label target behind
    rw [Option.ite_none_left_eq_some]
    simp
  unfold afterDefinition?
  simp only [Option.bind_eq_bind, Option.bind_eq_some_iff, dropStart?_eq_some, List.singleton_append, Prod.exists]
  constructor
  · rintro ⟨inner, rfl, label, _, labelled, after, rfl, target, behind, found, titled⟩
    exact ⟨inner, label, after, target, behind, rfl, labelled, found, checked.mp titled⟩
  · rintro ⟨inner, label, after, target, behind, rfl, labelled, found, titled⟩
    exact ⟨inner, rfl, label, _, labelled, after, rfl, target, behind, found, checked.mpr titled⟩

/-! ### Definitions cut at the end of a line -/

theorem afterTitle?_eq_some_iff {behind rest : Text} :
    afterTitle? behind = some rest ↔ (∃ title, title? behind = some (title, rest) ∧ endsLine rest = true) ∨
      rest = behind ∧ endsLine behind = true ∧
        ∀ title after, title? behind = some (title, after) → endsLine after = false ∧ title ≠ [] := by
  unfold afterTitle?
  cases titled : title? behind with
  | none =>
    rw [Option.ite_none_right_eq_some]
    constructor
    · rintro ⟨ends, same⟩
      exact Or.inr ⟨(Option.some.inj same).symm, ends, nofun⟩
    · rintro (⟨_, found, _⟩ | ⟨rfl, ends, _⟩)
      · cases found
      · exact ⟨ends, rfl⟩
  | some pair =>
    obtain ⟨title, after⟩ := pair
    by_cases ends : endsLine after = true
    · simp only [ends, if_true]
      constructor
      · intro same
        cases same
        exact Or.inl ⟨title, rfl, ends⟩
      · rintro (⟨_, same, _⟩ | ⟨rfl, _, others⟩)
        · cases same
          rfl
        · exact absurd ends (by simp [(others title after rfl).1])
    · simp only [ends, if_neg, Bool.false_eq_true, not_false_eq_true, Option.ite_none_right_eq_some, Bool.and_eq_true,
        Bool.not_eq_true', List.isEmpty_eq_false_iff]
      constructor
      · rintro ⟨⟨present, line⟩, same⟩
        cases same
        refine Or.inr ⟨rfl, line, fun _ _ same => ?_⟩
        cases same
        exact ⟨by simpa using ends, present⟩
      · rintro (⟨_, same, closed⟩ | ⟨rfl, line, others⟩)
        · cases same
          exact absurd closed ends
        · exact ⟨⟨(others title after rfl).2, line⟩, rfl⟩

theorem title?_suffix {behind title rest : Text} (read : title? behind = some (title, rest)) :
    ∃ mark, isGap mark = false ∧ mark :: rest <:+ behind := by
  obtain ⟨_, found⟩ := Option.ite_none_left_eq_some.mp read
  obtain ⟨mark, inked, suffix⟩ := readTitle_suffix found
  exact ⟨mark, inked, suffix.trans (skipSpace_suffix behind)⟩

theorem title?_append {front back title rest : Text} (ending : Ending back) :
    title? (front ++ back) = some (title, rest ++ back) ↔ title? front = some (title, rest) := by
  unfold title?
  by_cases blank : front.all isSpacing = true
  · have empty : skipSpace front = [] := List.dropWhile_eq_nil_iff.mpr (List.all_eq_true.mp blank)
    rw [skipSpace_append_of_all blank, empty]
    constructor
    · intro read
      obtain ⟨_, found⟩ := Option.ite_none_left_eq_some.mp read
      obtain ⟨mark, _, suffix⟩ := readTitle_suffix found
      exact (ending.not_suffix ((List.suffix_cons mark _).trans suffix)).elim
    · intro read
      obtain ⟨_, found⟩ := Option.ite_none_left_eq_some.mp read
      cases found
  · rw [skipSpace_append blank]
    simp only [List.length_append, Nat.add_right_cancel_iff, Option.ite_none_left_eq_some, readTitle_append]

theorem afterTitle?_suffix {behind rest : Text} (read : afterTitle? behind = some rest) : rest <:+ behind := by
  rcases afterTitle?_eq_some_iff.mp read with ⟨title, titled, _⟩ | ⟨rfl, _⟩
  · obtain ⟨mark, _, suffix⟩ := title?_suffix titled
    exact (List.suffix_cons mark rest).trans suffix
  · exact List.suffix_rfl

theorem afterTitle?_cut {front back rest : Text} (ending : Ending back)
    (read : afterTitle? (front ++ back) = some (rest ++ back)) : afterTitle? front = some rest := by
  apply afterTitle?_eq_some_iff.mpr
  rcases afterTitle?_eq_some_iff.mp read with ⟨title, titled, ends⟩ | ⟨same, ends, others⟩
  · exact Or.inl ⟨title, (title?_append ending).mp titled, endsLine_append ending rest ▸ ends⟩
  · refine Or.inr ⟨List.append_cancel_right same, endsLine_append ending front ▸ ends, fun title after titled => ?_⟩
    obtain ⟨goes, present⟩ := others title (after ++ back) ((title?_append ending).mpr titled)
    exact ⟨endsLine_append ending after ▸ goes, present⟩

/-- A definition does not end behind a backslash, since its line does not end there. -/
theorem head?_ne_of_afterTitle? {behind rest : Text} (read : afterTitle? behind = some rest) : behind.head? ≠ some '\\' := by
  intro backslash
  obtain ⟨others, rfl⟩ := List.head?_eq_some_iff.mp backslash
  have stays : skipSpace ('\\' :: others) = '\\' :: others := List.dropWhile_cons_of_neg (by decide)
  rcases afterTitle?_eq_some_iff.mp read with ⟨title, titled, _⟩ | ⟨_, ends, _⟩
  · rw [title?, stays, if_pos rfl] at titled
    cases titled
  · rw [endsLine, List.dropWhile_cons_of_neg (by decide)] at ends
    cases ends

theorem readTarget_suffix {text target rest : Text} (read : readTarget text = some (target, rest)) : rest <:+ text := by
  unfold readTarget at read
  split at read
  · exact ((List.suffix_cons '>' rest).trans (bracketedTarget_suffix read)).trans (List.suffix_cons _ _)
  · exact bareTarget_suffix (Option.filter_eq_some_iff.mp read).1

theorem readTarget_bare {text : Text} (plain : ∀ inner, text = '<' :: inner → False) :
    readTarget text = (bareTarget 0 text).filter fun (target, _) => !target.isEmpty := by
  unfold readTarget
  split
  · exact absurd rfl (plain _)
  · rfl

theorem readTarget_cut {front back target rest : Text} (ending : Ending back) (unescaped : rest.head? ≠ some '\\')
    (read : readTarget (front ++ back) = some (target, rest ++ back)) : readTarget front = some (target, rest) := by
  have stops : ∀ c ∈ back.head?, c.toNat ≤ 32 ∧ c ≠ '<' := by
    obtain ⟨c, others, rfl, space⟩ := ending.head
    intro d first
    obtain rfl : c = d := Option.some.inj first
    simp only [isSpacing, isGap, Bool.or_eq_true, decide_eq_true_eq] at space
    rcases space with (rfl | rfl) | rfl <;> decide
  by_cases bracketed : ∃ inner, front = '<' :: inner
  · obtain ⟨inner, rfl⟩ := bracketed
    exact bracketedTarget_append.mp read
  · have plain : ∀ inner, front = '<' :: inner → False := fun inner same => bracketed ⟨inner, same⟩
    have plain' : ∀ inner, front ++ back = '<' :: inner → False := by
      intro inner same
      cases front with
      | nil => exact (stops '<' (by rw [show back = '<' :: inner from same]; rfl)).2 rfl
      | cons c text => exact plain text (by rw [(List.cons.inj same).1])
    rw [readTarget_bare plain', Option.filter_eq_some_iff] at read
    rw [readTarget_bare plain, Option.filter_eq_some_iff]
    exact ⟨bareTarget_cut (fun c first => (stops c first).1) unescaped read.1, read.2⟩

theorem exists_append_of_suffix {back rest text : Text} (suffix : rest ++ back <:+ text) : ∃ before, text = before ++ back := by
  obtain ⟨before, whole⟩ := suffix
  exact ⟨before ++ rest, by rw [List.append_assoc, whole]⟩

/-- A definition that ends before a text which begins with the end of a line is one without that text. -/
theorem afterDefinition?_cut {front back rest : Text} (ending : Ending back)
    (read : afterDefinition? (front ++ back) = some (rest ++ back)) : afterDefinition? front = some rest := by
  obtain ⟨inner, label, after, target, behind, whole, labelled, found, checked, titled⟩ := afterDefinition?_eq_some_iff.mp read
  -- Whatever is left on the way still holds the text behind the definition.
  obtain ⟨behind, rfl⟩ := exists_append_of_suffix (afterTitle?_suffix titled)
  obtain ⟨after, rfl⟩ := exists_append_of_suffix ((readTarget_suffix found).trans (skipSpace_suffix after))
  have inked : ¬ after.all isSpacing = true := by
    intro blank
    rw [skipSpace_append_of_all blank] at found
    exact ending.not_suffix (readTarget_suffix found)
  obtain ⟨front, rfl, rfl⟩ : ∃ shorter, front = '[' :: shorter ∧ inner = shorter ++ back := by
    cases front with
    | nil =>
      obtain ⟨c, others, rfl, space⟩ := ending.head
      rw [(List.cons.inj whole).1] at space
      exact absurd space (by decide)
    | cons c shorter =>
      obtain ⟨rfl, same⟩ := List.cons.inj whole
      exact ⟨shorter, rfl, same.symm⟩
  have unescaped : behind.head? ≠ some '\\' := by
    intro backslash
    obtain ⟨others, rfl⟩ := List.head?_eq_some_iff.mp backslash
    exact head?_ne_of_afterTitle? titled rfl
  rw [skipSpace_append inked] at found
  exact afterDefinition?_eq_some_iff.mpr ⟨front, label, after, target, behind, rfl, readLabel_append.mp labelled,
    readTarget_cut ending unescaped found, checked, afterTitle?_cut ending titled⟩

theorem afterDefinition?_suffix {text rest : Text} (read : afterDefinition? text = some rest) : rest <:+ text := by
  obtain ⟨inner, label, after, target, behind, rfl, labelled, found, _, titled⟩ := afterDefinition?_eq_some_iff.mp read
  have first : after <:+ inner := (List.suffix_cons _ _).trans ((List.suffix_cons _ _).trans (readLabel_suffix labelled))
  have second : behind <:+ after := (readTarget_suffix found).trans (skipSpace_suffix after)
  exact (((afterTitle?_suffix titled).trans second).trans first).trans (List.suffix_cons _ _)

theorem definitionExtent?_eq_some_iff {text : Text} {further : Nat} :
    definitionExtent? text = some further ↔
      ∃ before rest, text = before ++ rest ∧ afterDefinition? text = some rest ∧ before.count '\n' = further := by
  unfold definitionExtent?
  rw [Option.map_eq_some_iff]
  constructor
  · rintro ⟨rest, read, rfl⟩
    obtain ⟨before, rfl⟩ := afterDefinition?_suffix read
    exact ⟨before, rest, rfl, read, by simp⟩
  · rintro ⟨before, rest, rfl, read, rfl⟩
    exact ⟨rest, read, by simp⟩

/-- A definition that ends on a line of the front is one when the lines after the front go. -/
theorem definitionExtent?_cut_lines {front back : Text} {further : Nat}
    (read : definitionExtent? (front ++ '\n' :: back) = some further) (inside : further ≤ front.count '\n') :
    definitionExtent? front = some further := by
  obtain ⟨before, rest, whole, after, rfl⟩ := definitionExtent?_eq_some_iff.mp read
  obtain ⟨more, rfl, rfl⟩ : ∃ more, front = before ++ more ∧ rest = more ++ '\n' :: back := by
    rcases List.append_eq_append_iff.mp whole with ⟨more, rfl, same⟩ | longer
    · cases more with
      | nil => exact ⟨[], by simp, same.symm⟩
      | cons c more =>
        obtain ⟨rfl, rfl⟩ := List.cons.inj same
        rw [List.count_append, List.count_cons_self] at inside
        omega
    · exact longer
  have cut := afterDefinition?_cut ⟨List.cons_ne_nil _ _, rfl⟩ after
  exact definitionExtent?_eq_some_iff.mpr ⟨before, more, rfl, cut, rfl⟩

/-! ### Gaps at the end of a definition -/

theorem exists_append_of_cons_suffix {c : Char} {rest front gap : Text} (inked : isGap c = false)
    (blank : ∀ d ∈ gap, isGap d = true) (suffix : c :: rest <:+ front ++ gap) : ∃ before, rest = before ++ gap := by
  have outside : c ∉ gap := fun member => absurd (blank c member) (by simp [inked])
  obtain ⟨before, whole⟩ := suffix
  rcases List.append_eq_append_iff.mp whole with ⟨more, rfl, same⟩ | ⟨more, rfl, same⟩
  · cases more with
    | nil => exact absurd (same ▸ List.mem_cons_self : c ∈ [] ++ gap) outside
    | cons d more => exact ⟨more, (List.cons.inj same).2⟩
  · exact absurd (same ▸ List.mem_append_right _ List.mem_cons_self : c ∈ gap) outside

theorem bareTarget_gaps {gap : Text} (blank : ∀ c ∈ gap, isGap c = true) (opened : Nat) :
    bareTarget opened gap = if opened = 0 then some ([], gap) else none := by
  cases gap with
  | nil => rfl
  | cons c others =>
    have space : c = ' ' ∨ c = '\t' := by simpa [isGap] using blank c List.mem_cons_self
    refine bareTarget_of_low ?_ opened others
    rcases space with rfl | rfl <;> decide

/-- What a target leaves of a text that gaps come after: all of the gaps, or all but a tab that stands behind a
backslash at the end of the text. -/
def LeavesGaps (reading : Option (Text × Text)) (gap target rest : Text) : Prop :=
  (∃ before, rest = before ++ gap) ∨ ∃ shorter, target = shorter ++ ['\\', '\t'] ∧ reading = some (shorter ++ ['\\'], [])

theorem LeavesGaps.finish {reading : Option (Text × Text)} {opened : Nat} (front : Text) {gap target rest : Text}
    (read : (if opened = 0 then some ([], front ++ gap) else none) = some (target, rest)) : LeavesGaps reading gap target rest := by
  obtain ⟨_, same⟩ := Option.ite_none_right_eq_some.mp read
  cases same
  exact Or.inl ⟨front, rfl⟩

theorem LeavesGaps.append {reading : Option (Text × Text)} {gap target rest : Text} (leaves : LeavesGaps reading gap target rest)
    (start : Text) : LeavesGaps (reading.map fun (target, after) => (start ++ target, after)) gap (start ++ target) rest := by
  refine Or.imp id ?_ leaves
  rintro ⟨shorter, rfl, rfl⟩
  exact ⟨start ++ shorter, (List.append_assoc ..).symm, congrArg (some <| Prod.mk · []) (List.append_assoc ..).symm⟩

theorem LeavesGaps.backslash {gap target rest : Text} (blank : ∀ c ∈ gap, isGap c = true) (more : gap ≠ []) {opened : Nat}
    (read : bareTarget opened (['\\'] ++ gap) = some (target, rest)) :
    LeavesGaps (bareTarget opened ['\\']) gap target rest := by
  obtain ⟨d, others, rfl⟩ := List.exists_cons_of_ne_nil more
  have space : d = ' ' ∨ d = '\t' := by simpa [isGap] using blank d List.mem_cons_self
  rcases space with rfl | rfl
  · exact .finish ['\\'] read
  · rw [List.singleton_append, bareTarget.eq_3 _ _ _ (by decide),
      bareTarget_gaps fun c member => blank c (List.mem_cons_of_mem _ member)] at read
    obtain ⟨inner, found, same⟩ := exists_of_map_eq_some read fun _ => rfl
    obtain ⟨closed, nothing⟩ := Option.ite_none_right_eq_some.mp found
    cases nothing
    cases same
    subst closed
    exact Or.inr ⟨[], rfl, rfl⟩

/-- Of gaps at the end a target takes at most one, a tab behind a backslash. -/
theorem bareTarget_cut_gaps {opened : Nat} {front gap target rest : Text} (blank : ∀ c ∈ gap, isGap c = true)
    (read : bareTarget opened (front ++ gap) = some (target, rest)) :
    LeavesGaps (bareTarget opened front) gap target rest := by
  induction readsOn gap opened front generalizing target with
  | spent =>
    rw [List.nil_append, bareTarget_gaps blank] at read
    exact .finish [] read
  | torn more => exact .backslash blank more read
  | refused refuses => cases refuses.symm.trans read
  | ended _ also => exact .finish _ (also ▸ read)
  | taken start alone also _ ih =>
    rw [List.append_assoc, also] at read
    obtain ⟨inner, found, same⟩ := exists_of_map_eq_some read fun _ => rfl
    cases same
    rw [alone]
    exact (ih found).append start

/-- A definition that takes a part of the gaps at the end ends with its target. -/
theorem afterDefinition?_cut_gaps {front gap rest : Text} (blank : ∀ c ∈ gap, isGap c = true)
    (read : afterDefinition? (front ++ gap) = some rest) (within : ¬ ∃ before, rest = before ++ gap) :
    afterDefinition? front = some [] := by
  obtain ⟨inner, label, after, target, behind, whole, labelled, found, checked, titled⟩ := afterDefinition?_eq_some_iff.mp read
  have suffix : ']' :: ':' :: after <:+ front ++ gap := by
    rw [whole]
    exact (readLabel_suffix labelled).trans (List.suffix_cons '[' inner)
  obtain ⟨shorter, rfl, rfl⟩ : ∃ shorter, front = '[' :: shorter ∧ inner = shorter ++ gap := by
    cases front with
    | nil =>
      have member : '[' ∈ gap := by
        rw [← List.nil_append gap, whole]
        exact List.mem_cons_self
      exact absurd (blank '[' member) (by decide)
    | cons c shorter =>
      obtain ⟨rfl, same⟩ := List.cons.inj whole
      exact ⟨shorter, rfl, same.symm⟩
  obtain ⟨after, rfl⟩ := exists_append_of_cons_suffix (by decide) blank ((List.suffix_cons ']' _).trans suffix)
  have later : after ++ gap <:+ '[' :: shorter ++ gap :=
    (List.suffix_cons ':' _).trans ((List.suffix_cons ']' _).trans suffix)
  have inked : ¬ after.all isSpacing = true := by
    intro spaces
    rw [skipSpace_append_of_all spaces, ← List.append_nil gap,
      skipSpace_append_of_all (List.all_eq_true.mpr fun c member => by simp [isSpacing, blank c member])] at found
    cases found
  rw [skipSpace_append inked] at found
  -- Neither a title nor a bracket ends among gaps, so the target is a bare one, and nothing comes after it.
  have outside : behind <:+ skipSpace after ++ gap := readTarget_suffix found
  obtain rfl : rest = behind := by
    rcases afterTitle?_eq_some_iff.mp titled with ⟨title, inside, _⟩ | ⟨same, _⟩
    · obtain ⟨mark, other, ends⟩ := title?_suffix inside
      exact absurd (exists_append_of_cons_suffix other blank (ends.trans outside)) within
    · exact same
  have start : (skipSpace after).head? ≠ some '<' := by
    intro bracket
    obtain ⟨text, same⟩ := List.head?_eq_some_iff.mp bracket
    rw [same] at found
    exact within (exists_append_of_cons_suffix (by decide) blank (bracketedTarget_suffix found))
  have plain : ∀ inner, skipSpace after = '<' :: inner → False := fun inner same => start (by rw [same]; rfl)
  have plain' : ∀ inner, skipSpace after ++ gap = '<' :: inner → False := by
    intro inner same
    cases text : skipSpace after with
    | nil => exact inked (List.all_eq_true.mpr (List.dropWhile_eq_nil_iff.mp text))
    | cons c others =>
      rw [text, List.cons_append] at same
      exact start (by rw [text, (List.cons.inj same).1]; rfl)
  rw [readTarget_bare plain', Option.filter_eq_some_iff] at found
  obtain ⟨target', rfl, cut⟩ := (bareTarget_cut_gaps blank found.1).resolve_left within
  refine afterDefinition?_eq_some_iff.mpr ⟨shorter, label, after, target' ++ ['\\'], [], rfl, readLabel_append.mp labelled,
    ?_, ⟨isSafeTarget_backslash_tab target' ▸ checked.1, checked.2⟩, rfl⟩
  rw [readTarget_bare plain, Option.filter_eq_some_iff]
  exact ⟨cut, by simp⟩

/-- Gaps at the end make no difference to a definition. -/
theorem definitionExtent?_cut_gaps {front gap : Text} {further : Nat} (blank : ∀ c ∈ gap, isGap c = true)
    (read : definitionExtent? (front ++ gap) = some further) : definitionExtent? front = some further := by
  by_cases empty : gap = []
  · rwa [empty, List.append_nil] at read
  have ending : Ending gap := by
    refine ⟨empty, ?_⟩
    rw [endsLine, List.dropWhile_eq_nil_iff.mpr blank]
  obtain ⟨before, rest, whole, after, rfl⟩ := definitionExtent?_eq_some_iff.mp read
  rw [definitionExtent?_eq_some_iff]
  by_cases within : ∃ shorter, rest = shorter ++ gap
  · obtain ⟨shorter, rfl⟩ := within
    rw [← List.append_assoc] at whole
    exact ⟨before, shorter, List.append_cancel_right whole, afterDefinition?_cut ending after, rfl⟩
  · refine ⟨front, [], (List.append_nil front).symm, afterDefinition?_cut_gaps blank after within, ?_⟩
    rcases List.append_eq_append_iff.mp whole with ⟨more, rfl, same⟩ | ⟨more, _, same⟩
    · have plain : '\n' ∉ more := by
        intro newline
        have gap := blank '\n' (same ▸ List.mem_append_left rest newline)
        exact absurd gap (by decide)
      rw [List.count_append, List.count_eq_zero.mpr plain, Nat.add_zero]
    · exact absurd ⟨more, same⟩ within

end Bindery.Markdown
