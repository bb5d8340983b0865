import Bindery.Markdown.LinkDefinition
import Bindery.Proofs.TextLines

/-! Escapes in the targets of links. A character that is given by its number or its name lies before the backslash
that may come after it, so a tab behind a last backslash stands for itself, and it says nothing about whether the
target is safe. -/

namespace Bindery.Markdown
open Text

/-! ### Characters given by number or name -/

theorem cutAt_append {mark : Char} {back : Text} (absent : mark ∉ back) (front : Text) :
    cutAt mark (front ++ back) = (cutAt mark front).map fun (before, after) => (before, after ++ back) := by
  induction front with
  | nil =>
    show cutAt mark back = none
    induction back with
    | nil => rfl
    | cons c back ih =>
      obtain ⟨other, later⟩ := List.ne_and_not_mem_of_not_mem_cons absent
      rw [cutAt, if_neg (Ne.symm other), ih later]
      rfl
  | cons c front ih =>
    rw [List.cons_append, cutAt, cutAt]
    split
    · rfl
    · rw [ih]
      cases cutAt mark front <;> rfl

theorem readCharacterNumber_append {tail : Text} (absent : ';' ∉ tail) (text : Text) :
    readCharacterNumber (text ++ '\\' :: tail) =
      (readCharacterNumber text).map fun (d, after) => (d, after ++ '\\' :: tail) := by
  have cut : ∀ text, cutAt ';' (text ++ '\\' :: tail) =
      (cutAt ';' text).map fun (before, after) => (before, after ++ '\\' :: tail) := cutAt_append (by simp [absent])
  unfold readCharacterNumber
  split
  next rest same =>
    rcases text with _ | ⟨c, _ | ⟨d, text⟩⟩
    · simp at same
    · simp at same
    · simp only [List.cons_append, List.cons.injEq] at same
      obtain ⟨rfl, rfl, rfl⟩ := same
      simp only [cut]
      cases cutAt ';' text with
      | none => rfl
      | some pair =>
        obtain ⟨digits, after⟩ := pair
        simp only [Option.map_some, Option.bind_eq_bind, Option.bind_some, Option.map_bind]
        congr 1
        funext values
        simp only [Function.comp]
        split <;> rfl
  next other =>
    split
    next => simp_all
    next => rfl

theorem dropStart?_append_of_notMem {c : Char} {start : Text} (absent : c ∉ start) (text rest : Text) :
    dropStart? start (text ++ c :: rest) = (dropStart? start text).map (· ++ c :: rest) := by
  induction start generalizing text with
  | nil => rfl
  | cons s start ih =>
    obtain ⟨other, later⟩ := List.ne_and_not_mem_of_not_mem_cons absent
    cases text with
    | nil => exact if_neg (Ne.symm other)
    | cons d text =>
      rw [List.cons_append, dropStart?, dropStart?]
      split
      · exact ih later text
      · rfl

/-- A character that is given by its number or its name. -/
def reference? (text : Text) : Option (Char × Text) :=
  (readCharacterNumber text).or (readCharacterName text)

theorem reference?_append {tail : Text} (absent : ';' ∉ tail) (text : Text) :
    reference? (text ++ '\\' :: tail) = (reference? text).map fun (d, after) => (d, after ++ '\\' :: tail) := by
  have named : readCharacterName (text ++ '\\' :: tail) =
      (readCharacterName text).map fun (d, after) => (d, after ++ '\\' :: tail) := by
    have each : ∀ entry ∈ namedCharacters, dropStart? entry.1 (text ++ '\\' :: tail) =
        (dropStart? entry.1 text).map (· ++ '\\' :: tail) := by
      intro entry member
      refine dropStart?_append_of_notMem ?_ text tail
      revert entry
      decide
    unfold readCharacterName
    generalize namedCharacters = entries at each
    induction entries with
    | nil => rfl
    | cons entry entries ih =>
      have own := each entry List.mem_cons_self
      rw [List.findSome?_cons, List.findSome?_cons]
      simp only [own]
      cases dropStart? entry.1 text with
      | none => exact ih fun other member => each other (List.mem_cons_of_mem entry member)
      | some after => rfl
  unfold reference?
  rw [readCharacterNumber_append absent, named]
  cases readCharacterNumber text <;> rfl

theorem cutAt_length {mark : Char} {text before after : Text} (cut : cutAt mark text = some (before, after)) :
    after.length < text.length := by
  induction text generalizing before with
  | nil => cases cut
  | cons c text ih =>
    rw [cutAt] at cut
    split at cut
    · cases cut
      exact Nat.lt_succ_self _
    · obtain ⟨⟨inner, rest⟩, found, same⟩ := Option.map_eq_some_iff.mp cut
      cases same
      exact Nat.lt_succ_of_lt (ih found)

theorem reference?_length {text after : Text} {d : Char} (found : reference? text = some (d, after)) :
    after.length < text.length := by
  rcases Option.or_eq_some_iff.mp found with number | ⟨_, name⟩
  · unfold readCharacterNumber at number
    split at number
    · simp only [Option.bind_eq_bind, Option.bind_eq_some_iff] at number
      obtain ⟨⟨digits, rest⟩, cut, values, _, built⟩ := number
      obtain ⟨_, same⟩ := Option.ite_none_left_eq_some.mp built
      cases same
      exact Nat.lt_succ_of_lt (Nat.lt_succ_of_lt (cutAt_length cut))
    · cases number
  · obtain ⟨entry, member, dropped⟩ := List.exists_of_findSome?_eq_some name
    obtain ⟨rest, start, same⟩ := Option.map_eq_some_iff.mp dropped
    cases same
    have named : ∀ entry ∈ namedCharacters, entry.1 ≠ [] := by decide
    have longer := List.length_pos_iff.mpr (named entry member)
    rw [dropStart?_eq_some.mp start, List.length_append]
    omega

/-! ### Backslashes -/

theorem unescape_cons (fuel : Nat) (c : Char) (text : Text) : unescape (fuel + 1) (c :: text) =
    match reference? (c :: text), c, text with
    | some (d, after), _, _ => d :: unescape fuel after
    | none, '\\', d :: after => if isPunctuation d then d :: unescape fuel after else c :: unescape fuel text
    | none, _, _ => c :: unescape fuel text := by
  rfl

theorem unescape_nil (fuel : Nat) : unescape fuel [] = [] := by
  cases fuel <;> rfl

theorem unescape_tab (fuel : Nat) : unescape (fuel + 1) ['\t'] = ['\t'] := by
  rw [unescape_cons, show reference? ['\t'] = none from rfl]
  simp [unescape_nil]

theorem unescape_backslash (fuel : Nat) : unescape (fuel + 1) ['\\'] = ['\\'] := by
  rw [unescape_cons, show reference? ['\\'] = none from rfl]
  simp [unescape_nil]

theorem unescape_tab_escaped (fuel : Nat) : unescape (fuel + 2) ['\\', '\t'] = ['\\', '\t'] := by
  rw [unescape_cons, show reference? ['\\', '\t'] = none from rfl]
  simp [unescape_tab, isPunctuation]

/-- A backslash does not escape a tab. -/
theorem unescape_backslash_tab {fuel : Nat} {target : Text} (room : target.length ≤ fuel) :
    unescape (fuel + 2) (target ++ ['\\', '\t']) = unescape (fuel + 1) (target ++ ['\\']) ++ ['\t'] := by
  have last (fuel : Nat) : unescape (fuel + 2) ['\\', '\t'] = unescape (fuel + 1) ['\\'] ++ ['\t'] := by
    rw [unescape_tab_escaped, unescape_backslash]
    rfl
  induction fuel generalizing target with
  | zero =>
    rw [List.length_eq_zero_iff.mp (Nat.le_zero.mp room)]
    exact last 0
  | succ fuel ih =>
    cases target with
    | nil => exact last _
    | cons c target =>
      rw [List.cons_append, List.cons_append, unescape_cons, unescape_cons, ← List.cons_append, ← List.cons_append,
        reference?_append (show ';' ∉ ['\t'] by decide), reference?_append (show ';' ∉ ([] : Text) by decide)]
      have shorter : target.length ≤ fuel := Nat.le_of_succ_le_succ room
      cases found : reference? (c :: target) with
      | some pair =>
        obtain ⟨d, after⟩ := pair
        have below := reference?_length found
        simp only [Option.map_some, List.cons_append]
        rw [ih (Nat.le_of_succ_le_succ (Nat.le_trans below room))]
      | none =>
        simp only [Option.map_none]
        by_cases backslash : c = '\\'
        · subst backslash
          cases target with
          | nil => simp [unescape_tab, unescape_nil, show isPunctuation '\\' = true by decide]
          | cons d target =>
            have further := ih shorter
            have within := ih (Nat.le_of_succ_le shorter)
            simp only [List.cons_append] at further ⊢
            split
            · rw [within, List.cons_append]
            · rw [further, List.cons_append]
        · simp [backslash, ih shorter]

theorem isSafeTarget_backslash_tab (target : Text) :
    isSafeTarget (target ++ ['\\', '\t']) = isSafeTarget (target ++ ['\\']) := by
  have same : strip (unescape (target ++ ['\\', '\t']).length (target ++ ['\\', '\t'])) =
      strip (unescape (target ++ ['\\']).length (target ++ ['\\'])) := by
    rw [List.length_append, List.length_append]
    show strip (unescape (target.length + 2) _) = strip (unescape (target.length + 1) _)
    rw [unescape_backslash_tab (Nat.le_refl _), strip_append_of_blank (by decide)]
  unfold isSafeTarget
  rw [same]

end Bindery.Markdown
