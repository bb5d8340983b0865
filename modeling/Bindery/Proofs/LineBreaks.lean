import Bindery.Proofs.ReferencePlaces
import Bindery.Title.Index
import Mathlib.Data.List.Forall2

/-! Line feeds and spaces inside a book link. Both are blanks, and nearly all of the reader asks no more than that; only
the title of a reference has to stand on one line. -/

namespace Bindery

namespace Text

def spaceFor (c : Char) : Char :=
  if c = '\n' then ' ' else c

/-- A text with its lines run together. -/
def oneLine (text : Text) : Text :=
  text.map spaceFor

theorem spaceFor_of_ne {c : Char} (inLine : c ≠ '\n') : spaceFor c = c :=
  if_neg inLine

theorem apply_spaceFor {α : Type} {f : Char → α} (alike : f ' ' = f '\n') (c : Char) : f (spaceFor c) = f c := by
  by_cases feed : c = '\n'
  · rw [feed]
    exact alike
  · rw [spaceFor_of_ne feed]

theorem spaceFor_eq_iff {c sign : Char} (other : sign ≠ ' ') (inLine : sign ≠ '\n') : spaceFor c = sign ↔ c = sign := by
  refine ⟨fun same => ?_, fun same => by rw [same, spaceFor_of_ne inLine]⟩
  by_cases feed : c = '\n'
  · rw [feed] at same
    exact absurd same other.symm
  · rwa [spaceFor_of_ne feed] at same

theorem spaceFor_eq_space {c : Char} : spaceFor c = ' ' ↔ c = ' ' ∨ c = '\n' := by
  unfold spaceFor
  split <;> simp_all

theorem isBlank_of_spaceFor {c : Char} (space : spaceFor c = ' ') : isBlank c = true := by
  rcases spaceFor_eq_space.mp space with rfl | rfl <;> decide

theorem spaceFor_ne_feed (c : Char) : spaceFor c ≠ '\n' := by
  by_cases feed : c = '\n'
  · rw [feed]
    decide
  · rwa [spaceFor_of_ne feed]

theorem oneLine_cons (c : Char) (rest : Text) : oneLine (c :: rest) = spaceFor c :: oneLine rest :=
  rfl

theorem oneLine_append (text other : Text) : oneLine (text ++ other) = oneLine text ++ oneLine other :=
  List.map_append

theorem exists_append_of_oneLine {text front back : Text} (same : oneLine text = front ++ back) :
    ∃ before after, text = before ++ after ∧ oneLine before = front ∧ oneLine after = back :=
  List.map_eq_append_iff.mp same

theorem exists_cons_of_oneLine {text rest : Text} {c : Char} (same : oneLine text = c :: rest) :
    ∃ d others, text = d :: others ∧ spaceFor d = c ∧ oneLine others = rest :=
  List.map_eq_cons_iff.mp same

theorem oneLine_eq_self {text : Text} (inLine : '\n' ∉ text) : oneLine text = text :=
  map_eq_self fun _ member => spaceFor_of_ne fun feed => inLine (feed ▸ member)

/-- Where no space stands, none was put in. -/
theorem eq_of_oneLine_eq {text line : Text} (same : oneLine text = line) (solid : ' ' ∉ line) : text = line := by
  refine (oneLine_eq_self fun feed => solid ?_).symm.trans same
  rw [← same]
  exact List.mem_map.mpr ⟨'\n', feed, rfl⟩

theorem feed_not_mem_oneLine (text : Text) : '\n' ∉ oneLine text := by
  intro member
  obtain ⟨c, _, same⟩ := List.mem_map.mp member
  exact spaceFor_ne_feed c same

theorem oneLine_join {separator : Text} (inLine : '\n' ∉ separator) (parts : List Text) :
    oneLine (join separator parts) = join separator (parts.map oneLine) := by
  induction parts with
  | nil => rfl
  | cons part parts ih =>
    cases parts with
    | nil => simp only [join_singleton, List.map_singleton]
    | cons next parts => simp only [join_cons_cons, List.map_cons, oneLine_append, oneLine_eq_self inLine] at ih ⊢; rw [ih]

theorem mem_of_mem_oneLine {text : Text} {c : Char} (member : c ∈ text) (inLine : c ≠ '\n') : c ∈ oneLine text :=
  List.mem_map.mpr ⟨c, member, spaceFor_of_ne inLine⟩

section
variable {p : Char → Bool} (alike : p ' ' = p '\n') (text : Text)
include alike

theorem takeWhile_oneLine : (oneLine text).takeWhile p = oneLine (text.takeWhile p) := by
  have same : p ∘ spaceFor = p := funext (apply_spaceFor alike)
  rw [oneLine, List.takeWhile_map, same]
  rfl

theorem dropWhile_oneLine : (oneLine text).dropWhile p = oneLine (text.dropWhile p) := by
  have same : p ∘ spaceFor = p := funext (apply_spaceFor alike)
  rw [oneLine, List.dropWhile_map, same]
  rfl

theorem any_head?_oneLine : (oneLine text).head?.any p = text.head?.any p := by
  cases text with
  | nil => rfl
  | cons c rest => exact apply_spaceFor alike c

theorem all_oneLine : (oneLine text).all p = text.all p := by
  rw [oneLine, List.all_map]
  exact congrArg text.all (funext (apply_spaceFor alike))

end

theorem isEmpty_oneLine (text : Text) : (oneLine text).isEmpty = text.isEmpty :=
  List.isEmpty_map

theorem stripStart_oneLine (text : Text) : stripStart (oneLine text) = oneLine (stripStart text) :=
  dropWhile_oneLine (by decide) text

theorem strip_oneLine (text : Text) : strip (oneLine text) = oneLine (strip text) := by
  rw [strip, stripStart_oneLine, stripEnd, oneLine, ← List.map_reverse]
  change (stripStart (oneLine _)).reverse = _
  rw [stripStart_oneLine, oneLine, ← List.map_reverse]
  rfl

theorem isTight_of_oneLine {text : Text} (tight : IsTight (oneLine text)) : IsTight text := by
  have blank (c : Char) : isBlank (spaceFor c) = isBlank c := apply_spaceFor (by decide) c
  obtain ⟨⟨c, rest, start, first⟩, ⟨front, d, ending, last⟩⟩ := tight
  obtain ⟨a, others, rfl, rfl, _⟩ := List.map_eq_cons_iff.mp start
  obtain ⟨before, after, split, _, final⟩ := List.map_eq_append_iff.mp ending
  obtain ⟨b, rfl, rfl⟩ := List.map_eq_singleton_iff.mp final
  exact ⟨⟨a, others, rfl, by rwa [blank] at first⟩, ⟨before, b, split, by rwa [blank] at last⟩⟩

/-- Separators leave no trace in what they separate, so they may be exchanged. -/
theorem splitOnP_congr {separates : Char → Bool} {text other : Text}
    (alike : List.Forall₂ (fun c d => c = d ∨ separates c = true ∧ separates d = true) text other) :
    text.splitOnP separates = other.splitOnP separates := by
  induction alike with
  | nil => rfl
  | cons same _ ih =>
    rw [List.splitOnP_cons_eq_if_modifyHead, List.splitOnP_cons_eq_if_modifyHead, ih]
    rcases same with rfl | ⟨first, second⟩
    · rfl
    · simp only [first, second, if_true]

theorem forall₂_oneLine {R : Char → Char → Prop} (refl : ∀ c, R c c) (feed : R ' ' '\n') (text : Text) :
    List.Forall₂ R (oneLine text) text := by
  induction text with
  | nil => exact .nil
  | cons c rest ih =>
    refine .cons ?_ ih
    by_cases same : c = '\n'
    · rw [same]
      exact feed
    · rw [spaceFor_of_ne same]
      exact refl c

theorem words_oneLine (text : Text) : words (oneLine text) = words text :=
  congrArg (List.filter _) (splitOnP_congr (forall₂_oneLine (fun _ => Or.inl rfl) (by decide) text))

theorem splitOn_oneLine {sign : Char} (other : sign ≠ ' ') (inLine : sign ≠ '\n') (text : Text) :
    (oneLine text).splitOn sign = (text.splitOn sign).map oneLine := by
  induction text with
  | nil => rfl
  | cons c rest ih =>
    have same : (spaceFor c == sign) = (c == sign) := by
      simp [spaceFor_eq_iff other inLine]
    rw [oneLine, List.map_cons, List.splitOn_cons_eq_if_modifyHead, List.splitOn_cons_eq_if_modifyHead, same]
    change (if c == sign then [] :: (oneLine rest).splitOn sign else ((oneLine rest).splitOn sign).modifyHead _) = _
    rw [ih]
    cases c == sign with
    | true => rfl
    | false => cases rest.splitOn sign <;> rfl

end Text

namespace Identifier
open Text

theorem normalize_oneLine (text : Text) : normalize (oneLine text) = normalize text := by
  have folded : List.Forall₂ (fun c d => c = d ∨ (!isIdentifierChar c) = true ∧ (!isIdentifierChar d) = true)
      (fold (oneLine text)) (fold text) := by
    unfold fold
    refine List.rel_flatMap (R := fun c d => c = d ∨ c = ' ' ∧ d = '\n') ?_ ?_
    · rw [oneLine, List.filter_map]
      have same : (!isQuoteMark ·) ∘ spaceFor = (!isQuoteMark ·) := funext (apply_spaceFor (f := fun c => !isQuoteMark c) (by decide))
      rw [same]
      exact forall₂_oneLine (fun _ => Or.inl rfl) (Or.inr ⟨rfl, rfl⟩) _
    · rintro c d (rfl | ⟨rfl, rfl⟩)
      · exact List.forall₂_same.mpr fun _ _ => Or.inl rfl
      · exact .cons (Or.inr (by decide)) .nil
  unfold normalize pieces runsOutside
  rw [splitOnP_congr folded]

end Identifier

theorem TitleIndex.resolve_oneLine (index : TitleIndex) (text : Text) :
    index.resolve (Text.oneLine text) = index.resolve text := by
  rw [resolve, resolve, Identifier.normalize_oneLine]

namespace Link
open Text Identifier

/-! ### Versions -/

theorem isVersionList_oneLine (text : Text) : isVersionList (oneLine text) = isVersionList text := by
  rw [isVersionList, isVersionList, isEmpty_oneLine, words_oneLine]

theorem versionList_oneLine (text : Text) : versionList (oneLine text) = versionList text := by
  rw [versionList, versionList, words_oneLine]

/-! ### Complete references -/

theorem hasColonNumber_oneLine (text : Text) : hasColonNumber (oneLine text) = hasColonNumber text := by
  induction text with
  | nil => rfl
  | cons c rest ih =>
    have colon : decide (spaceFor c = ':') = decide (c = ':') := apply_spaceFor (f := fun c => decide (c = ':')) (by decide) c
    change (decide (spaceFor c = ':') && (oneLine rest).head?.any isDecimal || hasColonNumber (oneLine rest)) = _
    rw [ih, colon, any_head?_oneLine (by decide)]
    rfl

theorem hasNumberColon_oneLine (text : Text) : hasNumberColon (oneLine text) = hasNumberColon text := by
  induction text with
  | nil => rfl
  | cons c rest ih =>
    have colon (after : Text) : decide ((oneLine after).head? = some ':') = decide (after.head? = some ':') := by
      cases after with
      | nil => rfl
      | cons d after =>
        exact apply_spaceFor (f := fun d => decide (some d = some ':')) (by decide) d
    have digit : isDecimal (spaceFor c) = isDecimal c := apply_spaceFor (by decide) c
    change (isDecimal (spaceFor c) && decide ((stripStart (oneLine rest)).head? = some ':') || hasNumberColon (oneLine rest)) = _
    rw [ih, stripStart_oneLine, colon, digit]
    rfl

theorem hasLoneNumber_oneLine (text : Text) : hasLoneNumber (oneLine text) = hasLoneNumber text := by
  induction text with
  | nil => rfl
  | cons c rest ih =>
    have blank : isBlank (spaceFor c) = isBlank c := apply_spaceFor (by decide) c
    change (isBlank (spaceFor c) && (oneLine rest).head?.any isDecimal && (((oneLine rest).dropWhile isDecimal).isEmpty ||
      ((oneLine rest).dropWhile isDecimal).head?.any isBlank) || hasLoneNumber (oneLine rest)) = _
    rw [ih, blank, any_head?_oneLine (by decide), dropWhile_oneLine (by decide), isEmpty_oneLine, any_head?_oneLine (by decide)]
    rfl

theorem listsReferences_oneLine (text : Text) : listsReferences (oneLine text) = listsReferences text := by
  rw [listsReferences, splitOn_oneLine (by decide) (by decide), ← List.map_reverse, listsReferences]
  cases (text.splitOn ',').reverse with
  | nil => rfl
  | cons last others =>
    cases others with
    | nil => rfl
    | cons next others =>
      have length : (oneLine last).length = last.length := List.length_map spaceFor
      change ((oneLine last).head?.any isBlank && decide ((oneLine last).length ≥ 2)) = _
      rw [any_head?_oneLine (by decide), length]

theorem readsAsComplete_oneLine (text : Text) : readsAsComplete (oneLine text) = readsAsComplete text := by
  rw [readsAsComplete, hasColonNumber_oneLine, hasNumberColon_oneLine, hasLoneNumber_oneLine, listsReferences_oneLine]
  rfl

/-! ### Chapters -/

/-- Running lines together may let an ending be found, but never hides one. -/
def LosesNothing {α : Type} (ending : Text → Option α) : Prop :=
  ∀ text, ending (oneLine text) = none → ending text = none

theorem losesNothing_chapterAlone : LosesNothing chapterAlone? := by
  intro text nothing
  cases text with
  | nil => rfl
  | cons c rest =>
    have digit : isDecimal (spaceFor c) = isDecimal c := apply_spaceFor (by decide) c
    change (if isDecimal (spaceFor c) && (oneLine rest).all isWordChar then _ else none) = none at nothing
    rw [digit, all_oneLine (by decide)] at nothing
    rw [chapterAlone?]
    split at nothing
    next => cases nothing
    next other => exact if_neg other

theorem losesNothing_chapterAndSections : LosesNothing chapterAndSections? := by
  intro text nothing
  unfold chapterAndSections? at nothing ⊢
  rw [List.span_eq_takeWhile_dropWhile] at nothing ⊢
  rw [takeWhile_oneLine (by decide), dropWhile_oneLine (by decide)] at nothing
  cases after : text.dropWhile isWordChar with
  | nil => rfl
  | cons c sections =>
    by_cases colon : c = ':'
    · subst colon
      rw [after] at nothing
      simp only [oneLine, List.map_cons, spaceFor_of_ne (show ':' ≠ '\n' by decide), List.isEmpty_map] at nothing ⊢
      split at nothing
      next absent =>
        have feedless : ((sections.map spaceFor).contains '\n') = false := by
          simpa using fun d _ => spaceFor_ne_feed d
        rw [feedless, Bool.or_false] at absent
        rw [absent, Bool.true_or, if_pos rfl]
      next => cases nothing
    · split
      next same => exact absurd (List.cons.inj (Prod.mk.inj same).2).1 colon
      next => rfl

/-! ### Titles -/

section
variable {α : Type} {ending : Text → Option α} (loses : LosesNothing ending)
include loses

theorem endsNowhere_of_oneLine {rest : Text}
    (nothing : (if rest.head?.any isBlank then ending (oneLine (stripStart rest)) else none) = none) :
    (if rest.head?.any isBlank then ending (stripStart rest) else none) = none := by
  split at nothing
  next blank => exact (if_pos blank).trans (loses _ nothing)
  next other => exact if_neg other

theorem splitTitle?_eq_none_of_oneLine {text : Text} (nothing : splitTitle? ending (oneLine text) = none) :
    splitTitle? ending text = none := by
  induction text with
  | nil => rfl
  | cons c rest ih =>
    have inLine := spaceFor_ne_feed c
    rw [oneLine_cons, splitTitle?, if_neg inLine, any_head?_oneLine (by decide), stripStart_oneLine] at nothing
    rw [splitTitle?]
    split
    next => rfl
    next =>
      split at nothing
      next => cases nothing
      next absent => rw [endsNowhere_of_oneLine loses absent, ih (Option.map_eq_none_iff.mp nothing), Option.map_none]

omit loses in
theorem ne_nil_of_splitTitle? {text title : Text} {found : α} (read : splitTitle? ending text = some (title, found)) :
    title ≠ [] := by
  cases text with
  | nil => cases read
  | cons c rest =>
    rw [splitTitle?] at read
    split at read
    next => cases read
    next =>
      split at read
      next =>
        cases read
        exact List.cons_ne_nil _ _
      next =>
        obtain ⟨_, _, same⟩ := Option.map_eq_some_iff.mp read
        cases same
        exact List.cons_ne_nil _ _

omit loses in
theorem splitTitle?_at_gap {c gap : Char} (sameLine : c ≠ '\n') (blank : isBlank gap = true) {last : Text} (tight : IsTight last)
    {found : α} (ends : ending last = some found) : splitTitle? ending (c :: gap :: last) = some ([c], found) := by
  have after : stripStart (gap :: last) = last := by
    rw [stripStart, List.dropWhile_cons_of_pos blank]
    exact tight.stripStart_eq
  have first : (gap :: last).head?.any isBlank = true := blank
  rw [splitTitle?, if_neg sameLine, if_pos first, after, ends]

/-- A title that is broken is not found, and an unbroken one is found whatever blank comes after it. -/
theorem splitTitle?_broken {title last : Text} {gap : Char} (blank : isBlank gap = true) (tight : IsTight last) {found : α}
    (ends : ending last = some found)
    (joined : splitTitle? ending (oneLine (title ++ gap :: last)) = some (oneLine title, found)) :
    splitTitle? ending (title ++ gap :: last) = if '\n' ∈ title then none else some (title, found) := by
  induction title with
  | nil => exact absurd rfl (ne_nil_of_splitTitle? joined)
  | cons c title ih =>
    by_cases feed : c = '\n'
    · rw [List.cons_append, splitTitle?, if_pos feed, if_pos (feed ▸ List.mem_cons_self)]
    cases title with
    | nil =>
      rw [List.singleton_append, splitTitle?_at_gap feed blank tight ends, if_neg (by simpa using Ne.symm feed)]
    | cons d title =>
      have inLine := spaceFor_ne_feed c
      change splitTitle? ending (spaceFor c :: oneLine (d :: title ++ gap :: last)) =
        some (spaceFor c :: oneLine (d :: title), _) at joined
      rw [splitTitle?, if_neg inLine, any_head?_oneLine (by decide), stripStart_oneLine] at joined
      split at joined
      next => cases joined
      next absent =>
        obtain ⟨⟨_, _⟩, later, same⟩ := Option.map_eq_some_iff.mp joined
        obtain ⟨parts, rfl⟩ := Prod.mk.inj same
        obtain rfl := (List.cons.inj parts).2
        rw [List.cons_append, splitTitle?, if_neg feed, endsNowhere_of_oneLine loses absent, ih later]
        have other : ('\n' ∈ c :: d :: title) ↔ '\n' ∈ d :: title := by simp [Ne.symm feed]
        simp only [other]
        split <;> rfl

end

/-! ### Names of titles -/

namespace Reader
variable (reader : Reader) (collection : Option Text)

theorem isNumberedTitle_oneLine (title : Text) :
    reader.isNumberedTitle collection (oneLine title) = reader.isNumberedTitle collection title := by
  by_cases digits : title.all isDecimal = true
  · have inLine : '\n' ∉ title := fun feed => absurd (List.all_eq_true.mp digits _ feed) (by decide)
    rw [oneLine_eq_self inLine]
  · have others : ¬ (oneLine title).all isDecimal = true := by rwa [all_oneLine (by decide)]
    rw [isNumberedTitle, isNumberedTitle, if_neg (by simp [others]), if_neg (by simp [digits])]

theorem resolveTitle_oneLine (title : Text) :
    reader.resolveTitle collection (oneLine title) = reader.resolveTitle collection title := by
  rw [resolveTitle, resolveTitle, strip_oneLine, isNumberedTitle_oneLine, TitleIndex.resolve_oneLine]
  by_cases digits : (strip title).all isDecimal = true
  · have inLine : '\n' ∉ strip title := fun feed => absurd (List.all_eq_true.mp digits _ feed) (by decide)
    rw [oneLine_eq_self inLine]
  · have named : reader.isNumberedTitle collection (strip title) = .ok false := if_neg (by simp [digits])
    rw [named]
    rfl

end Reader

end Link
end Bindery
