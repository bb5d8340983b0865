import Bindery.Proofs.LinkRoundTrip

/-! Links in running text. Scanning passes over plain text and finds one link after another, each up to its own
closing mark, as long as no link is empty; an empty link goes on to the next closing mark, if there is one. -/

namespace Bindery.Link
open Text

/-! ### Marks -/

/-- A mark occurs in no piece of a text in which it does not occur. -/
theorem not_isInfix_of_append {mark before after : Text} (absent : ¬ mark <:+: before ++ after) :
    ¬ mark <:+: before ∧ ¬ mark <:+: after :=
  ⟨fun inside => absent (inside.trans (List.prefix_append before after).isInfix),
    fun inside => absent (inside.trans (List.suffix_append before after).isInfix)⟩

/-- No end of an opening mark is the beginning of another one. -/
theorem not_isPrefix_drop_opening : ∀ n < opening.length, 0 < n → ¬ opening.drop n <+: opening := by
  decide

/-- Where plain text ends at an opening mark, no link begins before that mark. -/
theorem dropStart?_opening_eq_none {front : Text} (present : front ≠ []) (plain : ¬ opening <:+: front) {rest : Text}
    (follows : rest = [] ∨ opening <+: rest) : dropStart? opening (front ++ rest) = none := by
  by_contra starts
  obtain ⟨inner, dropped⟩ := Option.ne_none_iff_exists'.mp starts
  have whole := dropStart?_eq_some.mp dropped
  rcases List.append_eq_append_iff.mp whole with ⟨last, split, further⟩ | ⟨more, same, _⟩
  · have end' : last = opening.drop front.length := by
      rw [split, List.drop_left]
    rcases follows with rfl | mark
    · obtain ⟨rfl, _⟩ := List.append_eq_nil_iff.mp further.symm
      rw [List.append_nil] at split
      exact plain (split ▸ List.infix_rfl)
    · have short : front.length ≤ opening.length := by
        rw [split, List.length_append]
        exact Nat.le_add_right _ _
      rcases Nat.lt_or_eq_of_le short with shorter | same
      · have begins : last <+: opening :=
          List.prefix_of_prefix_length_le ⟨inner, further.symm⟩ mark (by rw [end', List.length_drop]; omega)
        exact not_isPrefix_drop_opening _ shorter (List.length_pos_iff.mpr present) (end' ▸ begins)
      · rw [end', same, List.drop_length, List.append_nil] at split
        exact plain (split ▸ List.infix_rfl)
  · exact plain (same ▸ (List.prefix_append opening more).isInfix)

/-! ### The end of a link -/

open linkBody? in
theorem bodyBefore?_eq_none_iff {text : Text} : bodyBefore? text = none ↔ ¬ closing <:+: text := by
  induction text with
  | nil => simp [bodyBefore?, closing]
  | cons c rest ih =>
    rw [bodyBefore?, List.infix_cons_iff, not_or]
    by_cases here : closing.isPrefixOf (c :: rest) = true
    · simp [here, List.isPrefixOf_iff_prefix.mp here]
    · have other : ¬ closing <+: c :: rest := fun mark => here (List.isPrefixOf_iff_prefix.mpr mark)
      simp [here, other, ih]

open linkBody? in
theorem bodyBefore?_append {body : Text} (unbroken : ¬ closing <:+: body) (ended : body.getLast? ≠ some ']') (after : Text) :
    bodyBefore? (body ++ closing ++ after) = some body := by
  induction body with
  | nil => rfl
  | cons c rest ih =>
    have nowhere : ¬ closing <+: c :: rest ++ closing ++ after := by
      intro mark
      cases rest with
      | nil =>
        obtain rfl : ']' = c := by simpa [closing] using mark
        exact ended rfl
      | cons d rest =>
        have inside : closing <+: c :: d :: rest := by simpa [closing] using mark
        exact unbroken inside.isInfix
    have later := ih (fun inside => unbroken (List.infix_cons inside)) fun last => ended (by
      rw [List.getLast?_cons, last]
      rfl)
    rw [List.cons_append, List.cons_append, bodyBefore?, if_neg, later, Option.map_some]
    simpa using nowhere

open linkBody? in
theorem closed_of_bodyBefore? {text body : Text} (found : bodyBefore? text = some body) : body ++ closing <+: text := by
  induction text generalizing body with
  | nil => cases found
  | cons c text ih =>
    rw [bodyBefore?] at found
    split at found
    next here =>
      obtain rfl := Option.some.inj found
      exact List.isPrefixOf_iff_prefix.mp here
    next =>
      obtain ⟨rest, later, rfl⟩ := Option.map_eq_some_iff.mp found
      exact (List.prefix_cons_inj c).mpr (ih later)

theorem closed_of_linkBody? {text body : Text} (found : linkBody? text = some body) : body ++ closing <+: text := by
  cases text with
  | nil => cases found
  | cons c text =>
    obtain ⟨rest, later, rfl⟩ := Option.map_eq_some_iff.mp found
    exact (List.prefix_cons_inj c).mpr (closed_of_bodyBefore? later)

open linkBody? in
/-- What comes behind a link does not matter to it. -/
theorem bodyBefore?_exchange {body rest other : Text} (found : bodyBefore? (body ++ closing ++ rest) = some body) :
    bodyBefore? (body ++ closing ++ other) = some body := by
  induction body with
  | nil => rfl
  | cons c body ih =>
    have start : closing.isPrefixOf (c :: body ++ closing ++ other) = closing.isPrefixOf (c :: body ++ closing ++ rest) := by
      cases body <;> rfl
    rw [List.cons_append, List.cons_append, bodyBefore?] at found ⊢
    rw [List.cons_append, List.cons_append] at start
    rw [start]
    split at found
    next => cases found
    next nowhere =>
      obtain ⟨inner, later, same⟩ := Option.map_eq_some_iff.mp found
      obtain rfl := (List.cons.inj same).2
      rw [ih later, Option.map_some]
      exact if_neg nowhere

theorem linkBody?_exchange {body rest other : Text} (found : linkBody? (body ++ closing ++ rest) = some body) :
    linkBody? (body ++ closing ++ other) = some body := by
  cases body with
  | nil =>
    obtain ⟨inner, _, same⟩ := Option.map_eq_some_iff.mp found
    cases same
  | cons c body =>
    obtain ⟨inner, later, same⟩ := Option.map_eq_some_iff.mp found
    obtain rfl := (List.cons.inj same).2
    exact Option.map_eq_some_iff.mpr ⟨inner, bodyBefore?_exchange later, rfl⟩

/-! ### Scanning -/

theorem findLinksFrom_skip (skipped rest : Text) : findLinksFrom skipped.length (skipped ++ rest) = findLinksFrom 0 rest := by
  induction skipped with
  | nil => rfl
  | cons c skipped ih => exact ih

theorem findLinksFrom_append {text rest : Text} (plain : ¬ opening <:+: text) (follows : rest = [] ∨ opening <+: rest) :
    findLinksFrom 0 (text ++ rest) = findLinksFrom 0 rest := by
  induction text with
  | nil => rfl
  | cons c text ih =>
    have nowhere := dropStart?_opening_eq_none (List.cons_ne_nil c text) plain follows
    rw [List.cons_append] at nowhere ⊢
    simp only [findLinksFrom, nowhere, Option.bind_none]
    exact ih fun inside => plain (List.infix_cons inside)

theorem linkBody?_append {body : Text} (present : body ≠ []) (unbroken : ¬ closing <:+: body)
    (ended : body.getLast? ≠ some ']') (after : Text) : linkBody? (body ++ closing ++ after) = some body := by
  obtain ⟨c, rest, rfl⟩ := List.exists_cons_of_ne_nil present
  cases rest with
  | nil => rfl
  | cons d rest =>
    have later := bodyBefore?_append (fun inside => unbroken (List.infix_cons inside))
      (fun last => ended (by rwa [List.getLast?_cons_cons])) after
    rw [List.cons_append, List.cons_append, linkBody?, later]
    rfl

theorem findLinksFrom_opening {inner body : Text} (found : linkBody? inner = some body) : findLinksFrom 0 (opening ++ inner) =
    (opening ++ body ++ closing) ::
      findLinksFrom (opening.length + body.length + closing.length - 1) ((opening ++ inner).drop 1) := by
  have dropped := dropStart?_append opening inner
  have start : opening ++ inner = '[' :: (opening ++ inner).drop 1 := rfl
  rw [start] at dropped ⊢
  simp only [findLinksFrom, dropped, Option.bind_some, found]
  rfl

theorem findLinksFrom_found {body after : Text} (found : linkBody? (body ++ closing ++ after) = some body) :
    findLinksFrom 0 (opening ++ body ++ closing ++ after) = (opening ++ body ++ closing) :: findLinksFrom 0 after := by
  have skipped := findLinksFrom_skip ((opening ++ body ++ closing).drop 1) after
  have length : ((opening ++ body ++ closing).drop 1).length = opening.length + body.length + closing.length - 1 := by
    simp only [List.length_drop, List.length_append]
  have whole : opening ++ body ++ closing ++ after = opening ++ (body ++ closing ++ after) := by
    simp only [List.append_assoc]
  have rest : (opening ++ (body ++ closing ++ after)).drop 1 = (opening ++ body ++ closing).drop 1 ++ after := by
    rw [← whole]
    rfl
  rw [whole, findLinksFrom_opening found, rest, ← length, skipped]

theorem findLinksFrom_link {body : Text} (present : body ≠ []) (unbroken : ¬ closing <:+: body)
    (ended : body.getLast? ≠ some ']') (after : Text) :
    findLinksFrom 0 (opening ++ body ++ closing ++ after) = (opening ++ body ++ closing) :: findLinksFrom 0 after :=
  findLinksFrom_found (linkBody?_append present unbroken ended after)

/-- Without a closing mark there is no link. -/
theorem findLinksFrom_eq_nil {text : Text} (open' : ¬ closing <:+: text) : findLinksFrom 0 text = [] := by
  induction text with
  | nil => rfl
  | cons c rest ih =>
    have nothing : (dropStart? opening (c :: rest)).bind linkBody? = none := by
      cases dropped : dropStart? opening (c :: rest) with
      | none => rfl
      | some inner =>
        rw [dropStart?_eq_some.mp dropped] at open'
        cases inner with
        | nil => rfl
        | cons d inner =>
          have without := (not_isInfix_of_append open').2
          have later := bodyBefore?_eq_none_iff.mpr fun inside => without (List.infix_cons inside)
          rw [Option.bind_some, linkBody?, later]
          rfl
    simp only [findLinksFrom, nothing]
    exact ih fun inside => open' (List.infix_cons inside)

/-! ### Empty links -/

open linkBody? in
theorem bodyBefore?_starts {rest body : Text} (found : bodyBefore? (']' :: rest) = some body) :
    body = [] ∨ ∃ more, body = ']' :: more := by
  rw [bodyBefore?] at found
  split at found
  next => exact Or.inl (Option.some.inj found).symm
  next =>
    obtain ⟨more, _, rfl⟩ := Option.map_eq_some_iff.mp found
    exact Or.inr ⟨more, rfl⟩

theorem linkBody?_closing (rest : Text) :
    linkBody? (closing ++ rest) = (linkBody?.bodyBefore? (']' :: rest)).map (']' :: ·) :=
  rfl

theorem findLinksFrom_empty {rest : Text} (open' : ¬ closing <:+: ']' :: rest) :
    findLinksFrom 0 (opening ++ closing ++ rest) = [] := by
  have nothing : linkBody? (closing ++ rest) = none := by
    rw [linkBody?_closing, bodyBefore?_eq_none_iff.mpr open', Option.map_none]
  have dropped : dropStart? opening (opening ++ closing ++ rest) = some (closing ++ rest) := rfl
  have start : opening ++ closing ++ rest = '[' :: ("[book::]]".toList ++ rest) := rfl
  have further : findLinksFrom 0 ("[book::]]".toList ++ rest) = findLinksFrom 0 rest := rfl
  rw [start] at dropped ⊢
  simp only [findLinksFrom, dropped, Option.bind_some, nothing]
  rw [further]
  exact findLinksFrom_eq_nil fun inside => open' (List.infix_cons inside)

/-- An empty link goes on to the next closing mark. -/
theorem exists_findLinksFrom_empty {rest : Text} (closed : closing <:+: ']' :: rest) : ∃ body links,
    findLinksFrom 0 (opening ++ closing ++ rest) = (opening ++ ']' :: body ++ closing) :: links ∧
      (body = [] ∨ ∃ more, body = ']' :: more) := by
  obtain ⟨body, found⟩ := Option.ne_none_iff_exists'.mp fun unclosed => bodyBefore?_eq_none_iff.mp unclosed closed
  have late : linkBody? (closing ++ rest) = some (']' :: body) := by
    rw [linkBody?_closing, found, Option.map_some]
  rw [List.append_assoc]
  exact ⟨body, _, findLinksFrom_opening late, bodyBefore?_starts found⟩

/-! ### Where the scan comes to -/

/-- The scan passes over the beginning of a text, finds these links in it, and then goes on with the rest. -/
inductive Reaches (rest : Text) : Text → List Text → Prop
  | start : Reaches rest [] []
  | past {c : Char} {before : Text} {found : List Text}
      (nothing : (dropStart? opening (c :: (before ++ rest))).bind linkBody? = none) (later : Reaches rest before found) :
      Reaches rest (c :: before) found
  | through {body before : Text} {found : List Text} (link : linkBody? (body ++ closing ++ (before ++ rest)) = some body)
      (later : Reaches rest before found) :
      Reaches rest (opening ++ body ++ closing ++ before) ((opening ++ body ++ closing) :: found)

theorem findLinks_of_reaches {rest before : Text} {found : List Text} (reached : Reaches rest before found) :
    findLinks (before ++ rest) = found ++ findLinks rest := by
  unfold findLinks
  induction reached with
  | start => rfl
  | past nothing _ ih =>
    rw [List.cons_append]
    simp only [findLinksFrom, nothing]
    exact ih
  | through link _ ih => rw [List.append_assoc, findLinksFrom_found link, ih, List.cons_append]

/-- Every link that is found stands somewhere that the scan comes to, with the links before it behind. -/
theorem exists_reaches {text link : Text} {front rest : List Text} (links : findLinks text = front ++ link :: rest) :
    ∃ before body after, text = before ++ link ++ after ∧ link = opening ++ body ++ closing ∧
      linkBody? (body ++ closing ++ after) = some body ∧ Reaches (link ++ after) before front := by
  unfold findLinks at links
  induction long : text.length using Nat.strongRecOn generalizing text front with
  | ind length ih =>
  cases text with
  | nil => cases front <;> cases links
  | cons c text =>
    cases here : (dropStart? opening (c :: text)).bind linkBody? with
    | none =>
      simp only [findLinksFrom, here] at links
      obtain ⟨before, body, after, rfl, same, link, reached⟩ := ih text.length (long ▸ Nat.lt_succ_self _) links rfl
      rw [List.append_assoc] at here
      exact ⟨c :: before, body, after, rfl, same, link, .past here reached⟩
    | some body =>
      obtain ⟨inner, start, within⟩ := Option.bind_eq_some_iff.mp here
      obtain ⟨after, rfl⟩ := closed_of_linkBody? within
      have whole : c :: text = opening ++ body ++ closing ++ after := by
        rw [dropStart?_eq_some.mp start]
        simp only [List.append_assoc]
      rw [whole, findLinksFrom_found within] at links
      cases front with
      | nil =>
        obtain ⟨rfl, _⟩ := List.cons.inj links
        exact ⟨[], body, after, whole, rfl, within, .start⟩
      | cons first front =>
        obtain ⟨rfl, later⟩ := List.cons.inj links
        have shorter : after.length < (c :: text).length := by
          have positive : 0 < opening.length := by decide
          rw [whole]
          simp only [List.length_append]
          omega
        obtain ⟨before, other, others, rfl, same, link', reached⟩ := ih after.length (long ▸ shorter) later rfl
        rw [List.append_assoc before] at within whole
        refine ⟨opening ++ body ++ closing ++ before, other, others, ?_, same, link', .through within reached⟩
        rw [whole]
        simp only [List.append_assoc]

theorem dropStart?_append_of_length_le {start text : Text} (long : start.length ≤ text.length) (rest : Text) :
    dropStart? start (text ++ rest) = (dropStart? start text).map (· ++ rest) := by
  induction start generalizing text with
  | nil => rfl
  | cons s start ih =>
    cases text with
    | nil => simp at long
    | cons c text =>
      by_cases same : s = c
      · simpa [dropStart?, same] using ih (Nat.le_of_succ_le_succ long)
      · simp [dropStart?, same]

/-- A link may be exchanged for another one, and the scan comes to it as before. -/
theorem Reaches.exchange {body after before : Text} {found : List Text}
    (reached : Reaches (opening ++ (body ++ closing ++ after)) before found) (other : Text) :
    Reaches (opening ++ other) before found := by
  induction reached with
  | start => exact .start
  | through link _ ih => exact .through (linkBody?_exchange link) ih
  | @past c before found nothing _ ih =>
    refine .past ?_ ih
    have long : opening.length ≤ (c :: before ++ opening).length := by
      rw [List.length_append]
      exact Nat.le_add_left _ _
    have nowhere : dropStart? opening (c :: before ++ opening) = none := by
      by_contra starts
      obtain ⟨inner, dropped⟩ := Option.ne_none_iff_exists'.mp starts
      have shorter := congrArg List.length (dropStart?_eq_some.mp dropped)
      have whole := dropStart?_append_of_length_le long (body ++ closing ++ after)
      rw [dropped, Option.map_some, List.append_assoc] at whole
      rw [← List.cons_append, whole, Option.bind_some] at nothing
      cases inner with
      | nil =>
        simp only [List.length_append, List.length_cons, List.length_nil] at shorter
        omega
      | cons d inner =>
        have closed : closing <:+: inner ++ (body ++ closing ++ after) := ⟨inner ++ body, after, by simp only [List.append_assoc]⟩
        exact bodyBefore?_eq_none_iff.mp (Option.map_eq_none_iff.mp nothing) closed
    have whole := dropStart?_append_of_length_le long other
    rw [nowhere, Option.map_none, List.append_assoc] at whole
    rw [← List.cons_append, whole, Option.bind_none]

/-! ### Links that stand in a text -/

/-- A link as it is written, and the plain text up to the next one. -/
structure PlacedLink where
  body : Text
  after : Text
  unbroken : ¬ closing <:+: body
  ended : body.getLast? ≠ some ']'
  plain : ¬ opening <:+: after

namespace PlacedLink

def link (placed : PlacedLink) : Text :=
  opening ++ placed.body ++ closing

def text (placed : PlacedLink) : Text :=
  placed.link ++ placed.after

end PlacedLink

/-- Links one after another, each with the text behind it. -/
def spread (links : List PlacedLink) : Text :=
  links.flatMap (·.text)

theorem spread_cons (placed : PlacedLink) (links : List PlacedLink) :
    spread (placed :: links) = opening ++ placed.body ++ closing ++ (placed.after ++ spread links) := by
  simp [spread, PlacedLink.text, PlacedLink.link]

theorem spread_starts (links : List PlacedLink) : spread links = [] ∨ opening <+: spread links := by
  cases links with
  | nil => exact Or.inl rfl
  | cons placed links =>
    rw [spread_cons, List.append_assoc, List.append_assoc]
    exact Or.inr (List.prefix_append _ _)

/-- No closing mark comes after an empty link that could be taken for its own. -/
def EmptyStayOpen : List PlacedLink → Prop
  | [] => True
  | placed :: links =>
    (placed.body = [] → ¬ closing <:+: ']' :: (placed.after ++ spread links)) ∧ EmptyStayOpen links

def present (links : List PlacedLink) : List PlacedLink :=
  links.filter (!·.body.isEmpty)

theorem present_cons_of_ne_nil {placed : PlacedLink} (nonempty : placed.body ≠ []) (links : List PlacedLink) :
    present (placed :: links) = placed :: present links :=
  List.filter_cons_of_pos (by simpa using nonempty)

theorem present_cons_of_eq_nil {placed : PlacedLink} (empty : placed.body = []) (links : List PlacedLink) :
    present (placed :: links) = present links :=
  List.filter_cons_of_neg (by simp [empty])

theorem not_isInfix_spread {placed : PlacedLink} {links : List PlacedLink}
    (open' : ¬ closing <:+: ']' :: (placed.after ++ spread links)) : ¬ closing <:+: placed.after ++ spread links :=
  fun inside => open' (List.infix_cons inside)

/-- A text without closing marks holds no links at all. -/
theorem eq_nil_of_not_isInfix_spread {links : List PlacedLink} (open' : ¬ closing <:+: spread links) : links = [] := by
  cases links with
  | nil => rfl
  | cons placed links =>
    rw [spread_cons] at open'
    exact absurd (List.suffix_append _ _).isInfix (not_isInfix_of_append open').1

theorem findLinksFrom_spread {links : List PlacedLink} (open' : EmptyStayOpen links) :
    findLinksFrom 0 (spread links) = (present links).map (·.link) := by
  induction links with
  | nil => rfl
  | cons placed links ih =>
    obtain ⟨first, others⟩ := open'
    rw [spread_cons]
    by_cases empty : placed.body = []
    · have without := not_isInfix_spread (first empty)
      have alone := eq_nil_of_not_isInfix_spread (not_isInfix_of_append without).2
      rw [empty, List.append_nil, findLinksFrom_empty (first empty), present_cons_of_eq_nil empty, alone]
      rfl
    · rw [findLinksFrom_link empty placed.unbroken placed.ended, findLinksFrom_append placed.plain (spread_starts links),
        ih others, present_cons_of_ne_nil empty]
      rfl

/-- No link is found as it was written behind an empty link that was closed too late. -/
theorem emptyStayOpen_of_found {links : List PlacedLink}
    (found : findLinksFrom 0 (spread links) = (present links).map (·.link)) : EmptyStayOpen links := by
  induction links with
  | nil => trivial
  | cons placed links ih =>
    rw [spread_cons] at found
    by_cases empty : placed.body = []
    · have open' : ¬ closing <:+: ']' :: (placed.after ++ spread links) := by
        intro closed
        rw [empty, List.append_nil, present_cons_of_eq_nil empty] at found
        obtain ⟨body, others, late, starts⟩ := exists_findLinksFrom_empty closed
        rw [late] at found
        obtain ⟨other, _, _, same, _⟩ := List.map_eq_cons_iff.mp found.symm
        have wrong : other.body = ']' :: body := by
          have inner := List.append_cancel_right same
          exact List.append_cancel_left inner
        rcases starts with rfl | ⟨rest, rfl⟩
        · exact other.ended (by rw [wrong]; rfl)
        · have mark : closing <+: ']' :: ']' :: rest := ⟨rest, rfl⟩
          exact other.unbroken (wrong ▸ mark.isInfix)
      have alone := eq_nil_of_not_isInfix_spread (not_isInfix_of_append (not_isInfix_spread open')).2
      exact ⟨fun _ => open', alone ▸ trivial⟩
    · rw [findLinksFrom_link empty placed.unbroken placed.ended, findLinksFrom_append placed.plain (spread_starts links),
        present_cons_of_ne_nil empty, List.map_cons] at found
      exact ⟨fun bare => absurd bare empty, ih (List.cons.inj found).2⟩

/-! ### Reading -/

namespace Reader
variable (reader : Reader)

theorem readLink_empty {placed : PlacedLink} (empty : placed.body = []) : reader.readLink placed.link = .ok [] := by
  rw [PlacedLink.link, empty]
  rfl

/-- Empty links add nothing to what is read. -/
theorem mapM_present (links : List PlacedLink) :
    (((present links).map (·.link)).mapM reader.readLink).map List.flatten =
      (links.mapM fun placed => reader.readLink placed.link).map List.flatten := by
  induction links with
  | nil => rfl
  | cons placed links ih =>
    rw [List.mapM_cons]
    by_cases empty : placed.body = []
    · rw [present_cons_of_eq_nil empty, ih, reader.readLink_empty empty]
      cases links.mapM fun placed => reader.readLink placed.link <;> rfl
    · rw [present_cons_of_ne_nil empty, List.map_cons, List.mapM_cons]
      cases reader.readLink placed.link with
      | error error => rfl
      | ok first =>
        revert ih
        cases ((present links).map (·.link)).mapM reader.readLink <;>
          cases links.mapM fun placed => reader.readLink placed.link <;>
          simp [Except.map, bind, Except.bind, pure, Except.pure]

end Reader

/-- A text with links in it. -/
structure RunningText where
  start : Text
  links : List PlacedLink
  plain : ¬ opening <:+: start

def RunningText.text (running : RunningText) : Text :=
  running.start ++ spread running.links

theorem findLinks_text (running : RunningText) : findLinks running.text = findLinksFrom 0 (spread running.links) :=
  findLinksFrom_append running.plain (spread_starts running.links)

/-- Links are found one by one just where no closing mark comes after an empty link, and then the references of a text
are those of its links, in order; the first link that cannot be read keeps the whole text from being read. -/
theorem links_found_one_by_one_iff (running : RunningText) :
    (findLinks running.text = (present running.links).map (·.link) ↔ EmptyStayOpen running.links) ∧
      (EmptyStayOpen running.links → ∀ reader : Reader, reader.readText running.text =
        (running.links.mapM fun placed => reader.readLink placed.link).map List.flatten) := by
  rw [findLinks_text]
  refine ⟨⟨emptyStayOpen_of_found, findLinksFrom_spread⟩, fun open' reader => ?_⟩
  rw [Reader.readText, findLinks_text, findLinksFrom_spread open', ← reader.mapM_present]
  rfl

/-! Two links and an empty one at the end; and an empty link that swallows the one behind it. -/

def letter : RunningText where
  start := "See "
  links :=
    [⟨"Ruth 1:16", " and\n", by decide, by decide, by decide⟩,
      ⟨"bible | Acts 2", ", not ", by decide, by decide, by decide⟩,
      ⟨"", " [sic].", by decide, by decide, by decide⟩]
  plain := by decide

def blankForm : RunningText where
  start := []
  links := [⟨"", " or ", by decide, by decide, by decide⟩, ⟨"Ruth 1:16", "", by decide, by decide, by decide⟩]
  plain := by decide

theorem letter_links_found_one_by_one :
    EmptyStayOpen letter.links ∧
      letter.text = "See [[book::Ruth 1:16]] and\n[[book::bible | Acts 2]], not [[book::]] [sic].".toList ∧
      findLinks letter.text = ["[[book::Ruth 1:16]]", "[[book::bible | Acts 2]]"] ∧
      Reader.bibleReader.readText letter.text = .ok
        [⟨none, "ruth", some "1", ["16"], []⟩, ⟨some "bible", "acts", some "2", [], []⟩] ∧
      findLinks blankForm.text = ["[[book::]] or [[book::Ruth 1:16]]"] ∧ ¬ EmptyStayOpen blankForm.links := by
  have open' : EmptyStayOpen letter.links := by
    refine ⟨fun empty => ?_, fun empty => ?_, fun _ => ?_, trivial⟩
    · cases empty
    · cases empty
    · decide
  have found := (links_found_one_by_one_iff letter).1.mpr open'
  have read := (links_found_one_by_one_iff letter).2 open' Reader.bibleReader
  have late : findLinks blankForm.text = ["[[book::]] or [[book::Ruth 1:16]]"] := by decide
  refine ⟨open', by decide, found.trans (by decide), read.trans (by decide), late, fun stay => ?_⟩
  have other := (links_found_one_by_one_iff blankForm).1.mpr stay
  rw [late] at other
  exact absurd other (by decide)

end Bindery.Link
