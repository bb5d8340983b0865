import Bindery.Proofs.LinkLayouts
import Bindery.Proofs.LinksInText

/-! Links that go on over several lines. A space may become a line feed without any change in what is read, except
after a comma between references and between the words of a title that has a chapter. -/

namespace Bindery.Link
open Text Identifier

/-! ### Where spaces bind -/

/-- Parts with the separators behind them. -/
def lead (parts : List Text) : Text :=
  parts.flatMap (· ++ ", ")

theorem join_append_cons (parts : List Text) (part : Text) (others : List Text) :
    join ", " (parts ++ part :: others) = lead parts ++ join ", " (part :: others) := by
  induction parts with
  | nil => rfl
  | cons first parts ih =>
    obtain ⟨next, rest, same⟩ := List.exists_cons_of_ne_nil (show parts ++ part :: others ≠ [] by simp)
    rw [List.cons_append, same, join_cons_cons, ← same, ih]
    simp [lead]

theorem oneLine_lead (parts : List Text) : oneLine (lead parts) = lead (parts.map oneLine) := by
  induction parts with
  | nil => rfl
  | cons part parts ih =>
    simp only [lead, List.flatMap_cons, List.map_cons, oneLine_append] at ih ⊢
    rw [ih]
    rfl

/-- A space in a title stands between two of its words. -/
theorem exists_words_of_join {tokens : List Text} (all : ∀ token ∈ tokens, IsToken token) {front back : Text}
    (split : join " " tokens = front ++ ' ' :: back) : ∃ before after, before ≠ [] ∧ after ≠ [] ∧ tokens = before ++ after ∧
      front = join " " before := by
  induction tokens generalizing front with
  | nil => simp [join] at split
  | cons token tokens ih =>
    obtain ⟨first, others⟩ := List.forall_mem_cons.mp all
    have solid {rest : Text} (same : token = front ++ ' ' :: rest) : False := by
      have blank := first.whole ' ' (same ▸ List.mem_append_right _ List.mem_cons_self)
      exact absurd blank (by decide)
    cases tokens with
    | nil =>
      rw [join_singleton] at split
      exact (solid split).elim
    | cons next tokens =>
      have pieces : token ++ ' ' :: join " " (next :: tokens) = front ++ ' ' :: back := by
        rw [← split, join_cons_cons, List.append_assoc]
        rfl
      rcases List.append_eq_append_iff.mp pieces with ⟨inner, same, later⟩ | ⟨inner, same, later⟩
      · cases inner with
        | nil => exact ⟨[token], next :: tokens, by simp, by simp, rfl, by rw [same, List.append_nil, join_singleton]⟩
        | cons c inner =>
          obtain ⟨rfl, rest⟩ := List.cons.inj later
          obtain ⟨before, after, nonempty, also, whole, rfl⟩ := ih others rest
          obtain ⟨second, before, rfl⟩ := List.exists_cons_of_ne_nil nonempty
          refine ⟨token :: second :: before, after, by simp, also, by rw [whole]; rfl, ?_⟩
          rw [same, join_cons_cons, List.append_assoc]
          rfl
      · cases inner with
        | nil =>
          rw [List.append_nil] at same
          exact ⟨[token], next :: tokens, by simp, by simp, rfl, by rw [join_singleton, same]⟩
        | cons c inner =>
          obtain ⟨rfl, _⟩ := List.cons.inj later
          exact (solid same).elim

namespace WrittenLink

/-- The space behind this beginning of a link binds: it comes after a comma between references, or stands between the
words of a title that has a chapter. -/
inductive Binds (link : WrittenLink) : Text → Prop
  | comma {before after : List WrittenReference} (nonempty : before ≠ []) (also : after ≠ [])
      (split : link.references = before ++ after) : Binds link (link.start ++ join ", " (before.map (·.text)) ++ ",")
  | title {before after : List WrittenReference} {reference : WrittenReference}
      (split : link.references = before ++ reference :: after) (chapter : reference.locator ≠ .whole) {words rest : List Word}
      (nonempty : words ≠ []) (also : rest ≠ []) (named : reference.title.words = words ++ rest) :
      Binds link (link.start ++ lead (before.map (·.text)) ++ join " " (words.map (·.text)))

/-- A line ends where a space binds. -/
def BreaksBond (link : WrittenLink) (body : Text) : Prop :=
  ∃ front back, body = front ++ '\n' :: back ∧ link.Binds (oneLine front)

end WrittenLink

/-! ### Where a line ends -/

namespace Layout
variable {link : WrittenLink} (layout : Layout link)

theorem map_oneLine_parts : (layout.first :: layout.more).map oneLine = link.references.map (·.text) := by
  rw [List.map_cons, layout.opened, layout.others]
  rfl

theorem exists_part {before after : List WrittenReference} {reference : WrittenReference}
    (split : link.references = before ++ reference :: after) : ∃ parts part others,
      layout.first :: layout.more = parts ++ part :: others ∧ parts.map oneLine = before.map (·.text) ∧
        oneLine part = reference.text := by
  have same : (layout.first :: layout.more).map oneLine = before.map (·.text) ++ reference.text :: after.map (·.text) := by
    rw [map_oneLine_parts, split, List.map_append, List.map_cons]
  obtain ⟨parts, rest, whole, first, later⟩ := List.map_eq_append_iff.mp same
  obtain ⟨part, others, rfl, here, _⟩ := List.map_eq_cons_iff.mp later
  exact ⟨parts, part, others, whole, first, here⟩

theorem exists_body {parts others : List Text} {part : Text} (split : layout.first :: layout.more = parts ++ part :: others) :
    ∃ rest, layout.body = layout.start ++ lead parts ++ (part ++ rest) := by
  obtain ⟨rest, joined⟩ : ∃ rest, join ", " (part :: others) = part ++ rest := by
    cases others with
    | nil => exact ⟨[], by rw [join_singleton, List.append_nil]⟩
    | cons next others => exact ⟨_, by rw [join_cons_cons, List.append_assoc]⟩
  refine ⟨rest ++ layout.ending, ?_⟩
  rw [body, listing, split, join_append_cons, joined]
  simp only [List.append_assoc]

/-- A broken title breaks a bond. -/
theorem breaksBond_of_hasBrokenTitle {before after : List WrittenReference} {reference : WrittenReference}
    (split : link.references = before ++ reference :: after) {parts others : List Text} {part : Text}
    (whole : layout.first :: layout.more = parts ++ part :: others) (same : parts.map oneLine = before.map (·.text))
    (broken : reference.HasBrokenTitle part) : link.BreaksBond layout.body := by
  obtain ⟨chapter, title, rest, rfl, titled, feed⟩ := broken
  obtain ⟨front, back, rfl⟩ := List.append_of_mem feed
  have spaced : join " " (reference.title.words.map (·.text)) = oneLine front ++ ' ' :: oneLine back := by
    rw [oneLine_append] at titled
    exact titled.symm
  obtain ⟨tokens, last, nonempty, also, parted, written⟩ := exists_words_of_join (fun _ => reference.title.isToken_of_mem) spaced
  obtain ⟨words, more, named, rfl, rfl⟩ := List.map_eq_append_iff.mp parted
  obtain ⟨after', body⟩ := layout.exists_body whole
  refine ⟨layout.start ++ lead parts ++ front, back ++ (rest ++ after'), by rw [body]; simp, ?_⟩
  rw [oneLine_append, oneLine_append, layout.started, oneLine_lead, same, written]
  exact .title split chapter (by simpa using nonempty) (by simpa using also) named

theorem keepsTitles_of_not_breaksBond (unbroken : ¬ link.BreaksBond layout.body) : layout.KeepsTitles := by
  have length : (layout.first :: layout.more).length = link.references.length := by
    simpa using congrArg List.length layout.map_oneLine_parts
  refine List.forall₂_iff_get.mpr ⟨length, fun i inside also broken => unbroken ?_⟩
  have split := (List.take_append_drop i link.references).symm
  have whole := (List.take_append_drop i (layout.first :: layout.more)).symm
  rw [List.drop_eq_getElem_cons also] at split
  rw [List.drop_eq_getElem_cons inside] at whole
  refine layout.breaksBond_of_hasBrokenTitle split whole ?_ broken
  rw [List.map_take, List.map_take, layout.map_oneLine_parts]

/-- A line that ends between the words of a title breaks it, if a chapter comes after it. -/
theorem exists_hasBrokenTitle {before after : List WrittenReference} {reference : WrittenReference}
    (split : link.references = before ++ reference :: after) (chapter : reference.locator ≠ .whole) {words rest : List Word}
    (nonempty : words ≠ []) (also : rest ≠ []) (named : reference.title.words = words ++ rest) {front back : Text}
    (broken : layout.body = front ++ '\n' :: back)
    (start : oneLine front = link.start ++ lead (before.map (·.text)) ++ join " " (words.map (·.text))) :
    ∃ parts part others, layout.first :: layout.more = parts ++ part :: others ∧ parts.length = before.length ∧
      oneLine part = reference.text ∧ reference.HasBrokenTitle part := by
  obtain ⟨parts, part, others, whole, same, wrapped⟩ := layout.exists_part split
  obtain ⟨more, body⟩ := layout.exists_body whole
  refine ⟨parts, part, others, whole, by simpa using congrArg List.length same, wrapped, chapter, ?_⟩
  obtain ⟨title, tail, rfl, titled, _⟩ := exists_append_of_oneLine wrapped
  refine ⟨title, tail, rfl, titled, ?_⟩
  -- Both beginnings of the body are as long as the part before the title.
  obtain ⟨lead', inner, rfl, led, within⟩ := exists_append_of_oneLine start
  have length : (layout.start ++ lead parts).length = lead'.length := by
    have same' : oneLine (layout.start ++ lead parts) = oneLine lead' := by
      rw [led, oneLine_append, layout.started, oneLine_lead, same]
    simpa [oneLine] using congrArg List.length same'
  have pieces : layout.start ++ lead parts ++ (title ++ tail ++ more) = lead' ++ (inner ++ '\n' :: back) := by
    rw [← body, broken, List.append_assoc]
  have rest' := (List.append_inj pieces length).2
  have shorter : inner.length < title.length := by
    have longer : oneLine title = oneLine inner ++ " ".toList ++ join " " (rest.map (·.text)) := by
      rw [titled, within, ← join_append (by simpa using nonempty) (by simpa using also), ← List.map_append, ← named]
      rfl
    have sum := congrArg List.length longer
    simp only [oneLine, List.length_map, List.length_append] at sum
    have one : (" ".toList).length = 1 := rfl
    omega
  rw [List.append_assoc] at rest'
  rcases List.append_eq_append_iff.mp rest' with ⟨further, same', _⟩ | ⟨further, same', later⟩
  · have sum := congrArg List.length same'
    rw [List.length_append] at sum
    omega
  · cases further with
    | nil =>
      rw [same', List.append_nil] at shorter
      exact absurd shorter (Nat.lt_irrefl _)
    | cons c further =>
      obtain ⟨rfl, _⟩ := List.cons.inj later
      exact same' ▸ List.mem_append_right _ List.mem_cons_self

end Layout

namespace WrittenLink
variable {link : WrittenLink}

theorem listing_split {before after : List WrittenReference} (nonempty : before ≠ []) (also : after ≠ [])
    (split : link.references = before ++ after) :
    link.listing = link.start ++ join ", " (before.map (·.text)) ++ ", " ++ join ", " (after.map (·.text)) := by
  rw [listing, split, List.map_append, join_append (by simpa using nonempty) (by simpa using also)]
  simp only [List.append_assoc]

theorem more_ne_nil_of_split {before after : List WrittenReference} (nonempty : before ≠ []) (also : after ≠ [])
    (split : link.references = before ++ after) : link.more ≠ [] := by
  intro single
  rw [WrittenLink.references, single] at split
  have sum := congrArg List.length split
  have one := List.length_pos_iff.mpr nonempty
  have two := List.length_pos_iff.mpr also
  rw [List.length_append] at sum
  simp only [List.length_singleton] at sum
  omega

theorem isPart_of_references {references : List WrittenReference} : ∀ text ∈ references.map (·.text), IsPart text := by
  intro text member
  obtain ⟨reference, _, rfl⟩ := List.mem_map.mp member
  exact reference.isPart

variable {body : Text} (wrapped : oneLine body = link.body)
include wrapped

/-- Without a bond broken at a comma a link comes apart into its pieces. -/
theorem exists_layout (unbroken : ∀ before after front back, before ≠ [] → after ≠ [] → link.references = before ++ after →
      body = front ++ '\n' :: back → oneLine front ≠ link.start ++ join ", " (before.map (·.text)) ++ ",") :
    ∃ layout : Layout link, layout.body = body := by
  obtain ⟨listing, ending, rfl, listed, ended⟩ := exists_append_of_oneLine wrapped
  obtain ⟨start, references, rfl, started, joined⟩ := exists_append_of_oneLine listed
  have nonempty : link.references.map (·.text) ≠ [] := by simp [WrittenLink.references]
  obtain ⟨parts, rfl, same⟩ := exists_parts_of_unbroken nonempty joined (by
    intro before after present also split front back broken whole
    obtain ⟨earlier, later, parted, rfl, rfl⟩ := List.map_eq_append_iff.mp split
    refine unbroken earlier later (start ++ front) (back ++ ending) (by simpa using present) (by simpa using also) parted ?_ ?_
    · rw [broken]
      simp
    · rw [oneLine_append, started, whole, List.append_assoc])
  obtain ⟨first, more, rfl, opened, others⟩ := List.map_eq_cons_iff.mp same
  exact ⟨⟨start, first, more, ending, started, opened, others, ended⟩, rfl⟩

theorem readLink_of_not_breaksBond (unbroken : ¬ link.BreaksBond body) (reader : Reader) :
    reader.readLink (opening ++ body ++ closing) = reader.readLink link.text := by
  obtain ⟨layout, rfl⟩ := exists_layout wrapped fun before after front back present also split broken whole =>
    unbroken ⟨front, back, broken, whole ▸ .comma present also split⟩
  exact Layout.readLink_of_keeps (layout.keepsTitles_of_not_breaksBond unbroken) reader

theorem oneLine_after_comma {before after : List WrittenReference} (nonempty : before ≠ []) (also : after ≠ [])
    (split : link.references = before ++ after) {front back : Text} (broken : body = front ++ '\n' :: back)
    (comma : oneLine front = link.start ++ join ", " (before.map (·.text)) ++ ",") :
    oneLine back = join ", " (after.map (·.text)) ++ versionEnding link.versions := by
  rw [broken, oneLine_append, comma, WrittenLink.body, listing_split nonempty also split] at wrapped
  have pieces : link.start ++ join ", " (before.map (·.text)) ++ ", " ++ oneLine back =
      link.start ++ join ", " (before.map (·.text)) ++ ", " ++
        (join ", " (after.map (·.text)) ++ versionEnding link.versions) := by
    rw [← List.append_assoc _ (join _ _), ← wrapped, List.append_assoc _ ",".toList]
    simp [oneLine_cons, spaceFor]
  exact List.append_cancel_left pieces

/-- A line that ends at a comma between references leaves less of them. -/
theorem length_lt_of_comma {before after : List WrittenReference} (nonempty : before ≠ []) (also : after ≠ [])
    (split : link.references = before ++ after) {front back : Text} (broken : body = front ++ '\n' :: back)
    (comma : oneLine front = link.start ++ join ", " (before.map (·.text)) ++ ",") {reader : Reader} {references : List Reference}
    (read : reader.readLink (opening ++ body ++ closing) = .ok references) : references.length < link.references.length := by
  have rest := oneLine_after_comma wrapped nonempty also split broken comma
  obtain ⟨opened, sign, rfl, opened', signed⟩ := exists_append_of_oneLine comma
  obtain ⟨start, earlier, rfl, started, joined⟩ := exists_append_of_oneLine opened'
  obtain ⟨later, ending, rfl, joined', ended⟩ := exists_append_of_oneLine rest
  obtain rfl := eq_of_oneLine_eq signed (by decide)
  obtain ⟨parts, present, rfl, length, good⟩ := exists_parts (by simpa using nonempty) isPart_of_references joined
  obtain ⟨others, present', rfl, length', good'⟩ := exists_parts (by simpa using also) isPart_of_references joined'
  obtain ⟨merged, present'', same, fewer, good''⟩ := exists_parts_between present present' good good'
  obtain ⟨first, more, rfl⟩ := List.exists_cons_of_ne_nil present''
  have body' : body = (start ++ join ", " (first :: more)) ++ ending := by
    rw [broken, ← same]
    simp
  have listed : oneLine (start ++ join ", " (first :: more)) = link.listing := by
    rw [← same, oneLine_append, oneLine_append, oneLine_append, started, joined, joined', listing_split nonempty also split]
    simp only [List.append_assoc]
    rfl
  have several := more_ne_nil_of_split nonempty also split
  rw [body', readLink_wrapped listed ended, if_pos (Or.inr (link.readsAsComplete_listing (Or.inl several))),
    splitUnquoted_start started good''] at read
  have most := Reader.length_le_of_readReferences read
  rw [split]
  simp only [List.length_append, List.length_cons, List.length_map] at most fewer length length' ⊢
  omega

end WrittenLink

theorem exists_getElem?_of_forall₂ {α β : Type} {R : α → β → Prop} {front rest : List α} {item : α} {others : List β}
    (all : List.Forall₂ R (front ++ item :: rest) others) : ∃ other, others[front.length]? = some other ∧ R item other := by
  induction front generalizing others with
  | nil =>
    obtain ⟨other, later, here, _, rfl⟩ := List.forall₂_cons_left_iff.mp all
    exact ⟨other, rfl, here⟩
  | cons first front ih =>
    obtain ⟨next, later, _, others, rfl⟩ := List.forall₂_cons_left_iff.mp all
    exact ih others

/-- Where a title is broken, its chapter is lost, or a reference is. -/
theorem Layout.exists_chapter_lost {link : WrittenLink} {layout : Layout link} {parts others : List Text} {part : Text}
    (whole : layout.first :: layout.more = parts ++ part :: others) {before after : List WrittenReference}
    {reference : WrittenReference} (split : link.references = before ++ reference :: after) (length : parts.length = before.length)
    (wrapped : oneLine part = reference.text) (broken : reference.HasBrokenTitle part) {reader : Reader} {versions : List Text}
    {references : List Reference} (read : reader.readReferences none versions ((layout.start ++ layout.first) :: layout.more) =
      .ok references) (all : references.length = layout.more.length + 1) :
    ∃ lost, references[before.length]? = some lost ∧ lost.chapter = none := by
  obtain ⟨first, rest, inherited, passed, rfl, here, later, same⟩ := Reader.readReferences_cons_of_length read all
  cases parts with
  | nil =>
    obtain rfl := List.length_eq_zero_iff.mp length.symm
    obtain ⟨rfl, _⟩ := List.cons.inj whole
    exact ⟨first, rfl, Reader.chapter_eq_none_of_broken layout.isTight_first layout.separatePipes_first wrapped broken here⟩
  | cons next parts =>
    obtain ⟨_, more⟩ := List.cons.inj whole
    have each := Reader.forall₂_of_readReferences later same
    rw [more] at each
    obtain ⟨lost, found, inherited, versions, read⟩ := exists_getElem?_of_forall₂ each
    have alone := isPart_of_wrapped wrapped
    have separated := separatePipes_pipeless alone.tight alone.unquoted (bar_not_mem_of_wrapped wrapped) inherited
    refine ⟨lost, ?_, Reader.chapter_eq_none_of_broken alone.tight separated wrapped broken read⟩
    rw [← length, List.length_cons, List.getElem?_cons_succ]
    exact found

namespace WrittenLink
variable {link : WrittenLink} {body : Text} (wrapped : oneLine body = link.body)
include wrapped

/-- A broken bond changes what is read. -/
theorem readLink_ne_of_breaksBond (breaks : link.BreaksBond body) {reader : Reader}
    (readable : ∀ reference ∈ link.references, reader.CanRead link.collectionName reference.title.text) :
    reader.readLink (opening ++ body ++ closing) ≠ reader.readLink link.text := by
  intro same
  rw [Reader.written_link_reads_back reader link readable] at same
  by_cases comma : ∃ before after front back, before ≠ [] ∧ after ≠ [] ∧ link.references = before ++ after ∧
      body = front ++ '\n' :: back ∧ oneLine front = link.start ++ join ", " (before.map (·.text)) ++ ","
  · obtain ⟨before, after, front, back, nonempty, also, split, broken, sign⟩ := comma
    have less := length_lt_of_comma wrapped nonempty also split broken sign same
    rw [List.length_map] at less
    exact Nat.lt_irrefl _ less
  obtain ⟨layout, rfl⟩ := exists_layout wrapped fun before after front back nonempty also split broken sign =>
    comma ⟨before, after, front, back, nonempty, also, split, broken, sign⟩
  obtain ⟨front, back, broken, binds⟩ := breaks
  generalize start : oneLine front = line at binds
  cases binds with
  | @comma before after nonempty also split => exact comma ⟨before, after, front, back, nonempty, also, split, broken, start⟩
  | @title before after reference split chapter words rest nonempty also named =>
    obtain ⟨parts, part, others, whole, length, wrapped', broken'⟩ :=
      layout.exists_hasBrokenTitle split chapter nonempty also named broken start
    have complete : readsAsComplete link.listing = true := by
      by_cases single : link.more = []
      · rw [WrittenLink.references, single] at split
        obtain ⟨rfl, rest⟩ : before = [] ∧ link.first = reference := by
          cases before with
          | nil => exact ⟨rfl, (List.cons.inj split).1⟩
          | cons first before => simp at split
        rw [listing, WrittenLink.references, single, List.map_singleton, join_singleton, rest]
        exact readsAsComplete_of_chapter _ chapter
      · exact link.readsAsComplete_listing (Or.inl single)
    have lines : (layout.first :: layout.more).length = link.references.length := by
      simpa using congrArg List.length layout.map_oneLine_parts
    rw [Layout.body, readLink_wrapped layout.oneLine_listing layout.ended, if_pos (Or.inr complete),
      layout.splitUnquoted_listing] at same
    obtain ⟨lost, found, nothing⟩ := Layout.exists_chapter_lost whole split length wrapped' broken' same
      (by rw [List.length_map, ← lines, List.length_cons])
    rw [split, List.map_append, List.map_cons, List.getElem?_append_right (by simp)] at found
    obtain rfl : WrittenReference.reading reference reader link.collectionName (versionNames link.versions) = lost := by
      simpa using found
    have numbered : reference.locator.chapter? ≠ none := by
      cases located : reference.locator with
      | whole => exact absurd located chapter
      | chapter number => exact Option.some_ne_none _
      | sections number first more => exact Option.some_ne_none _
    exact numbered nothing

/-- No bracket stands in a link, so its end is found. -/
theorem bracket_not_mem : ']' ∉ body := by
  intro member
  have inside : ']' ∈ link.body := wrapped ▸ mem_of_mem_oneLine member (by decide)
  have collected : ']' ∉ link.start := by
    unfold WrittenLink.start
    cases link.collection with
    | none => exact List.not_mem_nil
    | some word => simpa using word.not_mem (c := ']') (by decide)
  have listed : ']' ∉ join ", " (link.references.map (·.text)) := link.isPlain_references.not_mem (by decide)
  rcases List.mem_append.mp inside with front | ending
  · exact (List.mem_append.mp front).elim collected listed
  · exact not_mem_versionEnding link.versions (by decide) ending

theorem linkBody?_wrapped (after : Text) : linkBody? (body ++ closing ++ after) = some body := by
  have absent := bracket_not_mem wrapped
  have nonempty : body ≠ [] := (isTight_of_oneLine (wrapped ▸ link.isTight_body)).ne_nil
  refine linkBody?_append nonempty (fun mark => absent ?_) (fun last => absent (List.mem_of_getLast? last)) after
  exact mark.subset List.mem_cons_self

end WrittenLink

/-! ### Texts with broken links -/

theorem mapM_append_cons_eq_ok {ε α β : Type} {f : α → Except ε β} {front rest : List α} {item : α} {results : List β} :
    (front ++ item :: rest).mapM f = .ok results ↔ ∃ first here last, front.mapM f = .ok first ∧ f item = .ok here ∧
      rest.mapM f = .ok last ∧ results = first ++ here :: last := by
  rw [List.mapM_append, List.mapM_cons]
  cases front.mapM f with
  | error error => simp [bind, Except.bind]
  | ok first =>
    cases f item with
    | error error => simp [bind, Except.bind]
    | ok here =>
      cases rest.mapM f with
      | error error => simp [bind, Except.bind]
      | ok last => simp [bind, Except.bind, pure, Except.pure, eq_comm]

namespace Reader
variable {reader : Reader} {text other : Text} {front rest : List Text} {link exchanged : Text}
  (links : findLinks text = front ++ link :: rest) (others : findLinks other = front ++ exchanged :: rest)
include links others

theorem readText_congr (same : reader.readLink exchanged = reader.readLink link) :
    reader.readText other = reader.readText text := by
  have each : (front ++ exchanged :: rest).mapM reader.readLink = (front ++ link :: rest).mapM reader.readLink := by
    rw [List.mapM_append, List.mapM_append, List.mapM_cons, List.mapM_cons, same]
  rw [readText, readText, links, others, each]

theorem readLink_eq_of_readText_eq {references : List Reference} (read : reader.readText text = .ok references)
    (same : reader.readText other = reader.readText text) : reader.readLink exchanged = reader.readLink link := by
  have taken {text : Text} (read : reader.readText text = .ok references) :
      ∃ results, (findLinks text).mapM reader.readLink = .ok results ∧ results.flatten = references := by
    rw [readText] at read
    cases each : (findLinks text).mapM reader.readLink with
    | error => rw [each] at read; cases read
    | ok results =>
      rw [each] at read
      exact ⟨results, rfl, Except.ok.inj read⟩
  obtain ⟨results, each, flat⟩ := taken read
  obtain ⟨results', each', flat'⟩ := taken (same.trans read)
  rw [links] at each
  rw [others] at each'
  obtain ⟨first, here, last, before, link, after, rfl⟩ := mapM_append_cons_eq_ok.mp each
  obtain ⟨first', here', last', before', link', after', rfl⟩ := mapM_append_cons_eq_ok.mp each'
  obtain rfl := Except.ok.inj (before.symm.trans before')
  obtain rfl := Except.ok.inj (after.symm.trans after')
  have between := flat'.trans flat.symm
  simp only [List.flatten_append, List.flatten_cons] at between
  rw [link, link', List.append_cancel_right (List.append_cancel_left between)]

end Reader

namespace WrittenLink
variable {link : WrittenLink} {body before after : Text} {found : List Text} (wrapped : oneLine body = link.body)
  (reached : Reaches (link.text ++ after) before found)
include wrapped reached

theorem findLinks_wrapped : findLinks (before ++ (opening ++ body ++ closing) ++ after) =
    found ++ (opening ++ body ++ closing) :: findLinks after := by
  have rest : link.text ++ after = opening ++ (link.body ++ closing ++ after) := by
    rw [WrittenLink.text]
    simp only [List.append_assoc]
  rw [rest] at reached
  have exchanged := reached.exchange (body ++ closing ++ after)
  have scanned := findLinks_of_reaches exchanged
  have whole : opening ++ (body ++ closing ++ after) = opening ++ body ++ closing ++ after := by
    simp only [List.append_assoc]
  rw [whole, findLinks, findLinks, findLinksFrom_found (linkBody?_wrapped wrapped after)] at scanned
  rw [List.append_assoc]
  exact scanned

theorem findLinks_written : findLinks (before ++ link.text ++ after) = found ++ link.text :: findLinks after := by
  have line : oneLine link.body = link.body := wrapped ▸ oneLine_eq_self (feed_not_mem_oneLine body)
  exact findLinks_wrapped line reached

theorem readText_of_not_breaksBond (unbroken : ¬ link.BreaksBond body) (reader : Reader) :
    reader.readText (before ++ (opening ++ body ++ closing) ++ after) = reader.readText (before ++ link.text ++ after) :=
  Reader.readText_congr (findLinks_written wrapped reached) (findLinks_wrapped wrapped reached)
    (readLink_of_not_breaksBond wrapped unbroken reader)

theorem readText_ne_of_breaksBond (breaks : link.BreaksBond body) {reader : Reader}
    (readable : ∀ reference ∈ link.references, reader.CanRead link.collectionName reference.title.text)
    (read : ∃ references, reader.readText (before ++ link.text ++ after) = .ok references) :
    reader.readText (before ++ (opening ++ body ++ closing) ++ after) ≠ reader.readText (before ++ link.text ++ after) := by
  intro same
  obtain ⟨references, read⟩ := read
  exact readLink_ne_of_breaksBond wrapped breaks readable (Reader.readLink_eq_of_readText_eq
    (findLinks_written wrapped reached) (findLinks_wrapped wrapped reached) read same)

end WrittenLink

/-- A link in a text may go over as many lines as it likes, and the text is read as before, as long as no line ends where
a space binds. Where one does, something else is read. -/
theorem wrapped_link_reads_alike (link : WrittenLink) {body before after : Text} {found : List Text}
    (wrapped : oneLine body = link.body) (reached : Reaches (link.text ++ after) before found) :
    (¬ link.BreaksBond body → ∀ reader : Reader,
      reader.readText (before ++ (opening ++ body ++ closing) ++ after) = reader.readText (before ++ link.text ++ after)) ∧
    (link.BreaksBond body → ∀ reader : Reader,
      (∀ reference ∈ link.references, reader.CanRead link.collectionName reference.title.text) →
      (∃ references, reader.readText (before ++ link.text ++ after) = .ok references) →
      reader.readText (before ++ (opening ++ body ++ closing) ++ after) ≠ reader.readText (before ++ link.text ++ after)) := by
  refine ⟨fun unbroken reader => ?_, fun breaks reader readable read => ?_⟩
  · exact WrittenLink.readText_of_not_breaksBond wrapped reached unbroken reader
  · exact WrittenLink.readText_ne_of_breaksBond wrapped reached breaks readable read

/-- This is so for every link that is found in a text: it stands somewhere, and can be written there over several lines. -/
theorem exists_place_of_found_link {text : Text} {link : WrittenLink} {front rest : List Text}
    (links : findLinks text = front ++ link.text :: rest) : ∃ before after, text = before ++ link.text ++ after ∧
      ∀ body, oneLine body = link.body → ∀ reader : Reader,
        (¬ link.BreaksBond body → reader.readText (before ++ (opening ++ body ++ closing) ++ after) = reader.readText text) ∧
        (link.BreaksBond body → (∀ reference ∈ link.references, reader.CanRead link.collectionName reference.title.text) →
          (∃ references, reader.readText text = .ok references) →
          reader.readText (before ++ (opening ++ body ++ closing) ++ after) ≠ reader.readText text) := by
  obtain ⟨before, _, after, rfl, _, _, reached⟩ := exists_reaches links
  refine ⟨before, after, rfl, fun body wrapped reader => ⟨fun unbroken => ?_, fun breaks readable read => ?_⟩⟩
  · exact WrittenLink.readText_of_not_breaksBond wrapped reached unbroken reader
  · exact WrittenLink.readText_ne_of_breaksBond wrapped reached breaks readable read

/-! The same link over four lines, and broken at its comma. -/

theorem getElem?_of_breaksBond {body front back line : Text} (broken : body = front ++ '\n' :: back)
    (same : oneLine front = line) : body[line.length]? = some '\n' := by
  have length : front.length = line.length := by simpa [oneLine] using congrArg List.length same
  rw [broken, ← length, List.getElem?_append_right (Nat.le_refl _), Nat.sub_self]
  rfl

def overFourLines : Text :=
  "Bible |\n1 John\n3:16-18,20, Rt | KJV\ndrb"

def brokenAtComma : Text :=
  "Bible | 1 John 3:16-18,20,\nRt | KJV drb"

theorem not_breaksBond_overFourLines : ¬ Reader.bibleLink.BreaksBond overFourLines := by
  rintro ⟨front, back, broken, binds⟩
  generalize start : oneLine front = line at binds
  have feed := getElem?_of_breaksBond broken start
  cases binds with
  | @comma before after nonempty also split =>
    have alone : before = [Reader.bibleLink.first] := by
      obtain ⟨first, before, rfl⟩ := List.exists_cons_of_ne_nil nonempty
      obtain ⟨last, after, rfl⟩ := List.exists_cons_of_ne_nil also
      obtain ⟨rfl, rest⟩ := List.cons.inj split
      cases before with
      | nil => rfl
      | cons next before => simp [Reader.bibleLink] at rest
    rw [alone] at feed
    exact absurd feed (by decide)
  | @title before after reference split chapter words rest nonempty also named =>
    cases before with
    | nil =>
      obtain ⟨rfl, _⟩ := List.cons.inj split
      obtain ⟨word, words, rfl⟩ := List.exists_cons_of_ne_nil nonempty
      obtain ⟨last, rest, rfl⟩ := List.exists_cons_of_ne_nil also
      obtain ⟨rfl, others⟩ := List.cons.inj named
      cases words with
      | nil => exact absurd feed (by decide)
      | cons next words => simp [Reader.bibleLink] at others
    | cons first before =>
      obtain ⟨_, rest⟩ := List.cons.inj split
      cases before with
      | nil =>
        obtain ⟨rfl, _⟩ := List.cons.inj rest
        exact chapter rfl
      | cons next before => simp [Reader.bibleLink] at rest

theorem bible_link_wrapped_reads_alike :
    (oneLine overFourLines = Reader.bibleLink.body ∧ ¬ Reader.bibleLink.BreaksBond overFourLines ∧
      Reader.bibleReader.readText "See [[book::Bible |\n1 John\n3:16-18,20, Rt | KJV\ndrb]]." = .ok
        [⟨some "bible", "1-john", some "3", ["16", "17", "18", "20"], ["kjv", "drb"]⟩,
         ⟨some "bible", "ruth", none, [], ["kjv", "drb"]⟩]) ∧
    (oneLine brokenAtComma = Reader.bibleLink.body ∧ Reader.bibleLink.BreaksBond brokenAtComma ∧
      Reader.bibleReader.readText "See [[book::Bible | 1 John 3:16-18,20,\nRt | KJV drb]]." ≠ .ok
        [⟨some "bible", "1-john", some "3", ["16", "17", "18", "20"], ["kjv", "drb"]⟩,
         ⟨some "bible", "ruth", none, [], ["kjv", "drb"]⟩]) := by
  have reached : Reaches (Reader.bibleLink.text ++ ".") "See " [] := .past rfl (.past rfl (.past rfl (.past rfl .start)))
  have readable : ∀ reference ∈ Reader.bibleLink.references,
      Reader.bibleReader.CanRead Reader.bibleLink.collectionName reference.title.text :=
    List.forall_mem_cons.mpr ⟨⟨by decide, by decide⟩, List.forall_mem_singleton.mpr ⟨by decide, by decide⟩⟩
  have read : Reader.bibleReader.readText ("See ".toList ++ Reader.bibleLink.text ++ ".") = .ok
      [⟨some "bible", "1-john", some "3", ["16", "17", "18", "20"], ["kjv", "drb"]⟩,
       ⟨some "bible", "ruth", none, [], ["kjv", "drb"]⟩] := by
    decide
  have breaks : Reader.bibleLink.BreaksBond brokenAtComma :=
    ⟨"Bible | 1 John 3:16-18,20,", "Rt | KJV drb", by decide,
      .comma (List.cons_ne_nil Reader.bibleLink.first []) (List.cons_ne_nil _ _) rfl⟩
  have wrapped : oneLine overFourLines = Reader.bibleLink.body := by decide
  have also : oneLine brokenAtComma = Reader.bibleLink.body := by decide
  have alike := (wrapped_link_reads_alike Reader.bibleLink wrapped reached).1 not_breaksBond_overFourLines Reader.bibleReader
  have other := (wrapped_link_reads_alike Reader.bibleLink also reached).2 breaks Reader.bibleReader readable ⟨_, read⟩
  rw [read] at other
  exact ⟨⟨wrapped, not_breaksBond_overFourLines, alike.trans read⟩, also, breaks, other⟩

end Bindery.Link
