import Bindery.Proofs.WrappedReferences

/-! A link over several lines, taken apart. As long as its commas and titles stay on one line, its pieces are those of
the link as it is written, and so is what is read. -/

namespace Bindery.Link
open Text Identifier

/-! ### Pipes of broken links -/

theorem exists_pipe {text rest : Text} (wrapped : oneLine text = " | " ++ rest) : ∃ left right others,
    text = left :: '|' :: right :: others ∧ isBlank left = true ∧ isBlank right = true ∧ oneLine others = rest := by
  have signs : oneLine text = ' ' :: '|' :: ' ' :: rest := wrapped
  obtain ⟨left, text, rfl, first, signs⟩ := exists_cons_of_oneLine signs
  obtain ⟨bar, text, rfl, pipe, signs⟩ := exists_cons_of_oneLine signs
  obtain ⟨right, others, rfl, last, same⟩ := exists_cons_of_oneLine signs
  obtain rfl := (spaceFor_eq_iff (by decide) (by decide)).mp pipe
  exact ⟨left, right, others, rfl, isBlank_of_spaceFor first, isBlank_of_spaceFor last, same⟩

namespace WrittenLink
variable {link : WrittenLink}

section
variable {start : Text} (started : oneLine start = link.start)
include started

theorem exists_collection {word : Word} (known : link.collection = some word) : ∃ left right,
    start = word.text ++ [left, '|', right] ∧ isBlank left = true ∧ isBlank right = true := by
  have same : link.start = word.text ++ " | " := by
    rw [WrittenLink.start, known]
  obtain ⟨front, pipe, rfl, named, barred⟩ := exists_append_of_oneLine (started.trans same)
  obtain rfl := eq_of_oneLine_eq named (word.not_mem (by decide))
  obtain ⟨left, right, others, rfl, before, after, nothing⟩ :=
    exists_pipe (show oneLine pipe = " | ".toList ++ [] from barred)
  obtain rfl := List.map_eq_nil_iff.mp nothing
  exact ⟨left, right, rfl, before, after⟩

theorem start_eq_nil (unknown : link.collection = none) : start = [] := by
  rw [WrittenLink.start, unknown] at started
  exact List.map_eq_nil_iff.mp started

theorem isPart_start_append {part : Text} (isPart : IsPart part) : IsPart (start ++ part) where
  tight := by
    cases known : link.collection with
    | none => rw [start_eq_nil started known]; exact isPart.tight
    | some word =>
      obtain ⟨left, right, rfl, _, _⟩ := exists_collection started known
      exact word.isToken.isTight.append [left, '|', right] isPart.tight
  unquoted := unquoted_append.mpr ⟨unquoted_of_oneLine (started ▸ link.unquoted_start), isPart.unquoted⟩
  passes rest := by
    have absent : ',' ∉ start := fun member => link.comma_not_mem_start (started ▸ mem_of_mem_oneLine member (by decide))
    exact passes_append.mpr ⟨passes_comma absent _, isPart.passes rest⟩

theorem splitUnquoted_start {first : Text} {more : List Text} (all : ∀ part ∈ first :: more, IsPart part) :
    splitUnquoted commaSeparator (start ++ join ", " (first :: more)) = (start ++ first) :: more := by
  obtain ⟨here, later⟩ := List.forall_mem_cons.mp all
  have joined : start ++ join ", " (first :: more) = join ", " ((start ++ first) :: more) := by
    cases more with
    | nil => rw [join_singleton, join_singleton]
    | cons next more => simp only [join_cons_cons, List.append_assoc]
  rw [joined]
  exact splitUnquoted_parts (List.cons_ne_nil _ _) (List.forall_mem_cons.mpr ⟨isPart_start_append started here, later⟩)

theorem separatePipes_start {main : Text} (tight : IsTight main) (unquoted : Unquoted main) (absent : '|' ∉ main) :
    separatePipes none (start ++ main) = ⟨main, link.collectionName, []⟩ := by
  cases known : link.collection with
  | none =>
    rw [start_eq_nil started known, WrittenLink.collectionName, known]
    exact separatePipes_pipeless tight unquoted absent none
  | some word =>
    obtain ⟨left, right, rfl, before, after⟩ := exists_collection started known
    rw [WrittenLink.collectionName, known, List.append_assoc]
    exact separatePipes_pipe tight unquoted absent word before after

end

theorem exists_versions {ending : Text} (ended : oneLine ending = versionEnding link.versions) (versioned : link.versions ≠ []) :
    ∃ left right versions, ending = left :: '|' :: right :: versions ∧ isBlank left = true ∧ isBlank right = true ∧
      IsTight versions ∧ Unquoted versions ∧ '|' ∉ versions ∧ isVersionList versions = true ∧
        versionList versions = versionNames link.versions := by
  rw [versionEnding_of_ne_nil versioned] at ended
  obtain ⟨left, right, versions, rfl, before, after, wrapped⟩ := exists_pipe ended
  have plain := isPlain_versions link.versions
  refine ⟨left, right, versions, rfl, before, after, isTight_of_oneLine (wrapped ▸ isTight_versions versioned),
    unquoted_of_oneLine (wrapped ▸ plain.unquoted), bar_not_mem_of_oneLine wrapped (plain.not_mem (by decide)), ?_, ?_⟩
  · rw [← isVersionList_oneLine, wrapped]
    exact isVersionList_join versioned
  · rw [← versionList_oneLine, wrapped]
    exact versionList_join link.versions

section
variable {listing ending : Text} (listed : oneLine listing = link.listing)
include listed

theorem splitSharedVersions_unversioned : splitSharedVersions listing = (listing, []) := by
  obtain ⟨start, references, rfl, started, others⟩ := exists_append_of_oneLine listed
  have plain := link.isPlain_references
  have absent := bar_not_mem_of_oneLine others (plain.not_mem (by decide))
  cases known : link.collection with
  | none =>
    rw [start_eq_nil started known, List.nil_append, splitSharedVersions, splitLastPipe?_eq_none absent]
  | some word =>
    obtain ⟨left, right, rfl, before, after⟩ := exists_collection started known
    have split := splitSharedVersions_pipe before after word.isPlain.unquoted (unquoted_of_oneLine (others ▸ plain.unquoted))
      absent word.isToken.isTight (isTight_of_oneLine (others ▸ link.isTight_references))
    rw [readsAsComplete_word, Bool.and_false] at split
    rw [List.append_assoc]
    exact split

theorem splitSharedVersions_wrapped (ended : oneLine ending = versionEnding link.versions) (versioned : link.versions ≠ []) :
    splitSharedVersions (listing ++ ending) =
      if readsAsComplete link.listing then (listing, versionNames link.versions) else (listing ++ ending, []) := by
  obtain ⟨left, right, versions, rfl, before, after, tight, unquoted, absent, listed', named⟩ := exists_versions ended versioned
  have split := splitSharedVersions_pipe before after (unquoted_of_oneLine (listed ▸ link.unquoted_listing)) unquoted absent
    (isTight_of_oneLine (listed ▸ link.isTight_listing)) tight
  rwa [listed', named, Bool.true_and, ← readsAsComplete_oneLine listing, listed] at split

/-- A broken link is read like any other, once its versions are off. -/
theorem readLink_wrapped (ended : oneLine ending = versionEnding link.versions) (reader : Reader) :
    reader.readLink (opening ++ (listing ++ ending) ++ closing) =
      if link.versions = [] ∨ readsAsComplete link.listing = true then
        reader.readReferences none (versionNames link.versions) (splitUnquoted commaSeparator listing)
      else reader.readReferences none [] (splitUnquoted commaSeparator (listing ++ ending)) := by
  have wrapped : oneLine (listing ++ ending) = link.body := by
    rw [oneLine_append, listed, ended]
    rfl
  have tight : IsTight (listing ++ ending) := isTight_of_oneLine (wrapped ▸ link.isTight_body)
  have nonempty : (listing ++ ending).isEmpty = false := by simpa using tight.ne_nil
  rw [Reader.readLink, stripDelimiters_append tight]
  simp only [nonempty]
  by_cases versioned : link.versions = []
  · rw [versioned] at ended
    obtain rfl : ending = [] := List.map_eq_nil_iff.mp ended
    rw [if_pos (Or.inl versioned), versioned, List.append_nil, splitSharedVersions_unversioned listed]
    rfl
  · rw [splitSharedVersions_wrapped listed ended versioned]
    by_cases complete : readsAsComplete link.listing = true
    · rw [if_pos complete, if_pos (Or.inr complete)]
      rfl
    · rw [if_neg complete, if_neg (not_or.mpr ⟨versioned, complete⟩)]
      rfl

end

end WrittenLink

/-! ### Links over several lines -/

theorem exists_of_forall₂ {α β : Type} {R : α → β → Prop} {items : List α} {others : List β} (all : List.Forall₂ R items others)
    {item : α} (member : item ∈ items) : ∃ other ∈ others, R item other := by
  induction all with
  | nil => cases member
  | cons here _ ih =>
    rcases List.mem_cons.mp member with rfl | later
    · exact ⟨_, List.mem_cons_self, here⟩
    · obtain ⟨other, inside, found⟩ := ih later
      exact ⟨other, List.mem_cons_of_mem _ inside, found⟩

section
variable {reference : WrittenReference} {part : Text} (wrapped : oneLine part = reference.text)
include wrapped

theorem isPart_of_wrapped : IsPart part :=
  .of_oneLine (wrapped ▸ reference.isPart)

theorem bar_not_mem_of_wrapped : '|' ∉ part :=
  bar_not_mem_of_oneLine wrapped (reference.isPlain.not_mem (by decide))

end

/-- The pieces of a link that goes over several lines, where no comma between references stands at the end of one. -/
structure Layout (link : WrittenLink) where
  start : Text
  first : Text
  more : List Text
  ending : Text
  started : oneLine start = link.start
  opened : oneLine first = link.first.text
  others : more.map oneLine = link.more.map (·.text)
  ended : oneLine ending = versionEnding link.versions

namespace Layout
variable {link : WrittenLink} (layout : Layout link)

def listing : Text :=
  layout.start ++ join ", " (layout.first :: layout.more)

def body : Text :=
  layout.listing ++ layout.ending

/-- A link as it is written. -/
def flat (link : WrittenLink) : Layout link where
  start := link.start
  first := link.first.text
  more := link.more.map (·.text)
  ending := versionEnding link.versions
  started := by
    refine oneLine_eq_self ?_
    unfold WrittenLink.start
    cases link.collection with
    | none => exact List.not_mem_nil
    | some word => simpa using word.not_mem (c := '\n') (by decide)
  opened := oneLine_eq_self (link.first.isPlain.not_mem (by decide))
  others := by
    rw [List.map_map]
    exact List.map_congr_left fun reference _ => oneLine_eq_self (reference.isPlain.not_mem (by decide))
  ended := oneLine_eq_self (not_mem_versionEnding link.versions (by decide))

theorem text_flat (link : WrittenLink) : link.text = opening ++ (flat link).body ++ closing :=
  rfl

theorem oneLine_listing : oneLine layout.listing = link.listing := by
  rw [listing, oneLine_append, layout.started, oneLine_join (by decide), List.map_cons, layout.opened, layout.others]
  rfl

theorem isPart_first : IsPart layout.first :=
  isPart_of_wrapped layout.opened

theorem forall₂_more : List.Forall₂ (fun part reference => oneLine part = WrittenReference.text reference) layout.more link.more := by
  have same : List.Forall₂ Eq (layout.more.map oneLine) (link.more.map (·.text)) := by
    rw [List.forall₂_eq_eq_eq]
    exact layout.others
  rwa [List.forall₂_map_left_iff, List.forall₂_map_right_iff] at same

theorem isPart_of_mem : ∀ part ∈ layout.first :: layout.more, IsPart part := by
  refine List.forall_mem_cons.mpr ⟨layout.isPart_first, fun part member => ?_⟩
  obtain ⟨reference, _, wrapped⟩ := exists_of_forall₂ layout.forall₂_more member
  exact isPart_of_wrapped wrapped

theorem splitUnquoted_listing :
    splitUnquoted commaSeparator layout.listing = (layout.start ++ layout.first) :: layout.more :=
  WrittenLink.splitUnquoted_start layout.started layout.isPart_of_mem

theorem isTight_first : IsTight (layout.start ++ layout.first) :=
  (WrittenLink.isPart_start_append layout.started layout.isPart_first).tight

theorem separatePipes_first : separatePipes none (layout.start ++ layout.first) = ⟨layout.first, link.collectionName, []⟩ :=
  WrittenLink.separatePipes_start layout.started layout.isPart_first.tight layout.isPart_first.unquoted
    (bar_not_mem_of_wrapped layout.opened)

/-! A single reference may keep its versions. -/

section
variable (single : link.more = [])
include single

theorem body_of_single : layout.body = layout.start ++ (layout.first ++ layout.ending) := by
  have alone : layout.more = [] := by
    have others := layout.others
    rw [single] at others
    exact List.map_eq_nil_iff.mp others
  rw [body, listing, alone, join_singleton, List.append_assoc]

theorem isPart_body : IsPart layout.body := by
  have absent : ',' ∉ layout.ending := fun member =>
    not_mem_versionEnding link.versions (by decide) (layout.ended ▸ mem_of_mem_oneLine member (by decide))
  have rest : oneLine (layout.first ++ layout.ending) = link.first.text ++ versionEnding link.versions := by
    rw [oneLine_append, layout.opened, layout.ended]
  rw [layout.body_of_single single]
  refine WrittenLink.isPart_start_append layout.started ⟨isTight_of_oneLine ?_, unquoted_of_oneLine ?_, fun after => ?_⟩
  · rw [rest]
    exact isTight_append_versionEnding link.versions link.first.isTight
  · rw [rest]
    exact unquoted_append.mpr ⟨link.first.isPlain.unquoted, unquoted_versionEnding link.versions⟩
  · exact passes_append.mpr ⟨layout.isPart_first.passes _, passes_comma absent after⟩

theorem splitUnquoted_body : splitUnquoted commaSeparator layout.body = [layout.body] := by
  have alone := splitUnquoted_parts (List.cons_ne_nil layout.body [])
    (List.forall_mem_singleton.mpr (layout.isPart_body single))
  rwa [join_singleton] at alone

theorem separatePipes_body {collection : Word} (known : link.collection = some collection) (versioned : link.versions ≠ []) :
    separatePipes none layout.body = ⟨layout.first, normalize collection.text, versionNames link.versions⟩ := by
  have alone := layout.isPart_first
  obtain ⟨left, right, started, before, after⟩ := WrittenLink.exists_collection layout.started known
  obtain ⟨left', right', versions, ended, before', after', tight, unquoted, absent, _, named⟩ :=
    WrittenLink.exists_versions layout.ended versioned
  have separated := separatePipes_pipes alone.tight alone.unquoted (bar_not_mem_of_wrapped layout.opened) collection before
    after before' after' tight unquoted absent
  rw [layout.body_of_single single, started, ended, List.append_assoc, ← named]
  exact separated

end

/-! ### Links that break no bond -/

/-- A title stands on one line if a chapter comes after it. -/
def KeepsTitles : Prop :=
  List.Forall₂ (fun part reference => ¬ WrittenReference.HasBrokenTitle reference part) (layout.first :: layout.more)
    link.references

variable {layout} (keeps : layout.KeepsTitles) (reader : Reader)
include keeps

theorem readReferences_of_keeps (versions : List Text) :
    reader.readReferences none versions ((layout.start ++ layout.first) :: layout.more) =
      reader.readReferences none versions ((link.start ++ link.first.text) :: link.more.map (·.text)) := by
  obtain ⟨here, later⟩ := List.forall₂_cons.mp keeps
  refine Reader.readReferences_cons_congr ?first ?more
  case first =>
    exact Reader.readReference_unbroken layout.isTight_first layout.separatePipes_first layout.opened (flat link).isTight_first
      (flat link).separatePipes_first here versions
  case more =>
    rw [List.forall₂_map_right_iff]
    refine layout.forall₂_more.mp (fun part reference wrapped keeps inherited versions => ?_) later
    have alone := isPart_of_wrapped wrapped
    have separated := separatePipes_pipeless alone.tight alone.unquoted (bar_not_mem_of_wrapped wrapped) inherited
    have written := separatePipes_plain inherited reference.isTight reference.isPlain
    exact Reader.readReference_unbroken alone.tight separated wrapped reference.isTight written keeps versions

/-- As long as no bond is broken, a link is read as if it stood on one line. -/
theorem readLink_of_keeps : reader.readLink (opening ++ layout.body ++ closing) = reader.readLink link.text := by
  have written := WrittenLink.readLink_wrapped (flat link).oneLine_listing (flat link).ended reader
  rw [text_flat, body, body, written, WrittenLink.readLink_wrapped layout.oneLine_listing layout.ended]
  by_cases complete : link.versions = [] ∨ readsAsComplete link.listing = true
  · rw [if_pos complete, if_pos complete, layout.splitUnquoted_listing, (flat link).splitUnquoted_listing]
    exact readReferences_of_keeps keeps reader _
  · obtain ⟨versioned, incomplete⟩ := not_or.mp complete
    have single : link.more = [] := by
      by_contra several
      exact incomplete (link.readsAsComplete_listing (Or.inl several))
    rw [if_neg complete, if_neg complete]
    change reader.readReferences none [] (splitUnquoted commaSeparator layout.body) =
      reader.readReferences none [] (splitUnquoted commaSeparator (flat link).body)
    rw [layout.splitUnquoted_body single, (flat link).splitUnquoted_body single]
    cases known : link.collection with
    | none =>
      have chapter := (link.complete known versioned).resolve_left fun more => more single
      exact absurd (link.readsAsComplete_listing (Or.inr ⟨known, chapter⟩)) incomplete
    | some collection =>
      refine Reader.readReferences_cons_congr ?_ .nil
      exact Reader.readReference_unbroken (layout.isPart_body single).tight (layout.separatePipes_body single known versioned)
        layout.opened ((flat link).isPart_body single).tight ((flat link).separatePipes_body single known versioned)
        (List.forall₂_cons.mp keeps).1 []

end Layout

end Bindery.Link
