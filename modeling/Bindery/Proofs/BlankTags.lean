import Bindery.Document.Compositor
import Bindery.Proofs.Tokens

/-! Blank tags of a work. The first tag of a key speaks for it, so a blank one before others hides what they say, and
white space may stand where something else could be told in its place. Such first tags are set aside. Every other blank
tag is as good as none: the title and all that is said about the work stay the same without it. -/

namespace Bindery
open Text

/-! ### What a text says -/

namespace Text

/-- A text of blanks alone is taken for the empty one. -/
def said (text : Text) : Text :=
  if isPresent text then text else []

theorem said_of_isPresent {text : Text} (present : isPresent text = true) : said text = text :=
  if_pos present

theorem said_of_blank {text : Text} (blank : isPresent text = false) : said text = [] :=
  if_neg (by simp [blank])

theorem isPresent_said (text : Text) : isPresent (said text) = isPresent text := by
  unfold said
  split
  next => rfl
  next blank => simpa [isPresent] using blank

theorem ite_said (f : Text → Text) (text : Text) :
    (if isPresent (said text) then f (said text) else []) = if isPresent text then f text else [] := by
  rw [isPresent_said]
  split
  next present => rw [said_of_isPresent present]
  next => rfl

theorem find?_isPresent_said (texts : List Text) : (texts.map said).find? isPresent = texts.find? isPresent := by
  induction texts with
  | nil => rfl
  | cons text rest ih =>
    rw [List.map_cons, List.find?_cons, List.find?_cons, isPresent_said, ih]
    cases present : isPresent text with
    | true => rw [said_of_isPresent present]
    | false => rfl

theorem find?_isPresent_congr {texts others : List Text} (alike : texts.map said = others.map said) :
    texts.find? isPresent = others.find? isPresent := by
  rw [← find?_isPresent_said, alike, find?_isPresent_said]

theorem runsOutside_eq_nil {separates : Char → Bool} {text : Text} (apart : ∀ c ∈ text, separates c = true) :
    runsOutside separates text = [] := by
  induction text with
  | nil => rfl
  | cons c rest ih =>
    obtain ⟨first, others⟩ := List.forall_mem_cons.mp apart
    have later := ih others
    unfold runsOutside at later ⊢
    rw [List.splitOnP_cons_eq_if_modifyHead, if_pos first]
    exact later

theorem titleCase_of_blank {text : Text} (blank : isPresent text = false) : Wording.titleCase text = [] := by
  have breaks : ∀ c ∈ text, Wording.isWordBreak c = true := by
    intro c member
    have all : text.all isBlank = true := by simpa [isPresent] using blank
    simp [Wording.isWordBreak, List.all_eq_true.mp all c member]
  rw [Wording.titleCase, runsOutside_eq_nil breaks]
  rfl

end Text

/-! ### Tags that are as good as none -/

namespace Node

def withoutBlankTags (node : Node) : Node :=
  { node with tags := node.tags.filter fun tag => isPresent tag.value }

end Node

/-- A tag with what its value says. -/
def Tag.told (tag : Tag) : Tag :=
  { tag with value := said tag.value }

namespace Compositor

/-- Keys that say one thing about a work each, by the first of their tags. Topics are told by all tags of their key. -/
def singleKeys : List Text :=
  ["title", "T", "d", "author", "p", "version", "published_on", "source", "summary", "description", "image", "C", "type"]

/-- The first tag of a key is blank though another one is not. -/
def hides (root : Node) (key : Text) : Bool :=
  singleKeys.contains key && (root.first key).any (!isPresent ·) && (root.values key).any isPresent

/-- What is told where a work has no tag of a key. -/
def inPlace (compositor : Compositor) (root : Node) (key : Text) : Text :=
  if key = "author" then firstOrEmpty root "p"
  else if key = "summary" then firstOrEmpty root "description"
  else if key = "version" then compositor.defaultVersion
  else []

/-- White space stands where something else could be told in its place. -/
def keepsOut (compositor : Compositor) (root : Node) (key : Text) : Bool :=
  (root.first key).any (fun value => value ≠ [] && !isPresent value) && isPresent (compositor.inPlace root key)

/-- Tags without the blank ones. Of some keys the first tag stays whatever it says, if no tag of theirs came before. -/
def tagsWithoutBlanks (stays : Text → Bool) (seen : List Text) : List Tag → List Tag
  | [] => []
  | tag :: rest =>
    let later := tagsWithoutBlanks stays (tag.key :: seen) rest
    if isPresent tag.value || (stays tag.key && !seen.contains tag.key) then tag :: later else later

/-- A work without its blank tags. Only the first tag of a key stays where it hides others or keeps something out. -/
def withoutBlanks (compositor : Compositor) (root : Node) : Node :=
  { root with tags := tagsWithoutBlanks (fun key => hides root key || compositor.keepsOut root key) [] root.tags }

/-- The first of some texts, and those after it that say something. -/
def firstAndPresent : List Text → List Text
  | [] => []
  | text :: rest => text :: rest.filter isPresent

theorem filter_firstAndPresent (texts : List Text) : (firstAndPresent texts).filter isPresent = texts.filter isPresent := by
  cases texts with
  | nil => rfl
  | cons text rest => simp [firstAndPresent, List.filter_cons]

/-- What is left under a key: what says something, and before that the first tag, if it stays. -/
theorem values_tagsWithoutBlanks (stays : Text → Bool) (key : Text) (seen : List Text) (tags : List Tag) :
    ((tagsWithoutBlanks stays seen tags).filter fun tag => tag.key = key).map Tag.value =
      if stays key && !seen.contains key then firstAndPresent ((tags.filter fun tag => tag.key = key).map Tag.value)
      else ((tags.filter fun tag => tag.key = key).map Tag.value).filter isPresent := by
  induction tags generalizing seen with
  | nil => simp [tagsWithoutBlanks, firstAndPresent]
  | cons tag rest ih =>
    have later := ih (tag.key :: seen)
    by_cases same : tag.key = key
    · -- From here on the key has been seen, so only what says something is left of it.
      subst same
      have here (tags : List Tag) : ((tag :: tags).filter fun other => other.key = tag.key).map Tag.value =
          tag.value :: (tags.filter fun other => other.key = tag.key).map Tag.value := by simp
      have met : (tag.key :: seen).contains tag.key = true := by simp
      rw [met, Bool.not_true, Bool.and_false, if_neg Bool.false_ne_true] at later
      rw [tagsWithoutBlanks, here]
      by_cases first : (stays tag.key && !seen.contains tag.key) = true
      · rw [first, Bool.or_true, if_pos rfl, if_pos rfl, here, later]
        rfl
      · rw [if_neg first, Bool.eq_false_iff.mpr first, Bool.or_false, List.filter_cons]
        split
        next => rw [here, later]
        next => exact later
    · have passed (tags : List Tag) : ((tag :: tags).filter fun tag => tag.key = key).map Tag.value =
          (tags.filter fun tag => tag.key = key).map Tag.value := by simp [same]
      have unmet : (tag.key :: seen).contains key = seen.contains key := by simp [Ne.symm same]
      rw [unmet] at later
      rw [tagsWithoutBlanks, passed, ← later]
      split
      next => exact passed _
      next => rfl

section
variable {compositor : Compositor} {root : Node}

theorem values_withoutBlanks (key : Text) : (compositor.withoutBlanks root).values key =
    if hides root key || compositor.keepsOut root key then firstAndPresent (root.values key)
    else (root.values key).filter isPresent := by
  have left := values_tagsWithoutBlanks (fun key => hides root key || compositor.keepsOut root key) key [] root.tags
  rwa [List.contains_nil, Bool.not_false, Bool.and_true] at left

/-- The first tag of a key stays what it is, or it was blank and there is none any more. -/
theorem first_withoutBlanks {key : Text} (single : key ∈ singleKeys) :
    (compositor.withoutBlanks root).first key = root.first key ∨
      (compositor.withoutBlanks root).first key = none ∧
        ∃ value, root.first key = some value ∧ isPresent value = false ∧ compositor.keepsOut root key = false := by
  rw [Node.first_eq_head?, Node.first_eq_head? root, values_withoutBlanks]
  split
  next =>
    left
    cases root.values key <;> rfl
  next cleared =>
    obtain ⟨shown, free⟩ := Bool.or_eq_false_iff.mp (Bool.eq_false_iff.mpr cleared)
    unfold hides at shown
    rw [Node.first_eq_head?] at shown
    cases values : root.values key with
    | nil => exact Or.inl rfl
    | cons value rest =>
      by_cases present : isPresent value = true
      · left
        rw [List.filter_cons_of_pos present]
        rfl
      · have blank : isPresent value = false := Bool.eq_false_iff.mpr present
        have mute : ∀ later ∈ rest, isPresent later = false := by
          simpa [values, single, blank] using shown
        have nothing : (value :: rest).filter isPresent = [] := by
          apply List.filter_eq_nil_iff.mpr
          simpa [blank] using mute
        right
        exact ⟨by rw [nothing]; rfl, value, rfl, blank, free⟩

theorem said_firstOrEmpty {key : Text} (single : key ∈ singleKeys) :
    said (firstOrEmpty (compositor.withoutBlanks root) key) = said (firstOrEmpty root key) := by
  unfold firstOrEmpty
  rcases first_withoutBlanks single with same | ⟨gone, value, found, blank, _⟩
  · rw [same]
  · rw [gone, found, Option.getD_some, said_of_blank blank]
    rfl

theorem firstNamed_pair (first second : Text) : firstNamed [first, second] = if first = [] then second else first := by
  unfold firstNamed
  cases first with
  | nil =>
    cases second with
    | nil => rfl
    | cons c rest => rfl
  | cons c rest => rfl

/-- What a work tells under a key, or else in its place, stays the same. -/
theorem said_firstNamed {key : Text} (single : key ∈ singleKeys) {other : Text}
    (alike : said other = said (compositor.inPlace root key)) :
    said (firstNamed [firstOrEmpty (compositor.withoutBlanks root) key, other]) =
      said (firstNamed [firstOrEmpty root key, compositor.inPlace root key]) := by
  rw [firstNamed_pair, firstNamed_pair]
  unfold firstOrEmpty
  rcases first_withoutBlanks single with same | ⟨gone, value, found, blank, free⟩
  · rw [same]
    split
    next => exact alike
    next => rfl
  · rw [gone, found, Option.getD_none, Option.getD_some, if_pos rfl, alike]
    split
    next => rfl
    next white =>
      have empty : isPresent (compositor.inPlace root key) = false := by
        simpa [keepsOut, found, white, blank] using free
      rw [said_of_blank empty, said_of_blank blank]

theorem said_author : said (author (compositor.withoutBlanks root)) = said (author root) :=
  said_firstNamed (show ("author" : Text) ∈ singleKeys by decide) (said_firstOrEmpty (by decide))

theorem said_summary : said (summary (compositor.withoutBlanks root)) = said (summary root) :=
  said_firstNamed (show ("summary" : Text) ∈ singleKeys by decide) (said_firstOrEmpty (by decide))

theorem said_version : said (compositor.version (compositor.withoutBlanks root)) = said (compositor.version root) :=
  said_firstNamed (show ("version" : Text) ∈ singleKeys by decide) rfl

theorem topics_withoutBlanks : topics (compositor.withoutBlanks root) = topics root := by
  unfold topics
  rw [values_withoutBlanks]
  split
  next => rw [filter_firstAndPresent]
  next => rw [List.filter_filter]; simp

theorem said_titleCase : said (Wording.titleCase ((compositor.withoutBlanks root).name.getD [])) =
    said (Wording.titleCase (root.name.getD [])) := by
  unfold Node.name
  have single : ("d" : Text) ∈ singleKeys := by decide
  rcases first_withoutBlanks single with same | ⟨gone, value, found, blank, _⟩
  · rw [same]
  · rw [gone, found, Option.getD_some, titleCase_of_blank blank]
    rfl

theorem revisionDate_withoutBlanks :
    (if isPresent (firstOrEmpty (compositor.withoutBlanks root) "published_on") then
        Wording.revisionDate (firstOrEmpty (compositor.withoutBlanks root) "published_on") else []) =
      if isPresent (firstOrEmpty root "published_on") then Wording.revisionDate (firstOrEmpty root "published_on") else [] := by
  have single : ("published_on" : Text) ∈ singleKeys := by decide
  rw [← ite_said, said_firstOrEmpty single, ite_said]

end

/-! ### What is told about the work -/

/-- Titles that a work may have, the best first. -/
def candidates (root : Node) : List Text :=
  [firstOrEmpty root "title", firstOrEmpty root "T", Wording.titleCase (root.name.getD [])]

theorem documentTitle_eq (root : Node) (reference : Option Text) : documentTitle root reference =
    (((candidates root).find? isPresent).map strip).getD ((Reference.named reference).getD (root.id.take 8)) := by
  unfold documentTitle candidates
  dsimp only
  cases [firstOrEmpty root "title", firstOrEmpty root "T", Wording.titleCase (root.name.getD [])].find? isPresent with
  | none => rfl
  | some title => rfl

/-- Fields are told by what their values say. -/
theorem presentFields_told (fields : List Tag) : presentFields (fields.map Tag.told) = presentFields fields := by
  induction fields with
  | nil => rfl
  | cons field rest ih =>
    unfold presentFields at ih ⊢
    rw [List.map_cons, List.filter_cons, List.filter_cons, Tag.told, isPresent_said]
    split
    next present => rw [List.map_cons, List.map_cons, ih, said_of_isPresent present]
    next => exact ih

theorem presentFields_congr {fields others : List Tag} (alike : fields.map Tag.told = others.map Tag.told) :
    presentFields fields = presentFields others := by
  rw [← presentFields_told, alike, presentFields_told]

/-- A blank tag that hides no other and keeps nothing out is as good as none: without all of these the title, the front
matter and the metadata are what they were. -/
theorem blank_tags_say_nothing (compositor : Compositor) (root : Node) (reference : Option Text) (title : Text) :
    documentTitle (compositor.withoutBlanks root) reference = documentTitle root reference ∧
      compositor.frontMatter (compositor.withoutBlanks root) title = compositor.frontMatter root title ∧
      compositor.metadata (compositor.withoutBlanks root) title reference = compositor.metadata root title reference := by
  refine ⟨?title, ?front, ?metadata⟩
  case title =>
    have alike : (candidates (compositor.withoutBlanks root)).find? isPresent = (candidates root).find? isPresent := by
      apply find?_isPresent_congr
      simp (disch := decide) only [candidates, List.map_cons, List.map_nil, said_firstOrEmpty, said_titleCase]
    rw [documentTitle_eq, documentTitle_eq, alike]
    rfl
  case front =>
    apply presentFields_congr
    simp (disch := decide) only [List.map_cons, List.map_nil, Tag.told, said_firstOrEmpty, said_author, said_summary,
      said_version, topics_withoutBlanks, revisionDate_withoutBlanks]
  case metadata =>
    apply presentFields_congr
    simp (disch := decide) only [List.map_cons, List.map_nil, Tag.told, said_firstOrEmpty, said_author, said_version,
      topics_withoutBlanks]

/-- Its first title is blank, so it is called by its identifier. -/
def workOfTwoTitles : Node :=
  ⟨"work-1", "alice", .index, some 30040, [⟨"d", "work"⟩, ⟨"title", ""⟩, ⟨"title", "The Work"⟩], "", 0⟩

theorem blank_title_hides_title :
    documentTitle workOfTwoTitles none = "Work" ∧ documentTitle workOfTwoTitles.withoutBlankTags none = "The Work" ∧
      ¬ ∀ (compositor : Compositor) (root : Node) (reference : Option Text) (title : Text),
        documentTitle root.withoutBlankTags reference = documentTitle root reference ∧
          compositor.frontMatter root.withoutBlankTags title = compositor.frontMatter root title ∧
          compositor.metadata root.withoutBlankTags title reference = compositor.metadata root title reference := by
  have before : documentTitle workOfTwoTitles none = "Work" := by decide
  have after : documentTitle workOfTwoTitles.withoutBlankTags none = "The Work" := by decide
  refine ⟨before, after, ?_⟩
  intro unchanged
  have same := (unchanged ⟨.asciiDoc, 60, "", 6⟩ workOfTwoTitles none "").1
  rw [before, after] at same
  exact absurd same (by decide)

end Compositor
end Bindery
