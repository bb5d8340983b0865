import Bindery.Proofs.NormalReferences
import Bindery.Proofs.QuotedTitles
import Bindery.Proofs.TitleSearch

/-! Names that titles lead to. A name that is reached leads to itself, so a second search finds what the first one found.
A title that names anything leads to a name, unless it leads to a long form that names nothing itself. -/

namespace Bindery
open Text Identifier

namespace TitleIndex
variable {entries : List TitleEntry} {text : Text}

/-! ### What comes of a search -/

theorem resolve_of_unnamed (index : TitleIndex) (unnamed : normalize text = []) : index.resolve text = [] := by
  rw [resolve_eq_search, search, if_pos unnamed]

theorem resolve_of_named (index : TitleIndex) (named : normalize text ≠ []) :
    index.resolve text = (lead? index.pairs (normalize text)).getD (normalize text) := by
  rw [resolve_eq_search, search, if_neg named]

theorem exists_of_lead? {pairs : List (Text × Text)} {name canonical : Text} (led : lead? pairs name = some canonical) :
    ∃ key, (key, canonical) ∈ pairs := by
  rcases Option.or_eq_some_iff.mp led with exact | ⟨_, overlapping⟩
  · obtain ⟨key, member, _⟩ := exists_of_firstWhere exact
    exact ⟨key, member⟩
  · obtain ⟨key, member, _⟩ := exists_of_firstWhere overlapping
    exact ⟨key, member⟩

theorem lead?_ofEntries (entries : List TitleEntry) (name : Text) :
    lead? (ofEntries entries).pairs name = lead? (claims entries) name := by
  have keeps := keeps_ofEntries entries
  rw [lead?, lead?, keeps.first, keeps.first]

/-- A claim is that of a title, by one of its forms. -/
theorem exists_of_mem_claims {key canonical : Text} (member : (key, canonical) ∈ claims entries) :
    key ≠ [] ∧ IsIdentifier key ∧ ∃ entry ∈ entries, canonical = entry.canonical := by
  obtain ⟨entry, listed, inside⟩ := List.mem_flatMap.mp member
  obtain ⟨given, present⟩ := List.mem_filter.mp inside
  obtain ⟨form, _, same⟩ := List.mem_map.mp given
  cases same
  exact ⟨by simpa using present, isIdentifier_normalize form, entry, listed, rfl⟩

theorem mem_claims_of_mem_pairs {pair : Text × Text} (member : pair ∈ (ofEntries entries).pairs) : pair ∈ claims entries := by
  rw [claims_eq]
  exact (mem_foldl_claim member).resolve_left List.not_mem_nil

theorem lookup_eq_firstWhere (pairs : List (Text × Text)) (key : Text) : pairs.lookup key = firstWhere (· = key) pairs := by
  induction pairs with
  | nil => rfl
  | cons pair rest ih =>
    obtain ⟨name, canonical⟩ := pair
    rw [List.lookup_cons]
    by_cases here : key = name
    · subst here
      simp [firstWhere]
    · have different : (key == name) = false := by simpa using here
      have there : name ≠ key := Ne.symm here
      simpa [firstWhere, different, there] using ih

/-- A name that is a key leads to what stands beside it. -/
theorem resolve_of_first {index : TitleIndex} {name canonical : Text} (identifier : IsIdentifier name) (present : name ≠ [])
    (first : firstWhere (· = name) index.pairs = some canonical) : index.resolve name = canonical := by
  have named : normalize name ≠ [] := identifier.symm ▸ present
  rw [resolve_of_named _ named, identifier, lead?, first]
  rfl

/-! ### Names lead to themselves -/

theorem resolve_canonical {entry : TitleEntry}
    (stable : entry.canonical ≠ [] → (ofEntries entries).pairs.lookup entry.canonical = some entry.canonical) :
    (ofEntries entries).resolve entry.canonical = entry.canonical := by
  by_cases nameless : entry.canonical = []
  · rw [nameless]
    rfl
  · have itself := stable nameless
    rw [lookup_eq_firstWhere] at itself
    exact resolve_of_first (isIdentifier_normalize entry.long) nameless itself

/-- Where each long form leads to its own name, a name that has been reached is not left again. -/
theorem resolve_resolve (entries : List TitleEntry)
    (stable : ∀ entry ∈ entries, entry.canonical ≠ [] →
      (ofEntries entries).pairs.lookup entry.canonical = some entry.canonical) (text : Text) :
    (ofEntries entries).resolve ((ofEntries entries).resolve text) = (ofEntries entries).resolve text := by
  by_cases unnamed : normalize text = []
  · rw [resolve_of_unnamed _ unnamed]
    rfl
  rw [resolve_of_named _ unnamed]
  cases led : lead? (ofEntries entries).pairs (normalize text) with
  | none =>
    -- The name of an unknown title is searched for just as the title was.
    rw [Option.getD_none, resolve_congr _ (isIdentifier_normalize text), resolve_of_named _ unnamed, led, Option.getD_none]
  | some canonical =>
    rw [Option.getD_some]
    obtain ⟨key, member⟩ := exists_of_lead? led
    obtain ⟨_, _, entry, listed, rfl⟩ := exists_of_mem_claims (mem_claims_of_mem_pairs member)
    exact resolve_canonical (stable entry listed)

def booksOfSolomon : List TitleEntry :=
  [⟨"Song of Songs", "Song of Solomon", "Song"⟩, ⟨"Wisdom", "Wisdom of Solomon", "Wis"⟩]

/-- A form of a title, a part of two of them and an unknown title. -/
theorem books_of_solomon_stay :
    (∀ entry ∈ booksOfSolomon, entry.canonical ≠ [] →
      (ofEntries booksOfSolomon).pairs.lookup entry.canonical = some entry.canonical) ∧
    ∀ text ∈ [("Wis" : Text), "Solomon", "The Great Gatsby"],
      (ofEntries booksOfSolomon).resolve ((ofEntries booksOfSolomon).resolve text) = (ofEntries booksOfSolomon).resolve text := by
  have stable : ∀ entry ∈ booksOfSolomon, entry.canonical ≠ [] →
      (ofEntries booksOfSolomon).pairs.lookup entry.canonical = some entry.canonical := by
    decide
  exact ⟨stable, fun text _ => resolve_resolve booksOfSolomon stable text⟩

/-! ### Names that lead nowhere -/

/-- Keys lead to names if no title that has them first has a long form that names nothing. -/
def LeadsToNames (entries : List TitleEntry) : Prop :=
  ∀ pair ∈ (ofEntries entries).pairs, pair.2 ≠ []

instance (entries : List TitleEntry) : Decidable (LeadsToNames entries) :=
  inferInstanceAs (Decidable (∀ pair ∈ (ofEntries entries).pairs, pair.2 ≠ []))

theorem resolve_eq_nil_iff (entries : List TitleEntry) (text : Text) : (ofEntries entries).resolve text = [] ↔
    normalize text = [] ∨ lead? (claims entries) (normalize text) = some [] := by
  by_cases unnamed : normalize text = []
  · simp [resolve_of_unnamed, unnamed]
  · rw [resolve_of_named _ unnamed, lead?_ofEntries]
    cases lead? (claims entries) (normalize text) with
    | none => simp
    | some canonical => simp [unnamed]

/-- Where keys stand once, each leads to what stands beside it. -/
theorem firstWhere_of_mem {pairs : List (Text × Text)} (distinct : (pairs.map Prod.fst).Nodup) {pair : Text × Text}
    (member : pair ∈ pairs) : firstWhere (· = pair.1) pairs = some pair.2 := by
  cases found : firstWhere (· = pair.1) pairs with
  | none => exact absurd found (mem_keys_iff.mp (List.mem_map_of_mem member))
  | some canonical =>
    obtain ⟨key, other, same⟩ := exists_of_firstWhere found
    obtain rfl := List.inj_on_of_nodup_map distinct other member (of_decide_eq_true same)
    rfl

theorem resolve_key {pair : Text × Text} (member : pair ∈ (ofEntries entries).pairs) :
    (ofEntries entries).resolve pair.1 = pair.2 := by
  obtain ⟨present, identifier, _⟩ := exists_of_mem_claims (mem_claims_of_mem_pairs member)
  exact resolve_of_first identifier present (firstWhere_of_mem (keeps_ofEntries entries).distinct member)

theorem resolve_ne_nil (leads : LeadsToNames entries) (named : normalize text ≠ []) : (ofEntries entries).resolve text ≠ [] := by
  rw [resolve_of_named _ named]
  cases led : lead? (ofEntries entries).pairs (normalize text) with
  | none => exact named
  | some canonical =>
    obtain ⟨key, member⟩ := exists_of_lead? led
    exact leads _ member

/-- No title with content is lost just where all keys lead to names. -/
theorem forall_resolve_eq_nil_iff (entries : List TitleEntry) :
    (∀ text, (ofEntries entries).resolve text = [] ↔ normalize text = []) ↔ LeadsToNames entries := by
  constructor
  · intro kept pair member empty
    obtain ⟨present, identifier, _⟩ := exists_of_mem_claims (mem_claims_of_mem_pairs member)
    have lost := (kept pair.1).mp ((resolve_key member).trans empty)
    rw [identifier] at lost
    exact present lost
  · intro leads text
    constructor
    · intro lost
      by_contra named
      exact resolve_ne_nil leads named lost
    · exact resolve_of_unnamed _

end TitleIndex

namespace Link
open TitleIndex

namespace Reader
variable {reader : Reader} {inherited : Option Text} {content : Text}

/-- Nothing comes of a part without content, and of one whose title names nothing. -/
theorem readReference_eq_none_iff (versions : List Text) : reader.readReference content inherited versions = .ok none ↔
    strip content = [] ∨
      (∀ number ∈ reader.titleNumbers (.of inherited content), IsShort number) ∧ reader.nameOf (.of inherited content) = [] := by
  by_cases empty : strip content = []
  · rw [readReference, empty]
    exact iff_of_true rfl (Or.inl rfl)
  obtain ⟨written, title, read⟩ := readReference_of_present reader inherited versions empty
  rw [read, bind_eq_ok, or_iff_right empty]
  constructor
  · rintro ⟨name, resolved, rest⟩
    obtain ⟨short, same⟩ := (resolveTitle_eq_ok_iff title).mp resolved
    refine ⟨short, ?_⟩
    split at rest
    next nothing => rw [same]; simpa using nothing
    next =>
      obtain ⟨sections, _, found⟩ := bind_eq_ok.mp rest
      cases found
  · rintro ⟨short, nothing⟩
    exact ⟨[], (resolveTitle_eq_ok_iff title).mpr ⟨short, nothing⟩, rfl⟩

theorem resolve_of_nameOf_eq_nil {draft : Draft} (nothing : reader.nameOf draft = []) : reader.titles.resolve draft.title = [] := by
  unfold nameOf titleOf at nothing
  split at nothing
  next keeps =>
    have positive := keeps.2.2.1
    rw [nothing] at positive
    exact absurd positive (by decide)
  next => exact nothing

end Reader

/-- A word by itself is a title. -/
theorem draft_word (word : Word) : Draft.of none word.text = ⟨none, word.text, word.text, none, none⟩ := by
  have tight := word.isToken.isTight
  have separated := separatePipes_plain none tight word.isPlain
  have split : splitPlace word.text = ⟨word.text, none, none⟩ := by
    have alone : splitPlace (join " " [word.text]) = ⟨join " " [word.text], none, none⟩ :=
      splitPlace_title (by simpa using word.isToken) (by simp) (by simp)
    rwa [join_singleton] at alone
  have known := splitCollection_of_absent none (word.not_mem (c := '|') (by decide))
  rw [Draft.of, tight.strip_eq, separated]
  simp only [tight.strip_eq, split]
  change (⟨(splitCollection none word.text).1, strip (splitCollection none word.text).2, _⟩ : Draft) = _
  rw [known, tight.strip_eq]

/-- An identifier as a word. -/
def Word.ofIdentifier {name : Text} (identifier : IsIdentifier name) (present : name ≠ []) : Word where
  text := name
  present := present
  spelled := by
    apply List.all_eq_true.mpr
    intro c member
    rw [← identifier] at member
    exact isWordChar_of_mem_normalize member

theorem draft_key {entries : List TitleEntry} {pair : Text × Text} (member : pair ∈ (ofEntries entries).pairs) :
    Draft.of none pair.1 = ⟨none, pair.1, pair.1, none, none⟩ := by
  obtain ⟨present, identifier, _⟩ := exists_of_mem_claims (mem_claims_of_mem_pairs member)
  exact draft_word (.ofIdentifier identifier present)

/-- A key that leads to no name loses the reference that it is written for. -/
theorem readReference_key {entries : List TitleEntry} (numbered : Text) (highest : Int) {pair : Text × Text}
    (member : pair ∈ (ofEntries entries).pairs) (nameless : pair.2 = []) :
    (Reader.new (.ofEntries entries) numbered highest).readReference pair.1 none [] = .ok none := by
  apply (Reader.readReference_eq_none_iff []).mpr
  right
  rw [draft_key member]
  constructor
  · intro number titled
    have unnumbered : ¬ (Reader.new (.ofEntries entries) numbered highest).ReadsAsNumber ⟨none, pair.1, pair.1, none, none⟩ :=
      fun reads => nomatch reads.1
    rw [Reader.titleNumbers, if_neg unnumbered] at titled
    cases titled
  · rw [Reader.nameOf, Reader.titleOf, if_neg fun keeps => nomatch keeps.1]
    exact (resolve_key member).trans nameless

/-- A title names nothing in the end if it names nothing itself or leads to a long form that names nothing. Where no key
does so, only parts without a title come to nothing. -/
theorem titles_kept_iff (entries : List TitleEntry) (numbered : Text) (highest : Int) :
    (∀ text, (ofEntries entries).resolve text = [] ↔
      normalize text = [] ∨ lead? (claims entries) (normalize text) = some []) ∧
    ((∀ text, (ofEntries entries).resolve text = [] ↔ normalize text = []) ↔ LeadsToNames entries) ∧
    ((∀ content inherited versions,
      (Reader.new (.ofEntries entries) numbered highest).readReference content inherited versions = .ok none →
        strip content = [] ∨ normalize (Draft.of inherited content).title = []) ↔ LeadsToNames entries) := by
  refine ⟨resolve_eq_nil_iff entries, forall_resolve_eq_nil_iff entries, ?_, ?_⟩
  · intro kept pair member nameless
    obtain ⟨present, identifier, _⟩ := exists_of_mem_claims (mem_claims_of_mem_pairs member)
    have tight : IsTight pair.1 := (Word.ofIdentifier identifier present).isToken.isTight
    rcases kept pair.1 none [] (readReference_key numbered highest member nameless) with blank | untitled
    · exact present (tight.strip_eq ▸ blank)
    · rw [draft_key member, identifier] at untitled
      exact present untitled
  · intro leads content inherited versions nothing
    rcases (Reader.readReference_eq_none_iff versions).mp nothing with blank | ⟨_, nameless⟩
    · exact Or.inl blank
    · right
      have lost := Reader.resolve_of_nameOf_eq_nil nameless
      exact ((forall_resolve_eq_nil_iff entries).mpr leads _).mp lost

/-- A title whose long form is not in Latin letters. -/
def dream : TitleEntry :=
  ⟨"\u0421\u043e\u043d", "\u0421\u043e\u043d", "Son"⟩

theorem dream_loses_reference :
    (Reader.new (.ofEntries [dream]) "quran" 114).readReference "Son 1" none [] = .ok none ∧
      normalize (Draft.of none "Son 1").title = "son" ∧
      ¬ ∀ content inherited versions,
        (Reader.new (.ofEntries [dream]) "quran" 114).readReference content inherited versions = .ok none →
          strip content = [] ∨ normalize (Draft.of inherited content).title = [] := by
  have nameless : ¬ LeadsToNames [dream] := by decide +kernel
  refine ⟨by decide +kernel, by decide, ?_⟩
  intro kept
  have leads := (titles_kept_iff [dream] "quran" 114).2.2.mp kept
  exact nameless leads

end Link
end Bindery
