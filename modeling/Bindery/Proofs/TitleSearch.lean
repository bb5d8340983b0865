import Bindery.Title.Index
import Mathlib.Data.Finset.Card
import Mathlib.Data.List.Infix
import Mathlib.Data.List.Induction

/-! Searching for titles. An index holds each key once, but it answers as if all forms of all titles had been kept and
searched one after another: the first title that has a form is the one that every search comes to first. -/

namespace Bindery
open Text Identifier

theorem Text.occursIn_iff {part text : Text} : occursIn part text = true ↔ part <:+: text := by
  induction text with
  | nil => simp [occursIn]
  | cons c rest ih => rw [occursIn, Bool.or_eq_true, List.isPrefixOf_iff_prefix, ih, List.infix_cons_iff]

namespace TitleIndex

/-! ### All claims of a table -/

/-- Every form of every title that names anything, in the order of the table, with the identifier of the long form. The
same key may come again. -/
def claims (entries : List TitleEntry) : List (Text × Text) :=
  entries.flatMap fun entry =>
    ([entry.long, entry.short, entry.display].map fun form => (Identifier.normalize form, Identifier.normalize entry.long)).filter
      fun pair => pair.1 ≠ []

/-- The identifier behind the first key that fulfils a condition. -/
def firstWhere (condition : Text → Bool) (pairs : List (Text × Text)) : Option Text :=
  (pairs.find? fun pair => condition pair.1).map Prod.snd

/-- What a name leads to: the first key that is this very name, wherever it stands, or else the first one that holds
the name or is held by it. -/
def lead? (pairs : List (Text × Text)) (name : Text) : Option Text :=
  (firstWhere (· = name) pairs).or (firstWhere (fun key => name <:+: key ∨ key <:+: name) pairs)

def search (pairs : List (Text × Text)) (text : Text) : Text :=
  if normalize text = [] then [] else (lead? pairs (normalize text)).getD (normalize text)

theorem claims_eq (entries : List TitleEntry) : claims entries = entries.flatMap TitleEntry.keys := by
  apply List.flatMap_congr
  intro entry _
  apply List.filter_congr
  intro pair _
  rw [Bool.eq_iff_iff]
  simp

section
variable {condition : Text → Bool} {pairs : List (Text × Text)}

theorem firstWhere_append (others : List (Text × Text)) :
    firstWhere condition (pairs ++ others) = (firstWhere condition pairs).or (firstWhere condition others) := by
  unfold firstWhere
  rw [List.find?_append]
  cases pairs.find? fun pair => condition pair.1 <;> rfl

theorem firstWhere_eq_none_iff : firstWhere condition pairs = none ↔ ∀ pair ∈ pairs, condition pair.1 = false := by
  simp [firstWhere]

theorem exists_of_firstWhere {canonical : Text} (found : firstWhere condition pairs = some canonical) :
    ∃ key, (key, canonical) ∈ pairs ∧ condition key = true := by
  obtain ⟨pair, first, rfl⟩ := Option.map_eq_some_iff.mp found
  have fulfilled := List.find?_some first
  exact ⟨pair.1, List.mem_of_find?_eq_some first, fulfilled⟩

/-- A key is there just where a search for it finds something. -/
theorem mem_keys_iff {key : Text} : key ∈ pairs.map Prod.fst ↔ firstWhere (· = key) pairs ≠ none := by
  rw [Ne, firstWhere_eq_none_iff]
  simp

end

/-! ### What is kept of them -/

/-- Each key is kept once, and any search comes to the same identifier as among all claims. -/
structure Keeps (all kept : List (Text × Text)) : Prop where
  distinct : (kept.map Prod.fst).Nodup
  first : ∀ condition, firstWhere condition kept = firstWhere condition all

namespace Keeps
variable {all kept : List (Text × Text)}

theorem mem_keys (keeps : Keeps all kept) {key : Text} : key ∈ kept.map Prod.fst ↔ key ∈ all.map Prod.fst := by
  rw [mem_keys_iff, mem_keys_iff, keeps.first]

/-- A claim to a key that is taken changes nothing: whatever search would come to it has come to the earlier one. -/
theorem claim (keeps : Keeps all kept) (pair : Text × Text) : Keeps (all ++ [pair]) (claim kept pair) := by
  unfold TitleIndex.claim
  split
  next taken =>
    obtain ⟨earlier, member, same⟩ := List.any_eq_true.mp taken
    refine ⟨keeps.distinct, ?_⟩
    intro condition
    rw [firstWhere_append, ← keeps.first]
    cases found : firstWhere condition kept with
    | some canonical => rfl
    | none =>
      have refused : condition pair.1 = false := by
        rw [← of_decide_eq_true same]
        exact firstWhere_eq_none_iff.mp found earlier member
      exact (firstWhere_eq_none_iff.mpr (by simpa using refused)).symm
  next free =>
    constructor
    · rw [List.map_append, List.nodup_append]
      refine ⟨keeps.distinct, List.nodup_singleton _, ?_⟩
      intro key member other single same
      obtain ⟨earlier, inside, rfl⟩ := List.mem_map.mp member
      apply free
      refine List.any_eq_true.mpr ⟨earlier, inside, decide_eq_true ?_⟩
      exact same.trans (List.mem_singleton.mp single)
    · intro condition
      rw [firstWhere_append, firstWhere_append, keeps.first]

theorem foldl_claim (pairs : List (Text × Text)) : Keeps pairs (pairs.foldl TitleIndex.claim []) := by
  induction pairs using List.reverseRecOn with
  | nil => exact ⟨List.nodup_nil, fun _ => rfl⟩
  | append_singleton pairs pair ih =>
    rw [List.foldl_concat]
    exact ih.claim pair

end Keeps

theorem keeps_ofEntries (entries : List TitleEntry) : Keeps (claims entries) (ofEntries entries).pairs := by
  rw [claims_eq]
  exact Keeps.foldl_claim _

/-! ### Searching -/

theorem resolve_eq_search (index : TitleIndex) (text : Text) : index.resolve text = search index.pairs text := by
  have overlaps : ∀ key, overlap (normalize text) key = decide (normalize text <:+: key ∨ key <:+: normalize text) := by
    intro key
    apply Bool.eq_iff_iff.mpr
    rw [overlap, Bool.or_eq_true, occursIn_iff, occursIn_iff, decide_eq_true_iff]
  unfold resolve search lead? firstWhere
  simp only [overlaps, List.isEmpty_iff]
  split
  next unnamed => exact unnamed
  next =>
    cases index.pairs.find? fun pair => decide (pair.1 = normalize text) with
    | some pair => rfl
    | none =>
      cases index.pairs.find? fun pair => decide (normalize text <:+: pair.1 ∨ pair.1 <:+: normalize text) with
      | some pair => rfl
      | none => rfl

/-- An index answers as a search through all forms of all titles does. Its keys are the forms that differ. -/
theorem resolve_searches_all_claims (entries : List TitleEntry) :
    (∀ text, (ofEntries entries).resolve text = search (claims entries) text) ∧
      (ofEntries entries).size = ((claims entries).map Prod.fst).toFinset.card := by
  have keeps := keeps_ofEntries entries
  constructor
  · intro text
    rw [resolve_eq_search]
    unfold search lead?
    rw [keeps.first, keeps.first]
  · have keys : ((ofEntries entries).pairs.map Prod.fst).toFinset = ((claims entries).map Prod.fst).toFinset := by
      ext key
      rw [List.mem_toFinset, List.mem_toFinset, keeps.mem_keys]
    rw [← keys, List.toFinset_card_of_nodup keeps.distinct, List.length_map]
    rfl

end TitleIndex
end Bindery
