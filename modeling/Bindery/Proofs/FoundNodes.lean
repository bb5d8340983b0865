import Bindery.Archive.Query
import Bindery.Proofs.ArchiveHistory
import Mathlib.Data.List.Basic
import Mathlib.Data.List.Pairwise

/-! What references find in an archive: all stored nodes whose tags agree with them and no others, the oldest first. A part that
a reference leaves open asks for nothing, and of several sections or versions one is enough; so a reference that says less, or
offers more to choose from, finds the same nodes and possibly others between them. -/

namespace Bindery

/-! ### Order -/

namespace Text

theorem precedes_iff {a b : Text} : precedes a b = true ↔ List.Lex (· < ·) a b ∨ a = b := by
  induction a generalizing b with
  | nil => cases b <;> simp [precedes]
  | cons c rest ih =>
    cases b with
    | nil => simp [precedes]
    | cons d others =>
      simp only [precedes, Bool.or_eq_true, Bool.and_eq_true, decide_eq_true_eq, beq_iff_eq, ih, List.cons_lex_cons_iff,
        List.cons.injEq]
      rw [and_or_left, or_assoc]

theorem precedes_trans {a b c : Text} (first : precedes a b = true) (second : precedes b c = true) : precedes a c = true := by
  rw [precedes_iff] at first second ⊢
  rcases first with before | rfl
  · rcases second with before' | rfl
    · exact Or.inl (List.lex_trans Char.lt_trans before before')
    · exact Or.inl before
  · exact second

theorem precedes_total (a b : Text) : precedes a b = true ∨ precedes b a = true := by
  rw [precedes_iff, precedes_iff]
  by_cases before : List.Lex (· < ·) a b
  · exact Or.inl (Or.inl before)
  · by_cases after : List.Lex (· < ·) b a
    · exact Or.inr (Or.inl after)
    · refine Or.inl (Or.inr (List.lex_trichotomous ?_ after before))
      exact fun _ _ above below => Char.le_antisymm (Char.not_lt.mp below) (Char.not_lt.mp above)

end Text

namespace Row

theorem comesBefore_iff {a b : Row} :
    comesBefore a b = true ↔ a.createdAt < b.createdAt ∨ a.createdAt = b.createdAt ∧ Text.precedes a.id b.id = true := by
  simp [comesBefore]

theorem comesBefore_trans (a b c : Row) (first : comesBefore a b = true) (second : comesBefore b c = true) :
    comesBefore a c = true := by
  rw [comesBefore_iff] at first second ⊢
  rcases first with younger | ⟨same, before⟩
  · left
    omega
  · rcases second with younger | ⟨same', before'⟩
    · left
      omega
    · exact Or.inr ⟨same.trans same', Text.precedes_trans before before'⟩

theorem comesBefore_total (a b : Row) : (comesBefore a b || comesBefore b a) = true := by
  rw [Bool.or_eq_true, comesBefore_iff, comesBefore_iff]
  rcases Int.lt_trichotomy a.createdAt b.createdAt with younger | same | older
  · exact Or.inl (Or.inl younger)
  · exact (Text.precedes_total a.id b.id).imp (fun before => Or.inr ⟨same, before⟩) fun after => Or.inr ⟨same.symm, after⟩
  · exact Or.inr (Or.inl older)

end Row

namespace Node

/-- Nodes in the order of their age, and of the characters of their ids where they are of one age. -/
def ComesBefore (a b : Node) : Prop :=
  a.createdAt < b.createdAt ∨ a.createdAt = b.createdAt ∧ List.Lex (· < ·) a.id b.id

theorem not_comesBefore_self (node : Node) : ¬ node.ComesBefore node := by
  rintro (younger | ⟨_, before⟩)
  · exact Int.lt_irrefl _ younger
  · exact List.lex_irrefl Char.lt_irrefl node.id before

/-! ### Agreement -/

/-- A tag of some key has a value that comes to a name. -/
def Tells (node : Node) (key name : Text) : Prop :=
  ∃ tag ∈ node.tags, tag.key = key ∧ Identifier.normalize tag.value = name

/-- The tags of a node agree with all that a reference asks for. -/
structure Answers (node : Node) (reference : Reference) : Prop where
  collection : ∀ name, reference.collection = some name → name ≠ [] → node.Tells "C" name
  title : node.Tells "T" reference.title
  chapter : ∀ name, reference.chapter = some name → name ≠ [] → node.Tells "c" name
  sections : reference.sections ≠ [] → ∃ name ∈ reference.sections, node.Tells "s" name
  versions : reference.versions ≠ [] → ∃ name ∈ reference.versions, node.Tells "v" name

variable {node : Node} {reference : Reference} {key name : Text}

theorem contains_identifiers : (node.identifiers key).contains name = true ↔ node.Tells key name := by
  simp [identifiers, values, Tells, and_assoc]

theorem agreesOn_iff {part : Option Text} :
    node.agreesOn key part = true ↔ ∀ name, part = some name → name ≠ [] → node.Tells key name := by
  simp only [agreesOn, Reference.named, Option.all_eq_true, Option.filter_eq_some_iff, contains_identifiers]
  constructor
  · intro agrees name given present
    exact agrees name ⟨given, by simpa using present⟩
  · rintro agrees name ⟨given, present⟩
    exact agrees name given (by simpa using present)

theorem agreesOnAny_iff {parts : List Text} :
    node.agreesOnAny key parts = true ↔ (parts ≠ [] → ∃ name ∈ parts, node.Tells key name) := by
  simp only [agreesOnAny, Bool.or_eq_true, List.isEmpty_iff, List.any_eq_true, contains_identifiers]
  exact Decidable.or_iff_not_imp_left

theorem isMeantBy_iff_answers : node.isMeantBy reference = true ↔ node.Answers reference := by
  simp only [isMeantBy, Bool.and_eq_true, agreesOn_iff, agreesOnAny_iff, contains_identifiers]
  constructor
  · rintro ⟨⟨⟨⟨collection, title⟩, chapter⟩, sections⟩, versions⟩
    exact ⟨collection, title, chapter, sections, versions⟩
  · rintro ⟨collection, title, chapter, sections, versions⟩
    exact ⟨⟨⟨⟨collection, title⟩, chapter⟩, sections⟩, versions⟩

end Node

/-! ### Wider references -/

/-- A list to choose from is dropped, or gets longer. -/
def OffersMore (parts others : List Text) : Prop :=
  others = [] ∨ parts ≠ [] ∧ parts ⊆ others

/-- The same reference with less that it asks for. -/
structure Reference.Widens (reference wider : Reference) : Prop where
  title : wider.title = reference.title
  collection : wider.collection = reference.collection ∨ wider.collection = none
  chapter : wider.chapter = reference.chapter ∨ wider.chapter = none
  sections : OffersMore reference.sections wider.sections
  versions : OffersMore reference.versions wider.versions

theorem OffersMore.choose {parts others : List Text} (more : OffersMore parts others) {holds : Text → Prop}
    (chosen : parts ≠ [] → ∃ name ∈ parts, holds name) (nonempty : others ≠ []) : ∃ name ∈ others, holds name := by
  rcases more with empty | ⟨present, within⟩
  · exact absurd empty nonempty
  · obtain ⟨name, member, held⟩ := chosen present
    exact ⟨name, within member, held⟩

theorem Node.Answers.widen {node : Node} {reference wider : Reference} (answers : node.Answers reference)
    (widens : reference.Widens wider) : node.Answers wider where
  collection name given := by
    rcases widens.collection with same | open_
    · exact answers.collection name (same ▸ given)
    · cases open_.symm.trans given
  title := widens.title ▸ answers.title
  chapter name given := by
    rcases widens.chapter with same | open_
    · exact answers.chapter name (same ▸ given)
    · cases open_.symm.trans given
  sections := widens.sections.choose answers.sections
  versions := widens.versions.choose answers.versions

namespace Archive
variable {archive : Archive} {indexKinds : List Int} {reference : Reference}

theorem get?_eq_some_iff (distinct : (archive.rows.map Row.id).Nodup) {node : Node} :
    archive.get? indexKinds node.id = some node ↔ ∃ row ∈ archive.rows, row.toNode indexKinds = node := by
  unfold get?
  rw [Option.map_eq_some_iff]
  constructor
  · rintro ⟨row, found, same⟩
    exact ⟨row, ((row?_eq_some distinct).mp found).1, same⟩
  · rintro ⟨row, member, rfl⟩
    exact ⟨row, (row?_eq_some distinct).mpr ⟨member, rfl⟩, rfl⟩

theorem mem_find (distinct : (archive.rows.map Row.id).Nodup) {node : Node} :
    node ∈ archive.find indexKinds reference ↔ archive.get? indexKinds node.id = some node ∧ node.Answers reference := by
  rw [find, List.mem_filter, List.mem_map, Node.isMeantBy_iff_answers, get?_eq_some_iff distinct]
  simp only [List.mem_mergeSort]

theorem pairwise_find (distinct : (archive.rows.map Row.id).Nodup) :
    (archive.find indexKinds reference).Pairwise Node.ComesBefore := by
  have sorted : (archive.rows.mergeSort Row.comesBefore).Pairwise fun a b => Row.comesBefore a b = true :=
    List.pairwise_mergeSort Row.comesBefore_trans Row.comesBefore_total archive.rows
  have apart : (archive.rows.mergeSort Row.comesBefore).Pairwise fun a b => a.id ≠ b.id := by
    apply List.pairwise_map.mp
    exact ((List.mergeSort_perm archive.rows Row.comesBefore).map Row.id).nodup_iff.mpr distinct
  apply List.Pairwise.filter
  apply List.pairwise_map.mpr
  refine sorted.imp₂ (fun a b before other => ?_) apart
  refine (Row.comesBefore_iff.mp before).imp_right fun ⟨same, precedes⟩ => ⟨same, ?_⟩
  exact (Text.precedes_iff.mp precedes).resolve_right other

theorem find_sublist {wider : Reference} (widens : reference.Widens wider) :
    (archive.find indexKinds reference).Sublist (archive.find indexKinds wider) := by
  apply List.monotone_filter_right
  intro node meant
  exact Node.isMeantBy_iff_answers.mpr ((Node.isMeantBy_iff_answers.mp meant).widen widens)

/-- After any sessions, what a reference finds are the stored nodes that answer it, each of them once, in the order of their
age and ids. A wider reference finds them too, in the same order. -/
theorem finds_answers_in_order (sessions : List Session) (indexKinds : List Int) (reference : Reference) :
    (∀ node, node ∈ (after sessions).find indexKinds reference ↔
      (after sessions).get? indexKinds node.id = some node ∧ node.Answers reference) ∧
    ((after sessions).find indexKinds reference).Nodup ∧
    ((after sessions).find indexKinds reference).Pairwise Node.ComesBefore ∧
    ∀ wider, reference.Widens wider →
      ((after sessions).find indexKinds reference).Sublist ((after sessions).find indexKinds wider) := by
  have distinct := (holds_after sessions).distinct
  have sorted : ((after sessions).find indexKinds reference).Pairwise Node.ComesBefore := pairwise_find distinct
  refine ⟨fun node => mem_find distinct, ?_, sorted, fun wider => find_sublist⟩
  refine sorted.imp fun {a b} before same => ?_
  exact a.not_comesBefore_self (same ▸ before)

def genesisVerses : Node :=
  ⟨"verses", "alice", .leaf, some 30041, [⟨"T", "GENESIS."⟩, ⟨"c", "1"⟩, ⟨"s", "2"⟩, ⟨"s", "3"⟩], "text", 0⟩

/-- Verses that are found by the number of one of them are found by a choice of numbers too. -/
theorem genesisVerses_found :
    Reference.Widens ⟨none, "genesis", some "1", ["3"], []⟩ ⟨none, "genesis", none, ["4", "3"], []⟩ ∧
      genesisVerses ∈ (after [⟨[genesisVerses], true⟩]).find [30040] ⟨none, "genesis", some "1", ["3"], []⟩ ∧
      genesisVerses ∈ (after [⟨[genesisVerses], true⟩]).find [30040] ⟨none, "genesis", none, ["4", "3"], []⟩ := by
  have widens : Reference.Widens ⟨none, "genesis", some "1", ["3"], []⟩ ⟨none, "genesis", none, ["4", "3"], []⟩ :=
    ⟨rfl, Or.inl rfl, Or.inr rfl, Or.inr ⟨by decide, by decide⟩, Or.inl rfl⟩
  obtain ⟨found, _, _, wider⟩ :=
    finds_answers_in_order [⟨[genesisVerses], true⟩] [30040] ⟨none, "genesis", some "1", ["3"], []⟩
  have member := (found genesisVerses).mpr ⟨by decide, Node.isMeantBy_iff_answers.mp (by decide)⟩
  exact ⟨widens, member, (wider _ widens).subset member⟩

end Archive
end Bindery
