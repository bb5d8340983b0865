import Bindery.Node.File
import Bindery.Proofs.Results
import Mathlib.Data.List.Forall2

/-! What a file of nodes is read as: one node for each entry, in order, if every entry is the record of a node. Else the
reading stops at the first entry that is none. -/

namespace Bindery
namespace NodeFile
variable {path : Text} {indexKinds : List Int} {position : Nat} {items : List Data} {nodes : List Node} {source : Source}
  {error : NodeFileError}

/-! ### Entries -/

/-- An entry that is the record of a node. -/
def IsEntryOf (indexKinds : List Int) (item : Data) (node : Node) : Prop :=
  ∃ fields, item = .map fields ∧ Node.ofRecord indexKinds fields = .ok node

def readEntry (path : Text) (indexKinds : List Int) (position : Nat) : Data → Except NodeFileError Node
  | .map fields => (Node.ofRecord indexKinds fields).mapError (.record path position)
  | _ => .error (.noRecord path position)

theorem nodesFrom_cons (item : Data) :
    nodesFrom path indexKinds position (item :: items) = do
      let node ← readEntry path indexKinds position item
      return node :: (← nodesFrom path indexKinds (position + 1) items) := by
  cases item <;> rfl

theorem readEntry_eq_ok {item : Data} {node : Node} :
    readEntry path indexKinds position item = .ok node ↔ IsEntryOf indexKinds item node := by
  cases item with
  | map fields =>
    refine mapError_eq_ok.trans ?_
    exact ⟨fun read => ⟨fields, rfl, read⟩, fun ⟨_, same, read⟩ => Data.map.inj same ▸ read⟩
  | _ => exact iff_of_false nofun nofun

theorem readEntry_eq_error {item : Data} (failed : readEntry path indexKinds position item = .error error) :
    error = .noRecord path position ∨ ∃ fields fault, item = .map fields ∧ Node.ofRecord indexKinds fields = .error fault ∧
      error = .record path position fault := by
  cases item with
  | map fields =>
    obtain ⟨fault, refused, same⟩ := mapError_eq_error.mp failed
    exact .inr ⟨fields, fault, rfl, refused, same.symm⟩
  | _ => exact .inl (Except.error.inj failed).symm

/-- Entries are read to the end exactly if each of them is the record of a node. -/
theorem nodesFrom_eq_ok :
    nodesFrom path indexKinds position items = .ok nodes ↔ List.Forall₂ (IsEntryOf indexKinds) items nodes := by
  induction items generalizing position nodes with
  | nil =>
    rw [List.forall₂_nil_left_iff]
    exact ⟨fun same => (Except.ok.inj same).symm, fun same => congrArg _ same.symm⟩
  | cons item items ih =>
    rw [nodesFrom_cons, List.forall₂_cons_left_iff]
    refine bind_eq_ok.trans ?_
    constructor
    · rintro ⟨node, first, rest⟩
      obtain ⟨others, later, same⟩ := bind_eq_ok.mp rest
      cases same
      exact ⟨node, others, readEntry_eq_ok.mp first, ih.mp later, rfl⟩
    · rintro ⟨node, others, first, later, rfl⟩
      exact ⟨node, readEntry_eq_ok.mpr first, bind_eq_ok.mpr ⟨others, ih.mpr later, rfl⟩⟩

/-- The reading stops at the first entry that is none, with what is wrong with it. -/
theorem nodesFrom_eq_error :
    nodesFrom path indexKinds position items = .error error ↔
      ∃ before nodes item after, items = before ++ item :: after ∧ List.Forall₂ (IsEntryOf indexKinds) before nodes ∧
        readEntry path indexKinds (position + before.length) item = .error error := by
  induction items generalizing position with
  | nil =>
    refine iff_of_false nofun ?_
    rintro ⟨before, nodes, item, after, split, _⟩
    cases before <;> cases split
  | cons item items ih =>
    rw [nodesFrom_cons]
    refine bind_eq_error.trans ?_
    constructor
    · rintro (failed | ⟨node, first, rest⟩)
      · exact ⟨[], [], item, items, rfl, .nil, failed⟩
      · obtain failed | ⟨others, _, same⟩ := bind_eq_error.mp rest
        · obtain ⟨before, nodes, faulty, after, rfl, sound, failed⟩ := ih.mp failed
          refine ⟨item :: before, node :: nodes, faulty, after, rfl, .cons (readEntry_eq_ok.mp first) sound, ?_⟩
          have place : position + (item :: before).length = position + 1 + before.length := by
            rw [List.length_cons]
            omega
          rw [place]
          exact failed
        · cases same
    · rintro ⟨before, nodes, faulty, after, split, sound, failed⟩
      cases sound with
      | nil =>
        cases split
        exact .inl failed
      | cons first sound =>
        cases split
        refine .inr ⟨_, readEntry_eq_ok.mpr first, bind_eq_error.mpr (.inl (ih.mpr ?_))⟩
        refine ⟨_, _, faulty, after, rfl, sound, ?_⟩
        rw [List.length_cons] at failed
        rw [Nat.add_assoc, Nat.add_comm 1]
        exact failed

/-! ### Files -/

theorem nodes_of_error {fault : SourceError} (failed : source.data (format path) = .error fault) :
    NodeFile.nodes path indexKinds source = .error (.source path fault) := by
  rw [NodeFile.nodes, failed]
  rfl

theorem nodes_of_list (read : source.data (format path) = .ok (.list items)) :
    NodeFile.nodes path indexKinds source = nodesFrom path indexKinds 0 items := by
  rw [NodeFile.nodes, read]
  rfl

theorem nodes_of_other {value : Data} (read : source.data (format path) = .ok value)
    (other : ∀ items, value ≠ .list items) : NodeFile.nodes path indexKinds source = .error (.notList path) := by
  rw [NodeFile.nodes, read]
  cases value with
  | list items => exact absurd rfl (other items)
  | _ => rfl

/-- A file gives its nodes exactly if it holds a list of their records. -/
theorem nodes_eq_ok :
    NodeFile.nodes path indexKinds source = .ok nodes ↔
      ∃ items, source.data (format path) = .ok (.list items) ∧ List.Forall₂ (IsEntryOf indexKinds) items nodes := by
  cases read : source.data (format path) with
  | error error =>
    rw [nodes_of_error read]
    refine iff_of_false nofun ?_
    rintro ⟨items, same, _⟩
    cases same
  | ok value =>
    by_cases listed : ∃ items, value = .list items
    · obtain ⟨items, rfl⟩ := listed
      rw [nodes_of_list read, nodesFrom_eq_ok]
      constructor
      · exact fun sound => ⟨items, rfl, sound⟩
      · rintro ⟨others, same, sound⟩
        cases same
        exact sound
    · rw [nodes_of_other read fun items same => listed ⟨items, same⟩]
      refine iff_of_false nofun ?_
      rintro ⟨items, same, _⟩
      exact listed ⟨items, Except.ok.inj same⟩

theorem nodes_eq_error (failed : NodeFile.nodes path indexKinds source = .error error) :
    (∃ fault, source.data (format path) = .error fault ∧ error = .source path fault) ∨ error = .notList path ∨
      ∃ items, source.data (format path) = .ok (.list items) ∧ nodesFrom path indexKinds 0 items = .error error := by
  cases read : source.data (format path) with
  | error fault => exact .inl ⟨fault, rfl, (Except.error.inj ((nodes_of_error read).symm.trans failed)).symm⟩
  | ok value =>
    by_cases listed : ∃ items, value = .list items
    · obtain ⟨items, rfl⟩ := listed
      exact .inr (.inr ⟨items, rfl, (nodes_of_list read).symm.trans failed⟩)
    · have other : NodeFile.nodes path indexKinds source = .error (.notList path) :=
        nodes_of_other read fun items same => listed ⟨items, same⟩
      exact .inr (.inl (Except.error.inj (other.symm.trans failed)).symm)

end NodeFile
end Bindery
