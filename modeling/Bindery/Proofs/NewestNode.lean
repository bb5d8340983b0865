import Bindery.Graph.Store
import Mathlib.Data.List.Induction

/-! The node that a coordinate stands for: of all nodes there, the first among the newest. -/

namespace Bindery.Graph

/-- A node is the newest at a coordinate: those there before it are older, those after it not newer. -/
def IsNewest (nodes : List Node) (coordinate : Coordinate) (node : Node) : Prop :=
  node.coordinate = some coordinate ∧
    ∃ before after, nodes = before ++ node :: after ∧
      (∀ other ∈ before, other.coordinate = some coordinate → other.createdAt < node.createdAt) ∧
      ∀ other ∈ after, other.coordinate = some coordinate → other.createdAt ≤ node.createdAt

/-- No node at the coordinate was created later. -/
structure IsLatest (nodes : List Node) (coordinate : Coordinate) (node : Node) : Prop where
  stored : node ∈ nodes
  there : node.coordinate = some coordinate
  latest : ∀ other ∈ nodes, other.coordinate = some coordinate → other.createdAt ≤ node.createdAt

instance (nodes : List Node) (coordinate : Coordinate) (node : Node) : Decidable (IsLatest nodes coordinate node) :=
  decidable_of_iff (node ∈ nodes ∧ node.coordinate = some coordinate ∧
      ∀ other ∈ nodes, other.coordinate = some coordinate → other.createdAt ≤ node.createdAt)
    ⟨fun ⟨stored, there, latest⟩ => ⟨stored, there, latest⟩, fun latest => ⟨latest.stored, latest.there, latest.latest⟩⟩

variable {nodes : List Node} {coordinate : Coordinate} {node next : Node}

theorem IsNewest.mem (newest : IsNewest nodes coordinate node) : node ∈ nodes := by
  obtain ⟨_, before, after, rfl, _⟩ := newest
  simp

theorem IsNewest.le (newest : IsNewest nodes coordinate node) {other : Node} (member : other ∈ nodes)
    (there : other.coordinate = some coordinate) : other.createdAt ≤ node.createdAt := by
  obtain ⟨_, before, after, rfl, older, notNewer⟩ := newest
  rcases List.mem_append.mp member with early | late
  · exact Int.le_of_lt (older other early there)
  · rcases List.mem_cons.mp late with rfl | late
    · exact Int.le_refl _
    · exact notNewer other late there

theorem IsNewest.isLatest (newest : IsNewest nodes coordinate node) : IsLatest nodes coordinate node :=
  ⟨newest.mem, newest.1, fun _ => newest.le⟩

theorem isNewest_concat :
    IsNewest (nodes ++ [next]) coordinate node ↔
      IsNewest nodes coordinate node ∧ (next.coordinate = some coordinate → next.createdAt ≤ node.createdAt) ∨
      node = next ∧ next.coordinate = some coordinate ∧
        ∀ other ∈ nodes, other.coordinate = some coordinate → other.createdAt < next.createdAt := by
  constructor
  · intro given
    obtain ⟨there, before, after, split, older, notNewer⟩ := given
    rcases List.eq_nil_or_concat after with rfl | ⟨after, last, rfl⟩
    · obtain ⟨rfl, same⟩ := List.append_inj' split rfl
      obtain rfl := (List.cons.inj same).1
      exact Or.inr ⟨rfl, there, older⟩
    · rw [List.concat_eq_append, ← List.cons_append, ← List.append_assoc] at split
      obtain ⟨rfl, same⟩ := List.append_inj' split rfl
      obtain rfl := (List.cons.inj same).1
      rw [List.concat_eq_append, List.forall_mem_append, List.forall_mem_singleton] at notNewer
      exact Or.inl ⟨⟨there, before, after, rfl, older, notNewer.1⟩, notNewer.2⟩
  · intro given
    rcases given with ⟨⟨there, before, after, rfl, older, notNewer⟩, last⟩ | ⟨rfl, there, older⟩
    · refine ⟨there, before, after ++ [next], by simp, older, ?_⟩
      exact List.forall_mem_append.mpr ⟨notNewer, List.forall_mem_singleton.mpr last⟩
    · exact ⟨there, nodes, [], rfl, older, by simp⟩

theorem newestByCoordinate_concat (nodes : List Node) (next : Node) :
    newestByCoordinate (nodes ++ [next]) = keepNewest (newestByCoordinate nodes) next := by
  simp only [newestByCoordinate, List.foldl_append, List.foldl_cons, List.foldl_nil]

theorem nodeAt?_newestByCoordinate_eq_none :
    nodeAt? (newestByCoordinate nodes) coordinate = none ↔ ∀ node ∈ nodes, node.coordinate ≠ some coordinate := by
  induction nodes using List.reverseRecOn with
  | nil => simp [newestByCoordinate]
  | append_singleton nodes next ih =>
    rw [newestByCoordinate_concat, nodeAt?_keepNewest, List.forall_mem_append, List.forall_mem_singleton, ← ih]
    by_cases there : next.coordinate = some coordinate <;> simp [there]

/-- Looking a coordinate up among the newest nodes finds the newest node there. -/
theorem nodeAt?_newestByCoordinate_eq_some :
    nodeAt? (newestByCoordinate nodes) coordinate = some node ↔ IsNewest nodes coordinate node := by
  induction nodes using List.reverseRecOn generalizing node with
  | nil => simp [newestByCoordinate, IsNewest]
  | append_singleton nodes next ih =>
    rw [newestByCoordinate_concat, nodeAt?_keepNewest, isNewest_concat, ← ih]
    by_cases there : next.coordinate = some coordinate
    · rw [if_pos there]
      cases kept : nodeAt? (newestByCoordinate nodes) coordinate with
      | none =>
        have alone := nodeAt?_newestByCoordinate_eq_none.mp kept
        grind
      | some old =>
        have newest := ih.mp kept
        have bounds : (∀ other ∈ nodes, other.coordinate = some coordinate → other.createdAt < next.createdAt) ↔
            old.createdAt < next.createdAt :=
          ⟨fun older => older old newest.mem newest.1,
            fun older other member same => Int.lt_of_le_of_lt (newest.le member same) older⟩
        rw [bounds]
        by_cases older : old.createdAt < next.createdAt <;> simp [newer, older, there] <;> grind
    · simp [there]

/-- The latest node at a coordinate depends on the nodes there, not on their order or on other nodes. -/
theorem isLatest_congr {others : List Node}
    (same : ∀ node, node.coordinate = some coordinate → (node ∈ others ↔ node ∈ nodes)) :
    IsLatest others coordinate node ↔ IsLatest nodes coordinate node := by
  constructor
  · intro latest
    refine ⟨(same node latest.there).mp latest.stored, latest.there, fun other member there => ?_⟩
    exact latest.latest other ((same other there).mpr member) there
  · intro latest
    refine ⟨(same node latest.there).mpr latest.stored, latest.there, fun other member there => ?_⟩
    exact latest.latest other ((same other there).mp member) there

/-- Nodes out of others lead to the same node at a coordinate if the newest there is the newest among them, too. -/
theorem nodeAt?_newestByCoordinate_of_part {part : List Node} (within : part ⊆ nodes)
    (kept : ∀ node, IsNewest nodes coordinate node → IsNewest part coordinate node) :
    nodeAt? (newestByCoordinate part) coordinate = nodeAt? (newestByCoordinate nodes) coordinate := by
  cases found : nodeAt? (newestByCoordinate nodes) coordinate with
  | none =>
    have absent := nodeAt?_newestByCoordinate_eq_none.mp found
    exact nodeAt?_newestByCoordinate_eq_none.mpr fun node member => absent node (within member)
  | some node => exact nodeAt?_newestByCoordinate_eq_some.mpr (kept node (nodeAt?_newestByCoordinate_eq_some.mp found))

end Bindery.Graph
