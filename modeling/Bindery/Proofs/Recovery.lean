import Bindery.Proofs.Growth
import Bindery.Proofs.KeyedLists
import Bindery.Proofs.NewestNode

/-! Stores over a shelf that fall short of it. A store may answer with all there is on the shelf, and it may
fail or leave nodes out where it is asked for several at once. Keys asked for alone make up for that: what is
found for a key is what the shelf has for it. -/

namespace Bindery.Graph

namespace Shelf

theorem at?_eq_some {shelf : Shelf} {coordinate : Coordinate} {node : Node} :
    shelf.at? coordinate = some node ↔ IsNewest shelf.nodes coordinate node :=
  nodeAt?_newestByCoordinate_eq_some

theorem eq_of_id_eq {shelf : Shelf} {node other : Node} (member : node ∈ shelf.nodes)
    (present : other ∈ shelf.nodes) (same : node.id = other.id) : node = other :=
  List.inj_on_of_nodup_map shelf.distinct member present same

theorem withId?_eq_some {shelf : Shelf} {id : Text} {node : Node} :
    shelf.withId? id = some node ↔ node ∈ shelf.nodes ∧ node.id = id :=
  find?_eq_some_iff_mem shelf.distinct

end Shelf

/-- A store answers as the shelf does or with all there is on it; asked for several at once, it may also fail
or leave nodes out. It need not answer alike twice. -/
def Store.FallsShortOf (store : Store) (shelf : Shelf) : Prop :=
  ∀ asked selector,
    store.answer asked selector = some (shelf.find selector) ∨
    store.answer asked selector = some shelf.nodes ∨
    selector.isMany = true ∧ (store.answer asked selector = none ∨
      ∃ part, part.Sublist (shelf.find selector) ∧ store.answer asked selector = some part)

theorem Shelf.toStore_fallsShortOf (shelf : Shelf) : shelf.toStore.FallsShortOf shelf :=
  fun _ _ => Or.inl rfl

theorem Shortfall.store_fallsShortOf {shortfall : Shortfall} (shelf : Shelf) (answers : shortfall ≠ .alwaysFails)
    (answersIds : shortfall ≠ .failsForIds) : (shortfall.store shelf).FallsShortOf shelf := by
  intro asked selector
  cases shortfall with
  | none => exact Or.inl rfl
  | everythingEachTime => exact Or.inr (Or.inl rfl)
  | onlyFirstOfMany =>
    cases many : selector.isMany with
    | false => exact Or.inl (by simp [store, answer, many])
    | true =>
      exact Or.inr (Or.inr ⟨rfl, Or.inr ⟨_, List.take_sublist 1 _, by simp [store, answer, many]⟩⟩)
  | failsForMany =>
    cases many : selector.isMany with
    | false => exact Or.inl (by simp [store, answer, many])
    | true => exact Or.inr (Or.inr ⟨rfl, Or.inl (by simp [store, answer, many])⟩)
  | alwaysFails => exact absurd rfl answers
  | failsForIds => exact absurd rfl answersIds

namespace Resolver
variable {shelf : Shelf} {store : Store}

/-- An answer holds nodes that the shelf would answer with, or all nodes of the shelf. -/
theorem answer_within (short : store.FallsShortOf shelf) (asked : List Selector) (selector : Selector) :
    (store.answer asked selector).getD [] = shelf.nodes ∨
      ∀ node ∈ (store.answer asked selector).getD [], node ∈ shelf.find selector := by
  rcases short asked selector with exact | all | ⟨_, failed | ⟨part, sublist, answered⟩⟩
  · exact Or.inr (by simp [exact])
  · exact Or.inl (by simp [all])
  · exact Or.inr (by simp [failed])
  · exact Or.inr (by simpa [answered] using fun node member => sublist.subset member)

theorem answer_alone (short : store.FallsShortOf shelf) (asked : List Selector) (selector : Selector)
    (alone : selector.isMany = false) :
    store.answer asked selector = some (shelf.find selector) ∨ store.answer asked selector = some shelf.nodes := by
  rcases short asked selector with exact | all | ⟨many, _⟩
  · exact Or.inl exact
  · exact Or.inr all
  · rw [alone] at many
    cases many

theorem find_atCoordinates_singleton (coordinate : Coordinate) :
    nodeAt? (newestByCoordinate (shelf.find (.atCoordinates [coordinate]))) coordinate = shelf.at? coordinate := by
  cases newest : shelf.at? coordinate with
  | none => simp [Shelf.find, newest, newestByCoordinate]
  | some node =>
    have there := (of_nodeAt?_newestByCoordinate newest).2
    simp [Shelf.find, newest, newestByCoordinate, nodeAt?_keepNewest, there]

/-- Nodes that are the newest at their coordinates can hide none that is newer. -/
theorem at?_of_within {nodes : List Node} {coordinates : List Coordinate}
    (within : ∀ node ∈ nodes, node ∈ shelf.find (.atCoordinates coordinates)) {coordinate : Coordinate} {node : Node}
    (found : nodeAt? (newestByCoordinate nodes) coordinate = some node) : shelf.at? coordinate = some node := by
  obtain ⟨member, there⟩ := of_nodeAt?_newestByCoordinate found
  obtain ⟨other, _, newest⟩ := List.mem_filterMap.mp (within node member)
  have own := (of_nodeAt?_newestByCoordinate newest).2
  obtain rfl := Option.some.inj (own.symm.trans there)
  exact newest

theorem finds_at (short : store.FallsShortOf shelf) :
    Search.byCoordinate.Finds store fun coordinate found => found = shelf.at? coordinate where
  batch asked coordinates coordinate node found := by
    rcases answer_within short asked (.atCoordinates coordinates) with all | within
    · rw [Search.byCoordinate, all] at found
      exact found.symm
    · exact (at?_of_within within found).symm
  alone asked coordinate := by
    rcases answer_alone short asked (.atCoordinates [coordinate]) rfl with exact | all
    · rw [Search.byCoordinate, exact]
      exact find_atCoordinates_singleton coordinate
    · rw [Search.byCoordinate, all]
      rfl

theorem withId?_of_inside {nodes : List Node} (inside : ∀ node ∈ nodes, node ∈ shelf.nodes) {id : Text} {node : Node}
    (found : nodeWithId? nodes id = some node) : shelf.withId? id = some node := by
  obtain ⟨member, own⟩ := of_nodeWithId? found
  exact Shelf.withId?_eq_some.mpr ⟨inside node member, own⟩

theorem nodeWithId?_eq_withId? {nodes : List Node} {id : Text} (inside : ∀ node ∈ nodes, node ∈ shelf.nodes)
    (complete : ∀ node, shelf.withId? id = some node → node ∈ nodes) : nodeWithId? nodes id = shelf.withId? id := by
  cases found : nodeWithId? nodes id with
  | none =>
    refine (Option.eq_none_iff_forall_ne_some.mpr fun node held => ?_).symm
    have own := (Shelf.withId?_eq_some.mp held).2
    simpa [own] using List.find?_eq_none.mp found node (List.mem_reverse.mpr (complete node held))
  | some node => exact (withId?_of_inside inside found).symm

theorem finds_withId (short : store.FallsShortOf shelf) :
    Search.byId.Finds store fun id found => found = shelf.withId? id where
  batch asked ids id node found := by
    refine (withId?_of_inside (fun other member => ?_) found).symm
    rcases answer_within short asked (.withIds ids) with all | within
    · exact all ▸ member
    · exact Shelf.mem_of_mem_find (within other member)
  alone asked id := by
    rcases answer_alone short asked (.withIds [id]) rfl with exact | all
    · rw [Search.byId, exact]
      exact nodeWithId?_eq_withId? (fun node (member : node ∈ shelf.find (.withIds [id])) => Shelf.mem_of_mem_find member)
        fun node held => List.mem_filterMap.mpr ⟨id, List.mem_singleton_self id, held⟩
    · rw [Search.byId, all]
      exact nodeWithId?_eq_withId? (fun node member => member) fun node held => (Shelf.withId?_eq_some.mp held).1

end Resolver

/-- Whatever a search takes out of an answer is what the shelf has for the key; a batch may leave keys out, but a
key asked for alone is given up only if there is nothing on the shelf. -/
structure Store.Reveals (store : Store) (shelf : Shelf) : Prop where
  coordinates : Resolver.Search.byCoordinate.Finds store fun coordinate found => found = shelf.at? coordinate
  ids : Resolver.Search.byId.Finds store fun id found => found = shelf.withId? id

theorem Store.FallsShortOf.reveals {shelf : Shelf} {store : Store} (short : store.FallsShortOf shelf) :
    store.Reveals shelf :=
  ⟨Resolver.finds_at short, Resolver.finds_withId short⟩

end Bindery.Graph
