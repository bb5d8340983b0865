import Bindery.Proofs.GraphByTags

/-! Coordinates on the ways down a graph over a shelf. Nodes are visited by their ids, while a coordinate leads to the
newest of all nodes there, whatever stands above. So a work can come to stand below another revision of itself, but
only below one that its coordinate no longer leads to. -/

namespace Bindery

/-- A way down the entries of a root: the nodes above a parent, the parent, and a node right below it. -/
inductive Entry.Descends : Node → List Entry → List Node → Node → Node → Prop where
  | here {root : Node} {entries : List Entry} {entry : Entry} (member : entry ∈ entries) :
      Descends root entries [] root entry.node
  | deeper {root parent node : Node} {entries : List Entry} {entry : Entry} {above : List Node} (member : entry ∈ entries)
      (below : Descends entry.node entry.inner above parent node) : Descends root entries (root :: above) parent node

def ContentGraph.Descends (graph : ContentGraph) : List Node → Node → Node → Prop :=
  Entry.Descends graph.root graph.entries

section
variable {listing : Listing} {visited : List Text} {above : List Node} {parent node : Node}

/-- At the end of a way the node is listed for its parent, where all nodes on the way are visited. -/
theorem Entry.Descends.exists_listing {root : Node} {entries : List Entry}
    (descends : Descends root entries above parent node)
    (listed : ∀ entry ∈ entries, ∃ nodes, listing (root.id :: visited) root nodes ∧ entry.node ∈ nodes)
    (grown : AllGrow listing (root.id :: visited) entries) :
    ∃ seen nodes, listing seen parent nodes ∧ node ∈ nodes ∧ root.id :: visited ⊆ seen ∧
      ∀ ancestor ∈ above ++ [parent], ancestor.id ∈ seen := by
  induction descends generalizing visited with
  | here member =>
    obtain ⟨nodes, lists, present⟩ := listed _ member
    exact ⟨_, nodes, lists, present, List.Subset.refl _, by simp⟩
  | deeper member below ih =>
    -- What is visited only grows on the way down, so the root stays visited to the end.
    obtain ⟨listedBelow, grownBelow⟩ := (grown.of_mem member).inner
    obtain ⟨seen, nodes, lists, present, within, onWay⟩ := ih listedBelow grownBelow
    have higher := List.Subset.trans (List.subset_cons_self _ _) within
    refine ⟨seen, nodes, lists, present, higher, ?_⟩
    exact List.forall_mem_cons.mpr ⟨higher List.mem_cons_self, onWay⟩

theorem ContentGraph.Grows.of_descends {graph : ContentGraph} (grown : graph.Grows listing visited)
    (descends : graph.Descends above parent node) :
    ∃ seen nodes, listing seen parent nodes ∧ node ∈ nodes ∧ ∀ ancestor ∈ above ++ [parent], ancestor.id ∈ seen := by
  by_cases seen : graph.root.id ∈ visited
  · rw [ContentGraph.Descends, grown.1 seen] at descends
    cases descends with
    | here member => cases member
    | deeper member below => cases member
  · obtain ⟨listed, below⟩ := grown.2 seen
    obtain ⟨entered, nodes, lists, present, _, onWay⟩ :=
      descends.exists_listing (fun entry member => ⟨_, listed, List.mem_map_of_mem member⟩) below
    exact ⟨entered, nodes, lists, present, onWay⟩

end

namespace Graph.Resolver
variable {kinds : List Int} {shelf : Shelf} {visited : List Text} {above : List Node} {parent node : Node}

/-- Some tag of a parent leads to a node by the coordinate of the node. -/
def EntersByCoordinate (kinds : List Int) (shelf : Shelf) (parent node : Node) : Prop :=
  ∃ position, LeadsByCoordinate kinds shelf parent position node

theorem EntersByCoordinate.exists_coordinate (enters : EntersByCoordinate kinds shelf parent node) :
    ∃ coordinate, IsNewest shelf.nodes coordinate node ∧ parent.coordinate ≠ some coordinate := by
  obtain ⟨_, _, coordinate, _, _, _, other, _, newest⟩ := enters
  exact ⟨coordinate, newest, other⟩

/-- No coordinate leads to the node. -/
def IsOutdated (shelf : Shelf) (node : Node) : Prop :=
  ∀ coordinate, ¬ IsNewest shelf.nodes coordinate node

theorem IsOutdated.not_enters (outdated : IsOutdated shelf node) : ¬ EntersByCoordinate kinds shelf parent node := by
  intro enters
  obtain ⟨coordinate, newest, _⟩ := enters.exists_coordinate
  exact outdated coordinate newest

theorem FollowsTags.leadsTo_of_descends {graph : ContentGraph} (follows : FollowsTags kinds shelf visited graph)
    (descends : graph.Descends above parent node) :
    LeadsTo kinds shelf parent node ∧ ∀ ancestor ∈ above ++ [parent], ancestor.id ≠ node.id := by
  obtain ⟨seen, nodes, lists, present, onWay⟩ := ContentGraph.Grows.of_descends follows descends
  obtain ⟨unseen, leads⟩ := (lists.complete node).mp present
  exact ⟨leads, fun ancestor member same => unseen (same ▸ onWay ancestor member)⟩

/-- There is one newest node at a coordinate. Any other node there is outdated. -/
theorem isOutdated_of_ne {coordinate : Coordinate} (newest : IsNewest shelf.nodes coordinate node) {other : Node}
    (there : other.coordinate = some coordinate) (apart : other.id ≠ node.id) : IsOutdated shelf other := by
  intro own also
  obtain rfl : own = coordinate := Option.some.inj (also.1.symm.trans there)
  have first := Shelf.at?_eq_some.mpr newest
  have second := Shelf.at?_eq_some.mpr also
  exact apart (congrArg Node.id (Option.some.inj (second.symm.trans first)))

/-- On each way down, a node that is entered by its coordinate has that coordinate to itself. -/
def AddressesApart (kinds : List Int) (shelf : Shelf) (graph : ContentGraph) : Prop :=
  ∀ above parent node, graph.Descends above parent node → EntersByCoordinate kinds shelf parent node →
    ∀ ancestor ∈ above ++ [parent], ancestor.coordinate ≠ node.coordinate

/-- Resolving over a shelf ends in a graph. Right below each parent stand nodes that its tags lead to. One that is
entered by its coordinate has another coordinate than the parent, and where a node above the parent has the same, that
one is outdated, and is not entered by its coordinate. -/
theorem address_shared_with_outdated (nodes : List Node) (indexKinds leafKinds : List Int) (workers : Workers)
    (root : Node) (visited : List Text)
    (legible : ∀ node, Reaches (indexKinds ++ leafKinds) (Shelf.ofNodes nodes) visited root node → node.IsLegible) :
    ∃ graph, (run ⟨(Shelf.ofNodes nodes).toStore, indexKinds, leafKinds⟩ root visited workers).1 = .ok graph ∧
      graph.root = root ∧
      ∀ above parent node, graph.Descends above parent node →
        LeadsTo (indexKinds ++ leafKinds) (Shelf.ofNodes nodes) parent node ∧
        (EntersByCoordinate (indexKinds ++ leafKinds) (Shelf.ofNodes nodes) parent node →
          parent.coordinate ≠ node.coordinate ∧
          ∀ ancestor ∈ above, ancestor.coordinate = node.coordinate →
            IsOutdated (Shelf.ofNodes nodes) ancestor ∧
            ∀ upper, ¬ EntersByCoordinate (indexKinds ++ leafKinds) (Shelf.ofNodes nodes) upper ancestor) := by
  have reveals := (Shelf.ofNodes nodes).toStore_fallsShortOf.reveals
  obtain ⟨graph, resolved, same, follows⟩ := exists_run_of_reveals reveals workers legible
  refine ⟨graph, resolved, same, fun above parent node descends => ?_⟩
  obtain ⟨leads, apart⟩ := follows.leadsTo_of_descends descends
  refine ⟨leads, fun enters => ?_⟩
  obtain ⟨coordinate, newest, other⟩ := enters.exists_coordinate
  refine ⟨fun equal => other (equal.trans newest.1), fun ancestor member equal => ?_⟩
  have outdated := isOutdated_of_ne newest (equal.trans newest.1) (apart ancestor (List.mem_append_left _ member))
  exact ⟨outdated, fun _ => outdated.not_enters⟩

/-! ### A work that is resolved from an old revision -/

def oldWork : Node :=
  { work with tags := [⟨"d", "work"⟩, ⟨"e", "part-1"⟩] }

def revisedWork : Node :=
  { oldWork with id := "work-2", createdAt := 2 }

def partOfWork : Node :=
  { part with tags := [⟨"d", "part"⟩, ⟨"a", "30040:alice:work"⟩] }

def shelfOfRevisions : List Node := [oldWork, revisedWork, partOfWork]

def graphOfOldWork : ContentGraph :=
  ⟨oldWork, [.branch partOfWork [.branch revisedWork []]]⟩

theorem run_oldWork :
    (run ⟨(Shelf.ofNodes shelfOfRevisions).toStore, [30040], [30041]⟩ oldWork []).1 = .ok graphOfOldWork := by
  cbv

theorem descends_graphOfOldWork : graphOfOldWork.Descends [oldWork] partOfWork revisedWork :=
  .deeper List.mem_cons_self (.here List.mem_cons_self)

theorem partOfWork_enters_revisedWork :
    EntersByCoordinate [30040, 30041] (Shelf.ofNodes shelfOfRevisions) partOfWork revisedWork :=
  ⟨1, ⟨"a", "30040:alice:work"⟩, ⟨30040, "alice", "work"⟩, rfl, rfl, rfl, by decide, by decide, by decide,
    [oldWork], [partOfWork], by decide, by decide, by decide⟩

theorem old_work_legible {node : Node}
    (reaches : Reaches [30040, 30041] (Shelf.ofNodes shelfOfRevisions) [] oldWork node) : node.IsLegible :=
  reaches.isLegible (by decide) (by decide)

/-- The coordinate in a part leads to the new revision of the work, below the old one. -/
theorem old_work_holds_revision :
    (∀ node, Reaches [30040, 30041] (Shelf.ofNodes shelfOfRevisions) [] oldWork node → node.IsLegible) ∧
    (run ⟨(Shelf.ofNodes shelfOfRevisions).toStore, [30040], [30041]⟩ oldWork []).1 = .ok graphOfOldWork ∧
      ¬ AddressesApart [30040, 30041] (Shelf.ofNodes shelfOfRevisions) graphOfOldWork := by
  refine ⟨fun _ => old_work_legible, run_oldWork, fun apart => ?_⟩
  exact apart _ _ _ descends_graphOfOldWork partOfWork_enters_revisedWork oldWork List.mem_cons_self (by decide)

theorem old_work_outdated :
    (run ⟨(Shelf.ofNodes shelfOfRevisions).toStore, [30040], [30041]⟩ oldWork []).1 = .ok graphOfOldWork ∧
      IsOutdated (Shelf.ofNodes shelfOfRevisions) oldWork := by
  obtain ⟨graph, resolved, _, ways⟩ :=
    address_shared_with_outdated shelfOfRevisions [30040] [30041] .one oldWork [] fun _ => old_work_legible
  obtain rfl : graph = graphOfOldWork := Except.ok.inj (resolved.symm.trans run_oldWork)
  have shared := ((ways _ _ _ descends_graphOfOldWork).2 partOfWork_enters_revisedWork).2
  exact ⟨run_oldWork, (shared oldWork List.mem_cons_self (by decide)).1⟩

end Graph.Resolver
end Bindery
