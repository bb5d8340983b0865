import Bindery.Proofs.EdgeByEdge
import Bindery.Proofs.Ancestry

/-! Whole graphs over a shelf, said tag by tag at every depth. There is just one such graph for a root, and
resolving ends in it, also where the store falls short of the shelf and whoever carries the inquiries out. -/

namespace Bindery

namespace Entry
variable {listing : Listing}

mutual

/-- Where a listing leaves no choice, an entry is determined by its node. -/
theorem Grows.eq (determined : ∀ visited root nodes others, listing visited root nodes →
      listing visited root others → nodes = others)
    {visited : List Text} {entry other : Entry} (grown : entry.Grows listing visited)
    (also : other.Grows listing visited) (same : entry.node = other.node) : entry = other := by
  match entry, other with
  | .leaf node, .leaf _ => exact congrArg Entry.leaf same
  | .leaf node, .branch root entries =>
    have kinds := (congrArg Node.kind same).symm.trans grown
    exact absurd (also.1.symm.trans kinds) (by decide)
  | .branch root entries, .leaf node =>
    have kinds := (congrArg Node.kind same).trans also
    exact absurd (grown.1.symm.trans kinds) (by decide)
  | .branch root entries, .branch otherRoot others =>
    obtain rfl : root = otherRoot := same
    exact congrArg (Entry.branch root)
      (AllGrow.eq determined grown.2.2 also.2.2 (determined _ _ _ _ grown.2.1 also.2.1))

theorem AllGrow.eq (determined : ∀ visited root nodes others, listing visited root nodes →
      listing visited root others → nodes = others)
    {visited : List Text} {entries others : List Entry} (grown : AllGrow listing visited entries)
    (also : AllGrow listing visited others) (same : entries.map Entry.node = others.map Entry.node) :
    entries = others := by
  match entries, others with
  | [], [] => rfl
  | [], _ :: _ | _ :: _, [] => cases same
  | entry :: entries, other :: others =>
    obtain ⟨first, rest⟩ := List.cons.inj same
    rw [Grows.eq determined grown.1 also.1 first, AllGrow.eq determined grown.2 also.2 rest]

end

end Entry

theorem ContentGraph.Grows.eq {listing : Listing} (determined : ∀ visited root nodes others,
      listing visited root nodes → listing visited root others → nodes = others)
    {visited : List Text} {graph other : ContentGraph} (grown : graph.Grows listing visited)
    (also : other.Grows listing visited) (same : graph.root = other.root) : graph = other := by
  obtain ⟨root, entries⟩ := graph
  obtain ⟨otherRoot, others⟩ := other
  obtain rfl : root = otherRoot := same
  by_cases seen : root.id ∈ visited
  · exact congrArg (ContentGraph.mk root) ((grown.1 seen).trans (also.1 seen).symm)
  · obtain ⟨listed, below⟩ := grown.2 seen
    obtain ⟨listedAlso, belowAlso⟩ := also.2 seen
    exact congrArg (ContentGraph.mk root)
      (Entry.AllGrow.eq determined below belowAlso (determined _ _ _ _ listed listedAlso))

namespace Graph.Resolver

/-- The graph lists, below the root and below every branch, what the tags there lead to. -/
def FollowsTags (kinds : List Int) (shelf : Shelf) (visited : List Text) (graph : ContentGraph) : Prop :=
  graph.Grows (fun visited root nodes => Lists kinds shelf root visited nodes) visited

theorem FollowsTags.eq {kinds : List Int} {shelf : Shelf} {visited : List Text} {graph other : ContentGraph}
    (follows : FollowsTags kinds shelf visited graph) (also : FollowsTags kinds shelf visited other)
    (same : graph.root = other.root) : graph = other :=
  ContentGraph.Grows.eq (fun _ _ _ _ first second => first.eq second) follows also same

/-- The nodes whose tags are read: the root, unless it is visited, and the index nodes that are entered below
it. -/
inductive Reaches (kinds : List Int) (shelf : Shelf) : List Text → Node → Node → Prop where
  | root {visited : List Text} {root : Node} (unseen : root.id ∉ visited) : Reaches kinds shelf visited root root
  | deeper {visited : List Text} {root child node : Node} (unseen : root.id ∉ visited)
      (leads : LeadsTo kinds shelf root child) (index : child.kind = .index)
      (reaches : Reaches kinds shelf (root.id :: visited) child node) : Reaches kinds shelf visited root node

theorem Reaches.eq_or_mem {kinds : List Int} {shelf : Shelf} {visited : List Text} {root node : Node}
    (reaches : Reaches kinds shelf visited root node) : node = root ∨ node ∈ shelf.nodes := by
  induction reaches with
  | root unseen => exact Or.inl rfl
  | deeper unseen leads index reaches ih => exact Or.inr (ih.elim (fun same => same ▸ leads.1) id)

theorem exists_reaches_of_fails {kinds : List Int} {shelf : Shelf} {listing : Listing} {fault : Node → Prop}
    (leads : ∀ visited root nodes, listing visited root nodes →
      ∀ node ∈ nodes, node.id ∉ visited ∧ LeadsTo kinds shelf root node)
    {visited entered : List Text} {root : Node} (fails : Fails listing fault entered root) (unseen : root.id ∉ visited)
    (below : entered = root.id :: visited) : ∃ node, Reaches kinds shelf visited root node ∧ fault node := by
  induction fails generalizing visited with
  | here faulty => exact ⟨_, .root unseen, faulty⟩
  | deeper listed member index fails ih =>
    subst below
    obtain ⟨fresh, leadsTo⟩ := leads _ _ _ listed _ member
    obtain ⟨node, reaches, faulty⟩ := ih fresh rfl
    exact ⟨node, .deeper unseen leadsTo index reaches, faulty⟩

variable {shelf : Shelf} {store : Store} {indexKinds leafKinds : List Int} {root : Node} {visited : List Text}

theorem exists_run_of_reveals (reveals : store.Reveals shelf) (workers : Workers)
    (legible : ∀ node, Reaches (indexKinds ++ leafKinds) shelf visited root node → node.IsLegible) :
    ∃ graph, (run ⟨store, indexKinds, leafKinds⟩ root visited workers).1 = .ok graph ∧ graph.root = root ∧
      FollowsTags (indexKinds ++ leafKinds) shelf visited graph := by
  apply exists_run (steps_lists reveals workers)
  intro unseen fails
  obtain ⟨node, reaches, illegible⟩ :=
    exists_reaches_of_fails (fun _ _ _ listed node member => (listed.complete node).mp member) fails unseen rfl
  exact illegible (legible node reaches)

theorem exists_run_followsTags (short : store.FallsShortOf shelf) (workers : Workers)
    (legible : ∀ node, Reaches (indexKinds ++ leafKinds) shelf visited root node → node.IsLegible) :
    ∃ graph, (run ⟨store, indexKinds, leafKinds⟩ root visited workers).1 = .ok graph ∧ graph.root = root ∧
      FollowsTags (indexKinds ++ leafKinds) shelf visited graph :=
  exists_run_of_reveals short.reveals workers legible

/-- An entry right below a root: an index node is resolved with the root visited, any other node is a leaf. -/
def IsResolvedBelow (resolver : Resolver) (workers : Workers) (visited : List Text) : Entry → Prop
  | .leaf node => node.kind ≠ .index
  | .branch node entries => node.kind = .index ∧ (resolver.run node visited workers).1 = .ok ⟨node, entries⟩

/-- A branch that follows the tags is what resolving its node ends in. -/
theorem isResolvedBelow_of_reveals (reveals : store.Reveals shelf) (workers : Workers) (unseen : root.id ∉ visited)
    (legible : ∀ node, Reaches (indexKinds ++ leafKinds) shelf visited root node → node.IsLegible)
    {entry : Entry} (fresh : entry.node.id ∉ root.id :: visited)
    (leads : LeadsTo (indexKinds ++ leafKinds) shelf root entry.node)
    (grown : entry.Grows (fun visited root nodes => Lists (indexKinds ++ leafKinds) shelf root visited nodes)
      (root.id :: visited)) :
    IsResolvedBelow ⟨store, indexKinds, leafKinds⟩ workers (root.id :: visited) entry := by
  cases entry with
  | leaf node => exact fun index => absurd (index.symm.trans grown) (by decide)
  | branch node entries =>
    obtain ⟨index, listed, grownBelow⟩ := grown
    have follows : FollowsTags (indexKinds ++ leafKinds) shelf (root.id :: visited) ⟨node, entries⟩ :=
      ⟨fun seen => absurd seen fresh, fun _ => ⟨listed, grownBelow⟩⟩
    obtain ⟨graph, resolved, same, also⟩ := exists_run_of_reveals reveals workers
      fun other reaches => legible other (.deeper unseen leads index reaches)
    rw [also.eq follows same] at resolved
    exact ⟨index, resolved⟩

theorem Reaches.isLegible {kinds : List Int} {node : Node} (own : root.IsLegible)
    (all : ∀ node ∈ shelf.nodes, node.IsLegible) (reaches : Reaches kinds shelf visited root node) : node.IsLegible := by
  rcases reaches.eq_or_mem with rfl | member
  · exact own
  · exact all node member

theorem isLegible_of_reaches_work {kinds : List Int} {node : Node}
    (reaches : Reaches kinds (Shelf.ofNodes shelfOfWork) [] work node) : node.IsLegible :=
  reaches.isLegible (by decide) (by decide)

/-- Resolving over a shelf of nodes ends in a graph. A visited root has no entries. Below any other root stand
the nodes of the shelf that its tags lead to, as the tags order them. -/
theorem resolves_what_tags_lead_to (nodes : List Node) (indexKinds leafKinds : List Int) (workers : Workers)
    (root : Node) (visited : List Text)
    (legible : ∀ node, Reaches (indexKinds ++ leafKinds) (Shelf.ofNodes nodes) visited root node → node.IsLegible) :
    ∃ graph, (run ⟨(Shelf.ofNodes nodes).toStore, indexKinds, leafKinds⟩ root visited workers).1 = .ok graph ∧
      graph.root = root ∧ (root.id ∈ visited → graph.entries = []) ∧
      (root.id ∉ visited →
        Lists (indexKinds ++ leafKinds) (Shelf.ofNodes nodes) root (root.id :: visited)
          (graph.entries.map Entry.node) ∧
        ∀ entry ∈ graph.entries,
          IsResolvedBelow ⟨(Shelf.ofNodes nodes).toStore, indexKinds, leafKinds⟩ workers (root.id :: visited) entry) := by
  have short := (Shelf.ofNodes nodes).toStore_fallsShortOf
  obtain ⟨graph, resolved, rfl, follows⟩ := exists_run_followsTags short workers legible
  refine ⟨graph, resolved, rfl, follows.1, fun unseen => ?_⟩
  obtain ⟨listed, grown⟩ := follows.2 unseen
  refine ⟨listed, fun entry member => ?_⟩
  obtain ⟨fresh, leads⟩ := (listed.complete _).mp (List.mem_map_of_mem member)
  exact isResolvedBelow_of_reveals short.reveals workers unseen legible fresh leads (grown.of_mem member)

theorem work_resolved_by_two :
    ∃ graph,
      (run ⟨(Shelf.ofNodes shelfOfWork).toStore, [30040], [30041]⟩ work [] ⟨2, fun _ => [1, 0, 1]⟩).1 = .ok graph ∧
      Lists [30040, 30041] (Shelf.ofNodes shelfOfWork) work ["work-1"] (graph.entries.map Entry.node) := by
  obtain ⟨graph, resolved, _, _, below⟩ :=
    resolves_what_tags_lead_to shelfOfWork [30040] [30041] ⟨2, fun _ => [1, 0, 1]⟩ work []
      fun _ => isLegible_of_reaches_work
  exact ⟨graph, resolved, (below List.not_mem_nil).1⟩

/-- Resolving over a store that falls short of a shelf ends in the same graph as resolving over the shelf,
whoever carries the inquiries out. -/
theorem shortfall_stays_hidden (nodes : List Node) (store : Store) (short : store.FallsShortOf (Shelf.ofNodes nodes))
    (indexKinds leafKinds : List Int) (workers others : Workers) (root : Node) (visited : List Text)
    (legible : ∀ node, Reaches (indexKinds ++ leafKinds) (Shelf.ofNodes nodes) visited root node → node.IsLegible) :
    ∃ graph, (run ⟨(Shelf.ofNodes nodes).toStore, indexKinds, leafKinds⟩ root visited workers).1 = .ok graph ∧
      (run ⟨store, indexKinds, leafKinds⟩ root visited others).1 = .ok graph := by
  have faithful := (Shelf.ofNodes nodes).toStore_fallsShortOf
  obtain ⟨graph, resolved, same, follows⟩ := exists_run_followsTags faithful workers legible
  obtain ⟨other, resolvedShort, sameShort, followsShort⟩ := exists_run_followsTags short others legible
  have one : other = graph := FollowsTags.eq followsShort follows (sameShort.trans same.symm)
  exact ⟨graph, resolved, one ▸ resolvedShort⟩

theorem work_resolved_despite_failures :
    ∃ graph, (run ⟨(Shelf.ofNodes shelfOfWork).toStore, [30040], [30041]⟩ work []).1 = .ok graph ∧
      (run ⟨Shortfall.failsForMany.store (Shelf.ofNodes shelfOfWork), [30040], [30041]⟩ work []).1 = .ok graph :=
  shortfall_stays_hidden shelfOfWork _ (Shortfall.store_fallsShortOf _ (by decide) (by decide)) [30040] [30041] .one .one
    work [] fun _ => isLegible_of_reaches_work

end Graph.Resolver
end Bindery
