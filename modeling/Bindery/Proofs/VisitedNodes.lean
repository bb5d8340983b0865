import Bindery.Proofs.GraphByTags

/-! What visited ids take out of a graph. To visit more ids is to prune the graph: the entries with those ids go,
each with all that is below it, and the others stay what they are and keep their order. Whether an id is dropped
before nodes are asked for, or only from the nodes that are found, makes no difference to that. -/

namespace Bindery

namespace Entry

mutual

/-- An entry without those below it that have certain ids, at any depth. -/
def without (ids : List Text) : Entry → Entry
  | .leaf node => .leaf node
  | .branch root entries => .branch root (withoutAll ids entries)

def withoutAll (ids : List Text) : List Entry → List Entry
  | [] => []
  | entry :: entries =>
    if ids.contains entry.node.id then withoutAll ids entries else without ids entry :: withoutAll ids entries

end

theorem node_without (ids : List Text) (entry : Entry) : (entry.without ids).node = entry.node := by
  cases entry with
  | leaf node => rfl
  | branch root entries => rfl

open Bindery.Graph in
theorem map_node_withoutAll (ids : List Text) (entries : List Entry) :
    (withoutAll ids entries).map Entry.node = fresh ids (entries.map Entry.node) := by
  induction entries with
  | nil => rfl
  | cons entry entries ih =>
    rw [withoutAll, List.map_cons]
    split
    next seen => rw [ih, Resolver.fresh_cons_of_mem _ (by simpa using seen)]
    next unseen =>
      rw [List.map_cons, node_without, ih, Resolver.fresh_cons_of_notMem _ (by simpa using unseen)]

end Entry

def ContentGraph.without (ids : List Text) (graph : ContentGraph) : ContentGraph :=
  ⟨graph.root, Entry.withoutAll ids graph.entries⟩

/-- All that is visited at the end of a way: the nodes on it, and what was visited at its top. -/
def Entry.visitedBelow (visited : List Text) (way : List Entry) : List Text :=
  way.foldl (fun visited entry => entry.node.id :: visited) visited

/-- Some ids are visited besides others. -/
def VisitsAlso (visited pruned more : List Text) : Prop :=
  ∀ id, id ∈ more ↔ id ∈ visited ∨ id ∈ pruned

namespace VisitsAlso
variable {visited pruned more : List Text}

theorem of_subset (larger : visited ⊆ more) : VisitsAlso visited more more := by
  intro id
  constructor
  · exact Or.inr
  · intro either
    rcases either with seen | seen
    · exact larger seen
    · exact seen

theorem cons (also : VisitsAlso visited pruned more) (id : Text) : VisitsAlso (id :: visited) pruned (id :: more) := by
  intro other
  rw [List.mem_cons, List.mem_cons, also other, or_assoc]

end VisitsAlso

/-- A listing that loses no more than the nodes that are visited besides. -/
def Listing.Prunes (listing : Listing) : Prop :=
  ∀ visited pruned more root nodes, VisitsAlso visited pruned more → listing visited root nodes →
    listing more root (Graph.fresh pruned nodes)

namespace Entry
variable {listing : Listing}

mutual

theorem Grows.without (prunes : listing.Prunes) {visited pruned more : List Text}
    (also : VisitsAlso visited pruned more) {entry : Entry} (grown : entry.Grows listing visited) :
    (entry.without pruned).Grows listing more := by
  match entry with
  | .leaf node => exact grown
  | .branch root entries =>
    obtain ⟨index, listed, below⟩ := grown
    have alsoBelow := also.cons root.id
    refine ⟨index, ?_, AllGrow.withoutAll prunes alsoBelow below⟩
    rw [map_node_withoutAll]
    exact prunes _ _ _ _ _ alsoBelow listed

theorem AllGrow.withoutAll (prunes : listing.Prunes) {visited pruned more : List Text}
    (also : VisitsAlso visited pruned more) {entries : List Entry} (grown : AllGrow listing visited entries) :
    AllGrow listing more (withoutAll pruned entries) := by
  match entries with
  | [] => exact trivial
  | entry :: entries =>
    have rest := AllGrow.withoutAll prunes also grown.2
    rw [Entry.withoutAll]
    split
    · exact rest
    · exact ⟨Grows.without prunes also grown.1, rest⟩

end

end Entry

theorem ContentGraph.Grows.without {listing : Listing} {visited pruned more : List Text} (prunes : listing.Prunes)
    (also : VisitsAlso visited pruned more) {graph : ContentGraph} (outside : graph.root.id ∉ more)
    (grown : graph.Grows listing visited) : (graph.without pruned).Grows listing more := by
  have unseen : graph.root.id ∉ visited := fun seen => outside ((also _).mpr (Or.inl seen))
  obtain ⟨listed, below⟩ := grown.2 unseen
  have alsoBelow := also.cons graph.root.id
  refine ⟨fun seen => absurd seen outside, fun _ => ⟨?_, below.withoutAll prunes alsoBelow⟩⟩
  rw [ContentGraph.without, Entry.map_node_withoutAll]
  exact prunes _ _ _ _ _ alsoBelow listed

namespace Graph

theorem fresh_fresh_of_subset {visited more : List Text} (larger : visited ⊆ more) (nodes : List Node) :
    fresh more (fresh visited nodes) = fresh more nodes := by
  unfold fresh
  rw [List.filter_filter]
  refine List.filter_congr fun node _ => ?_
  by_cases seen : node.id ∈ more
  · simp [seen]
  · have unseen : node.id ∉ visited := fun inside => seen (larger inside)
    simp [seen, unseen]

namespace Resolver
variable {kinds : List Int} {shelf : Shelf} {visited pruned more : List Text} {root : Node}

theorem Lists.fresh {nodes : List Node} (also : VisitsAlso visited pruned more)
    (listed : Lists kinds shelf root visited nodes) : Lists kinds shelf root more (Graph.fresh pruned nodes) where
  complete node := by
    rw [mem_fresh, listed.complete, also, not_or]
    exact and_right_comm.trans (and_congr_left fun _ => Iff.rfl)
  once := listed.once.sublist (fresh_sublist _ _)
  ordered := listed.ordered.sublist (fresh_sublist _ _)

theorem lists_prunes (kinds : List Int) (shelf : Shelf) :
    Listing.Prunes fun visited root nodes => Lists kinds shelf root visited nodes :=
  fun _ _ _ _ _ also listed => listed.fresh also

theorem Reaches.of_subset {node : Node} (larger : visited ⊆ more) (reaches : Reaches kinds shelf more root node) :
    Reaches kinds shelf visited root node := by
  induction reaches generalizing visited with
  | root unseen => exact .root fun seen => unseen (larger seen)
  | deeper unseen leads index _ ih =>
    exact .deeper (fun seen => unseen (larger seen)) leads index (ih (List.cons_subset_cons _ larger))

theorem FollowsTags.without {graph : ContentGraph} (also : VisitsAlso visited pruned more)
    (outside : graph.root.id ∉ more) (follows : FollowsTags kinds shelf visited graph) :
    FollowsTags kinds shelf more (graph.without pruned) :=
  ContentGraph.Grows.without (lists_prunes kinds shelf) also outside follows

/-- A branch at the end of a way down follows the tags where all that is above it is visited. The nodes whose tags are
read from there are read from the top of the way as well. -/
theorem branch_of_way {entries way inner : List Entry} {node : Node}
    (down : Entry.Way entries (way ++ [.branch node inner])) (unseen : ∀ entry ∈ entries, entry.node.id ∉ visited)
    (grown : Entry.AllGrow (fun visited root nodes => Lists kinds shelf root visited nodes) visited entries) :
    node.id ∉ Entry.visitedBelow visited way ∧
      FollowsTags kinds shelf (Entry.visitedBelow visited way) ⟨node, inner⟩ ∧
      ∀ other, Reaches kinds shelf (Entry.visitedBelow visited way) node other →
        ∃ entry ∈ entries, entry.node.kind = .index ∧ Reaches kinds shelf visited entry.node other := by
  induction way generalizing visited entries with
  | nil =>
    cases down with
    | down member _ =>
      have outside : node.id ∉ visited := unseen _ member
      obtain ⟨index, listed, below⟩ := grown.of_mem member
      refine ⟨outside, ⟨fun seen => absurd seen outside, fun _ => ⟨listed, below⟩⟩, fun other reaches => ?_⟩
      exact ⟨_, member, index, reaches⟩
  | cons entry way ih =>
    cases down with
    | down member rest =>
      have here := grown.of_mem member
      obtain ⟨listed, below⟩ := here.inner
      have listedBelow : ∀ other ∈ entry.inner,
          other.node.id ∉ entry.node.id :: visited ∧ LeadsTo kinds shelf entry.node other.node := by
        intro other inside
        obtain ⟨nodes, lists, present⟩ := listed other inside
        exact (lists.complete _).mp present
      obtain ⟨outside, follows, read⟩ := ih rest (fun other inside => (listedBelow other inside).1) below
      refine ⟨outside, follows, fun other reaches => ?_⟩
      obtain ⟨lower, inside, index, reachesLower⟩ := read other reaches
      -- Only a branch has entries below it.
      have branch : entry.node.kind = .index := by
        cases entry with
        | leaf leaf => exact absurd inside List.not_mem_nil
        | branch root entries => exact here.1
      exact ⟨entry, member, branch, .deeper (unseen entry member) (listedBelow lower inside).2 index reachesLower⟩

/-- The branch at the end of a way is what resolving its node ends in where all above it is visited. A fresh start
ends in more, by just the entries that are above the branch already. -/
theorem resolves_branch {store : Store} (reveals : store.Reveals shelf) {indexKinds leafKinds : List Int}
    {graph : ContentGraph} (unseen : graph.root.id ∉ visited)
    (follows : FollowsTags (indexKinds ++ leafKinds) shelf visited graph)
    (legible : ∀ node, Reaches (indexKinds ++ leafKinds) shelf visited graph.root node → node.IsLegible)
    (workers : Workers) {way inner : List Entry} {node : Node}
    (down : Entry.Way graph.entries (way ++ [.branch node inner])) :
    (run ⟨store, indexKinds, leafKinds⟩ node (Entry.visitedBelow (graph.root.id :: visited) way) workers).1 =
        .ok ⟨node, inner⟩ ∧
      ((∀ other, Reaches (indexKinds ++ leafKinds) shelf [] node other → other.IsLegible) →
        ∃ whole, (run ⟨store, indexKinds, leafKinds⟩ node [] workers).1 = .ok whole ∧
          whole.without (Entry.visitedBelow (graph.root.id :: visited) way) = ⟨node, inner⟩) := by
  obtain ⟨listed, grown⟩ := follows.2 unseen
  have listedBelow : ∀ entry ∈ graph.entries,
      entry.node.id ∉ graph.root.id :: visited ∧ LeadsTo (indexKinds ++ leafKinds) shelf graph.root entry.node :=
    fun entry member => (listed.complete _).mp (List.mem_map_of_mem member)
  obtain ⟨outside, followsBelow, read⟩ := branch_of_way down (fun entry member => (listedBelow entry member).1) grown
  constructor
  · obtain ⟨branch, resolved, same, also⟩ := exists_run_of_reveals reveals workers (fun other reaches => by
      obtain ⟨entry, member, index, reachesEntry⟩ := read other reaches
      exact legible other (.deeper unseen (listedBelow entry member).2 index reachesEntry))
    rwa [also.eq followsBelow same] at resolved
  · intro legibleBelow
    obtain ⟨whole, resolved, rfl, followsWhole⟩ := exists_run_of_reveals reveals workers legibleBelow
    have followsPruned := followsWhole.without (VisitsAlso.of_subset (List.nil_subset _)) outside
    exact ⟨whole, resolved, followsPruned.eq followsBelow rfl⟩

theorem exists_linked {store : Store} (reveals : store.Reveals shelf) (indexKinds leafKinds : List Int)
    (workers : Workers) (visited : List Text) (legible : root.IsLegible) (trace : Trace) :
    ∃ nodes,
      (Inquiry.run store (linked ⟨store, indexKinds, leafKinds⟩ workers (root.id :: visited) root).run trace).1 =
        .ok nodes ∧
      Lists (indexKinds ++ leafKinds) shelf root (root.id :: visited) (Graph.fresh (root.id :: visited) nodes) := by
  have steps : Steps ⟨store, indexKinds, leafKinds⟩ workers
      (fun visited root nodes => Lists (indexKinds ++ leafKinds) shelf root visited nodes)
      (fun root => ¬ root.IsLegible) := steps_lists reveals workers
  cases ended : (Inquiry.run store (linked ⟨store, indexKinds, leafKinds⟩ workers (root.id :: visited) root).run
      trace).1 with
  | ok nodes => exact ⟨nodes, rfl, (steps visited root).of_ok ended⟩
  | error error => exact absurd legible ((steps visited root).of_error ended)

/-- Visiting more ids prunes a graph by just those ids. So each branch is what resolving its node ends in where all that
is above it is visited, and what resolving it from a fresh start ends in, pruned by all that is above it. Below the
root it makes no difference which of the visited ids are dropped before nodes are asked for: the nodes entered are the
same, in the same order. -/
theorem visited_ids_are_pruned (nodes : List Node) (indexKinds leafKinds : List Int) (workers others : Workers)
    (root : Node) (visited more : List Text) (larger : visited ⊆ more) (outside : root.id ∉ more)
    (legible : ∀ node, Reaches (indexKinds ++ leafKinds) (Shelf.ofNodes nodes) visited root node → node.IsLegible) :
    ∃ graph, (run ⟨(Shelf.ofNodes nodes).toStore, indexKinds, leafKinds⟩ root visited workers).1 = .ok graph ∧
      (run ⟨(Shelf.ofNodes nodes).toStore, indexKinds, leafKinds⟩ root more others).1 = .ok (graph.without more) ∧
      (∀ way node inner, Entry.Way graph.entries (way ++ [.branch node inner]) →
        (run ⟨(Shelf.ofNodes nodes).toStore, indexKinds, leafKinds⟩ node
          (Entry.visitedBelow (root.id :: visited) way) others).1 = .ok ⟨node, inner⟩ ∧
        ((∀ other, Reaches (indexKinds ++ leafKinds) (Shelf.ofNodes nodes) [] node other → other.IsLegible) →
          ∃ whole, (run ⟨(Shelf.ofNodes nodes).toStore, indexKinds, leafKinds⟩ node [] others).1 = .ok whole ∧
            whole.without (Entry.visitedBelow (root.id :: visited) way) = ⟨node, inner⟩)) ∧
      ∀ dropped ⊆ more, ∀ trace, ∃ found,
        (Inquiry.run (Shelf.ofNodes nodes).toStore
          (linked ⟨(Shelf.ofNodes nodes).toStore, indexKinds, leafKinds⟩ others (root.id :: dropped) root).run
          trace).1 = .ok found ∧
        (graph.without more).entries.map Entry.node = fresh (root.id :: more) found := by
  have reveals := (Shelf.ofNodes nodes).toStore_fallsShortOf.reveals
  have unseen : root.id ∉ visited := fun seen => outside (larger seen)
  obtain ⟨graph, resolved, rfl, follows⟩ := exists_run_of_reveals reveals workers legible
  obtain ⟨other, resolvedMore, same, followsMore⟩ := exists_run_of_reveals reveals others
    fun node reaches => legible node (reaches.of_subset larger)
  have followsPruned := follows.without (VisitsAlso.of_subset larger) outside
  refine ⟨graph, resolved, ?_, fun way node inner down => ?_, ?_⟩
  · rwa [followsMore.eq followsPruned same] at resolvedMore
  · exact resolves_branch reveals unseen follows legible others down
  · intro dropped smaller trace
    obtain ⟨found, linked, listed⟩ :=
      exists_linked reveals indexKinds leafKinds others dropped (legible _ (.root unseen)) trace
    have all := listed.fresh (VisitsAlso.of_subset (List.cons_subset_cons graph.root.id smaller))
    rw [fresh_fresh_of_subset (List.cons_subset_cons graph.root.id smaller)] at all
    exact ⟨found, linked, (followsPruned.2 outside).1.eq all⟩

/-- The revised chapter goes wherever it stands, and the chapter that it replaces does not come in its place. -/
theorem work_without_revision :
    (run ⟨(Shelf.ofNodes shelfOfWork).toStore, [30040], [30041]⟩ work []).1 = .ok graphOfWork ∧
      (run ⟨(Shelf.ofNodes shelfOfWork).toStore, [30040], [30041]⟩ work ["chapter-2"]).1 =
        .ok (graphOfWork.without ["chapter-2"]) ∧
      (graphOfWork.without ["chapter-2"]).nodeIds = ["chapter-1", "part-1"] := by
  obtain ⟨graph, resolved, pruned, _⟩ :=
    visited_ids_are_pruned shelfOfWork [30040] [30041] .one .one work [] ["chapter-2"] (List.nil_subset _) (by decide)
      fun _ => isLegible_of_reaches_work
  have whole : (run ⟨(Shelf.ofNodes shelfOfWork).toStore, [30040], [30041]⟩ work []).1 = .ok graphOfWork := by cbv
  obtain rfl : graph = graphOfWork := Except.ok.inj (resolved.symm.trans whole)
  exact ⟨whole, pruned, by decide⟩

end Resolver
end Graph
end Bindery
