import Bindery.Proofs.UnreadableNumbers

/-! What failures of a store do to a graph. A node whose coordinate cannot be looked up may still come in by its id,
at another place among its siblings, but never below a node that it would not stand below otherwise: each way down
the graph that is left is a way down the graph that no failure has touched. -/

namespace Bindery

/-- A listing never has nodes that another one lacks for the same root. -/
def Listing.Within (narrow wide : Listing) : Prop :=
  ∀ visited root nodes others, narrow visited root nodes → wide visited root others → nodes ⊆ others

/-- Where one graph lists no nodes that another lacks, it leads down no other ways. -/
theorem Entry.Way.exists_wider {narrow wide : Listing} (within : narrow.Within wide) {visited : List Text}
    {entries others way : List Entry} (down : Way entries way) (grown : AllGrow narrow visited entries)
    (widerGrown : AllGrow wide visited others) (listed : entries.map Entry.node ⊆ others.map Entry.node) :
    ∃ wider, Way others wider ∧ wider.map Entry.node = way.map Entry.node := by
  induction down generalizing visited others with
  | stop => exact ⟨[], .stop, rfl⟩
  | @down entry entries way member rest ih =>
    obtain ⟨other, present, same⟩ := List.mem_map.mp (listed (List.mem_map_of_mem member))
    have here := grown.of_mem member
    have there := widerGrown.of_mem present
    have listedBelow : entry.inner.map Entry.node ⊆ other.inner.map Entry.node := by
      cases entry with
      | leaf node => exact List.nil_subset _
      | branch root inner =>
        cases other with
        | leaf node =>
          -- An index node has grown as a branch in both graphs.
          obtain rfl : node = root := same
          exact absurd (here.1.symm.trans there) (by decide)
        | branch otherRoot otherInner =>
          obtain rfl : otherRoot = root := same
          exact within _ _ _ _ here.2.1 there.2.1
    have widerBelow := there.inner.2
    rw [same] at widerBelow
    obtain ⟨wider, downWider, sameWay⟩ := ih here.inner.2 widerBelow listedBelow
    exact ⟨other :: wider, .down present downWider, by rw [List.map_cons, List.map_cons, same, sameWay]⟩

namespace Graph

/-- The store of a shelf, but for some questions on which it fails. -/
def Shelf.toStoreFailing (shelf : Shelf) (fails : Selector → Bool) : Store where
  ids := shelf.nodes.map Node.id
  answer _ selector := if fails selector then none else some (shelf.find selector)
  known _ selector nodes answered node member := by
    obtain ⟨_, same⟩ := Option.ite_none_left_eq_some.mp answered
    cases same
    exact List.mem_map_of_mem (Shelf.mem_of_mem_find member)

theorem Shelf.toStoreFailing_answersOrFails (shelf : Shelf) (fails : Selector → Bool) :
    (shelf.toStoreFailing fails).AnswersOrFails shelf := by
  intro asked selector
  by_cases failing : fails selector
  · exact Or.inl (if_pos failing)
  · exact Or.inr (if_neg failing)

namespace Resolver

/-- What a root leads to is all that a failing store can list for it. -/
theorem leadsTo_within (kinds : List Int) (shelf : Shelf) :
    Listing.Within (fun visited root nodes => ∀ node ∈ nodes, node.id ∉ visited ∧ LeadsTo kinds shelf root node)
      fun visited root nodes => Lists kinds shelf root visited nodes := by
  intro visited root nodes others leads lists node member
  exact (lists.complete node).mpr (leads node member)

/-- Resolving over a store that fails on some questions ends in a graph. Its ways down are all ways down the graph
over a store that never fails, and lead by the same nodes. -/
theorem failures_only_shrink (nodes : List Node) (store : Store) (unsteady : store.AnswersOrFails (Shelf.ofNodes nodes))
    (indexKinds leafKinds : List Int) (workers others : Workers) (root : Node) (visited : List Text)
    (legible : ∀ node, Reaches (indexKinds ++ leafKinds) (Shelf.ofNodes nodes) visited root node → node.IsLegible) :
    ∃ graph whole, (run ⟨store, indexKinds, leafKinds⟩ root visited workers).1 = .ok graph ∧
      (run ⟨(Shelf.ofNodes nodes).toStore, indexKinds, leafKinds⟩ root visited others).1 = .ok whole ∧
      graph.root = root ∧ whole.root = root ∧
      ∀ way, Entry.Way graph.entries way →
        ∃ wider, Entry.Way whole.entries wider ∧ wider.map Entry.node = way.map Entry.node := by
  obtain ⟨graph, resolved, same⟩ := exists_run_of_answersOrFails unsteady workers legible
  obtain ⟨whole, resolvedWhole, sameWhole, follows⟩ :=
    exists_run_of_reveals (Shelf.ofNodes nodes).toStore_fallsShortOf.reveals others legible
  refine ⟨graph, whole, resolved, resolvedWhole, same, sameWhole, fun way down => ?_⟩
  obtain ⟨rfl, grown⟩ := grows_of_run (steps_leadsTo unsteady workers) resolved
  by_cases seen : graph.root.id ∈ visited
  · rw [grown.1 seen] at down
    cases down with
    | stop => exact ⟨[], .stop, rfl⟩
    | down member rest => cases member
  · obtain ⟨leads, below⟩ := grown.2 seen
    obtain ⟨lists, belowWhole⟩ := follows.2 (sameWhole ▸ seen)
    rw [sameWhole] at lists belowWhole
    have within := leadsTo_within (indexKinds ++ leafKinds) (Shelf.ofNodes nodes)
    exact down.exists_wider within below belowWhole (within _ _ _ _ leads lists)

/-- The coordinate of a chapter comes before the ids of both its revisions. -/
def workOfRevisions : Node :=
  { work with
    tags := [⟨"a", "30041:alice:chapter"⟩, ⟨"e", "chapter-1"⟩, ⟨"e", "chapter-2"⟩, ⟨"a", "30040:alice:part"⟩] }

def failsOnChapter (selector : Selector) : Bool :=
  selector = .atCoordinates [⟨30041, "alice", "chapter"⟩]

/-- The newer revision goes behind the older one, where its id names it, and is lost below the part. -/
theorem revisions_swapped_by_failure :
    (run ⟨(Shelf.ofNodes shelfOfWork).toStoreFailing failsOnChapter, [30040], [30041]⟩ workOfRevisions []).1 =
      .ok ⟨workOfRevisions, [.leaf chapter, .leaf revisedChapter, .branch part []]⟩ ∧
    ∃ whole, (run ⟨(Shelf.ofNodes shelfOfWork).toStore, [30040], [30041]⟩ workOfRevisions []).1 = .ok whole ∧
      ∀ way, Entry.Way [.leaf chapter, .leaf revisedChapter, .branch part []] way →
        ∃ wider, Entry.Way whole.entries wider ∧ wider.map Entry.node = way.map Entry.node := by
  obtain ⟨graph, whole, resolved, resolvedWhole, _, _, ways⟩ :=
    failures_only_shrink shelfOfWork _ (Shelf.toStoreFailing_answersOrFails _ failsOnChapter) [30040] [30041] .one .one
      workOfRevisions [] fun _ reaches => reaches.isLegible (by decide) (by decide)
  have swapped : (run ⟨(Shelf.ofNodes shelfOfWork).toStoreFailing failsOnChapter, [30040], [30041]⟩
      workOfRevisions []).1 = .ok ⟨workOfRevisions, [.leaf chapter, .leaf revisedChapter, .branch part []]⟩ := by cbv
  obtain rfl := Except.ok.inj (resolved.symm.trans swapped)
  exact ⟨swapped, whole, resolvedWhole, ways⟩

end Resolver
end Graph
end Bindery
