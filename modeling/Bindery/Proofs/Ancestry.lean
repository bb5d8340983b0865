import Bindery.Proofs.Growth
import Mathlib

/-! The ways down a resolved graph. Whatever nodes a store comes up with, no node stands below itself, none
that was visited stands anywhere, and the index nodes are the branches. -/

namespace Bindery

namespace Entry

def inner : Entry → List Entry
  | .leaf _ => []
  | .branch _ entries => entries

/-- A way down: one of some entries, and so on among the entries below it. It may end anywhere. -/
inductive Way : List Entry → List Entry → Prop where
  | stop : Way entries []
  | down {entry : Entry} {entries way : List Entry} (member : entry ∈ entries) (rest : Way entry.inner way) :
      Way entries (entry :: way)

mutual

/-- Every id in an entry is met on some way down. -/
theorem exists_way_of_mem_nodeIds {entry : Entry} {id : Text} (member : id ∈ entry.nodeIds) :
    ∃ way, Way [entry] way ∧ id ∈ way.map (·.node.id) := by
  match entry with
  | .leaf node =>
    rw [nodeIds, List.mem_singleton] at member
    exact ⟨[.leaf node], .down (by simp) .stop, by simp [Entry.node, member]⟩
  | .branch root entries =>
    rw [nodeIds, List.mem_cons] at member
    rcases member with rfl | inside
    · exact ⟨[.branch root entries], .down (by simp) .stop, by simp [Entry.node]⟩
    · obtain ⟨way, down, met⟩ := exists_way_of_mem_nodeIdsOfAll inside
      exact ⟨.branch root entries :: way, .down (by simp) down, List.mem_cons_of_mem _ met⟩

theorem exists_way_of_mem_nodeIdsOfAll {entries : List Entry} {id : Text} (member : id ∈ nodeIdsOfAll entries) :
    ∃ way, Way entries way ∧ id ∈ way.map (·.node.id) := by
  match entries with
  | [] => rw [nodeIdsOfAll] at member; cases member
  | entry :: entries =>
    rw [nodeIdsOfAll, List.mem_append] at member
    rcases member with first | later
    · obtain ⟨way, down, met⟩ := exists_way_of_mem_nodeIds first
      cases down with
      | stop => cases met
      | down only rest =>
        obtain rfl := List.mem_singleton.mp only
        exact ⟨_, .down List.mem_cons_self rest, met⟩
    · obtain ⟨way, down, met⟩ := exists_way_of_mem_nodeIdsOfAll later
      cases down with
      | stop => cases met
      | down member rest => exact ⟨_, .down (List.mem_cons_of_mem _ member) rest, met⟩

end

end Entry

/-- Below an entry, too, all nodes are listed, and the entries have grown. -/
theorem Entry.Grows.inner {listing : Listing} {visited : List Text} {entry : Entry}
    (grown : entry.Grows listing visited) :
    (∀ below ∈ entry.inner, ∃ nodes, listing (entry.node.id :: visited) entry.node nodes ∧ below.node ∈ nodes) ∧
      Entry.AllGrow listing (entry.node.id :: visited) entry.inner := by
  cases entry with
  | leaf node => exact ⟨fun below member => absurd member List.not_mem_nil, trivial⟩
  | branch root entries =>
    obtain ⟨_, listed, below⟩ := grown
    exact ⟨fun entry member => ⟨_, listed, List.mem_map_of_mem member⟩, below⟩

namespace Graph.Resolver

/-- No node right below a root is visited. -/
def unvisitedListing : Listing :=
  fun visited _ nodes => ∀ node ∈ nodes, node.id ∉ visited

/-- The ids on a way down are distinct from one another and from those visited above. -/
theorem way_unvisited {visited : List Text} {entries way : List Entry} (down : Entry.Way entries way)
    (listed : ∀ entry ∈ entries, entry.node.id ∉ visited)
    (grown : Entry.AllGrow unvisitedListing visited entries) :
    (way.map (·.node.id)).Nodup ∧
      ∀ entry ∈ way, entry.node.id ∉ visited ∧ (entry.isBranch = true ↔ entry.node.kind = .index) := by
  induction down generalizing visited with
  | stop => simp
  | @down entry entries way member rest ih =>
    have here := grown.of_mem member
    obtain ⟨listedBelow, grownBelow⟩ := here.inner
    have unseenBelow : ∀ below ∈ entry.inner, below.node.id ∉ entry.node.id :: visited := by
      intro below inside
      obtain ⟨nodes, unseen, present⟩ := listedBelow below inside
      exact unseen _ present
    obtain ⟨distinct, apart⟩ := ih unseenBelow grownBelow
    constructor
    · refine List.nodup_cons.mpr ⟨?_, distinct⟩
      intro again
      obtain ⟨other, onWay, same⟩ := List.mem_map.mp again
      exact (apart other onWay).1 (same ▸ List.mem_cons_self)
    · refine List.forall_mem_cons.mpr ⟨⟨listed entry member, here.isBranch_iff⟩, fun other onWay => ?_⟩
      exact ⟨fun seen => (apart other onWay).1 (List.mem_cons_of_mem _ seen), (apart other onWay).2⟩

/-- However a store answers, no node of a resolved graph stands below itself or was visited, and the branches
are the index nodes. -/
theorem no_node_below_itself {resolver : Resolver} {workers : Workers} {root : Node} {visited : List Text}
    {graph : ContentGraph} (resolved : (resolver.run root visited workers).1 = .ok graph) :
    graph.root = root ∧ root.id ∉ graph.nodeIds ∧
      ∀ way, Entry.Way graph.entries way →
        (root.id :: way.map (·.node.id)).Nodup ∧
        ∀ entry ∈ way, entry.node.id ∉ visited ∧ (entry.isBranch = true ↔ entry.node.kind = .index) := by
  have steps : resolver.Steps workers unvisitedListing fun root => ¬ root.IsLegible := fun visited root =>
    (ends_linked_known resolver workers _ root).imp
      (fun nodes _ node member => by simpa using (List.mem_filter.mp member).2) id
  obtain ⟨rfl, grown⟩ := grows_of_run steps resolved
  have ways : ∀ way, Entry.Way graph.entries way → (way.map (·.node.id)).Nodup ∧
      ∀ entry ∈ way, entry.node.id ∉ graph.root.id :: visited ∧
        (entry.isBranch = true ↔ entry.node.kind = .index) := by
    by_cases seen : graph.root.id ∈ visited
    · rw [grown.1 seen]
      exact fun way down => way_unvisited down (by simp) trivial
    · obtain ⟨unvisited, below⟩ := grown.2 seen
      have listed : ∀ entry ∈ graph.entries, entry.node.id ∉ graph.root.id :: visited :=
        fun entry member => unvisited _ (List.mem_map_of_mem member)
      exact fun way down => way_unvisited down listed below
  refine ⟨rfl, fun inside => ?_, fun way down => ⟨?_, fun entry onWay => ?_⟩⟩
  · obtain ⟨way, down, met⟩ := Entry.exists_way_of_mem_nodeIdsOfAll inside
    obtain ⟨entry, onWay, same⟩ := List.mem_map.mp met
    exact ((ways way down).2 entry onWay).1 (same ▸ List.mem_cons_self)
  · refine List.nodup_cons.mpr ⟨fun again => ?_, (ways way down).1⟩
    obtain ⟨entry, onWay, same⟩ := List.mem_map.mp again
    exact ((ways way down).2 entry onWay).1 (same ▸ List.mem_cons_self)
  · obtain ⟨apart, shape⟩ := (ways way down).2 entry onWay
    exact ⟨fun seen => apart (List.mem_cons_of_mem _ seen), shape⟩

/-! ### A work that names itself

Entering nodes and merging claims recurse along lexicographic orders, where `decide` and `rfl` get stuck. So runs on
given shelves, here and in the modules that build on this one, are evaluated by `cbv`. It rewrites with the unfolding
equations of library functions, down to the bytes of a string, and no part of Mathlib brings all of them along: this
is what the whole of it is imported for. -/

def chapter : Node where
  id := "chapter-1"
  owner := "alice"
  kind := .leaf
  kindNumber := some 30041
  tags := [⟨"d", "chapter"⟩]
  body := "Once."
  createdAt := 1

def revisedChapter : Node :=
  { chapter with id := "chapter-2", createdAt := 2 }

def part : Node where
  id := "part-1"
  owner := "alice"
  kind := .index
  kindNumber := some 30040
  tags := [⟨"d", "part"⟩, ⟨"e", "work-1"⟩, ⟨"a", "30041:alice:chapter"⟩]
  body := ""
  createdAt := 1

def work : Node where
  id := "work-1"
  owner := "alice"
  kind := .index
  kindNumber := some 30040
  tags := [⟨"e", "chapter-1"⟩, ⟨"a", "30040:alice:part"⟩, ⟨"e", "chapter-2"⟩]
  body := ""
  createdAt := 1

def shelfOfWork : List Node := [work, chapter, part, revisedChapter]

/-- Whatever it is asked, it answers with the whole shelf. -/
def lavishStore : Store :=
  Shortfall.everythingEachTime.store (Shelf.ofNodes shelfOfWork)

def graphOfWork : ContentGraph :=
  ⟨work, [.leaf chapter, .branch part [.leaf revisedChapter], .leaf revisedChapter]⟩

theorem run_lavishStore : (run ⟨lavishStore, [30040], [30041]⟩ work []).1 = .ok graphOfWork := by
  cbv

theorem work_not_below_itself :
    (run ⟨lavishStore, [30040], [30041]⟩ work []).1 = .ok graphOfWork ∧ work.id ∉ graphOfWork.nodeIds ∧
      ∀ way, Entry.Way graphOfWork.entries way → (work.id :: way.map (·.node.id)).Nodup := by
  obtain ⟨_, outside, distinct⟩ := no_node_below_itself run_lavishStore
  exact ⟨run_lavishStore, outside, fun way down => (distinct way down).1⟩

end Graph.Resolver
end Bindery
