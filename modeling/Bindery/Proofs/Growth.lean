import Bindery.Proofs.Fetching
import Bindery.Proofs.TagOrder

/-! How a graph grows out of what single roots lead to. A property of the nodes listed under one root, given
the ids visited on the way, is asserted of all branches of a graph at once; it holds of every resolved graph
if it holds of every single step. -/

namespace Bindery

/-- What the nodes right below a root are like, once the root and the nodes above it are visited. -/
abbrev Listing := List Text → Node → List Node → Prop

mutual

/-- An entry that has grown where some ids were visited before. -/
def Entry.Grows (listing : Listing) (visited : List Text) : Entry → Prop
  | .leaf node => node.kind = .leaf
  | .branch root entries =>
    root.kind = .index ∧ listing (root.id :: visited) root (entries.map Entry.node) ∧
      Entry.AllGrow listing (root.id :: visited) entries

def Entry.AllGrow (listing : Listing) (visited : List Text) : List Entry → Prop
  | [] => True
  | entry :: entries => entry.Grows listing visited ∧ Entry.AllGrow listing visited entries

end

def ContentGraph.Grows (listing : Listing) (visited : List Text) (graph : ContentGraph) : Prop :=
  (graph.root.id ∈ visited → graph.entries = []) ∧
    (graph.root.id ∉ visited → listing (graph.root.id :: visited) graph.root (graph.entries.map Entry.node) ∧
      Entry.AllGrow listing (graph.root.id :: visited) graph.entries)

namespace Entry
variable {listing : Listing} {visited : List Text}

theorem AllGrow.of_mem {entries : List Entry}
    (grown : AllGrow listing visited entries) {entry : Entry} (member : entry ∈ entries) :
    entry.Grows listing visited := by
  induction entries with
  | nil => cases member
  | cons first rest ih =>
    rcases List.mem_cons.mp member with rfl | later
    · exact grown.1
    · exact ih grown.2 later

theorem Grows.isBranch_iff {entry : Entry}
    (grown : entry.Grows listing visited) : entry.isBranch = true ↔ entry.node.kind = .index := by
  cases entry with
  | leaf node => simp [isBranch, Entry.node, show node.kind = .leaf from grown]
  | branch root entries => simp [isBranch, Entry.node, grown.1]

end Entry

namespace Graph

/-- A step below a root fails: at the root itself, or below an index that it lists. -/
inductive Fails (listing : Listing) (fault : Node → Prop) : List Text → Node → Prop where
  | here (faulty : fault root) : Fails listing fault visited root
  | deeper (listed : listing visited root nodes) (member : child ∈ nodes) (index : child.kind = .index)
      (fails : Fails listing fault (child.id :: visited) child) : Fails listing fault visited root

def fresh (visited : List Text) (nodes : List Node) : List Node :=
  nodes.filter (!visited.contains ·.id)

theorem mem_fresh {visited : List Text} {nodes : List Node} {node : Node} :
    node ∈ fresh visited nodes ↔ node ∈ nodes ∧ node.id ∉ visited := by
  simp [fresh]

theorem fresh_sublist (visited : List Text) (nodes : List Node) : (fresh visited nodes).Sublist nodes :=
  List.filter_sublist

namespace Resolver
variable {resolver : Resolver} {workers : Workers} {listing : Listing} {fault : Node → Prop}

theorem known_of_mem_answer {store : Store} {asked : List Selector} {selector : Selector} {node : Node}
    (member : node ∈ (store.answer asked selector).getD []) : node.id ∈ store.ids := by
  cases answered : store.answer asked selector with
  | none => simp [answered] at member
  | some nodes => exact store.known asked selector nodes answered node (by simpa [answered] using member)

theorem finds_byCoordinate (store : Store) : Search.byCoordinate.Finds store fun coordinate found =>
    ∀ node, found = some node → node.coordinate = some coordinate ∧ node.id ∈ store.ids where
  batch asked keys key node found other same := by
    cases same
    obtain ⟨member, own⟩ := of_nodeAt?_newestByCoordinate found
    exact ⟨own, known_of_mem_answer member⟩
  alone asked key node found := by
    obtain ⟨member, own⟩ := of_nodeAt?_newestByCoordinate found
    exact ⟨own, known_of_mem_answer member⟩

theorem of_nodeWithId? {nodes : List Node} {id : Text} {node : Node} (found : nodeWithId? nodes id = some node) :
    node ∈ nodes ∧ node.id = id :=
  ⟨List.mem_reverse.mp (List.mem_of_find?_eq_some found), by simpa using List.find?_some found⟩

theorem finds_byId (store : Store) : Search.byId.Finds store fun id found =>
    ∀ node, found = some node → node.id = id ∧ node.id ∈ store.ids where
  batch asked keys key node found other same := by
    cases same
    obtain ⟨member, own⟩ := of_nodeWithId? found
    exact ⟨own, known_of_mem_answer member⟩
  alone asked key node found := by
    obtain ⟨member, own⟩ := of_nodeWithId? found
    exact ⟨own, known_of_mem_answer member⟩

/-- A node that a root leads to was found for an edge, and so fits its target. -/
theorem Found.Fits.exists_edge {edges : Edges} {found : Found} {fits : Coordinate → Option Node → Prop}
    {fitsId : Text → Option Node → Prop} (fit : found.Fits edges fits fitsId) {node : Node}
    (member : node ∈ inTagOrder (claims edges found)) :
    (∃ edge ∈ edges.coordinates, found.byCoordinate.lookup edge.target = some node ∧ fits edge.target (some node)) ∨
      ∃ edge ∈ edges.ids, found.byId.lookup edge.target = some node ∧ fitsId edge.target (some node) := by
  obtain ⟨claim, inside, rfl⟩ := exists_claim_of_mem_inTagOrder member
  rcases List.mem_append.mp inside with byCoordinate | byId
  · obtain ⟨edge, linked, _, held⟩ := mem_claimsOf.mp byCoordinate
    exact Or.inl ⟨edge, linked, held, held ▸ fit.coordinates edge linked⟩
  · obtain ⟨edge, linked, _, held⟩ := mem_claimsOf.mp byId
    exact Or.inr ⟨edge, linked, held, held ▸ fit.ids edge linked⟩

theorem ends_linked_known (resolver : Resolver) (workers : Workers) (visited : List Text) (root : Node) :
    Resolving.Ends resolver.store (fun nodes => ∀ node ∈ nodes, node.id ∈ resolver.store.ids)
      (¬ root.IsLegible) (resolver.linked workers visited root) := by
  refine (ends_linked (finds_byCoordinate _) (finds_byId _) resolver workers visited root).imp ?_ id
  intro nodes given node member
  obtain ⟨found, fits, rfl⟩ := given
  rcases fits.exists_edge member with ⟨_, _, _, known⟩ | ⟨_, _, _, known⟩
  · exact (known node rfl).2
  · exact (known node rfl).2

/-! ### Whole graphs -/

theorem fresh_cons_of_notMem {visited : List Text} {node : Node} (rest : List Node)
    (unseen : visited.contains node.id = false) : fresh visited (node :: rest) = node :: fresh visited rest := by
  simp only [fresh, List.filter_cons, unseen, Bool.not_false, if_true]

theorem fresh_cons_of_mem {visited : List Text} {node : Node} (rest : List Node)
    (seen : ¬ visited.contains node.id = false) : fresh visited (node :: rest) = fresh visited rest := by
  simp only [fresh, List.filter_cons, eq_true_of_ne_false seen, Bool.not_true, Bool.false_eq_true, if_false]

def FailsBelow (listing : Listing) (fault : Node → Prop) (visited : List Text) (nodes : List Node) : Prop :=
  ∃ child ∈ nodes, child.kind = .index ∧ Fails listing fault (child.id :: visited) child

theorem FailsBelow.cons {visited : List Text} {node : Node} {nodes : List Node}
    (fails : FailsBelow listing fault visited nodes) : FailsBelow listing fault visited (node :: nodes) := by
  obtain ⟨child, member, failing⟩ := fails
  exact ⟨child, List.mem_cons_of_mem _ member, failing⟩

/-- What a single step lists, with the root visited and visited nodes left out. It breaks off only where
something is wrong with the root. -/
def Steps (resolver : Resolver) (workers : Workers) (listing : Listing) (fault : Node → Prop) : Prop :=
  ∀ visited root, Resolving.Ends resolver.store
    (fun nodes => listing (root.id :: visited) root (fresh (root.id :: visited) nodes)) (fault root)
    (resolver.linked workers (root.id :: visited) root)

theorem ends_entries (steps : resolver.Steps workers listing fault) (visited : List Text) (parent : Node) (nodes : List Node)
    (known : ∀ node ∈ nodes, node.id ∈ resolver.store.ids) :
    Resolving.Ends resolver.store
      (fun entries => entries.map Entry.node = fresh visited nodes ∧ Entry.AllGrow listing visited entries)
      (FailsBelow listing fault visited (fresh visited nodes))
      (resolver.entries workers visited parent nodes) := by
  induction visited, parent, nodes using Resolver.entries.induct resolver with
  | case1 visited parent =>
    rw [entries]
    exact ⟨rfl, trivial⟩
  | case2 visited parent node rest unseen leaf ih =>
    have later := ih fun other member => known other (List.mem_cons_of_mem _ member)
    rw [entries, dif_pos unseen, leaf, fresh_cons_of_notMem rest unseen]
    refine Resolving.ends_bind.mpr (later.imp ?_ FailsBelow.cons)
    intro entries given
    obtain ⟨nodes, grown⟩ := given
    exact ⟨congrArg (node :: ·) nodes, leaf, grown⟩
  | case3 visited parent node rest unseen index inside ihBelow ih =>
    have later := ih fun other member => known other (List.mem_cons_of_mem _ member)
    rw [entries, dif_pos unseen, index, fresh_cons_of_notMem rest unseen]
    simp only [dif_pos inside]
    have listed := (steps visited node).and (ends_linked_known resolver workers _ _)
    refine Resolving.ends_bind.mpr (listed.imp ?_ fun faulty => ?_)
    · intro below given
      obtain ⟨listed, knownBelow⟩ := given
      refine Resolving.ends_bind.mpr ((ihBelow below knownBelow).imp ?_ ?_)
      · intro inner given
        obtain ⟨innerNodes, innerGrown⟩ := given
        refine Resolving.ends_bind.mpr (later.imp ?_ FailsBelow.cons)
        intro entries given
        obtain ⟨nodes, grown⟩ := given
        exact ⟨congrArg (node :: ·) nodes, ⟨index, innerNodes ▸ listed, innerGrown⟩, grown⟩
      · intro given
        obtain ⟨child, member, childIndex, fails⟩ := given
        exact ⟨node, List.mem_cons_self, index, .deeper listed member childIndex fails⟩
    · exact ⟨node, List.mem_cons_self, index, .here faulty⟩
  | case4 visited parent node rest unseen index outside ih =>
    exact absurd (known node List.mem_cons_self) outside
  | case5 visited parent node rest seen ih =>
    have later := ih fun other member => known other (List.mem_cons_of_mem _ member)
    rw [entries, dif_neg seen, fresh_cons_of_mem rest seen]
    exact Resolving.ends_bind.mpr later

theorem ends_resolve (steps : resolver.Steps workers listing fault) (root : Node) (visited : List Text) :
    Resolving.Ends resolver.store (fun graph => graph.root = root ∧ graph.Grows listing visited)
      (root.id ∉ visited ∧ Fails listing fault (root.id :: visited) root)
      (resolver.resolve workers root visited) := by
  unfold resolve
  by_cases seen : root.id ∈ visited
  · rw [if_pos (List.contains_iff_mem.mpr seen)]
    exact ⟨rfl, fun _ => rfl, fun unseen => absurd seen unseen⟩
  · rw [if_neg (by simpa using seen)]
    have listed := (steps visited root).and (ends_linked_known resolver workers _ _)
    refine Resolving.ends_bind.mpr (listed.imp ?_ fun faulty => ⟨seen, .here faulty⟩)
    intro below given
    obtain ⟨listed, known⟩ := given
    refine Resolving.ends_bind.mpr ((ends_entries steps _ root below known).imp ?_ ?_)
    · intro entries given
      obtain ⟨nodes, grown⟩ := given
      exact ⟨rfl, fun again => absurd again seen, fun _ => ⟨nodes ▸ listed, grown⟩⟩
    · intro given
      obtain ⟨child, member, index, fails⟩ := given
      exact ⟨seen, .deeper listed member index fails⟩

/-- Every graph that a run ends in has grown as its single steps do. -/
theorem grows_of_run (steps : resolver.Steps workers listing fault) {root : Node} {visited : List Text} {graph : ContentGraph}
    (resolved : (resolver.run root visited workers).1 = .ok graph) :
    graph.root = root ∧ graph.Grows listing visited :=
  (ends_resolve steps root visited).of_ok resolved

/-- A run ends in a graph unless one of its single steps fails. -/
theorem exists_run (steps : resolver.Steps workers listing fault) {root : Node} {visited : List Text}
    (sound : root.id ∉ visited → ¬ Fails listing fault (root.id :: visited) root) :
    ∃ graph, (resolver.run root visited workers).1 = .ok graph ∧
      graph.root = root ∧ graph.Grows listing visited := by
  cases resolved : (resolver.run root visited workers).1 with
  | ok graph => exact ⟨graph, rfl, grows_of_run steps resolved⟩
  | error error =>
    have fails := (ends_resolve steps root visited).of_error resolved
    exact absurd fails.2 (sound fails.1)

end Resolver
end Graph
end Bindery
