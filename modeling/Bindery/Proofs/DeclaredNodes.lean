import Bindery.Proofs.EdgeByEdge
import Bindery.Proofs.Ancestry

/-! What a store can bring into a graph. It may answer with nodes that nobody asked for, and otherwise each time. Even
so, each entry goes by a tag of the node that it stands right below, and no two of them by the same coordinate or id. -/

namespace Bindery

/-- What stands right below the root of a graph, or right below a branch. -/
inductive ContentGraph.HasBelow (graph : ContentGraph) : Node → List Entry → Prop where
  | root : graph.HasBelow graph.root graph.entries
  | branch {parent node : Node} {entries inner : List Entry} (above : graph.HasBelow parent entries)
      (member : .branch node inner ∈ entries) : graph.HasBelow node inner

/-- What is listed at every step is listed below every branch. Only a visited root has nothing listed below it. -/
theorem ContentGraph.Grows.of_hasBelow {listing : Listing} {visited : List Text} {graph : ContentGraph}
    (grown : graph.Grows listing visited) {parent : Node} {entries : List Entry} (below : graph.HasBelow parent entries) :
    entries = [] ∨ ∃ above, listing (parent.id :: above) parent (entries.map Entry.node) ∧
      Entry.AllGrow listing (parent.id :: above) entries := by
  induction below with
  | root =>
    by_cases seen : graph.root.id ∈ visited
    · exact Or.inl (grown.1 seen)
    · exact Or.inr ⟨visited, grown.2 seen⟩
  | branch _ member ih =>
    rcases ih with empty | ⟨above, _, grownAbove⟩
    · rw [empty] at member
      cases member
    · obtain ⟨_, listed, grownBelow⟩ := grownAbove.of_mem member
      exact Or.inr ⟨_, listed, grownBelow⟩

/-- A tag names another node by its coordinate or by its id. -/
inductive Declaration where
  | coordinate (value : Coordinate)
  | id (value : Text)
  deriving DecidableEq, Repr, Inhabited

/-- A node goes by what is declared. -/
def Declaration.Names : Declaration → Node → Prop
  | .coordinate value, node => node.coordinate = some value
  | .id value, node => node.id = value

/-- Some tag of a node declares it: a coordinate of one of the kinds that is not the node's own, or an id. -/
def Node.Declares (kinds : List Int) (node : Node) : Declaration → Prop
  | .coordinate value => value.kind ∈ kinds ∧ node.coordinate ≠ some value ∧
      ∃ tag ∈ node.tags, tag.key = "a" ∧ Coordinate.parse tag.value = .ok (some value)
  | .id value => value ≠ [] ∧ ∃ tag ∈ node.tags, tag.key = "e" ∧ tag.value = value

/-- The nodes listed for a root have ids of their own, and each goes by a declaration of its own. -/
structure IsDeclared (kinds : List Int) (root : Node) (nodes : List Node) : Prop where
  distinct : (nodes.map Node.id).Nodup
  declared : ∃ declaration : Node → Declaration,
    (∀ node ∈ nodes, root.Declares kinds (declaration node) ∧ (declaration node).Names node) ∧
    (nodes.map declaration).Nodup

theorem IsDeclared.sublist {kinds : List Int} {root : Node} {nodes others : List Node}
    (declared : IsDeclared kinds root nodes) (within : others.Sublist nodes) : IsDeclared kinds root others := by
  obtain ⟨declaration, declares, apart⟩ := declared.declared
  refine ⟨declared.distinct.sublist (within.map _), declaration, ?_, apart.sublist (within.map _)⟩
  exact fun node member => declares node (within.subset member)

namespace Graph.Resolver

/-- What was found for a declaration. -/
def Found.at? (found : Found) : Declaration → Option Node
  | .coordinate value => found.byCoordinate.lookup value
  | .id value => found.byId.lookup value

theorem nodup_inTagOrder (claims : List Claim) : ((inTagOrder claims).map Node.id).Nodup := by
  have perm := (List.mergeSort_perm (claims.foldl claim []) fun a b => a.position ≤ b.position).map (·.node.id)
  rw [inTagOrder, List.map_map]
  exact perm.nodup_iff.mpr (nodup_foldl_claim claims)

variable {resolver : Resolver} {visited : List Text} {root : Node}

theorem declares_of_mem_coordinates {edge : Edge Coordinate}
    (member : edge ∈ (resolver.edgesOf visited root).coordinates) :
    root.Declares resolver.kinds (.coordinate edge.target) := by
  obtain ⟨tag, here, leads⟩ := mem_edgesBy.mp member
  obtain ⟨key, parsed, other, supported⟩ := coordinateOf?_eq_some.mp leads
  exact ⟨supports_eq_true.mp supported, other, tag, List.mem_of_getElem? here, key, parsed⟩

theorem declares_of_mem_ids {edge : Edge Text} (member : edge ∈ (resolver.edgesOf visited root).ids) :
    root.Declares resolver.kinds (.id edge.target) := by
  obtain ⟨tag, here, leads⟩ := mem_edgesBy.mp member
  obtain ⟨key, same, present, _⟩ := idOf?_eq_some.mp leads
  exact ⟨present, tag, List.mem_of_getElem? here, key, same⟩

/-- Each node that is claimed was found for a declaration, and goes by it. -/
theorem exists_declaration {store : Store} {found : Found}
    (fits : found.Fits (resolver.edgesOf visited root)
      (fun coordinate held => ∀ node, held = some node → node.coordinate = some coordinate ∧ node.id ∈ store.ids)
      fun id held => ∀ node, held = some node → node.id = id ∧ node.id ∈ store.ids)
    {node : Node} (member : node ∈ inTagOrder (claims (resolver.edgesOf visited root) found)) :
    ∃ declaration, (root.Declares resolver.kinds declaration ∧ declaration.Names node) ∧
      found.at? declaration = some node := by
  rcases fits.exists_edge member with ⟨edge, linked, held, own⟩ | ⟨edge, linked, held, own⟩
  · exact ⟨.coordinate edge.target, ⟨declares_of_mem_coordinates linked, (own node rfl).1⟩, held⟩
  · exact ⟨.id edge.target, ⟨declares_of_mem_ids linked, (own node rfl).1⟩, held⟩

/-- Nodes that are found for declarations, each for its own, are declared. -/
theorem isDeclared_inTagOrder {store : Store} {found : Found}
    (fits : found.Fits (resolver.edgesOf visited root)
      (fun coordinate held => ∀ node, held = some node → node.coordinate = some coordinate ∧ node.id ∈ store.ids)
      fun id held => ∀ node, held = some node → node.id = id ∧ node.id ∈ store.ids) :
    IsDeclared resolver.kinds root (inTagOrder (claims (resolver.edgesOf visited root) found)) := by
  have distinct := nodup_inTagOrder (claims (resolver.edgesOf visited root) found)
  have claimed : ∀ node ∈ inTagOrder (claims (resolver.edgesOf visited root) found), ∃ declaration,
      (root.Declares resolver.kinds declaration ∧ declaration.Names node) ∧ found.at? declaration = some node :=
    fun _ => exists_declaration fits
  choose! declaration declares using claimed
  refine ⟨distinct, declaration, fun node member => (declares node member).1, ?_⟩
  apply List.Nodup.map_on _ (List.Nodup.of_map Node.id distinct)
  intro node member other present same
  -- A declaration has one node found for it at most.
  have held := (declares node member).2
  rw [same] at held
  exact Option.some.inj (held.symm.trans (declares other present).2)

/-- Whatever the answers are, a step lists nodes that its root declares. -/
theorem steps_declared (workers : Workers) :
    resolver.Steps workers (fun _ root nodes => IsDeclared resolver.kinds root nodes) fun root => ¬ root.IsLegible := by
  intro visited root
  refine (ends_linked (finds_byCoordinate _) (finds_byId _) resolver workers _ root).imp ?_ id
  intro nodes given
  obtain ⟨found, fits, rfl⟩ := given
  exact (isDeclared_inTagOrder fits).sublist (fresh_sublist _ _)

/-- No store brings a node into a graph that is not declared there. Right below the root and below every branch, the
entries have ids of their own, and each goes by a coordinate or an id that a tag of that node declares and that no
other entry goes by. -/
theorem nothing_undeclared {workers : Workers} {graph : ContentGraph}
    (resolved : (resolver.run root visited workers).1 = .ok graph) {parent : Node} {entries : List Entry}
    (below : graph.HasBelow parent entries) : IsDeclared resolver.kinds parent (entries.map Entry.node) := by
  obtain ⟨rfl, grown⟩ := grows_of_run (steps_declared workers) resolved
  rcases grown.of_hasBelow below with rfl | ⟨_, declared, _⟩
  · exact ⟨List.nodup_nil, fun _ => default, fun _ member => absurd member List.not_mem_nil, List.nodup_nil⟩
  · exact declared

/-- A store that answers each question with all its nodes gives a part nothing but the chapter that the part declares. -/
theorem part_holds_declared_chapter :
    (run ⟨lavishStore, [30040], [30041]⟩ work []).1 = .ok graphOfWork ∧
      graphOfWork.HasBelow part [.leaf revisedChapter] ∧ IsDeclared [30040, 30041] part [revisedChapter] := by
  have below : graphOfWork.HasBelow part [.leaf revisedChapter] :=
    .branch .root (List.mem_cons_of_mem _ List.mem_cons_self)
  exact ⟨run_lavishStore, below, nothing_undeclared run_lavishStore below⟩

end Graph.Resolver
end Bindery
