import Bindery.Proofs.ArchiveHistory
import Bindery.Proofs.GraphByTags

/-! Graphs over an archive. An archive answers with all revisions that it holds at a coordinate, in the order of its
rows, and says of each node's kind only what the kind number says; it fails on kind numbers that are too large for it.
None of this can be told from a graph: it is the graph over a shelf of the same nodes, if those are of the kinds that
their numbers say, and if no two revisions are of the same age. -/

namespace Bindery

/-- An archive can keep the node, and gives it back as it was. -/
structure Node.IsArchivable (indexKinds : List Int) (node : Node) : Prop where
  numbered : ∃ number ∈ node.kindNumber, isStorable number = true ∧ (node.kind = .index ↔ number ∈ indexKinds)
  age : isStorable node.createdAt = true

instance (indexKinds : List Int) (node : Node) : Decidable (node.IsArchivable indexKinds) :=
  decidable_of_iff ((∃ number ∈ node.kindNumber, isStorable number = true ∧ (node.kind = .index ↔ number ∈ indexKinds)) ∧
      isStorable node.createdAt = true)
    ⟨fun ⟨numbered, age⟩ => ⟨numbered, age⟩, fun ⟨numbered, age⟩ => ⟨numbered, age⟩⟩

/-- No two nodes at one coordinate are of the same age. -/
def AgesApart (nodes : List Node) : Prop :=
  ∀ node ∈ nodes, ∀ other ∈ nodes, node.coordinate ≠ none → node.coordinate = other.coordinate →
    node.createdAt = other.createdAt → node = other

instance (nodes : List Node) : Decidable (AgesApart nodes) :=
  inferInstanceAs (Decidable (∀ node ∈ nodes, ∀ other ∈ nodes, node.coordinate ≠ none →
    node.coordinate = other.coordinate → node.createdAt = other.createdAt → node = other))

theorem AgesApart.of_subset {nodes others : List Node} (apart : AgesApart others) (within : nodes ⊆ others) :
    AgesApart nodes :=
  fun node member other present => apart node (within member) other (within present)

namespace Node.IsArchivable
variable {indexKinds : List Int} {node : Node}

theorem refusal?_eq_none (archivable : node.IsArchivable indexKinds) : node.refusal? = none := by
  obtain ⟨number, numbered, storable, _⟩ := archivable.numbered
  exact Node.refusal?_eq_none.mpr ⟨number, numbered, storable, archivable.age⟩

theorem toNode_eq (archivable : node.IsArchivable indexKinds) {row : Row} (own : node.row? = some row) :
    row.toNode indexKinds = node := by
  obtain ⟨number, numbered, _, index⟩ := archivable.numbered
  obtain ⟨kind, same, rfl⟩ := Option.map_eq_some_iff.mp own
  obtain rfl := Option.some.inj (numbered.symm.trans same)
  have kinds : NodeKind.ofNumber indexKinds number = node.kind := by
    cases kind : node.kind with
    | index => simp [NodeKind.ofNumber, index.mp kind]
    | leaf =>
      have other : number ∉ indexKinds := fun listed => by simp [index.mpr listed] at kind
      simp [NodeKind.ofNumber, other]
  simp only [Row.toNode, Row.ofNode, kinds, ← same]

end Node.IsArchivable

theorem Node.of_coordinate_eq_some {node : Node} {coordinate : Coordinate}
    (there : node.coordinate = some coordinate) :
    node.kindNumber = some coordinate.kind ∧ node.owner = coordinate.owner ∧ node.name = some coordinate.name := by
  unfold Node.coordinate at there
  split at there
  next kind name numbered named =>
    cases there
    exact ⟨numbered, rfl, (Option.filter_eq_some_iff.mp named).1⟩
  next => cases there

/-- The row of a node with a coordinate is found there and nowhere else. -/
theorem Row.isAt_iff {node : Node} {row : Row} {coordinate other : Coordinate} (own : node.row? = some row)
    (there : node.coordinate = some coordinate) : row.isAt other = true ↔ coordinate = other := by
  obtain ⟨numbered, owner, name⟩ := Node.of_coordinate_eq_some there
  obtain ⟨number, same, rfl⟩ := Option.map_eq_some_iff.mp own
  obtain rfl := Option.some.inj (numbered.symm.trans same)
  cases coordinate
  cases other
  simp [Row.isAt, Row.ofNode, owner, name, and_assoc]

/-! ### A shelf beside an archive -/

namespace Graph.Shelf

theorem mem_put {shelf : Shelf} {node other : Node} :
    other ∈ (shelf.put node).nodes ↔ other = node ∨ other ∈ shelf.nodes ∧ other.id ≠ node.id := by
  unfold put
  split
  next known =>
    obtain ⟨old, held, same⟩ : ∃ old ∈ shelf.nodes, old.id = node.id := by simpa using known
    simp only [List.mem_map]
    constructor
    · intro given
      obtain ⟨before, member, rfl⟩ := given
      split
      next => exact Or.inl rfl
      next different => exact Or.inr ⟨member, different⟩
    · intro given
      rcases given with rfl | ⟨member, different⟩
      · exact ⟨old, held, if_pos same⟩
      · exact ⟨other, member, if_neg different⟩
  next unknown =>
    have fresh : ∀ old ∈ shelf.nodes, old.id ≠ node.id := by simpa using unknown
    simp only [List.mem_append, List.mem_singleton]
    constructor
    · exact fun given => given.symm.imp_right fun member => ⟨member, fresh other member⟩
    · exact fun given => given.symm.imp_left And.left

theorem withId?_put (shelf : Shelf) (node : Node) (id : Text) :
    (shelf.put node).withId? id = if node.id = id then some node else shelf.withId? id := by
  ext found
  rw [withId?_eq_some, mem_put]
  split
  next own =>
    subst own
    rw [Option.some.injEq]
    constructor
    · intro given
      obtain ⟨rfl | ⟨_, different⟩, same⟩ := given
      · rfl
      · exact absurd same different
    · rintro rfl
      exact ⟨Or.inl rfl, rfl⟩
  next different =>
    rw [withId?_eq_some]
    constructor
    · intro given
      obtain ⟨rfl | ⟨member, _⟩, same⟩ := given
      · exact absurd same different
      · exact ⟨member, same⟩
    · intro given
      obtain ⟨member, rfl⟩ := given
      exact ⟨Or.inr ⟨member, fun same => different same.symm⟩, rfl⟩

theorem ofNodes_concat (nodes : List Node) (node : Node) : ofNodes (nodes ++ [node]) = (ofNodes nodes).put node := by
  simp only [ofNodes, List.foldl_append, List.foldl_cons, List.foldl_nil]

/-- A shelf, like an archive, holds under each id the last node that was put there. -/
theorem withId?_ofNodes (nodes : List Node) (id : Text) : (ofNodes nodes).withId? id = Archive.lastWithId? nodes id := by
  induction nodes using List.reverseRecOn with
  | nil => rfl
  | append_singleton nodes node ih => rw [ofNodes_concat, withId?_put, Archive.lastWithId?_concat, ih]

theorem mem_of_mem_ofNodes {nodes : List Node} {node : Node} (member : node ∈ (ofNodes nodes).nodes) : node ∈ nodes := by
  have held := withId?_eq_some.mpr ⟨member, rfl⟩
  rw [withId?_ofNodes] at held
  exact (Archive.of_lastWithId?_eq_some held).1

end Graph.Shelf

namespace Archive
open Bindery.Graph

theorem written_of_committed {sessions : List Session} (committed : ∀ session ∈ sessions, session.commits = true)
    (accepted : ∀ session ∈ sessions, ∀ node ∈ session.nodes, node.refusal? = none) :
    written sessions = sessions.flatMap Session.nodes := by
  refine List.flatMap_congr fun session member => ?_
  exact if_pos ⟨committed session member, List.findSome?_eq_none_iff.mpr (accepted session member)⟩

/-- An archive holds what is on a shelf, and can give it back. -/
structure Mirrors (archive : Archive) (indexKinds : List Int) (shelf : Shelf) : Prop where
  rows : ∀ row, row ∈ archive.rows ↔ ∃ node ∈ shelf.nodes, node.row? = some row
  archivable : ∀ node ∈ shelf.nodes, node.IsArchivable indexKinds

theorem Holds.mirrors {archive : Archive} {nodes : List Node} (holds : archive.Holds nodes) {indexKinds : List Int}
    (archivable : ∀ node ∈ nodes, node.IsArchivable indexKinds) :
    archive.Mirrors indexKinds (Shelf.ofNodes nodes) where
  rows row := by
    rw [holds.mem_rows, ← Shelf.withId?_ofNodes]
    constructor
    · intro given
      obtain ⟨node, held, own⟩ := given
      exact ⟨node, (Shelf.withId?_eq_some.mp held).1, own⟩
    · intro given
      obtain ⟨node, member, own⟩ := given
      have sameId : node.id = row.id := by
        obtain ⟨number, _, rfl⟩ := Option.map_eq_some_iff.mp own
        rfl
      exact ⟨node, Shelf.withId?_eq_some.mpr ⟨member, sameId⟩, own⟩
  archivable node member := archivable node (Shelf.mem_of_mem_ofNodes member)

/-! ### Answers of an archive -/

section
variable {archive : Archive} {indexKinds : List Int} {shelf : Shelf} {asked : List Selector} {nodes : List Node}

theorem exists_rows_of_answer {selector : Selector}
    (answered : (archive.toStore indexKinds).answer asked selector = some nodes) :
    ∃ rows, archive.rowsFor selector = .ok rows ∧ nodes = rows.map (Row.toNode indexKinds) := by
  change (archive.select indexKinds selector).toOption = some nodes at answered
  cases found : archive.rowsFor selector with
  | error error => rw [select, found] at answered; cases answered
  | ok rows =>
    rw [select, found] at answered
    cases answered
    exact ⟨rows, rfl, rfl⟩

theorem answer_withIds (archive : Archive) (indexKinds : List Int) (asked : List Selector) (ids : List Text) :
    (archive.toStore indexKinds).answer asked (.withIds ids) =
      some ((archive.rows.filter fun row => ids.contains row.id).map (Row.toNode indexKinds)) := rfl

variable (mirrors : archive.Mirrors indexKinds shelf)
include mirrors

theorem Mirrors.mem_map_toNode {rows : List Row} (held : ∀ row ∈ rows, row ∈ archive.rows) {node : Node} :
    node ∈ rows.map (Row.toNode indexKinds) ↔ node ∈ shelf.nodes ∧ ∃ row ∈ rows, node.row? = some row := by
  rw [List.mem_map]
  constructor
  · intro given
    obtain ⟨row, member, rfl⟩ := given
    obtain ⟨node, present, own⟩ := (mirrors.rows row).mp (held row member)
    rw [(mirrors.archivable node present).toNode_eq own]
    exact ⟨present, row, member, own⟩
  · intro given
    obtain ⟨present, row, member, own⟩ := given
    exact ⟨row, member, (mirrors.archivable node present).toNode_eq own⟩

theorem Mirrors.mem_of_mem_answer {selector : Selector}
    (answered : (archive.toStore indexKinds).answer asked selector = some nodes) {node : Node} (member : node ∈ nodes) :
    node ∈ shelf.nodes := by
  obtain ⟨rows, found, rfl⟩ := exists_rows_of_answer answered
  exact ((mirrors.mem_map_toNode (mem_of_mem_rowsFor found)).mp member).1

theorem Mirrors.exists_row {node : Node} (present : node ∈ shelf.nodes) :
    ∃ row ∈ archive.rows, node.row? = some row ∧ row.id = node.id := by
  obtain ⟨number, numbered, _⟩ := (mirrors.archivable node present).numbered
  have own : node.row? = some (Row.ofNode number node) := by rw [Node.row?, numbered]; rfl
  exact ⟨_, (mirrors.rows _).mpr ⟨node, present, own⟩, own, rfl⟩

/-- Of the nodes with a coordinate, just those are answered with that are asked for, every revision among them. -/
theorem Mirrors.mem_answer_at {coordinates : List Coordinate}
    (answered : (archive.toStore indexKinds).answer asked (.atCoordinates coordinates) = some nodes) {node : Node}
    {coordinate : Coordinate} (there : node.coordinate = some coordinate) :
    node ∈ nodes ↔ node ∈ shelf.nodes ∧ coordinate ∈ coordinates := by
  obtain ⟨rows, found, rfl⟩ := exists_rows_of_answer answered
  rw [mirrors.mem_map_toNode (mem_of_mem_rowsFor found)]
  refine and_congr_right fun present => ?_
  cases parts : coordinates.mapM archive.rowsAt with
  | error error => rw [rowsFor, parts] at found; cases found
  | ok found' =>
    rw [rowsFor, parts] at found
    cases found
    obtain rfl := mapM_rowsAt_eq_ok parts
    simp only [List.mem_flatten, List.mem_map, exists_exists_and_eq_and, List.mem_filter]
    constructor
    · intro given
      obtain ⟨row, ⟨other, asks, _, isAt⟩, own⟩ := given
      rwa [(Row.isAt_iff own there).mp isAt]
    · intro asks
      obtain ⟨row, held, own, _⟩ := mirrors.exists_row present
      exact ⟨row, ⟨coordinate, asks, held, (Row.isAt_iff own there).mpr rfl⟩, own⟩

/-- An archive fails only on kind numbers that it cannot have kept. -/
theorem Mirrors.exists_answer_at {node : Node} (present : node ∈ shelf.nodes) {coordinate : Coordinate}
    (there : node.coordinate = some coordinate) :
    ∃ nodes, (archive.toStore indexKinds).answer asked (.atCoordinates [coordinate]) = some nodes := by
  obtain ⟨number, numbered, storable, _⟩ := (mirrors.archivable node present).numbered
  obtain rfl := Option.some.inj ((Node.of_coordinate_eq_some there).1.symm.trans numbered)
  change ∃ nodes, (archive.select indexKinds (.atCoordinates [coordinate])).toOption = some nodes
  rw [select, rowsFor, List.mapM_cons, rowsAt, if_pos storable]
  exact ⟨_, rfl⟩

theorem Mirrors.at?_eq_none_of_failed {coordinate : Coordinate}
    (failed : (archive.toStore indexKinds).answer asked (.atCoordinates [coordinate]) = none) : shelf.at? coordinate = none := by
  apply nodeAt?_newestByCoordinate_eq_none.mpr
  intro node member there
  obtain ⟨nodes, answered⟩ := mirrors.exists_answer_at member there
  cases failed.symm.trans answered

end

end Archive

/-! ### Finding in an archive what is on a shelf -/

namespace Graph

theorem isNewest_of_agesApart {nodes : List Node} (distinct : nodes.Nodup) (apart : AgesApart nodes)
    {coordinate : Coordinate} {node : Node} (newest : IsLatest nodes coordinate node) : IsNewest nodes coordinate node := by
  obtain ⟨member, there, latest⟩ := newest
  obtain ⟨before, after, rfl⟩ := List.append_of_mem member
  refine ⟨there, before, after, rfl, fun other early same => ?_, fun other late => ?_⟩
  · have present : other ∈ before ++ node :: after := List.mem_append_left _ early
    have different : other ≠ node := (List.nodup_append.mp distinct).2.2 other early node List.mem_cons_self
    exact lt_of_le_of_ne (latest other present same)
      fun age => different (apart other present node member (by simp [same]) (same.trans there.symm) age)
  · exact latest other (List.mem_append_right _ (List.mem_cons_of_mem _ late))

/-- Where ages are apart, it does not matter in what order, how often, or among which others the nodes at a
coordinate are answered with. -/
theorem Shelf.at?_of_agesApart {shelf : Shelf} (apart : AgesApart shelf.nodes) {nodes : List Node}
    {coordinate : Coordinate}
    (same : ∀ node, node.coordinate = some coordinate → (node ∈ nodes ↔ node ∈ shelf.nodes)) :
    nodeAt? (newestByCoordinate nodes) coordinate = shelf.at? coordinate := by
  cases found : nodeAt? (newestByCoordinate nodes) coordinate with
  | none =>
    have absent := nodeAt?_newestByCoordinate_eq_none.mp found
    refine (nodeAt?_newestByCoordinate_eq_none.mpr fun node member there => ?_).symm
    exact absent node ((same node there).mpr member) there
  | some node =>
    have latest := (isLatest_congr same).mp (nodeAt?_newestByCoordinate_eq_some.mp found).isLatest
    exact (Shelf.at?_eq_some.mpr (isNewest_of_agesApart (.of_map _ shelf.distinct) apart latest)).symm

namespace Resolver

section
variable {archive : Archive} {indexKinds : List Int} {shelf : Shelf} (mirrors : archive.Mirrors indexKinds shelf)
include mirrors

theorem archive_finds_at (apart : AgesApart shelf.nodes) :
    Search.byCoordinate.Finds (archive.toStore indexKinds) fun coordinate found => found = shelf.at? coordinate where
  batch asked coordinates coordinate node found := by
    cases answered : (archive.toStore indexKinds).answer asked (.atCoordinates coordinates) with
    | none => simp [Search.byCoordinate, answered, newestByCoordinate] at found
    | some nodes =>
      simp only [Search.byCoordinate, answered, Option.getD_some] at found
      obtain ⟨member, there⟩ := of_nodeAt?_newestByCoordinate found
      have asks := ((mirrors.mem_answer_at answered there).mp member).2
      rw [← found]
      refine Shelf.at?_of_agesApart apart fun other same => ?_
      rw [mirrors.mem_answer_at answered same]
      exact and_iff_left asks
  alone asked coordinate := by
    cases answered : (archive.toStore indexKinds).answer asked (.atCoordinates [coordinate]) with
    | none =>
      -- The kind number is too large to be kept, so that nothing on the shelf has it either.
      simp only [Search.byCoordinate, answered, Option.getD_none]
      exact (mirrors.at?_eq_none_of_failed answered).symm
    | some nodes =>
      simp only [Search.byCoordinate, answered, Option.getD_some]
      refine Shelf.at?_of_agesApart apart fun other same => ?_
      rw [mirrors.mem_answer_at answered same]
      exact and_iff_left (List.mem_singleton_self coordinate)

theorem archive_finds_withId :
    Search.byId.Finds (archive.toStore indexKinds) fun id found => found = shelf.withId? id where
  batch asked ids id node found :=
    (withId?_of_inside (fun other member => mirrors.mem_of_mem_answer (archive.answer_withIds _ asked ids) member) found).symm
  alone asked id := by
    refine nodeWithId?_eq_withId?
      (fun node member => mirrors.mem_of_mem_answer (archive.answer_withIds _ asked [id]) member) fun node held => ?_
    obtain ⟨present, rfl⟩ := Shelf.withId?_eq_some.mp held
    obtain ⟨row, kept, own, sameId⟩ := mirrors.exists_row present
    refine (mirrors.mem_map_toNode fun other member => (List.mem_filter.mp member).1).mpr ⟨present, row, ?_, own⟩
    exact List.mem_filter.mpr ⟨kept, by simp [sameId]⟩

theorem archive_reveals (apart : AgesApart shelf.nodes) : (archive.toStore indexKinds).Reveals shelf :=
  ⟨archive_finds_at mirrors apart, archive_finds_withId mirrors⟩

end

/-- Where nodes are put into an archive and committed, in as many sessions as it may be, resolving over the archive
ends in the same graph as resolving over a shelf of those nodes. Of nodes with one id the last counts in both. -/
theorem archive_resolves_like_shelf (nodes : List Node) (sessions : List Archive.Session)
    (committed : ∀ session ∈ sessions, session.commits = true) (put : sessions.flatMap Archive.Session.nodes = nodes)
    (keptKinds : List Int) (archivable : ∀ node ∈ nodes, node.IsArchivable keptKinds) (apart : AgesApart nodes)
    (indexKinds leafKinds : List Int) (workers others : Workers) (root : Node) (visited : List Text)
    (legible : ∀ node, Reaches (indexKinds ++ leafKinds) (Shelf.ofNodes nodes) visited root node → node.IsLegible) :
    ∃ graph,
      (run ⟨(Archive.after sessions).toStore keptKinds, indexKinds, leafKinds⟩ root visited workers).1 = .ok graph ∧
      (run ⟨(Shelf.ofNodes nodes).toStore, indexKinds, leafKinds⟩ root visited others).1 = .ok graph := by
  have written : Archive.written sessions = nodes := by
    rw [← put]
    refine Archive.written_of_committed committed fun session member node inside => ?_
    exact (archivable node (put ▸ List.mem_flatMap.mpr ⟨session, member, inside⟩)).refusal?_eq_none
  have mirrors : (Archive.after sessions).Mirrors keptKinds (Shelf.ofNodes nodes) := by
    have holds := Archive.holds_after sessions
    rw [written] at holds
    exact holds.mirrors archivable
  have reveals := archive_reveals mirrors (apart.of_subset fun _ member => Shelf.mem_of_mem_ofNodes member)
  obtain ⟨graph, resolved, same, follows⟩ := exists_run_of_reveals reveals workers legible
  obtain ⟨other, resolvedShelf, sameShelf, followsShelf⟩ :=
    exists_run_of_reveals (Shelf.ofNodes nodes).toStore_fallsShortOf.reveals others legible
  obtain rfl : graph = other := follows.eq followsShelf (same.trans sameShelf.symm)
  exact ⟨graph, resolved, resolvedShelf⟩

/-- The archive holds both revisions of a chapter and answers with both where its coordinate is asked for. -/
theorem work_resolved_over_archive :
    (Archive.after [⟨[work, chapter], true⟩, ⟨[part, revisedChapter], true⟩]).rows.length = 4 ∧
    ∃ graph,
      (run ⟨(Archive.after [⟨[work, chapter], true⟩, ⟨[part, revisedChapter], true⟩]).toStore [30040], [30040], [30041]⟩
        work []).1 = .ok graph ∧
      (run ⟨(Shelf.ofNodes shelfOfWork).toStore, [30040], [30041]⟩ work []).1 = .ok graph :=
  ⟨by decide, archive_resolves_like_shelf shelfOfWork [⟨[work, chapter], true⟩, ⟨[part, revisedChapter], true⟩]
    (by decide) (by decide) [30040] (by decide) (by decide) [30040] [30041] .one .one work []
    fun _ => isLegible_of_reaches_work⟩

end Resolver
end Graph
end Bindery
