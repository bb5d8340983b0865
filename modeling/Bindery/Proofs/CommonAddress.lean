import Bindery.Proofs.ArchivedNodes
import Bindery.Proofs.PartialAnswers

/-! An address means the same node everywhere. The root of a work is looked up among rows, by the name they were kept
with, and is the one row that is newest there. An edge is followed by asking for all revisions and keeping the newest
by what their tags say. Both come to one node, wherever in a graph the address stands. -/

namespace Bindery

namespace Graph

/-- A node that is newer than any other at its coordinate. -/
structure IsNewerThanOthers (nodes : List Node) (coordinate : Coordinate) (node : Node) : Prop where
  stored : node ∈ nodes
  there : node.coordinate = some coordinate
  newer : ∀ other ∈ nodes, other.id ≠ node.id → other.coordinate = some coordinate → other.createdAt < node.createdAt

theorem IsNewerThanOthers.at?_eq_some {shelf : Shelf} {coordinate : Coordinate} {node : Node}
    (newest : IsNewerThanOthers shelf.nodes coordinate node) : shelf.at? coordinate = some node := by
  have distinct := shelf.distinct
  obtain ⟨stored, there, newer⟩ := newest
  refine Shelf.at?_eq_some.mpr ⟨there, ?_⟩
  obtain ⟨before, after, split⟩ := List.append_of_mem stored
  rw [split] at distinct newer
  simp only [List.map_append, List.map_cons, List.nodup_append, List.nodup_cons, List.mem_cons, List.mem_map] at distinct
  obtain ⟨_, ⟨apart, _⟩, disjoint⟩ := distinct
  refine ⟨before, after, split, fun other early => ?_, fun other late same => ?_⟩
  · exact newer other (by simp [early]) (disjoint _ ⟨other, early, rfl⟩ _ (Or.inl rfl))
  · exact Int.le_of_lt (newer other (by simp [late]) (fun own => apart ⟨other, late, own⟩) same)

namespace Resolver

theorem Search.Finds.imp {κ : Type} {search : Search κ} {store : Store} {fits also : κ → Option Node → Prop}
    (finds : search.Finds store fits) (implied : ∀ key held, fits key held → also key held) : search.Finds store also where
  batch asked keys key node found := implied key _ (finds.batch asked keys key node found)
  alone asked key := implied key _ (finds.alone asked key)

/-- What is held for a coordinate has it, and for one coordinate it is one certain node. -/
structure HoldsAt (coordinate : Coordinate) (node : Node) (asked : Coordinate) (held : Option Node) : Prop where
  here : asked = coordinate → held = some node
  there : ∀ other, held = some other → other.coordinate = some asked

/-- What is held for an id has it. -/
def HoldsOwn (id : Text) (held : Option Node) : Prop :=
  ∀ other, held = some other → other.id = id

section
variable {store : Store} {shelf : Shelf} {indexKinds leafKinds : List Int} {coordinate : Coordinate} {node : Node}

theorem steps_holdsAt (reveals : store.Reveals shelf) (newest : shelf.at? coordinate = some node) (workers : Workers) :
    Steps ⟨store, indexKinds, leafKinds⟩ workers
      (ListsFound ⟨store, indexKinds, leafKinds⟩ (fun _ => HoldsAt coordinate node) HoldsOwn)
      fun root => ¬ root.IsLegible := by
  intro visited root
  have coordinates : Search.byCoordinate.Finds store (HoldsAt coordinate node) := by
    refine reveals.coordinates.imp fun asked held same => ⟨?_, fun other found => ?_⟩
    · rintro rfl
      exact same.trans newest
    · exact (of_nodeAt?_newestByCoordinate (same.symm.trans found)).2
  have ids : Search.byId.Finds store HoldsOwn :=
    reveals.ids.imp fun id held same other found => (Shelf.withId?_eq_some.mp (same.symm.trans found)).2
  refine (ends_linked coordinates ids _ workers _ root).imp ?_ id
  intro nodes given
  obtain ⟨found, fits, rfl⟩ := given
  exact ⟨found, fits, rfl⟩

/-- A tag with the address of a node leads to it. -/
theorem leadsTo_of_tag {kinds : List Int} {root : Node} (newest : shelf.at? coordinate = some node)
    (tagged : ⟨"a", coordinate.toText⟩ ∈ root.tags) (readable : Coordinate.parse coordinate.toText = .ok (some coordinate))
    (supported : coordinate.kind ∈ kinds) (other : root.coordinate ≠ some coordinate) : LeadsTo kinds shelf root node := by
  have isNewest := Shelf.at?_eq_some.mp newest
  obtain ⟨position, here⟩ := List.mem_iff_getElem?.mp tagged
  exact ⟨isNewest.mem, Or.inl ⟨position, _, coordinate, here, rfl, readable, other, supported, isNewest⟩⟩

/-- Of nodes at one coordinate that are listed, all but one are listed by their ids. -/
theorem ListsFound.eq_or_tag {resolver : Resolver} {visited : List Text} {root other : Node} {listed : List Node}
    (lists : resolver.ListsFound (fun _ => HoldsAt coordinate node) HoldsOwn visited root listed)
    (member : other ∈ listed) (there : other.coordinate = some coordinate) : other = node ∨ ⟨"e", other.id⟩ ∈ root.tags := by
  rcases lists.exists_fits member with ⟨asked, _, holds⟩ | ⟨id, declares, own⟩
  · have same : asked = coordinate := Option.some.inj ((holds.there other rfl).symm.trans there)
    exact Or.inl (Option.some.inj (holds.here same))
  · obtain ⟨_, tag, tagged, key, value⟩ := declares
    refine Or.inr ?_
    rw [own other rfl, ← value, ← key]
    exact tagged

end

/-- Whatever sessions led to an archive: where a node is newer than all others at its coordinate, its address leads to
it. It is found as the root of a work, and it is resolved right below any other root that has the address in a tag.
Nowhere in the graph does a tag with that address lead to another node; one at the same coordinate that stands beside it
does so by its id. -/
theorem address_leads_to_newest (sessions : List Archive.Session) (keptKinds : List Int) (coordinate : Coordinate)
    (node : Node) (newest : IsNewerThanOthers ((Archive.after sessions).nodes keptKinds) coordinate node)
    (readable : Coordinate.parse coordinate.toText = .ok (some coordinate)) :
    (Archive.after sessions).root? keptKinds coordinate.toText = .ok (some node) ∧
    ∀ (indexKinds leafKinds : List Int) (workers : Workers) (root : Node),
      root.id ≠ node.id → ⟨"a", coordinate.toText⟩ ∈ root.tags → coordinate.kind ∈ indexKinds ++ leafKinds →
      root.coordinate ≠ some coordinate →
      (∀ other, Reaches (indexKinds ++ leafKinds) ((Archive.isSound_after sessions).shelf keptKinds) [] root other →
        other.IsLegible) →
      ∃ graph,
        (run ⟨(Archive.after sessions).toStore keptKinds, indexKinds, leafKinds⟩ root [] workers).1 = .ok graph ∧
        graph.root = root ∧
        (∃ entry ∈ graph.entries, entry.node = node ∧
          IsResolvedBelow ⟨(Archive.after sessions).toStore keptKinds, indexKinds, leafKinds⟩ workers [root.id] entry) ∧
        graph.Grows (ListsFound ⟨(Archive.after sessions).toStore keptKinds, indexKinds, leafKinds⟩
          (fun _ => HoldsAt coordinate node) HoldsOwn) [] ∧
        ∀ entry ∈ graph.entries, entry.node.coordinate = some coordinate →
          entry.node = node ∨ ⟨"e", entry.node.id⟩ ∈ root.tags := by
  have sound := Archive.isSound_after sessions
  have found : (sound.shelf keptKinds).at? coordinate = some node := newest.at?_eq_some
  obtain ⟨row, held, rfl⟩ := Archive.mem_nodes.mp newest.stored
  have rowSound := sound.rows row held
  obtain ⟨isAt, named⟩ := (rowSound.coordinate_toNode keptKinds).mp newest.there
  refine ⟨?_, fun indexKinds leafKinds workers root apart tagged supported other legible => ?_⟩
  · have storable : isStorable coordinate.kind = true := by
      have kinds := rowSound.storable
      simp only [Row.isStorable, Bool.and_eq_true] at kinds
      simp only [Row.isAt, Bool.and_eq_true, decide_eq_true_eq] at isAt
      exact isAt.1.1 ▸ kinds.1
    rw [Archive.root?, readable]
    show (((Archive.after sessions).at? keptKinds coordinate).mapError QueryError.storing >>= fun found =>
      pure (found.or _)) = _
    rw [sound.at?_eq_ok storable named, found]
    rfl
  · have reveals : ((Archive.after sessions).toStore keptKinds).Reveals (sound.shelf keptKinds) := sound.reveals
    obtain ⟨graph, resolved, same, follows⟩ := exists_run_of_reveals reveals workers legible
    have unseen : root.id ∉ ([] : List Text) := List.not_mem_nil
    have grown := (grows_of_run (steps_holdsAt reveals found workers) resolved).2
    subst same
    obtain ⟨listed, below⟩ := follows.2 unseen
    have leads := leadsTo_of_tag found tagged readable supported other
    obtain ⟨entry, member, own⟩ := List.mem_map.mp ((listed.complete _).mpr ⟨by simpa using Ne.symm apart, leads⟩)
    refine ⟨graph, resolved, rfl, ⟨entry, member, own, ?_⟩, grown, fun entry member there => ?_⟩
    · have fresh : entry.node.id ∉ graph.root.id :: [] := by simpa [own] using Ne.symm apart
      exact isResolvedBelow_of_reveals reveals workers unseen legible fresh (own ▸ leads) (below.of_mem member)
    · exact (grown.2 unseen).1.eq_or_tag (List.mem_map_of_mem member) there

/-! ### Revisions of a chapter -/

def chapterAddress : Coordinate := ⟨30041, "alice", "chapter"⟩

/-- Names a chapter by its address, and one revision by its id. -/
def reader : Node :=
  { part with id := "reader-1", tags := [⟨"d", "reader"⟩, ⟨"a", "30041:alice:chapter"⟩, ⟨"e", "chapter-1"⟩] }

/-- The newer revision is kept first, and a third does not stay. -/
def chapterSessions : List Archive.Session :=
  [⟨[revisedChapter, chapter], true⟩, ⟨[{ revisedChapter with id := "chapter-3", createdAt := 3 }], false⟩]

theorem chapter_address_leads_to_revision :
    IsNewerThanOthers ((Archive.after chapterSessions).nodes [30040]) chapterAddress revisedChapter ∧
      Coordinate.parse chapterAddress.toText = .ok (some chapterAddress) ∧
      (Archive.after chapterSessions).root? [30040] chapterAddress.toText = .ok (some revisedChapter) ∧
      (run ⟨(Archive.after chapterSessions).toStore [30040], [30040], [30041]⟩ reader []).1 =
        .ok ⟨reader, [.leaf revisedChapter, .leaf chapter]⟩ ∧
      ∀ entry ∈ [Entry.leaf revisedChapter, Entry.leaf chapter], entry.node.coordinate = some chapterAddress →
        entry.node = revisedChapter ∨ ⟨"e", entry.node.id⟩ ∈ reader.tags := by
  have newest : IsNewerThanOthers ((Archive.after chapterSessions).nodes [30040]) chapterAddress revisedChapter :=
    ⟨by decide, by decide, by decide⟩
  have readable : Coordinate.parse chapterAddress.toText = .ok (some chapterAddress) := rfl
  obtain ⟨root, graphs⟩ := address_leads_to_newest chapterSessions [30040] chapterAddress revisedChapter newest readable
  obtain ⟨graph, resolved, _, _, _, others⟩ := graphs [30040] [30041] .one reader (by decide) (by decide) (by decide)
    (by decide) fun _ reaches => reaches.isLegible (by decide) (by decide)
  have whole : (run ⟨(Archive.after chapterSessions).toStore [30040], [30040], [30041]⟩ reader []).1 =
      .ok ⟨reader, [.leaf revisedChapter, .leaf chapter]⟩ := by cbv
  obtain rfl := Except.ok.inj (resolved.symm.trans whole)
  exact ⟨newest, readable, root, whole, others⟩

end Resolver
end Graph
end Bindery
