import Bindery.Proofs.DeclaredNodes
import Bindery.Proofs.ArchivedGraphs

/-! Stores that answer in part. Asked for one thing, such a store answers with all its nodes for it, old revisions among
them. Asked for several at once, it may leave any out. A coordinate is asked for once more only where the answer held no
node there: so the latest revision comes into a graph, unless it was left out of an answer that held an older one. -/

namespace Bindery.Graph

namespace Selector

/-- How many things are asked for. -/
def size : Selector → Nat
  | .atCoordinates coordinates => coordinates.length
  | .withIds ids => ids.length

/-- Whether a node is among what is asked for. -/
def asksFor : Selector → Node → Bool
  | .atCoordinates coordinates, node => coordinates.any (node.coordinate = some ·)
  | .withIds ids, node => ids.contains node.id

theorem asksFor_atCoordinates {coordinates : List Coordinate} {node : Node} {coordinate : Coordinate}
    (there : node.coordinate = some coordinate) :
    asksFor (.atCoordinates coordinates) node = true ↔ coordinate ∈ coordinates := by
  simp [asksFor, there]

theorem asksFor_withIds {ids : List Text} {node : Node} : asksFor (.withIds ids) node = true ↔ node.id ∈ ids := by
  simp [asksFor]

end Selector

/-- Asked for one thing, a store answers with all nodes that are asked for; asked for several, with any of these. It
need not answer alike twice. -/
structure Store.AnswersInPart (store : Store) (nodes : List Node) : Prop where
  one : ∀ asked selector, selector.size = 1 → ∃ answer, store.answer asked selector = some answer ∧
    ∀ node, node ∈ answer ↔ node ∈ nodes ∧ selector.asksFor node = true
  several : ∀ asked selector, 1 < selector.size → ∃ answer, store.answer asked selector = some answer ∧
    ∀ node ∈ answer, node ∈ nodes ∧ selector.asksFor node = true

/-- Whatever is asked for, only nodes that are asked for come back. -/
theorem Store.AnswersInPart.of_mem {store : Store} {nodes : List Node} (inPart : store.AnswersInPart nodes)
    {asked : List Selector} (selector : Selector) (present : 0 < selector.size) {node : Node}
    (member : node ∈ (store.answer asked selector).getD []) : node ∈ nodes ∧ selector.asksFor node = true := by
  rcases (show selector.size = 1 ∨ 1 < selector.size by omega) with one | several
  · obtain ⟨answer, answered, same⟩ := inPart.one asked selector one
    rw [answered, Option.getD_some] at member
    exact (same node).mp member
  · obtain ⟨answer, answered, within⟩ := inPart.several asked selector several
    rw [answered, Option.getD_some] at member
    exact within node member

/-- What is held for a coordinate is the latest node there; nothing is held only where there is none. -/
def HoldsLatest (nodes : List Node) (coordinate : Coordinate) : Option Node → Prop
  | some node => IsLatest nodes coordinate node
  | none => ∀ node ∈ nodes, node.coordinate ≠ some coordinate

/-- Nothing but the latest node at a coordinate is held for it. -/
def HoldsOnlyLatest (nodes : List Node) (coordinate : Coordinate) (held : Option Node) : Prop :=
  ∀ node, held = some node → IsLatest nodes coordinate node

/-- What is held for an id is a node with that id; nothing is held only where there is none. -/
def HoldsNamed (nodes : List Node) (id : Text) : Option Node → Prop
  | some node => node ∈ nodes ∧ node.id = id
  | none => ∀ node ∈ nodes, node.id ≠ id

/-- A question for several coordinates was answered with nodes at one of them, this one the latest, but without the
latest that there is, which is newer. -/
structure HeldBack (store : Store) (nodes : List Node) (batch : List Coordinate) (coordinate : Coordinate)
    (node : Node) : Prop where
  stored : node ∈ nodes
  several : 1 < batch.length
  answered : ∃ asked answer latest, store.answer asked (.atCoordinates batch) = some answer ∧
    IsLatest answer coordinate node ∧ IsLatest nodes coordinate latest ∧ latest ∉ answer ∧ node.createdAt < latest.createdAt

variable {nodes answer : List Node} {coordinate : Coordinate} {node : Node}

/-- The newest of an answer that has all nodes at a coordinate is the latest there. -/
theorem holdsLatest_of_same (same : ∀ node, node.coordinate = some coordinate → (node ∈ answer ↔ node ∈ nodes)) :
    HoldsLatest nodes coordinate (nodeAt? (newestByCoordinate answer) coordinate) := by
  cases found : nodeAt? (newestByCoordinate answer) coordinate with
  | none =>
    have absent := nodeAt?_newestByCoordinate_eq_none.mp found
    exact fun node member there => absent node ((same node there).mpr member) there
  | some node =>
    exact (isLatest_congr same).mp (nodeAt?_newestByCoordinate_eq_some.mp found).isLatest

/-- The latest of a part is the latest of all, unless the part lacks a newer one. -/
theorem IsLatest.of_part (latest : IsLatest answer coordinate node) (stored : node ∈ nodes) :
    IsLatest nodes coordinate node ∨
      ∃ other, IsLatest nodes coordinate other ∧ other ∉ answer ∧ node.createdAt < other.createdAt := by
  cases found : nodeAt? (newestByCoordinate nodes) coordinate with
  | none => exact absurd latest.there (nodeAt?_newestByCoordinate_eq_none.mp found node stored)
  | some other =>
    have newest := (nodeAt?_newestByCoordinate_eq_some.mp found).isLatest
    rcases lt_or_ge node.createdAt other.createdAt with newer | notNewer
    · have absent : other ∉ answer := by
        intro present
        exact absurd (latest.latest other present newest.there) (Int.not_le.mpr newer)
      exact Or.inr ⟨other, newest, absent, newer⟩
    · refine Or.inl ⟨stored, latest.there, fun third member there => ?_⟩
      exact Int.le_trans (newest.latest third member there) notNewer

namespace Resolver
variable {resolver : Resolver}

/-- The questions that the coordinates of a parent give rise to: one for all coordinates of a kind. -/
def batchesOf (resolver : Resolver) (parent : Node) : List (List Coordinate) :=
  batches ((resolver.edgesOf [] parent).coordinates.map Edge.target)

theorem ne_nil_of_mem_batches {coordinates batch : List Coordinate} (member : batch ∈ batches coordinates) :
    batch ≠ [] := by
  obtain ⟨kind, listed, rfl⟩ := List.mem_map.mp member
  obtain ⟨coordinate, inside, same⟩ := List.mem_map.mp (List.mem_eraseDups.mp listed)
  have present : coordinate ∈ (coordinates.filter (·.kind = kind)).eraseDups :=
    List.mem_eraseDups.mpr (List.mem_filter.mpr ⟨inside, decide_eq_true same⟩)
  exact List.ne_nil_of_mem present

/-- What is held for a coordinate of a parent is the latest node there, or the latest of an answer that held that one
back. -/
def HoldsLatestAnswered (resolver : Resolver) (nodes : List Node) (parent : Node) (coordinate : Coordinate)
    (held : Option Node) : Prop :=
  HoldsLatest nodes coordinate held ∨
    ∃ node, held = some node ∧ ∃ batch ∈ resolver.batchesOf parent, HeldBack resolver.store nodes batch coordinate node

theorem HoldsLatestAnswered.stored {parent : Node}
    (holds : resolver.HoldsLatestAnswered nodes parent coordinate (some node)) : node ∈ nodes := by
  rcases holds with latest | ⟨other, same, _, _, heldBack⟩
  · exact latest.stored
  · obtain rfl := Option.some.inj same
    exact heldBack.stored

section
variable (inPart : resolver.store.AnswersInPart nodes)
include inPart

/-- A question for one coordinate is answered with the latest node there. -/
theorem holdsLatest_of_one (asked : List Selector) {batch : List Coordinate} (one : batch.length = 1)
    (member : coordinate ∈ batch) :
    HoldsLatest nodes coordinate (nodeAt? (newestByCoordinate
      ((resolver.store.answer asked (.atCoordinates batch)).getD [])) coordinate) := by
  obtain ⟨answer, answered, same⟩ := inPart.one asked (.atCoordinates batch) one
  rw [answered]
  refine holdsLatest_of_same fun node there => ?_
  rw [Option.getD_some, same, Selector.asksFor_atCoordinates there]
  exact and_iff_left member

theorem findsAmong_batch {parent : Node} {batch : List Coordinate} (member : batch ∈ resolver.batchesOf parent) :
    Search.byCoordinate.FindsAmong resolver.store (resolver.HoldsLatestAnswered nodes parent) batch where
  batch asked coordinate node found := by
    change nodeAt? (newestByCoordinate ((resolver.store.answer asked (.atCoordinates batch)).getD [])) coordinate =
      some node at found
    have newest := nodeAt?_newestByCoordinate_eq_some.mp found
    have positive : 0 < batch.length := List.length_pos_iff.mpr (ne_nil_of_mem_batches member)
    obtain ⟨stored, asks⟩ := inPart.of_mem (.atCoordinates batch) positive newest.mem
    by_cases several : 1 < batch.length
    · obtain ⟨answer, answered, _⟩ := inPart.several asked (.atCoordinates batch) several
      rw [answered, Option.getD_some] at newest
      rcases newest.isLatest.of_part stored with latest | ⟨latest, holds, absent, newer⟩
      · exact Or.inl latest
      · refine Or.inr ⟨node, rfl, batch, member, stored, several, ?_⟩
        exact ⟨asked, answer, latest, answered, newest.isLatest, holds, absent, newer⟩
    · have one : batch.length = 1 := by omega
      have holds := holdsLatest_of_one inPart asked one ((Selector.asksFor_atCoordinates newest.1).mp asks)
      rw [found] at holds
      exact Or.inl holds
  alone asked coordinate _ := Or.inl (holdsLatest_of_one inPart asked rfl (List.mem_singleton_self coordinate))

theorem findsAmong_ids {ids : List Text} (present : ids ≠ []) :
    Search.byId.FindsAmong resolver.store (HoldsNamed nodes) ids where
  batch asked id node found := by
    obtain ⟨member, own⟩ := of_nodeWithId? found
    have positive : 0 < ids.length := List.length_pos_iff.mpr present
    exact ⟨(inPart.of_mem (.withIds ids) positive member).1, own⟩
  alone asked id _ := by
    obtain ⟨answer, answered, same⟩ := inPart.one asked (.withIds [id]) rfl
    simp only [Search.byId, answered, Option.getD_some]
    cases found : nodeWithId? answer id with
    | none =>
      intro node member own
      have inside := (same node).mpr ⟨member, Selector.asksFor_withIds.mpr (List.mem_singleton.mpr own)⟩
      simpa [own] using List.find?_eq_none.mp found node (List.mem_reverse.mpr inside)
    | some node =>
      obtain ⟨member, own⟩ := of_nodeWithId? found
      exact ⟨((same node).mp member).1, own⟩

end

/-- Nodes are listed for a parent as they were found for its edges, where what was found fits. -/
def ListsFound (resolver : Resolver) (fits : Node → Coordinate → Option Node → Prop) (fitsId : Text → Option Node → Prop) :
    Listing :=
  fun visited parent listed => ∃ found : Found, found.Fits (resolver.edgesOf visited parent) (fits parent) fitsId ∧
    listed = fresh visited (inTagOrder (claims (resolver.edgesOf visited parent) found))

/-- Each node that is listed was found for a tag of its parent. -/
theorem ListsFound.exists_fits {fits : Node → Coordinate → Option Node → Prop} {fitsId : Text → Option Node → Prop}
    {visited : List Text} {parent : Node} {listed : List Node}
    (lists : resolver.ListsFound fits fitsId visited parent listed) (member : node ∈ listed) :
    (∃ coordinate, parent.Declares resolver.kinds (.coordinate coordinate) ∧ fits parent coordinate (some node)) ∨
      ∃ id, parent.Declares resolver.kinds (.id id) ∧ fitsId id (some node) := by
  obtain ⟨found, fit, rfl⟩ := lists
  rcases fit.exists_edge (mem_fresh.mp member).1 with ⟨edge, linked, _, fitting⟩ | ⟨edge, linked, _, fitting⟩
  · exact Or.inl ⟨edge.target, declares_of_mem_coordinates linked, fitting⟩
  · exact Or.inr ⟨edge.target, declares_of_mem_ids linked, fitting⟩

theorem steps_listsFound (inPart : resolver.store.AnswersInPart nodes) (workers : Workers) :
    resolver.Steps workers (resolver.ListsFound (resolver.HoldsLatestAnswered nodes) (HoldsNamed nodes))
      fun root => ¬ root.IsLegible := by
  intro visited root
  have coordinates : ∀ batch ∈ batches ((resolver.edgesOf (root.id :: visited) root).coordinates.map Edge.target),
      Search.byCoordinate.FindsAmong resolver.store (resolver.HoldsLatestAnswered nodes root) batch :=
    fun batch member => findsAmong_batch inPart member
  have ids : (resolver.edgesOf (root.id :: visited) root).ids ≠ [] → Search.byId.FindsAmong resolver.store
      (HoldsNamed nodes) ((resolver.edgesOf (root.id :: visited) root).ids.map Edge.target).eraseDups := by
    intro present
    obtain ⟨edge, member⟩ := List.exists_mem_of_ne_nil _ present
    have asked : edge.target ∈ ((resolver.edgesOf (root.id :: visited) root).ids.map Edge.target).eraseDups :=
      List.mem_eraseDups.mpr (List.mem_map_of_mem member)
    exact findsAmong_ids inPart (List.ne_nil_of_mem asked)
  refine (ends_linked_among coordinates ids workers).imp ?_ id
  intro listed given
  obtain ⟨found, fits, rfl⟩ := given
  exact ⟨found, fits, rfl⟩

/-- Where a step fails, the fault is with the root or with a node that is listed on the way. -/
theorem exists_fault_of_fails {listing : Listing} {fault : Node → Prop}
    (stored : ∀ visited parent listed, listing visited parent listed → ∀ node ∈ listed, node ∈ nodes)
    {visited : List Text} {root : Node} (fails : Fails listing fault visited root) :
    ∃ node, (node = root ∨ node ∈ nodes) ∧ fault node := by
  induction fails with
  | here faulty => exact ⟨_, Or.inl rfl, faulty⟩
  | deeper listed member index fails ih =>
    obtain ⟨node, reached, faulty⟩ := ih
    have below := stored _ _ _ listed _ member
    exact ⟨node, Or.inr (reached.elim (fun same => same ▸ below) id), faulty⟩

/-- Where each question for one thing is answered in full, and each for several in part, the tags of every parent lead
by coordinates to the latest nodes there are. It is otherwise only where the answer to a question for several
coordinates held some node at a coordinate, but not the latest: then it is the latest of that answer. -/
theorem latest_unless_held_back (resolver : Resolver) (nodes : List Node) (inPart : resolver.store.AnswersInPart nodes)
    (workers : Workers) (root : Node) (visited : List Text) :
    (root.IsLegible → (∀ node ∈ nodes, node.IsLegible) →
      ∃ graph, (resolver.run root visited workers).1 = .ok graph) ∧
    ∀ graph, (resolver.run root visited workers).1 = .ok graph →
      graph.root = root ∧
        graph.Grows (resolver.ListsFound (resolver.HoldsLatestAnswered nodes) (HoldsNamed nodes)) visited := by
  have steps := steps_listsFound inPart workers
  refine ⟨fun own all => ?_, fun graph => grows_of_run steps⟩
  have sound : root.id ∉ visited → ¬ Fails (resolver.ListsFound (resolver.HoldsLatestAnswered nodes) (HoldsNamed nodes))
      (fun root => ¬ root.IsLegible) (root.id :: visited) root := by
    intro _ fails
    have stored : ∀ visited parent listed, resolver.ListsFound (resolver.HoldsLatestAnswered nodes) (HoldsNamed nodes)
        visited parent listed → ∀ node ∈ listed, node ∈ nodes := by
      intro visited parent listed lists node member
      rcases lists.exists_fits member with ⟨_, _, holds⟩ | ⟨_, _, named⟩
      · exact holds.stored
      · exact named.1
    obtain ⟨node, reached, illegible⟩ := exists_fault_of_fails stored fails
    rcases reached with rfl | member
    · exact illegible own
    · exact illegible (all node member)
  obtain ⟨graph, resolved, _⟩ := exists_run steps sound
  exact ⟨graph, resolved⟩

/-! ### A store that lags behind -/

end Resolver

/-- A store that answers questions for several things out of the nodes that it had before. -/
def laggingStore (nodes before : List Node) (kept : before ⊆ nodes) : Store where
  ids := nodes.map Node.id
  answer _ selector := some ((if 1 < selector.size then before else nodes).filter selector.asksFor)
  known _ selector answer answered node member := by
    cases answered
    have held := (List.mem_filter.mp member).1
    split at held
    · exact List.mem_map_of_mem (kept held)
    · exact List.mem_map_of_mem held

theorem laggingStore_answersInPart {before : List Node} (kept : before ⊆ nodes) :
    (laggingStore nodes before kept).AnswersInPart nodes where
  one asked selector one := by
    refine ⟨_, rfl, fun node => ?_⟩
    rw [one, if_neg (Nat.lt_irrefl 1), List.mem_filter]
  several asked selector several := by
    refine ⟨_, rfl, fun node member => ?_⟩
    rw [if_pos several] at member
    obtain ⟨held, asks⟩ := List.mem_filter.mp member
    exact ⟨kept held, asks⟩

namespace Resolver

def serial : Node :=
  { work with tags := [⟨"a", "30041:alice:chapter"⟩, ⟨"a", "30041:alice:epilogue"⟩] }

def epilogue : Node :=
  { chapter with id := "epilogue-1", tags := [⟨"d", "epilogue"⟩] }

def nodesOfSerial : List Node := [serial, chapter, revisedChapter, epilogue]

/-- Before the chapter was revised and the epilogue came. -/
def serialStore : Store :=
  laggingStore nodesOfSerial [serial, chapter] (by decide)

def graphOfSerial : ContentGraph :=
  ⟨serial, [.leaf chapter, .leaf epilogue]⟩

theorem run_serialStore : (run ⟨serialStore, [30040], [30041]⟩ serial []).1 = .ok graphOfSerial := by
  cbv

theorem graphOfSerial_not_latest :
    ¬ graphOfSerial.Grows (ListsFound ⟨serialStore, [30040], [30041]⟩ (fun _ => HoldsOnlyLatest nodesOfSerial)
      fun _ _ => True) [] := by
  intro grown
  have lists := (grown.2 List.not_mem_nil).1
  have member : chapter ∈ graphOfSerial.entries.map Entry.node := List.mem_cons_self
  rcases lists.exists_fits member with ⟨coordinate, _, fits⟩ | ⟨_, declares, _⟩
  · have latest : IsLatest nodesOfSerial coordinate chapter := fits chapter rfl
    have same : revisedChapter.coordinate = chapter.coordinate := by decide
    have newer := latest.latest revisedChapter (by decide) (same.trans latest.there)
    exact absurd newer (by decide)
  · obtain ⟨_, tag, member, key, _⟩ := declares
    have untagged : ∀ tag ∈ serial.tags, tag.key ≠ "e" := by decide
    exact untagged tag member key

/-- The answer for both coordinates holds the old chapter. Only the epilogue is asked for once more, as it is where
there is no revision of the chapter at all: nothing tells the two apart. -/
theorem serial_holds_old_chapter :
    AgesApart nodesOfSerial ∧ serialStore.AnswersInPart nodesOfSerial ∧
      (run ⟨serialStore, [30040], [30041]⟩ serial []).1 = .ok graphOfSerial ∧
      ¬ graphOfSerial.Grows (ListsFound ⟨serialStore, [30040], [30041]⟩ (fun _ => HoldsOnlyLatest nodesOfSerial)
        fun _ _ => True) [] ∧
      run ⟨serialStore, [30040], [30041]⟩ serial [] =
        run ⟨Shortfall.onlyFirstOfMany.store (Shelf.ofNodes [serial, chapter, epilogue]), [30040], [30041]⟩ serial [] :=
  ⟨by decide, laggingStore_answersInPart _, run_serialStore, graphOfSerial_not_latest, by cbv⟩

theorem serial_holds_latest_answered :
    (run ⟨serialStore, [30040], [30041]⟩ serial []).1 = .ok graphOfSerial ∧
      graphOfSerial.Grows (ListsFound ⟨serialStore, [30040], [30041]⟩
        (HoldsLatestAnswered ⟨serialStore, [30040], [30041]⟩ nodesOfSerial) (HoldsNamed nodesOfSerial)) [] := by
  obtain ⟨resolves, grows⟩ := latest_unless_held_back ⟨serialStore, [30040], [30041]⟩ nodesOfSerial
    (laggingStore_answersInPart (by decide)) .one serial []
  obtain ⟨graph, resolved⟩ := resolves (by decide) (by decide)
  obtain rfl : graph = graphOfSerial := Except.ok.inj (resolved.symm.trans run_serialStore)
  exact ⟨run_serialStore, (grows _ resolved).2⟩

end Resolver
end Bindery.Graph
