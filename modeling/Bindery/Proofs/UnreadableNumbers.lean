import Bindery.Proofs.CoordinateNumbers
import Bindery.Proofs.GraphByTags

/-! Where resolving breaks off. Whatever fails in a store only makes a graph smaller, and so does a malformed
coordinate, unless its number cannot be read: one such coordinate on any node that is reached, and there is no
graph at all. -/

namespace Bindery

theorem Tag.isLegible_iff {tag : Tag} :
    tag.IsLegible ↔ (tag.key = "a" → ¬ Coordinate.NamesUnreadableNumber tag.value) :=
  imp_congr_right fun _ => Coordinate.exists_parse_eq_ok

namespace Graph

/-- A store answers as a shelf does or not at all. It need not fail alike twice. -/
def Store.AnswersOrFails (store : Store) (shelf : Shelf) : Prop :=
  ∀ asked selector, store.answer asked selector = none ∨ store.answer asked selector = some (shelf.find selector)

theorem Inquiry.ends_of_forall {α : Type} {store : Store} {wanted : α → Prop} (holds : ∀ result, wanted result)
    (inquiry : Inquiry α) : inquiry.Ends store wanted := by
  induction inquiry with
  | finished result => exact holds result
  | asking selector next ih => exact fun asked => ih _
  | noticing notice next ih => exact ih

/-- What holds anyway holds of any result. -/
theorem Resolving.ends_of_forall {α : Type} {store : Store} {wanted : α → Prop} {excuse : Prop}
    (holds : ∀ result, wanted result) (excused : excuse) (resolving : Resolving α) :
    Resolving.Ends store wanted excuse resolving :=
  Inquiry.ends_of_forall (fun result => match result with | .ok result => holds result | .error _ => excused) _

namespace Resolver

/-! ### Tags that were read -/

section
variable {resolver : Resolver} {visited : List Text} {root : Node} {store : Store}

private theorem ends_coordinateTarget_legible {tag : Tag} :
    Resolving.Ends store (fun _ => tag.IsLegible) True (resolver.coordinateTarget root tag.value) := by
  refine Resolving.ends_bind.mpr ?_
  cases parsed : Coordinate.parse tag.value with
  | error error => exact trivial
  | ok coordinate =>
    exact Resolving.ends_of_forall (fun _ (_ : tag.key = "a") => ⟨coordinate, parsed⟩) trivial _

private theorem ends_edgesFrom_legible (position : Nat) (tags : List Tag) :
    Resolving.Ends store (fun _ => ∀ tag ∈ tags, tag.IsLegible) True
      (resolver.edgesFrom visited root position tags) := by
  induction tags generalizing position with
  | nil => exact fun tag member => absurd member List.not_mem_nil
  | cons tag tags ih =>
    rw [edgesFrom]
    split
    next key =>
      refine Resolving.ends_bind.mpr (ends_coordinateTarget_legible.imp (fun _ legible => ?_) id)
      exact Resolving.ends_bind.mpr ((ih _).imp (fun _ rest => List.forall_mem_cons.mpr ⟨legible, rest⟩) id)
    next other =>
      have legible : tag.IsLegible := fun key => absurd key other
      have later := (ih (position + 1)).imp (fun _ rest => List.forall_mem_cons.mpr ⟨legible, rest⟩) id
      split
      · exact Resolving.ends_bind.mpr (Resolving.ends_of_forall (fun _ => Resolving.ends_bind.mpr later) trivial _)
      · exact later

theorem ends_linked_legible (workers : Workers) :
    Resolving.Ends store (fun _ => root.IsLegible) True (resolver.linked workers visited root) :=
  Resolving.ends_bind.mpr <| (ends_edgesFrom_legible 0 root.tags).imp
    (fun _ legible => Resolving.ends_of_forall (fun _ => legible) trivial _) id

end

/-! ### Nodes that were reached -/

section
variable {kinds : List Int} {shelf : Shelf} {visited : List Text} {root node : Node}

theorem Reaches.unseen (reaches : Reaches kinds shelf visited root node) : root.id ∉ visited := by
  cases reaches <;> assumption

/-- In a graph that lists all nodes that tags lead to, what holds of each root holds of all nodes reached. -/
theorem of_reaches_of_grows {holds : Node → Prop} (reaches : Reaches kinds shelf visited root node)
    {entries : List Entry} (grown : ContentGraph.Grows
      (fun visited root nodes => Lists kinds shelf root visited nodes ∧ holds root) visited ⟨root, entries⟩) :
    holds node := by
  induction reaches generalizing entries with
  | root unseen => exact (grown.2 unseen).1.2
  | deeper unseen leads index reaches ih =>
    obtain ⟨⟨listed, _⟩, below⟩ := grown.2 unseen
    obtain ⟨entry, member, rfl⟩ := List.mem_map.mp ((listed.complete _).mpr ⟨reaches.unseen, leads⟩)
    have here := below.of_mem member
    cases entry with
    | leaf node => exact absurd (index.symm.trans here) (by decide)
    | branch child inner => exact ih ⟨fun seen => absurd seen reaches.unseen, fun _ => here.2⟩

variable {store : Store} {indexKinds leafKinds : List Int}

theorem isLegible_of_run (short : store.FallsShortOf shelf) {workers : Workers} {graph : ContentGraph}
    (resolved : (run ⟨store, indexKinds, leafKinds⟩ root visited workers).1 = .ok graph)
    (reaches : Reaches (indexKinds ++ leafKinds) shelf visited root node) : node.IsLegible := by
  have steps : Steps ⟨store, indexKinds, leafKinds⟩ workers
      (fun visited root nodes => Lists (indexKinds ++ leafKinds) shelf root visited nodes ∧ root.IsLegible)
      fun root => ¬ root.IsLegible := fun visited root =>
    (steps_lists short.reveals workers visited root).and (ends_linked_legible workers)
  obtain ⟨rfl, grown⟩ := grows_of_run steps resolved
  exact of_reaches_of_grows reaches grown

end

/-! ### Stores that fail -/

section
variable {shelf : Shelf} {store : Store} (unsteady : store.AnswersOrFails shelf)
include unsteady

theorem mem_find_of_mem_answer {asked : List Selector} {selector : Selector} {node : Node}
    (member : node ∈ (store.answer asked selector).getD []) : node ∈ shelf.find selector := by
  rcases unsteady asked selector with failed | answered
  · simp [failed] at member
  · simpa [answered] using member

theorem finds_only_at : Search.byCoordinate.Finds store fun coordinate found =>
    ∀ node, found = some node → shelf.at? coordinate = some node where
  batch asked coordinates coordinate node found := by
    rintro _ ⟨⟩
    exact at?_of_within (fun _ => mem_find_of_mem_answer unsteady) found
  alone asked coordinate node found := at?_of_within (fun _ => mem_find_of_mem_answer unsteady) found

theorem finds_only_withId : Search.byId.Finds store fun id found =>
    ∀ node, found = some node → shelf.withId? id = some node where
  batch asked ids id node found := by
    rintro _ ⟨⟩
    exact withId?_of_inside (fun _ member => Shelf.mem_of_mem_find (mem_find_of_mem_answer unsteady member)) found
  alone asked id node found :=
    withId?_of_inside (fun _ member => Shelf.mem_of_mem_find (mem_find_of_mem_answer unsteady member)) found

/-- Where a store fails now and then, a step leads to no node that it would not lead to on the shelf. -/
theorem steps_leadsTo {indexKinds leafKinds : List Int} (workers : Workers) :
    Steps ⟨store, indexKinds, leafKinds⟩ workers
      (fun visited root nodes => ∀ node ∈ nodes, node.id ∉ visited ∧ LeadsTo (indexKinds ++ leafKinds) shelf root node)
      fun root => ¬ root.IsLegible := by
  intro visited root
  refine (ends_linked (finds_only_at unsteady) (finds_only_withId unsteady) _ workers _ root).imp ?_ id
  intro nodes given node member
  obtain ⟨found, fits, rfl⟩ := given
  obtain ⟨listed, unseen⟩ := List.mem_filter.mp member
  refine ⟨by simpa using unseen, ?_⟩
  rcases fits.exists_edge listed with ⟨edge, linked, _, here⟩ | ⟨edge, linked, _, here⟩
  · have claimed : ⟨edge.position, node⟩ ∈ claimsOf shelf.at? _ := mem_claimsOf.mpr ⟨edge, linked, rfl, here node rfl⟩
    have leads := mem_coordinateClaims.mp claimed
    exact ⟨leads.mem, Or.inl ⟨_, leads⟩⟩
  · have claimed : ⟨edge.position, node⟩ ∈ claimsOf shelf.withId? _ := mem_claimsOf.mpr ⟨edge, linked, rfl, here node rfl⟩
    obtain ⟨leads, present, _⟩ := mem_idClaims.mp claimed
    exact ⟨present, Or.inr ⟨_, leads⟩⟩

theorem exists_run_of_answersOrFails {indexKinds leafKinds : List Int} {root : Node} {visited : List Text} (workers : Workers)
    (legible : ∀ node, Reaches (indexKinds ++ leafKinds) shelf visited root node → node.IsLegible) :
    ∃ graph, (run ⟨store, indexKinds, leafKinds⟩ root visited workers).1 = .ok graph ∧ graph.root = root := by
  obtain ⟨graph, resolved, same, _⟩ := exists_run (steps_leadsTo unsteady workers) <| by
    intro (unseen : root.id ∉ visited) fails
    obtain ⟨node, reaches, illegible⟩ := exists_reaches_of_fails (fun _ _ _ leads => leads) fails unseen rfl
    exact illegible (legible node reaches)
  exact ⟨graph, resolved, same⟩

end

/-- No node that is reached has a coordinate whose number cannot be read. -/
def AllReadable (kinds : List Int) (shelf : Shelf) (visited : List Text) (root : Node) : Prop :=
  ∀ node, Reaches kinds shelf visited root node →
    ∀ tag ∈ node.tags, tag.key = "a" → ¬ Coordinate.NamesUnreadableNumber tag.value

/-- Resolving ends in a graph just where all numbers reached can be read, and then in the one graph that follows
the tags; other malformed coordinates lead nowhere. Failures of the store never keep it from ending in a graph. -/
theorem resolves_iff_numbers_readable (nodes : List Node) (indexKinds leafKinds : List Int) (root : Node)
    (visited : List Text) :
    (∀ (workers : Workers) (graph : ContentGraph),
      (run ⟨(Shelf.ofNodes nodes).toStore, indexKinds, leafKinds⟩ root visited workers).1 = .ok graph ↔
        AllReadable (indexKinds ++ leafKinds) (Shelf.ofNodes nodes) visited root ∧ graph.root = root ∧
          FollowsTags (indexKinds ++ leafKinds) (Shelf.ofNodes nodes) visited graph) ∧
    (AllReadable (indexKinds ++ leafKinds) (Shelf.ofNodes nodes) visited root →
      ∀ (store : Store) (workers : Workers), store.AnswersOrFails (Shelf.ofNodes nodes) →
        ∃ graph, (run ⟨store, indexKinds, leafKinds⟩ root visited workers).1 = .ok graph ∧ graph.root = root) := by
  have short := (Shelf.ofNodes nodes).toStore_fallsShortOf
  have legible : AllReadable (indexKinds ++ leafKinds) (Shelf.ofNodes nodes) visited root ↔
      ∀ node, Reaches (indexKinds ++ leafKinds) (Shelf.ofNodes nodes) visited root node → node.IsLegible := by
    unfold AllReadable Node.IsLegible
    simp only [Tag.isLegible_iff]
  rw [legible]
  refine ⟨fun workers graph => ⟨fun resolved => ?_, fun given => ?_⟩, fun all store workers unsteady => ?_⟩
  · have all : ∀ node, Reaches (indexKinds ++ leafKinds) (Shelf.ofNodes nodes) visited root node → node.IsLegible :=
      fun _ => isLegible_of_run short resolved
    obtain ⟨other, same, sameRoot, follows⟩ := exists_run_followsTags short workers all
    obtain rfl : graph = other := Except.ok.inj (resolved.symm.trans same)
    exact ⟨all, sameRoot, follows⟩
  · obtain ⟨all, sameRoot, follows⟩ := given
    obtain ⟨other, resolved, otherRoot, also⟩ := exists_run_followsTags short workers all
    rwa [follows.eq also (sameRoot.trans otherRoot.symm)]
  · exact exists_run_of_answersOrFails unsteady workers all

/-- A work whose only tag holds a digit sign that is no decimal digit. -/
def superscriptWork : Node :=
  { work with tags := [⟨"a", "²:alice:chapter"⟩] }

theorem superscript_keeps_work_from_resolving :
    (¬ ∃ graph, (run ⟨(Shelf.ofNodes [superscriptWork]).toStore, [30040], [30041]⟩ superscriptWork [] .one).1 = .ok graph) ∧
      ∃ graph, (run ⟨Shortfall.alwaysFails.store (Shelf.ofNodes shelfOfWork), [30040], [30041]⟩ work [] .one).1 =
        .ok graph := by
  constructor
  · intro given
    obtain ⟨graph, resolved⟩ := given
    have readable := (((resolves_iff_numbers_readable [superscriptWork] [30040] [30041] superscriptWork []).1 .one graph).mp resolved).1
    have unreadable : Coordinate.NamesUnreadableNumber "²:alice:chapter" :=
      ⟨("²", "alice", "chapter"), by decide, by decide, Or.inl (by decide)⟩
    exact readable superscriptWork (.root List.not_mem_nil) ⟨"a", "²:alice:chapter"⟩ (by decide) rfl unreadable
  · have readable : AllReadable [30040, 30041] (Shelf.ofNodes shelfOfWork) [] work := fun node reaches tag member =>
      Tag.isLegible_iff.mp (isLegible_of_reaches_work reaches tag member)
    obtain ⟨graph, resolved, _⟩ := (resolves_iff_numbers_readable shelfOfWork [30040] [30041] work []).2 readable
      (Shortfall.alwaysFails.store (Shelf.ofNodes shelfOfWork)) .one fun _ _ => Or.inl rfl
    exact ⟨graph, resolved⟩

end Resolver
end Graph
end Bindery
