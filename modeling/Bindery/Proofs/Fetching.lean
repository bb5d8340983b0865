import Bindery.Proofs.Edges

/-! What is found for each key, whatever the store answers. A search is judged by what it makes of one answer:
what it takes out of any answer must fit the key, and where it asks for a key alone, that must fit even if it
is nothing. Asking again carries this over to a whole batch, and from the batches to all edges of a root. -/

namespace Bindery.Graph.Resolver
variable {κ : Type} {store : Store}

namespace Search

/-- What is found in an answer of the store fits the key it is found for; only a key asked for alone may be
given up. -/
structure Finds (search : Search κ) (store : Store) (fits : κ → Option Node → Prop) : Prop where
  batch : ∀ asked keys key node,
    search.find? ((store.answer asked (search.selector keys)).getD []) key = some node → fits key (some node)
  alone : ∀ asked key, fits key (search.find? ((store.answer asked (search.selector [key])).getD []) key)

/-- Nodes collected for keys, one after another; a key may come out with nothing. -/
inductive Collected (fits : κ → Option Node → Prop) : List κ → List (κ × Node) → Prop where
  | nil : Collected fits [] []
  | found (fit : fits key (some node)) (rest : Collected fits keys results) :
      Collected fits (key :: keys) ((key, node) :: results)
  | missed (fit : fits key none) (rest : Collected fits keys results) : Collected fits (key :: keys) results

/-- The same of one batch alone: what is found in the answer to all its keys, and to each of them. -/
structure FindsAmong (search : Search κ) (store : Store) (fits : κ → Option Node → Prop) (keys : List κ) : Prop where
  batch : ∀ asked key node,
    search.find? ((store.answer asked (search.selector keys)).getD []) key = some node → fits key (some node)
  alone : ∀ asked, ∀ key ∈ keys, fits key (search.find? ((store.answer asked (search.selector [key])).getD []) key)

variable {search : Search κ} {fits : κ → Option Node → Prop}

theorem Finds.among (finds : search.Finds store fits) (keys : List κ) : search.FindsAmong store fits keys where
  batch asked := finds.batch asked keys
  alone asked key _ := finds.alone asked key

theorem ends_retry {found : κ → Option Node} {keys : List κ}
    (fit : ∀ key node, found key = some node → fits key (some node))
    (alone : ∀ asked, ∀ key ∈ keys, fits key (search.find? ((store.answer asked (search.selector [key])).getD []) key)) :
    (search.retry found keys).Ends store (Collected fits keys) := by
  induction keys with
  | nil => exact .nil
  | cons key rest ih =>
    have later := ih fun asked other member => alone asked other (List.mem_cons_of_mem _ member)
    rw [retry]
    split
    next node first =>
      exact Inquiry.ends_bind.mpr (later.imp fun results collected => .found (fit key node first) collected)
    next =>
      refine Inquiry.ends_bind.mpr (Inquiry.ends_ask.mpr fun asked => ?_)
      have again := alone asked key List.mem_cons_self
      split
      next node second =>
        rw [second] at again
        exact Inquiry.ends_bind.mpr (later.imp fun results collected => .found again collected)
      next missing =>
        rw [missing] at again
        exact later.imp fun results collected => .missed again collected

theorem FindsAmong.ends_fetch {keys : List κ} (finds : search.FindsAmong store fits keys) :
    (search.fetch keys).Ends store (Collected fits keys) :=
  Inquiry.ends_bind.mpr (Inquiry.ends_ask.mpr fun asked => ends_retry (finds.batch asked) finds.alone)

theorem Collected.mem_keys {keys : List κ} {results : List (κ × Node)} (collected : Collected fits keys results) :
    ∀ result ∈ results, result.1 ∈ keys := by
  induction collected with
  | nil => simp
  | found fit rest ih => simpa using fun key node member => Or.inr (ih (key, node) member)
  | missed fit rest ih => exact fun result member => List.mem_cons_of_mem _ (ih result member)

theorem Collected.fits_lookup [BEq κ] [LawfulBEq κ] {keys : List κ} {results : List (κ × Node)}
    (collected : Collected fits keys results) {key : κ} (member : key ∈ keys) : fits key (results.lookup key) := by
  induction collected with
  | nil => cases member
  | @found first node keys results fit rest ih =>
    by_cases same : key = first
    · simpa [same] using fit
    · have later := (List.mem_cons.mp member).resolve_left same
      simpa [List.lookup_cons, beq_eq_false_iff_ne.mpr same] using ih later
  | @missed first keys results fit rest ih =>
    by_cases later : key ∈ keys
    · exact ih later
    · obtain rfl := (List.mem_cons.mp member).resolve_right later
      have absent : results.lookup key = none :=
        List.lookup_eq_none_iff.mpr fun result inside => by
          simpa using fun same : key = result.1 => later (same ▸ rest.mem_keys result inside)
      rwa [absent]

theorem Collected.append {keys more : List κ} {results others : List (κ × Node)}
    (first : Collected fits keys results) (second : Collected fits more others) :
    Collected fits (keys ++ more) (results ++ others) := by
  induction first with
  | nil => exact second
  | found fit rest ih => exact .found fit ih
  | missed fit rest ih => exact .missed fit ih

end Search

/-! ### All edges of a root -/

theorem mem_batches {coordinates : List Coordinate} {coordinate : Coordinate} :
    coordinate ∈ (batches coordinates).flatten ↔ coordinate ∈ coordinates := by
  simp only [batches, List.mem_flatten, List.mem_map, List.mem_eraseDups, exists_exists_and_eq_and,
    List.mem_filter, decide_eq_true_eq]
  constructor
  · intro given
    obtain ⟨other, _, member, _⟩ := given
    exact member
  · exact fun member => ⟨coordinate, member, member, rfl⟩

/-- What was found for the edges of a root fits their targets. -/
structure Found.Fits (found : Found) (edges : Edges) (fits : Coordinate → Option Node → Prop)
    (fitsId : Text → Option Node → Prop) : Prop where
  coordinates : ∀ edge ∈ edges.coordinates, fits edge.target (found.byCoordinate.lookup edge.target)
  ids : ∀ edge ∈ edges.ids, fitsId edge.target (found.byId.lookup edge.target)

variable {fits : Coordinate → Option Node → Prop} {fitsId : Text → Option Node → Prop}

/-- The keys that each inquiry is about. -/
private def keysAsked (edges : Edges) : List (List Coordinate × List Text) :=
  let ids := (edges.ids.map Edge.target).eraseDups
  (batches (edges.coordinates.map Edge.target)).map (·, []) ++ if ids.isEmpty then [] else [([], ids)]

private theorem mem_keysAsked_coordinates {edges : Edges} {coordinate : Coordinate}
    (member : coordinate ∈ edges.coordinates.map Edge.target) :
    coordinate ∈ (keysAsked edges).flatMap Prod.fst := by
  rw [keysAsked, List.flatMap_append, List.mem_append, List.flatMap_map, List.flatMap_id']
  exact Or.inl (mem_batches.mpr member)

private theorem mem_keysAsked_ids {edges : Edges} {id : Text} (member : id ∈ edges.ids.map Edge.target) :
    id ∈ (keysAsked edges).flatMap Prod.snd := by
  have present := List.mem_eraseDups.mpr member
  rw [keysAsked, List.flatMap_append, List.mem_append, if_neg (by simpa using List.ne_nil_of_mem present)]
  exact Or.inr (by simpa using present)

private def IsCollected (fits : Coordinate → Option Node → Prop) (fitsId : Text → Option Node → Prop)
    (keys : List Coordinate × List Text) (found : Found) : Prop :=
  Search.Collected fits keys.1 found.byCoordinate ∧ Search.Collected fitsId keys.2 found.byId

private theorem each_inquiries {edges : Edges}
    (coordinates : ∀ batch ∈ batches (edges.coordinates.map Edge.target), Search.byCoordinate.FindsAmong store fits batch)
    (ids : edges.ids ≠ [] → Search.byId.FindsAmong store fitsId (edges.ids.map Edge.target).eraseDups) :
    Inquiry.Each store (inquiries edges) ((keysAsked edges).map (IsCollected fits fitsId)) := by
  unfold inquiries keysAsked
  rw [List.map_append, List.map_map]
  apply List.rel_append
  · rw [List.forall₂_map_left_iff, List.forall₂_map_right_iff, List.forall₂_same]
    intro batch member
    exact Inquiry.ends_bind.mpr ((coordinates batch member).ends_fetch.imp fun results collected => ⟨collected, .nil⟩)
  · split
    next => exact .nil
    next nonempty =>
      have present : edges.ids ≠ [] := fun empty => nonempty (by rw [empty]; rfl)
      exact .cons (Inquiry.ends_bind.mpr ((ids present).ends_fetch.imp fun results collected => ⟨.nil, collected⟩)) .nil

private theorem collected_flatMap {keys : List (List Coordinate × List Text)} {results : List Found}
    (satisfied : Inquiry.Satisfy results (keys.map (IsCollected fits fitsId))) :
    IsCollected fits fitsId (keys.flatMap Prod.fst, keys.flatMap Prod.snd)
      ⟨results.flatMap Found.byCoordinate, results.flatMap Found.byId⟩ := by
  rw [Inquiry.Satisfy, List.forall₂_map_right_iff] at satisfied
  induction satisfied with
  | nil => exact ⟨.nil, .nil⟩
  | cons first _ ih => exact ⟨first.1.append ih.1, first.2.append ih.2⟩

theorem ends_fetch {edges : Edges}
    (coordinates : ∀ batch ∈ batches (edges.coordinates.map Edge.target), Search.byCoordinate.FindsAmong store fits batch)
    (ids : edges.ids ≠ [] → Search.byId.FindsAmong store fitsId (edges.ids.map Edge.target).eraseDups)
    (workers : Workers) (visited : List Text) :
    (fetch workers visited edges).Ends store (·.Fits edges fits fitsId) := by
  refine Inquiry.ends_bind.mpr ((Workers.ends_carryOut (each_inquiries coordinates ids)).imp ?_)
  intro results satisfied
  have collected := collected_flatMap satisfied
  constructor
  · intro edge member
    exact collected.1.fits_lookup (mem_keysAsked_coordinates (List.mem_map_of_mem member))
  · intro edge member
    exact collected.2.fits_lookup (mem_keysAsked_ids (List.mem_map_of_mem member))

/-- The nodes that a root leads to, in terms of what was found for its edges. Coordinates of one kind are one batch, and
so are all ids. -/
theorem ends_linked_among {resolver : Resolver} {visited : List Text} {root : Node}
    (coordinates : ∀ batch ∈ batches ((resolver.edgesOf visited root).coordinates.map Edge.target),
      Search.byCoordinate.FindsAmong store fits batch)
    (ids : (resolver.edgesOf visited root).ids ≠ [] →
      Search.byId.FindsAmong store fitsId ((resolver.edgesOf visited root).ids.map Edge.target).eraseDups)
    (workers : Workers) :
    Resolving.Ends store
      (fun nodes => ∃ found : Found, found.Fits (resolver.edgesOf visited root) fits fitsId ∧
        nodes = inTagOrder (claims (resolver.edgesOf visited root) found))
      (¬ root.IsLegible) (resolver.linked workers visited root) := by
  refine Resolving.ends_bind.mpr (ends_edges.imp ?_ id)
  intro result same
  subst same
  refine Resolving.ends_bind.mpr (Resolving.ends_lift.mpr ?_)
  exact (ends_fetch coordinates ids workers visited).imp fun found fits => ⟨found, fits, rfl⟩

theorem ends_linked (coordinates : Search.byCoordinate.Finds store fits) (ids : Search.byId.Finds store fitsId)
    (resolver : Resolver) (workers : Workers) (visited : List Text) (root : Node) :
    Resolving.Ends store
      (fun nodes => ∃ found : Found, found.Fits (resolver.edgesOf visited root) fits fitsId ∧
        nodes = inTagOrder (claims (resolver.edgesOf visited root) found))
      (¬ root.IsLegible) (resolver.linked workers visited root) :=
  ends_linked_among (fun batch _ => coordinates.among batch) (fun _ => ids.among _) workers

end Bindery.Graph.Resolver
