import Bindery.Proofs.Recovery
import Mathlib.Order.Bounds.Basic
import Mathlib.Order.Nat

/-! What a root leads to on a shelf, said tag by tag: no batches, no order of discovery, no claims. Resolving
over the shelf, or over a store that falls short of it, lists just these nodes in just this order. -/

namespace Bindery.Graph.Resolver

def kinds (resolver : Resolver) : List Int :=
  resolver.indexKinds ++ resolver.leafKinds

theorem supports_eq_true {resolver : Resolver} {kind : Int} :
    resolver.supports kind = true ↔ kind ∈ resolver.kinds := by
  simp [supports, kinds]

section
variable (kinds : List Int) (shelf : Shelf) (root : Node)

/-- The tag at a position holds a coordinate of use, and a node is the newest there. -/
def LeadsByCoordinate (position : Nat) (node : Node) : Prop :=
  ∃ tag coordinate, root.tags[position]? = some tag ∧ tag.key = "a" ∧
    Coordinate.parse tag.value = .ok (some coordinate) ∧ root.coordinate ≠ some coordinate ∧
    coordinate.kind ∈ kinds ∧ IsNewest shelf.nodes coordinate node

/-- The tag at a position holds the id of a node. -/
def LeadsById (position : Nat) (node : Node) : Prop :=
  ∃ tag, root.tags[position]? = some tag ∧ tag.key = "e" ∧ tag.value ≠ [] ∧ tag.value = node.id

def LeadsTo (node : Node) : Prop :=
  node ∈ shelf.nodes ∧
    ((∃ position, LeadsByCoordinate kinds shelf root position node) ∨ ∃ position, LeadsById root position node)

/-- A node stands at the first tag that leads to it by coordinate; only if there is none, at the first that
leads to it by id. -/
def StandsAt (position : Nat) (node : Node) : Prop :=
  IsLeast {position | LeadsByCoordinate kinds shelf root position node} position ∨
    (∀ position, ¬ LeadsByCoordinate kinds shelf root position node) ∧
      IsLeast {position | LeadsById root position node} position

/-- The nodes right below a root: all that it leads to and that are not visited, once each, and in the order
in which they stand. -/
structure Lists (visited : List Text) (nodes : List Node) : Prop where
  complete : ∀ node, node ∈ nodes ↔ node.id ∉ visited ∧ LeadsTo kinds shelf root node
  once : nodes.Nodup
  ordered : nodes.Pairwise fun first second => ∀ position later,
    StandsAt kinds shelf root position first → StandsAt kinds shelf root later second → position < later

end

variable {kinds : List Int} {shelf : Shelf} {root : Node} {visited : List Text}

theorem LeadsByCoordinate.mem {position : Nat} {node : Node}
    (leads : LeadsByCoordinate kinds shelf root position node) : node ∈ shelf.nodes := by
  obtain ⟨_, _, _, _, _, _, _, newest⟩ := leads
  exact newest.mem

theorem LeadsByCoordinate.not_leadsById {position : Nat} {node other : Node}
    (leads : LeadsByCoordinate kinds shelf root position node) : ¬ LeadsById root position other := by
  intro given
  obtain ⟨tag, here, key, _⟩ := given
  obtain ⟨same, _, there, otherKey, _⟩ := leads
  obtain rfl := Option.some.inj (here.symm.trans there)
  exact absurd (key.symm.trans otherKey) (by decide)

theorem StandsAt.unique {position other : Nat} {node : Node} (stands : StandsAt kinds shelf root position node)
    (again : StandsAt kinds shelf root other node) : position = other := by
  rcases stands with first | ⟨absent, first⟩ <;> rcases again with second | ⟨nowhere, second⟩
  · exact first.unique second
  · exact absurd first.1 (nowhere position)
  · exact absurd second.1 (absent other)
  · exact first.unique second

theorem LeadsTo.exists_standsAt {node : Node} (leads : LeadsTo kinds shelf root node) :
    ∃ position, StandsAt kinds shelf root position node := by
  classical
  by_cases found : ∃ position, LeadsByCoordinate kinds shelf root position node
  · exact ⟨Nat.find found, Or.inl ⟨Nat.find_spec found, fun _ holds => Nat.find_min' found holds⟩⟩
  · have named := leads.2.resolve_left found
    exact ⟨Nat.find named, Or.inr ⟨fun position holds => found ⟨position, holds⟩,
      Nat.find_spec named, fun _ holds => Nat.find_min' named holds⟩⟩

theorem Lists.eq {nodes others : List Node} (first : Lists kinds shelf root visited nodes)
    (second : Lists kinds shelf root visited others) : nodes = others := by
  have perm : nodes.Perm others := (List.perm_ext_iff_of_nodup first.once second.once).mpr
    fun node => (first.complete node).trans (second.complete node).symm
  refine perm.eq_of_pairwise ?_ first.ordered second.ordered
  intro node other member present before after
  obtain ⟨position, stands⟩ := ((first.complete node).mp member).2.exists_standsAt
  obtain ⟨later, standsLater⟩ := ((second.complete other).mp present).2.exists_standsAt
  exact absurd (before position later stands standsLater) (Nat.lt_asymm (after later position standsLater stands))

/-! ### The claims over a shelf -/

variable {resolver : Resolver}

/-- The claims of a root's edges where every target is found as on the shelf. -/
def shelfClaims (resolver : Resolver) (shelf : Shelf) (visited : List Text) (root : Node) : List Claim :=
  claimsOf shelf.at? (resolver.edgesOf visited root).coordinates ++
    claimsOf shelf.withId? (resolver.edgesOf visited root).ids

theorem claims_eq_shelfClaims {found : Found}
    (fits : found.Fits (resolver.edgesOf visited root) (fun coordinate held => held = shelf.at? coordinate)
      fun id held => held = shelf.withId? id) :
    claims (resolver.edgesOf visited root) found = resolver.shelfClaims shelf visited root := by
  unfold claims shelfClaims claimsOf
  congr 1
  · exact List.filterMap_congr fun edge member => congrArg (Option.map _) (fits.coordinates edge member)
  · exact List.filterMap_congr fun edge member => congrArg (Option.map _) (fits.ids edge member)

theorem mem_coordinateClaims {claim : Claim} :
    claim ∈ claimsOf shelf.at? (resolver.edgesOf visited root).coordinates ↔
      LeadsByCoordinate resolver.kinds shelf root claim.position claim.node := by
  simp only [mem_claimsOf, edgesOf, edgesAt, mem_edgesBy, coordinateOf?_eq_some, Shelf.at?_eq_some, supports_eq_true]
  constructor
  · intro given
    obtain ⟨⟨position, coordinate⟩, ⟨tag, here, key, parsed, other, supported⟩, rfl, newest⟩ := given
    exact ⟨tag, coordinate, here, key, parsed, other, supported, newest⟩
  · intro given
    obtain ⟨tag, coordinate, here, key, parsed, other, supported, newest⟩ := given
    exact ⟨⟨claim.position, coordinate⟩, ⟨tag, here, key, parsed, other, supported⟩, rfl, newest⟩

theorem mem_idClaims {claim : Claim} :
    claim ∈ claimsOf shelf.withId? (resolver.edgesOf visited root).ids ↔
      LeadsById root claim.position claim.node ∧ claim.node ∈ shelf.nodes ∧
        claim.node.id ≠ root.id ∧ claim.node.id ∉ visited := by
  simp only [mem_claimsOf, edgesOf, edgesAt, mem_edgesBy, idOf?_eq_some, Shelf.withId?_eq_some]
  constructor
  · intro given
    obtain ⟨⟨position, id⟩, ⟨tag, here, key, rfl, present, other, unseen⟩, rfl, member, own⟩ := given
    exact ⟨⟨tag, here, key, present, own.symm⟩, member, own ▸ other, own ▸ unseen⟩
  · intro given
    obtain ⟨⟨tag, here, key, present, own⟩, member, other, unseen⟩ := given
    exact ⟨⟨claim.position, claim.node.id⟩, ⟨tag, here, key, own, own ▸ present, other, unseen⟩, rfl, member, rfl⟩

theorem pairwise_coordinateClaims :
    (claimsOf shelf.at? (resolver.edgesOf visited root).coordinates).Pairwise (·.position < ·.position) :=
  pairwise_claimsOf (pairwise_edgesBy _ _)

theorem pairwise_idClaims :
    (claimsOf shelf.withId? (resolver.edgesOf visited root).ids).Pairwise (·.position < ·.position) :=
  pairwise_claimsOf (pairwise_edgesBy _ _)

theorem nodup_positions_shelfClaims :
    ((resolver.shelfClaims shelf visited root).map Claim.position).Nodup := by
  have strict : ∀ {claims : List Claim}, claims.Pairwise (·.position < ·.position) →
      (claims.map Claim.position).Nodup :=
    fun sorted => List.pairwise_map.mpr (sorted.imp Nat.ne_of_lt)
  rw [shelfClaims, List.map_append, List.nodup_append]
  refine ⟨strict pairwise_coordinateClaims, strict pairwise_idClaims, ?_⟩
  intro position member other present same
  obtain ⟨claim, inside, rfl⟩ := List.mem_map.mp member
  obtain ⟨second, within, rfl⟩ := List.mem_map.mp present
  exact (mem_coordinateClaims.mp inside).not_leadsById (same ▸ (mem_idClaims.mp within).1)

/-- Claims that come first are on nodes that a root leads to, at the positions where these stand. -/
theorem standsAt_of_isFirst {claim : Claim} (first : IsFirst (resolver.shelfClaims shelf visited root) claim) :
    LeadsTo resolver.kinds shelf root claim.node ∧ StandsAt resolver.kinds shelf root claim.position claim.node := by
  rcases isFirst_append.mp first with byCoordinate | ⟨byId, apart⟩
  · obtain ⟨member, least⟩ := (isFirst_iff_of_pairwise pairwise_coordinateClaims).mp byCoordinate
    have leads := mem_coordinateClaims.mp member
    refine ⟨⟨leads.mem, Or.inl ⟨_, leads⟩⟩, Or.inl ⟨leads, fun position holds => ?_⟩⟩
    exact least ⟨position, claim.node⟩ (mem_coordinateClaims.mpr holds) rfl
  · obtain ⟨member, least⟩ := (isFirst_iff_of_pairwise pairwise_idClaims).mp byId
    obtain ⟨leads, inside, fresh⟩ := mem_idClaims.mp member
    refine ⟨⟨inside, Or.inr ⟨_, leads⟩⟩, Or.inr ⟨fun position holds => ?_, leads, fun position holds => ?_⟩⟩
    · exact apart ⟨position, claim.node⟩ (mem_coordinateClaims.mpr holds) rfl
    · exact least ⟨position, claim.node⟩ (mem_idClaims.mpr ⟨holds, inside, fresh⟩) rfl

/-- A node that a root leads to is claimed, unless it is the root or visited. -/
theorem exists_isFirst {node : Node} (leads : LeadsTo resolver.kinds shelf root node) (other : node.id ≠ root.id)
    (unseen : node.id ∉ visited) :
    ∃ claim, IsFirst (resolver.shelfClaims shelf visited root) claim ∧ claim.node = node := by
  have inside := leads.1
  obtain ⟨position, stands⟩ := leads.exists_standsAt
  refine ⟨⟨position, node⟩, isFirst_append.mpr ?_, rfl⟩
  rcases stands with ⟨byCoordinate, least⟩ | ⟨absent, byId, least⟩
  · refine Or.inl ((isFirst_iff_of_pairwise pairwise_coordinateClaims).mpr ⟨?_, ?_⟩)
    · exact mem_coordinateClaims.mpr byCoordinate
    · intro claim member same
      have holds := mem_coordinateClaims.mp member
      rw [Shelf.eq_of_id_eq holds.mem inside same] at holds
      exact least holds
  · refine Or.inr ⟨(isFirst_iff_of_pairwise pairwise_idClaims).mpr ⟨?_, ?_⟩, ?_⟩
    · exact mem_idClaims.mpr ⟨byId, inside, other, unseen⟩
    · intro claim member same
      obtain ⟨holds, within, _⟩ := mem_idClaims.mp member
      rw [Shelf.eq_of_id_eq within inside same] at holds
      exact least holds
    · intro claim member same
      have holds := mem_coordinateClaims.mp member
      rw [Shelf.eq_of_id_eq holds.mem inside same] at holds
      exact absent _ holds

theorem lists_inTagOrder (resolver : Resolver) (shelf : Shelf) (visited : List Text) (root : Node) :
    Lists resolver.kinds shelf root (root.id :: visited)
      (fresh (root.id :: visited) (inTagOrder (resolver.shelfClaims shelf (root.id :: visited) root))) := by
  have positions : ((resolver.shelfClaims shelf (root.id :: visited) root).map Claim.position).Nodup :=
    nodup_positions_shelfClaims
  obtain ⟨ordered, nodes, sorted, distinct, first⟩ := exists_ordered_claims positions
  rw [nodes]
  refine ⟨fun node => ?_, ?_, ?_⟩
  · simp only [fresh, List.mem_filter, List.mem_map, Bool.not_eq_true', List.contains_eq_mem, decide_eq_false_iff_not]
    constructor
    · intro given
      obtain ⟨⟨claim, member, rfl⟩, unseen⟩ := given
      exact ⟨unseen, (standsAt_of_isFirst ((first claim).mp member)).1⟩
    · intro given
      obtain ⟨unseen, leads⟩ := given
      have other : node.id ≠ root.id := fun same => unseen (same ▸ List.mem_cons_self)
      obtain ⟨claim, isFirst, rfl⟩ := exists_isFirst leads other unseen
      exact ⟨⟨claim, (first claim).mpr isFirst, rfl⟩, unseen⟩
  · have distinctNodes : (ordered.map Claim.node).Nodup :=
      List.Nodup.of_map Node.id (by simpa only [List.map_map, Function.comp_def] using distinct)
    exact distinctNodes.filter _
  · refine List.Pairwise.filter _ (List.pairwise_map.mpr (sorted.imp_of_mem ?_))
    intro claim other member present before position later stands standsLater
    have here := (standsAt_of_isFirst ((first claim).mp member)).2
    have there := (standsAt_of_isFirst ((first other).mp present)).2
    rwa [stands.unique here, standsLater.unique there]

theorem steps_lists {store : Store} {indexKinds leafKinds : List Int} (reveals : store.Reveals shelf)
    (workers : Workers) :
    Steps ⟨store, indexKinds, leafKinds⟩ workers
      (fun visited root nodes => Lists (indexKinds ++ leafKinds) shelf root visited nodes)
      fun root => ¬ root.IsLegible := by
  intro visited root
  refine (ends_linked reveals.coordinates reveals.ids _ workers _ root).imp ?_ id
  intro nodes given
  obtain ⟨found, fits, rfl⟩ := given
  rw [claims_eq_shelfClaims fits]
  exact lists_inTagOrder ⟨store, indexKinds, leafKinds⟩ shelf visited root

end Bindery.Graph.Resolver
