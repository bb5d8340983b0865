import Bindery.Graph.Resolve
import Mathlib.Data.List.Induction
import Mathlib.Data.List.Nodup

/-! Which claims on nodes count, and in what order. The first claim on a node stays with its position, and no
two tags have the same position: the nodes come out once each, in the strict order of their claims. -/

namespace Bindery.Graph.Resolver

section
variable {α : Type} {found : α → Option Node} {edges : List (Edge α)}

theorem mem_claimsOf {claim : Claim} :
    claim ∈ claimsOf found edges ↔
      ∃ edge ∈ edges, edge.position = claim.position ∧ found edge.target = some claim.node := by
  obtain ⟨position, node⟩ := claim
  simp only [claimsOf, List.mem_filterMap, Option.map_eq_some_iff, Claim.mk.injEq]
  constructor
  · intro given
    obtain ⟨edge, member, _, held, rfl, rfl⟩ := given
    exact ⟨edge, member, rfl, held⟩
  · intro given
    obtain ⟨edge, member, rfl, held⟩ := given
    exact ⟨edge, member, node, held, rfl, rfl⟩

theorem pairwise_claimsOf (sorted : edges.Pairwise (·.position < ·.position)) :
    (claimsOf found edges).Pairwise (·.position < ·.position) := by
  apply sorted.filterMap _
  intro first second before claim made other madeOther
  obtain ⟨_, _, rfl⟩ := Option.map_eq_some_iff.mp made
  obtain ⟨_, _, rfl⟩ := Option.map_eq_some_iff.mp madeOther
  exact before

end

/-- No earlier claim is on the same node. -/
def IsFirst (claims : List Claim) (claim : Claim) : Prop :=
  ∃ before after, claims = before ++ claim :: after ∧ ∀ other ∈ before, other.node.id ≠ claim.node.id

theorem IsFirst.mem {claims : List Claim} {claim : Claim} (first : IsFirst claims claim) : claim ∈ claims := by
  obtain ⟨before, after, rfl, _⟩ := first
  simp

theorem isFirst_concat {claims : List Claim} {next claim : Claim} :
    IsFirst (claims ++ [next]) claim ↔
      IsFirst claims claim ∨ claim = next ∧ ∀ other ∈ claims, other.node.id ≠ claim.node.id := by
  constructor
  · intro given
    obtain ⟨before, after, split, fresh⟩ := given
    rcases List.eq_nil_or_concat after with rfl | ⟨after, last, rfl⟩
    · obtain ⟨rfl, same⟩ := List.append_inj' split rfl
      exact Or.inr ⟨(List.cons.inj same).1.symm, fresh⟩
    · rw [List.concat_eq_append, ← List.cons_append, ← List.append_assoc] at split
      exact Or.inl ⟨before, after, (List.append_inj' split rfl).1, fresh⟩
  · intro given
    rcases given with ⟨before, after, rfl, fresh⟩ | ⟨rfl, fresh⟩
    · exact ⟨before, after ++ [next], by simp, fresh⟩
    · exact ⟨claims, [], rfl, fresh⟩

/-- Claims of one list are first in a longer one if nothing before it is on their node. -/
theorem isFirst_append {claims others : List Claim} {claim : Claim} :
    IsFirst (claims ++ others) claim ↔
      IsFirst claims claim ∨ IsFirst others claim ∧ ∀ other ∈ claims, other.node.id ≠ claim.node.id := by
  induction others using List.reverseRecOn with
  | nil => simp [IsFirst]
  | append_singleton others next ih =>
    rw [← List.append_assoc, isFirst_concat, ih, isFirst_concat, List.forall_mem_append]
    tauto

/-- Where claims are in the order of their positions, the first on a node is the one with the least position. -/
theorem isFirst_iff_of_pairwise {claims : List Claim} {claim : Claim}
    (sorted : claims.Pairwise (·.position < ·.position)) :
    IsFirst claims claim ↔
      claim ∈ claims ∧ ∀ other ∈ claims, other.node.id = claim.node.id → claim.position ≤ other.position := by
  constructor
  · intro first
    refine ⟨first.mem, fun other member same => ?_⟩
    obtain ⟨before, after, rfl, apart⟩ := first
    rcases List.mem_append.mp member with early | late
    · exact absurd same (apart other early)
    · rcases List.mem_cons.mp late with rfl | late
      · exact Nat.le_refl _
      · exact Nat.le_of_lt ((List.pairwise_cons.mp (List.pairwise_append.mp sorted).2.1).1 other late)
  · intro given
    obtain ⟨member, least⟩ := given
    obtain ⟨before, after, rfl⟩ := List.append_of_mem member
    refine ⟨before, after, rfl, fun other early same => ?_⟩
    have earlier := (List.pairwise_append.mp sorted).2.2 other early claim List.mem_cons_self
    exact absurd (least other (List.mem_append_left _ early) same) (Nat.not_le_of_lt earlier)

theorem foldl_claim_concat (claims : List Claim) (next : Claim) :
    (claims ++ [next]).foldl claim [] = claim (claims.foldl claim []) next := by
  simp only [List.foldl_append, List.foldl_cons, List.foldl_nil]

theorem exists_mem_foldl_claim (claims : List Claim) (id : Text) :
    (∃ kept ∈ claims.foldl claim [], kept.node.id = id) ↔ ∃ claim ∈ claims, claim.node.id = id := by
  induction claims using List.reverseRecOn with
  | nil => simp
  | append_singleton claims next ih =>
    rw [foldl_claim_concat, claim]
    split
    next known =>
      obtain ⟨kept, member, same⟩ := List.any_eq_true.mp known
      grind
    next => grind

theorem mem_foldl_claim {claims : List Claim} {kept : Claim} :
    kept ∈ claims.foldl claim [] ↔ IsFirst claims kept := by
  induction claims using List.reverseRecOn with
  | nil => simp [IsFirst]
  | append_singleton claims next ih =>
    have known := exists_mem_foldl_claim claims next.node.id
    rw [foldl_claim_concat, isFirst_concat, ← ih, claim]
    grind

theorem nodup_foldl_claim (claims : List Claim) :
    ((claims.foldl claim []).map (·.node.id)).Nodup := by
  induction claims using List.reverseRecOn with
  | nil => simp
  | append_singleton claims next ih =>
    rw [foldl_claim_concat, claim]
    split
    · exact ih
    next fresh =>
      rw [List.map_append, List.nodup_append]
      refine ⟨ih, by simp, ?_⟩
      simpa using fresh

theorem foldl_claim_sublist (claims : List Claim) : (claims.foldl claim []).Sublist claims := by
  induction claims using List.reverseRecOn with
  | nil => exact .slnil
  | append_singleton claims next ih =>
    rw [foldl_claim_concat, claim]
    split
    · exact ih.trans (List.sublist_append_left _ _)
    · exact ih.append_right _

theorem exists_claim_of_mem_inTagOrder {claims : List Claim} {node : Node} (member : node ∈ inTagOrder claims) :
    ∃ claim ∈ claims, claim.node = node := by
  obtain ⟨claim, inside, same⟩ := List.mem_map.mp member
  exact ⟨claim, (mem_foldl_claim.mp (List.mem_mergeSort.mp inside)).mem, same⟩

theorem exists_ordered_claims {claims : List Claim} (apart : (claims.map Claim.position).Nodup) :
    ∃ ordered : List Claim, inTagOrder claims = ordered.map Claim.node ∧
      ordered.Pairwise (·.position < ·.position) ∧ (ordered.map (·.node.id)).Nodup ∧
      ∀ claim, claim ∈ ordered ↔ IsFirst claims claim := by
  let ordered := (claims.foldl claim []).mergeSort fun a b => a.position ≤ b.position
  have perm : ordered.Perm (claims.foldl claim []) := List.mergeSort_perm _ _
  have sorted : ordered.Pairwise fun a b => decide (a.position ≤ b.position) = true :=
    List.pairwise_mergeSort (by simp; omega) (by simp; omega) _
  have positions : ordered.Pairwise fun a b => a.position ≠ b.position :=
    List.pairwise_map.mp (((perm.map Claim.position).nodup_iff).mpr
      (apart.sublist ((foldl_claim_sublist claims).map Claim.position)))
  refine ⟨ordered, rfl, ?_, ((perm.map _).nodup_iff).mpr (nodup_foldl_claim claims), fun claim => ?_⟩
  · exact (sorted.and positions).imp fun ⟨le, ne⟩ => Nat.lt_of_le_of_ne (of_decide_eq_true le) ne
  · exact perm.mem_iff.trans mem_foldl_claim

end Bindery.Graph.Resolver
