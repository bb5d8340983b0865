import Bindery.Proofs.KeyedLists
import Bindery.Proofs.NewestNode

/-! Lists of nodes brought down to one node for each coordinate. Coordinates are listed as they come up, each with the
first of the latest nodes there. So the order of the nodes counts only for how coordinates come up and which of several
latest nodes is first, and nothing is lost with the nodes that give way. -/

namespace Bindery.Graph

/-- The coordinates of nodes, in order of first appearance. -/
def coordinatesOf (nodes : List Node) : List Coordinate :=
  (nodes.filterMap Node.coordinate).eraseDups

/-- The latest nodes at a coordinate, in order. -/
def latestAt (nodes : List Node) (coordinate : Coordinate) : List Node :=
  nodes.filter (IsLatest nodes coordinate ·)

/-- Different nodes are the latest at a coordinate. -/
def IsTied (nodes : List Node) (coordinate : Coordinate) : Prop :=
  ∃ node other, IsLatest nodes coordinate node ∧ IsLatest nodes coordinate other ∧ node ≠ other

/-- If there is a tie at a coordinate, its nodes come in the same order. -/
def TiedAlike (nodes others : List Node) (coordinate : Coordinate) : Prop :=
  IsTied nodes coordinate → latestAt others coordinate = latestAt nodes coordinate

/-- The place at which the first of the latest nodes at a coordinate stands. -/
def placeOfNewest? (nodes : List Node) (coordinate : Coordinate) : Option Nat :=
  nodes.findIdx? (IsLatest nodes coordinate ·)

/-- The nodes at some of the places of a list. -/
def keptAt (keeps : Nat → Bool) (nodes : List Node) : List Node :=
  (nodes.zipIdx.filter fun entry => keeps entry.2).map Prod.fst

variable {nodes others before after : List Node} {newest : List (Coordinate × Node)} {coordinate : Coordinate} {node other : Node}

/-! ### The coordinates that are listed -/

theorem keepNewest_of_coordinate (there : node.coordinate = some coordinate) :
    keepNewest newest node = keepNewer newest coordinate node := by
  rw [keepNewest, there]

theorem keepNewer_of_notMem (absent : coordinate ∉ newest.map Prod.fst) :
    keepNewer newest coordinate node = newest ++ [(coordinate, node)] := by
  fun_induction keepNewer newest coordinate node with
  | case1 => rfl
  | case2 => exact absurd List.mem_cons_self absent
  | case3 first kept rest different ih =>
    rw [ih fun member => absent (List.mem_cons_of_mem _ member)]
    rfl

theorem keys_keepNewer_of_mem (present : coordinate ∈ newest.map Prod.fst) :
    (keepNewer newest coordinate node).map Prod.fst = newest.map Prod.fst := by
  fun_induction keepNewer newest coordinate node with
  | case1 => cases present
  | case2 => rfl
  | case3 first kept rest different ih =>
    have later := (List.mem_cons.mp present).resolve_left (Ne.symm different)
    rw [List.map_cons, List.map_cons, ih later]

theorem keys_newestByCoordinate : (newestByCoordinate nodes).map Prod.fst = coordinatesOf nodes := by
  induction nodes using List.reverseRecOn with
  | nil => rfl
  | append_singleton nodes next ih =>
    rw [newestByCoordinate_concat, coordinatesOf, List.filterMap_append]
    cases there : next.coordinate with
    | none => simpa [keepNewest, there, coordinatesOf] using ih
    | some coordinate =>
      have listed : coordinate ∈ (newestByCoordinate nodes).map Prod.fst ↔ coordinate ∈ nodes.filterMap Node.coordinate := by
        rw [ih, coordinatesOf, List.mem_eraseDups]
      have own : [next].filterMap Node.coordinate = [coordinate] := by simp [there]
      rw [keepNewest_of_coordinate there, own, eraseDups_concat]
      split
      next before => rw [keys_keepNewer_of_mem (listed.mpr before), ih, coordinatesOf]
      next fresh => rw [keepNewer_of_notMem (mt listed.mp fresh), List.map_append, ih, coordinatesOf, List.map_singleton]

theorem nodup_keys : ((newestByCoordinate nodes).map Prod.fst).Nodup := by
  rw [keys_newestByCoordinate]
  exact nodup_eraseDups _

/-- Lists that lead to the same node at each coordinate are brought down to the same, up to order. -/
theorem newestByCoordinate_perm
    (alike : ∀ coordinate, nodeAt? (newestByCoordinate others) coordinate = nodeAt? (newestByCoordinate nodes) coordinate) :
    (newestByCoordinate others).Perm (newestByCoordinate nodes) :=
  perm_of_lookup_eq nodup_keys nodup_keys alike

theorem newestByCoordinate_eq (sameOrder : coordinatesOf others = coordinatesOf nodes)
    (alike : ∀ coordinate, nodeAt? (newestByCoordinate others) coordinate = nodeAt? (newestByCoordinate nodes) coordinate) :
    newestByCoordinate others = newestByCoordinate nodes := by
  apply eq_of_lookup_eq nodup_keys _ alike
  rw [keys_newestByCoordinate, keys_newestByCoordinate, sameOrder]

/-! ### Bringing down again -/

theorem newestByCoordinate_values (distinct : (newest.map Prod.fst).Nodup)
    (own : ∀ entry ∈ newest, entry.2.coordinate = some entry.1) :
    newestByCoordinate (newest.map Prod.snd) = newest := by
  -- The last coordinate is none of those before it, so the last node is put last again.
  induction newest using List.reverseRecOn with
  | nil => rfl
  | append_singleton newest entry ih =>
    rw [List.map_append, List.map_singleton, List.nodup_append] at distinct
    obtain ⟨distinct, _, apart⟩ := distinct
    obtain ⟨earlier, there⟩ := List.forall_mem_append.mp own
    have fresh : entry.1 ∉ newest.map Prod.fst := fun member => apart _ member _ (List.mem_singleton_self _) rfl
    rw [List.map_append, List.map_singleton, newestByCoordinate_concat, ih distinct earlier,
      keepNewest_of_coordinate (there entry (List.mem_singleton_self entry)), keepNewer_of_notMem fresh]

theorem coordinate_of_mem {entry : Coordinate × Node} (member : entry ∈ newestByCoordinate nodes) :
    entry.2.coordinate = some entry.1 :=
  (of_nodeAt?_newestByCoordinate ((lookup_eq_some_iff_mem nodup_keys).mpr member)).2

/-! ### The first of the latest nodes -/

theorem IsLatest.not_of_older (latest : IsLatest nodes coordinate node)
    (older : other.coordinate = some coordinate → other.createdAt < node.createdAt) : ¬ IsLatest nodes coordinate other := by
  intro also
  exact absurd (also.latest node latest.stored latest.there) (Int.not_le.mpr (older also.there))

theorem IsLatest.older_of_not (latest : IsLatest nodes coordinate node) (stored : other ∈ nodes)
    (there : other.coordinate = some coordinate) (outdone : ¬ IsLatest nodes coordinate other) :
    other.createdAt < node.createdAt := by
  have differs : other.createdAt ≠ node.createdAt := fun same => outdone ⟨stored, there, same ▸ latest.latest⟩
  exact Int.lt_iff_le_and_ne.mpr ⟨latest.latest other stored there, differs⟩

theorem isNewest_iff_find? : IsNewest nodes coordinate node ↔ nodes.find? (IsLatest nodes coordinate ·) = some node := by
  rw [List.find?_eq_some_iff_append]
  constructor
  · intro newest
    have latest := newest.isLatest
    obtain ⟨there, before, after, rfl, older, _⟩ := newest
    refine ⟨decide_eq_true latest, before, after, rfl, fun other early => ?_⟩
    simpa using latest.not_of_older (older other early)
  · intro found
    obtain ⟨latest, before, after, rfl, outdone⟩ := found
    have latest := of_decide_eq_true latest
    refine ⟨latest.there, before, after, rfl, fun other early there => ?_, fun other late => ?_⟩
    · exact latest.older_of_not (List.mem_append_left _ early) there (by simpa using outdone other early)
    · exact latest.latest other (List.mem_append_right _ (List.mem_cons_of_mem _ late))

theorem nodeAt?_newestByCoordinate_eq_find? :
    nodeAt? (newestByCoordinate nodes) coordinate = nodes.find? (IsLatest nodes coordinate ·) :=
  Option.ext fun _ => nodeAt?_newestByCoordinate_eq_some.trans isNewest_iff_find?

theorem nodeAt?_newestByCoordinate_eq_head? :
    nodeAt? (newestByCoordinate nodes) coordinate = (latestAt nodes coordinate).head? := by
  rw [nodeAt?_newestByCoordinate_eq_find?, latestAt, List.head?_filter]

/-! ### Nodes in another order -/

theorem mem_latestAt : node ∈ latestAt nodes coordinate ↔ IsLatest nodes coordinate node := by
  rw [latestAt, List.mem_filter, decide_eq_true_iff]
  exact and_iff_right_of_imp IsLatest.stored

theorem latestAt_perm (order : others.Perm nodes) : (latestAt others coordinate).Perm (latestAt nodes coordinate) := by
  have same : latestAt others coordinate = others.filter (IsLatest nodes coordinate ·) :=
    List.filter_congr fun _ _ => decide_eq_decide.mpr (isLatest_congr fun _ _ => order.mem_iff)
  rw [same]
  exact order.filter _

/-- Only where there is a tie does it matter in which order nodes come. -/
theorem nodeAt?_of_perm (order : others.Perm nodes) (alike : TiedAlike nodes others coordinate) :
    nodeAt? (newestByCoordinate others) coordinate = nodeAt? (newestByCoordinate nodes) coordinate := by
  rw [nodeAt?_newestByCoordinate_eq_head?, nodeAt?_newestByCoordinate_eq_head?]
  -- Without a tie the latest nodes are all the same, whichever of them comes first.
  by_cases tied : IsTied nodes coordinate
  · rw [alike tied]
  · have moved : (latestAt others coordinate).Perm (latestAt nodes coordinate) := latestAt_perm order
    cases first : latestAt nodes coordinate with
    | nil =>
      rw [first] at moved
      rw [moved.eq_nil]
    | cons node rest =>
      cases firstOther : latestAt others coordinate with
      | nil =>
        rw [firstOther, first] at moved
        cases moved.nil_eq
      | cons other more =>
        have latest : IsLatest nodes coordinate node := mem_latestAt.mp (first ▸ List.mem_cons_self)
        have also : IsLatest nodes coordinate other := mem_latestAt.mp (moved.subset (firstOther ▸ List.mem_cons_self))
        have same : other = node := by
          by_contra differs
          exact tied ⟨other, node, also, latest, differs⟩
        rw [List.head?_cons, List.head?_cons, same]

/-! ### Some of the nodes -/

theorem map_fst_filter_zipIdx_subset {α : Type} (items : List α) (start : Nat) (p : α × Nat → Bool) :
    ((items.zipIdx start).filter p).map Prod.fst ⊆ items := by
  have part : ((items.zipIdx start).filter p).Sublist (items.zipIdx start) := List.filter_sublist
  have firsts := (part.map Prod.fst).subset
  rwa [List.zipIdx_map_fst] at firsts

theorem keptAt_subset (keeps : Nat → Bool) : keptAt keeps nodes ⊆ nodes :=
  map_fst_filter_zipIdx_subset nodes 0 _

/-- A node that is kept stands between what is kept before it and what is kept after it. -/
theorem exists_keptAt_append {keeps : Nat → Bool} (kept : keeps before.length = true) :
    ∃ earlier later, keptAt keeps (before ++ node :: after) = earlier ++ node :: later ∧ earlier ⊆ before ∧ later ⊆ after := by
  refine ⟨_, _, ?_, keptAt_subset keeps, map_fst_filter_zipIdx_subset after (before.length + 1) (keeps ·.2)⟩
  rw [keptAt, List.zipIdx_append, List.zipIdx_cons, List.filter_append, List.filter_cons, Nat.zero_add, if_pos kept,
    List.map_append, List.map_cons]
  rfl

theorem placeOfNewest?_eq (latest : IsLatest (before ++ node :: after) coordinate node)
    (older : ∀ other ∈ before, other.coordinate = some coordinate → other.createdAt < node.createdAt) :
    placeOfNewest? (before ++ node :: after) coordinate = some before.length := by
  have outdone : before.findIdx? (IsLatest (before ++ node :: after) coordinate ·) = none :=
    List.findIdx?_eq_none_iff.mpr fun other early => decide_eq_false (latest.not_of_older (older other early))
  rw [placeOfNewest?, List.findIdx?_append, outdone, List.findIdx?_cons, if_pos (decide_eq_true latest)]
  simp

/-- A coordinate leads to the same node as before if that node is among those that are kept. -/
theorem nodeAt?_keptAt {keeps : Nat → Bool} (kept : ∀ place, placeOfNewest? nodes coordinate = some place → keeps place = true) :
    nodeAt? (newestByCoordinate (keptAt keeps nodes)) coordinate = nodeAt? (newestByCoordinate nodes) coordinate := by
  apply nodeAt?_newestByCoordinate_of_part (keptAt_subset keeps)
  intro node newest
  have latest := newest.isLatest
  obtain ⟨there, before, after, rfl, older, notNewer⟩ := newest
  obtain ⟨earlier, later, parts, early, late⟩ := exists_keptAt_append (kept _ (placeOfNewest?_eq latest older))
  refine ⟨there, earlier, later, parts, fun other member => ?_, fun other member => ?_⟩
  · exact older other (early member)
  · exact notNewer other (late member)

/-- Coordinates are listed as they come up, each with the first of the latest nodes there. The order of the nodes counts
for nothing else. What is left is not brought down further, and any other nodes may be left out beforehand. -/
theorem collapses_to_first_of_latest (nodes : List Node) :
    (newestByCoordinate nodes).map Prod.fst = coordinatesOf nodes ∧
      (∀ coordinate, nodeAt? (newestByCoordinate nodes) coordinate = nodes.find? (IsLatest nodes coordinate ·)) ∧
      (∀ others, others.Perm nodes →
        (∀ coordinate, TiedAlike nodes others coordinate →
          nodeAt? (newestByCoordinate others) coordinate = nodeAt? (newestByCoordinate nodes) coordinate) ∧
        ((∀ coordinate, TiedAlike nodes others coordinate) →
          (newestByCoordinate others).Perm (newestByCoordinate nodes) ∧
            (coordinatesOf others = coordinatesOf nodes → newestByCoordinate others = newestByCoordinate nodes))) ∧
      newestByCoordinate ((newestByCoordinate nodes).map Prod.snd) = newestByCoordinate nodes ∧
      ∀ keeps : Nat → Bool, (∀ coordinate place, placeOfNewest? nodes coordinate = some place → keeps place = true) →
        (newestByCoordinate (keptAt keeps nodes)).Perm (newestByCoordinate nodes) := by
  refine ⟨keys_newestByCoordinate, fun _ => nodeAt?_newestByCoordinate_eq_find?, ?_, ?_, ?_⟩
  · intro others order
    refine ⟨fun coordinate => nodeAt?_of_perm order, fun alike => ?_⟩
    have same : ∀ coordinate, nodeAt? (newestByCoordinate others) coordinate = nodeAt? (newestByCoordinate nodes) coordinate :=
      fun coordinate => nodeAt?_of_perm order (alike coordinate)
    exact ⟨newestByCoordinate_perm same, fun sameOrder => newestByCoordinate_eq sameOrder same⟩
  · exact newestByCoordinate_values nodup_keys fun entry => coordinate_of_mem
  · intro keeps kept
    exact newestByCoordinate_perm fun coordinate => nodeAt?_keptAt (kept coordinate)

/-! ### Printed sheets -/

def sheet (id name : Text) (createdAt : Int) : Node where
  id := id
  owner := "alice"
  kind := .leaf
  kindNumber := some 30041
  tags := [⟨"d", name⟩]
  body := ""
  createdAt := createdAt

/-- A page was drafted and printed twice on one day. The inlay has no name. -/
def sheets : List Node :=
  [sheet "draft" "page" 1, sheet "cover" "cover" 5, sheet "print" "page" 2, sheet "inlay" "" 7, sheet "reprint" "page" 2]

example : coordinatesOf sheets = [⟨30041, "alice", "page"⟩, ⟨30041, "alice", "cover"⟩] := by decide

def shuffledSheets : List Node :=
  [sheet "inlay" "" 7, sheet "print" "page" 2, sheet "reprint" "page" 2, sheet "cover" "cover" 5, sheet "draft" "page" 1]

theorem mem_coordinates_of_placeOfNewest? {place : Nat} (found : placeOfNewest? nodes coordinate = some place) :
    coordinate ∈ nodes.filterMap Node.coordinate := by
  obtain ⟨inside, latest, _⟩ := List.findIdx?_eq_some_iff_getElem.mp found
  have latest := of_decide_eq_true latest
  exact List.mem_filterMap.mpr ⟨nodes[place], latest.stored, latest.there⟩

theorem sheets_collapse :
    IsTied sheets ⟨30041, "alice", "page"⟩ ∧
      newestByCoordinate shuffledSheets = newestByCoordinate sheets ∧
      (newestByCoordinate [sheet "cover" "cover" 5, sheet "print" "page" 2]).Perm (newestByCoordinate sheets) := by
  obtain ⟨_, _, reordered, _, left⟩ := collapses_to_first_of_latest sheets
  have tied : IsTied sheets ⟨30041, "alice", "page"⟩ :=
    ⟨sheet "print" "page" 2, sheet "reprint" "page" 2, by decide, by decide, by decide⟩
  have alike : ∀ coordinate, TiedAlike sheets shuffledSheets coordinate := by
    intro coordinate tied
    obtain ⟨node, _, latest, _⟩ := tied
    have checked : ∀ coordinate ∈ sheets.filterMap Node.coordinate,
        latestAt shuffledSheets coordinate = latestAt sheets coordinate := by decide
    exact checked coordinate (List.mem_filterMap.mpr ⟨node, latest.stored, latest.there⟩)
  have kept : ∀ coordinate place, placeOfNewest? sheets coordinate = some place → (place == 1 || place == 2) = true := by
    intro coordinate place found
    have checked : ∀ coordinate ∈ sheets.filterMap Node.coordinate,
        (placeOfNewest? sheets coordinate).all (fun place => place == 1 || place == 2) = true := by decide
    have checked := checked coordinate (mem_coordinates_of_placeOfNewest? found)
    rwa [found, Option.all_some] at checked
  exact ⟨tied, ((reordered shuffledSheets (by decide)).2 alike).2 (by decide), left _ kept⟩

end Bindery.Graph
