import Bindery.Node.Basic

/-! Where nodes are looked up. A store is asked for several ids or several coordinates at once; it may
answer with fewer nodes, with other nodes, or not at all, and it may answer differently each time. Only
the ids it can ever answer with are known beforehand, and they are finitely many. -/

namespace Bindery.Graph

inductive Selector where
  | atCoordinates (coordinates : List Coordinate)
  | withIds (ids : List Text)
  deriving DecidableEq, Repr

namespace Selector

/-- Whether more than one thing is asked for. -/
def isMany : Selector → Bool
  | .atCoordinates coordinates => coordinates.length > 1
  | .withIds ids => ids.length > 1

def asksForIds : Selector → Bool
  | .withIds _ => true
  | .atCoordinates _ => false

end Selector

/-- An answer may depend on all that was asked before; `none` is a failed query. -/
structure Store where
  ids : List Text
  answer : List Selector → Selector → Option (List Node)
  known : ∀ asked selector nodes, answer asked selector = some nodes → ∀ node ∈ nodes, node.id ∈ ids

/-- Of two equally new nodes the first stays. -/
def newer (kept node : Node) : Node :=
  if kept.createdAt < node.createdAt then node else kept

/-- Puts a node under its coordinate, where the newer one stays. -/
def keepNewer (newest : List (Coordinate × Node)) (coordinate : Coordinate) (node : Node) :
    List (Coordinate × Node) :=
  match newest with
  | [] => [(coordinate, node)]
  | (other, kept) :: rest =>
    if other = coordinate then (other, newer kept node) :: rest
    else (other, kept) :: keepNewer rest coordinate node

/-- A node without a coordinate is left out. -/
def keepNewest (newest : List (Coordinate × Node)) (node : Node) : List (Coordinate × Node) :=
  match node.coordinate with
  | none => newest
  | some coordinate => keepNewer newest coordinate node

/-- One node for each coordinate, in order of first appearance. -/
def newestByCoordinate (nodes : List Node) : List (Coordinate × Node) :=
  nodes.foldl keepNewest []

def nodeAt? (newest : List (Coordinate × Node)) (coordinate : Coordinate) : Option Node :=
  newest.lookup coordinate

@[simp] theorem nodeAt?_nil (coordinate : Coordinate) : nodeAt? [] coordinate = none := rfl

@[simp] theorem nodeAt?_cons (first coordinate : Coordinate) (node : Node) (rest : List (Coordinate × Node)) :
    nodeAt? ((first, node) :: rest) coordinate =
      if coordinate = first then some node else nodeAt? rest coordinate := by
  by_cases same : coordinate = first
  · simp [nodeAt?, same]
  · simp [nodeAt?, List.lookup_cons, beq_eq_false_iff_ne.mpr same, same]

theorem nodeAt?_keepNewer (newest : List (Coordinate × Node)) (coordinate other : Coordinate) (node : Node) :
    nodeAt? (keepNewer newest coordinate node) other =
      if other = coordinate then some ((nodeAt? newest coordinate).elim node (newer · node))
      else nodeAt? newest other := by
  fun_induction keepNewer newest coordinate node with
  | case1 => simp
  | case2 => grind [nodeAt?_cons]
  | case3 first kept rest different ih =>
    simp only [nodeAt?_cons, ih, if_neg (Ne.symm different)]
    by_cases same : other = first
    · simp [same, different]
    · simp [same]

theorem nodeAt?_keepNewest (newest : List (Coordinate × Node)) (node : Node) (coordinate : Coordinate) :
    nodeAt? (keepNewest newest node) coordinate =
      if node.coordinate = some coordinate then some ((nodeAt? newest coordinate).elim node (newer · node))
      else nodeAt? newest coordinate := by
  unfold keepNewest
  cases node.coordinate with
  | none => simp
  | some own =>
    simp only [nodeAt?_keepNewer, Option.some.injEq]
    by_cases same : coordinate = own
    · simp [same]
    · simp [same, Ne.symm same]

private theorem nodeAt?_foldl_keepNewest {nodes : List Node} {newest : List (Coordinate × Node)}
    {coordinate : Coordinate} {node : Node}
    (found : nodeAt? (nodes.foldl keepNewest newest) coordinate = some node) :
    nodeAt? newest coordinate = some node ∨ node ∈ nodes ∧ node.coordinate = some coordinate := by
  induction nodes generalizing newest with
  | nil => exact Or.inl found
  | cons first rest ih =>
    rcases ih found with old | ⟨member, own⟩
    · rw [nodeAt?_keepNewest] at old
      split at old
      next own =>
        cases kept : nodeAt? newest coordinate with
        | none => simp_all
        | some other =>
          simp only [kept, Option.elim_some, newer, Option.some.injEq] at old
          split at old <;> simp_all
      next => exact Or.inl old
    · exact Or.inr ⟨List.mem_cons_of_mem _ member, own⟩

theorem of_nodeAt?_newestByCoordinate {nodes : List Node} {coordinate : Coordinate} {node : Node}
    (found : nodeAt? (newestByCoordinate nodes) coordinate = some node) :
    node ∈ nodes ∧ node.coordinate = some coordinate :=
  (nodeAt?_foldl_keepNewest found).resolve_left (by simp)

/-- Nodes held in memory, one for each id. -/
structure Shelf where
  nodes : List Node
  distinct : (nodes.map Node.id).Nodup
  deriving DecidableEq, Repr

namespace Shelf

def empty : Shelf := ⟨[], List.nodup_nil⟩

/-- A node takes the place of the one with its id, or the last place. -/
def put (shelf : Shelf) (node : Node) : Shelf :=
  if known : shelf.nodes.any (·.id = node.id) then
    ⟨shelf.nodes.map fun other => if other.id = node.id then node else other, by
      have same : Node.id ∘ (fun other => if other.id = node.id then node else other) = Node.id := by
        funext other
        simp only [Function.comp_apply]
        split <;> simp_all
      simpa only [List.map_map, same] using shelf.distinct⟩
  else
    ⟨shelf.nodes ++ [node], by
      have fresh : ∀ other ∈ shelf.nodes, other.id ≠ node.id := by simpa using known
      simp only [List.map_append, List.nodup_append]
      refine ⟨shelf.distinct, by simp, ?_⟩
      simpa using fresh⟩

def ofNodes (nodes : List Node) : Shelf :=
  nodes.foldl put empty

def withId? (shelf : Shelf) (id : Text) : Option Node :=
  shelf.nodes.find? (·.id = id)

/-- The newest node at a coordinate. -/
def at? (shelf : Shelf) (coordinate : Coordinate) : Option Node :=
  nodeAt? (newestByCoordinate shelf.nodes) coordinate

/-- Answers in the order of the selector. -/
def find (shelf : Shelf) : Selector → List Node
  | .withIds ids => ids.filterMap shelf.withId?
  | .atCoordinates coordinates => coordinates.filterMap shelf.at?

theorem mem_of_mem_find {shelf : Shelf} {selector : Selector} {node : Node}
    (member : node ∈ shelf.find selector) : node ∈ shelf.nodes := by
  cases selector with
  | withIds ids =>
    obtain ⟨id, _, found⟩ := List.mem_filterMap.mp member
    exact List.mem_of_find?_eq_some found
  | atCoordinates coordinates =>
    obtain ⟨coordinate, _, found⟩ := List.mem_filterMap.mp member
    exact (of_nodeAt?_newestByCoordinate found).1

def toStore (shelf : Shelf) : Store where
  ids := shelf.nodes.map Node.id
  answer _ selector := some (shelf.find selector)
  known _ selector nodes answered node member := by
    cases answered
    exact List.mem_map_of_mem (mem_of_mem_find member)

end Shelf

/-- Ways in which a store over a shelf falls short of answering every question exactly. -/
inductive Shortfall where
  | none
  | onlyFirstOfMany
  | everythingEachTime
  | alwaysFails
  | failsForMany
  | failsForIds
  deriving DecidableEq, Repr

namespace Shortfall

def answer (shortfall : Shortfall) (shelf : Shelf) (selector : Selector) : Option (List Node) :=
  match shortfall with
  | .none => some (shelf.find selector)
  | .onlyFirstOfMany =>
    some (if selector.isMany then (shelf.find selector).take 1 else shelf.find selector)
  | .everythingEachTime => some shelf.nodes
  | .alwaysFails => Option.none
  | .failsForMany => if selector.isMany then Option.none else some (shelf.find selector)
  | .failsForIds => if selector.asksForIds then Option.none else some (shelf.find selector)

theorem mem_of_answer {shortfall : Shortfall} {shelf : Shelf} {selector : Selector} {nodes : List Node}
    (answered : shortfall.answer shelf selector = some nodes) {node : Node} (member : node ∈ nodes) :
    node ∈ shelf.nodes := by
  have found : node ∈ shelf.find selector ∨ node ∈ shelf.nodes := by
    cases shortfall with
    | none | failsForMany | failsForIds => simp_all [answer]
    | everythingEachTime | alwaysFails => simp_all [answer]
    | onlyFirstOfMany =>
      simp only [answer, Option.some.injEq] at answered
      subst answered
      split at member
      · exact Or.inl (List.mem_of_mem_take member)
      · exact Or.inl member
  exact found.elim Shelf.mem_of_mem_find id

def store (shortfall : Shortfall) (shelf : Shelf) : Store where
  ids := shelf.nodes.map Node.id
  answer _ selector := shortfall.answer shelf selector
  known _ _ _ answered _ member := List.mem_map_of_mem (mem_of_answer answered member)

end Shortfall
end Bindery.Graph
