import Bindery.Graph.Basic
import Bindery.Graph.Inquiry

/-! Resolving an index into a graph. Its tags name nodes by coordinate and by id; the nodes found become
entries in the order of those tags, and an index among them is resolved in turn. A node is never
entered below itself. What cannot be found, or is malformed, makes the graph smaller. -/

namespace Bindery.Graph

/-- The kinds of nodes that coordinates may lead to. -/
structure Resolver where
  store : Store
  indexKinds : List Int
  leafKinds : List Int

/-- An inquiry that breaks off where a coordinate holds a number that cannot be read. -/
abbrev Resolving := ExceptT NumberError Inquiry

def Resolving.notice (notice : Notice) : Resolving Unit :=
  ExceptT.lift (Inquiry.notice notice)

/-- A tag that names another node, at its position among the tags. -/
structure Edge (α : Type) where
  position : Nat
  target : α
  deriving DecidableEq, Repr

/-- The usable tags of a root. -/
structure Edges where
  coordinates : List (Edge Coordinate)
  ids : List (Edge Text)
  deriving DecidableEq, Repr

namespace Resolver
open Resolving

def supports (resolver : Resolver) (kind : Int) : Bool :=
  resolver.indexKinds.contains kind || resolver.leafKinds.contains kind

/-- The coordinate that a tag leads to, if it is of use. -/
def coordinateTarget (resolver : Resolver) (root : Node) (value : Text) :
    Resolving (Option Coordinate) := do
  match ← Coordinate.parse value with
  | none =>
    notice (.malformedCoordinate value root.id)
    return none
  | some coordinate =>
    if root.coordinate = some coordinate then
      notice (.ownCoordinate coordinate root.id)
      return none
    else if !resolver.supports coordinate.kind then
      notice (.unsupportedKind coordinate root.id)
      return none
    else return some coordinate

/-- The id that a tag leads to, if it is of use. -/
def idTarget (visited : List Text) (root : Node) (value : Text) : Resolving (Option Text) := do
  if value = root.id then
    notice (.ownId root.id)
    return none
  else if visited.contains value then
    notice (.circular root.id value)
    return none
  else return some value

def edgesFrom (resolver : Resolver) (visited : List Text) (root : Node) (position : Nat) :
    List Tag → Resolving Edges
  | [] => return ⟨[], []⟩
  | tag :: tags => do
    if tag.key = "a" then
      let target ← resolver.coordinateTarget root tag.value
      let rest ← resolver.edgesFrom visited root (position + 1) tags
      return { rest with coordinates := (target.map (⟨position, ·⟩)).toList ++ rest.coordinates }
    else if tag.key = "e" && !tag.value.isEmpty then
      let target ← idTarget visited root tag.value
      let rest ← resolver.edgesFrom visited root (position + 1) tags
      return { rest with ids := (target.map (⟨position, ·⟩)).toList ++ rest.ids }
    else resolver.edgesFrom visited root (position + 1) tags

def edges (resolver : Resolver) (visited : List Text) (root : Node) : Resolving Edges :=
  resolver.edgesFrom visited root 0 root.tags

/-- Of several nodes with one id the last counts. -/
def nodeWithId? (nodes : List Node) (id : Text) : Option Node :=
  nodes.reverse.find? (·.id = id)

/-- How nodes are looked for by keys of one sort. -/
structure Search (κ : Type) where
  selector : List κ → Selector
  find? : List Node → κ → Option Node
  notFound : κ → Notice

namespace Search
variable {κ : Type}

def byCoordinate : Search Coordinate where
  selector := .atCoordinates
  find? nodes := nodeAt? (newestByCoordinate nodes)
  notFound := .coordinateNotFound

def byId : Search Text where
  selector := .withIds
  find? := nodeWithId?
  notFound := .idNotFound

/-- Asks again, alone, for each key that was not found. -/
def retry (search : Search κ) (found : κ → Option Node) : List κ → Inquiry (List (κ × Node))
  | [] => return []
  | key :: rest => do
    match found key with
    | some node => return (key, node) :: (← search.retry found rest)
    | none =>
      match search.find? (← Inquiry.ask (search.selector [key])) key with
      | some node => return (key, node) :: (← search.retry found rest)
      | none =>
        Inquiry.notice (search.notFound key)
        search.retry found rest

/-- The nodes with some keys; each key is there once. -/
def fetch (search : Search κ) (keys : List κ) : Inquiry (List (κ × Node)) := do
  let nodes ← Inquiry.ask (search.selector keys)
  search.retry (search.find? nodes) keys

end Search

/-- Coordinates by kind, kinds and coordinates in order of first appearance. -/
def batches (coordinates : List Coordinate) : List (List Coordinate) :=
  (coordinates.map Coordinate.kind).eraseDups.map fun kind =>
    (coordinates.filter (·.kind = kind)).eraseDups

/-- Nodes by what they were asked for. -/
structure Found where
  byCoordinate : List (Coordinate × Node)
  byId : List (Text × Node)

/-- One inquiry for each batch of coordinates, and one for all ids if there are any. Each is a read of its
own. -/
def inquiries (edges : Edges) : List (Inquiry Found) :=
  let ids := (edges.ids.map Edge.target).eraseDups
  (batches (edges.coordinates.map Edge.target)).map (fun batch => do
      return ⟨← Search.byCoordinate.fetch batch, []⟩)
    ++ if ids.isEmpty then [] else [do return ⟨[], ← Search.byId.fetch ids⟩]

/-- The nodes that edges lead to. -/
def fetch (workers : Workers) (visited : List Text) (edges : Edges) : Inquiry Found := do
  let found ← workers.carryOut visited (inquiries edges)
  return ⟨found.flatMap Found.byCoordinate, found.flatMap Found.byId⟩

/-- A node with the position of the tag that leads to it first. -/
structure Claim where
  position : Nat
  node : Node
  deriving DecidableEq, Repr

/-- The first claim on a node counts. -/
def claim (claims : List Claim) (next : Claim) : List Claim :=
  if claims.any (·.node.id = next.node.id) then claims else claims ++ [next]

/-- Claims of the edges whose targets were found. -/
def claimsOf {α : Type} (found : α → Option Node) (edges : List (Edge α)) : List Claim :=
  edges.filterMap fun edge => (found edge.target).map (⟨edge.position, ·⟩)

/-- Edges by coordinate come before all edges by id. -/
def claims (edges : Edges) (found : Found) : List Claim :=
  claimsOf (found.byCoordinate.lookup ·) edges.coordinates ++ claimsOf (found.byId.lookup ·) edges.ids

/-- The nodes of the first claims, in the order of the tags. -/
def inTagOrder (claims : List Claim) : List Node :=
  ((claims.foldl claim []).mergeSort fun a b => a.position ≤ b.position).map Claim.node

/-- The nodes that a root leads to, in the order of its tags. -/
def linked (resolver : Resolver) (workers : Workers) (visited : List Text) (root : Node) :
    Resolving (List Node) := do
  let edges ← resolver.edges visited root
  let found ← ExceptT.lift (fetch workers visited edges)
  return inTagOrder (claims edges found)

/-- How many ids a store can still come up with. -/
def unvisited (store : Store) (visited : List Text) : Nat :=
  (store.ids.filter (!visited.contains ·)).length

theorem unvisited_cons_lt {store : Store} {visited : List Text} {id : Text} (known : id ∈ store.ids)
    (fresh : visited.contains id = false) : unvisited store (id :: visited) < unvisited store visited := by
  unfold unvisited
  have split : store.ids.filter (fun other => !(id :: visited).contains other)
      = (store.ids.filter (fun other => !visited.contains other)).filter (fun other => other != id) := by
    rw [List.filter_filter]
    congr 1
    funext other
    by_cases same : other = id <;> simp [same]
  rw [split]
  apply List.length_filter_lt_length_iff_exists.mpr
  refine ⟨id, List.mem_filter.mpr ⟨known, by simpa using fresh⟩, by simp⟩

/-- Entries for the nodes that a parent leads to. Every node entered is one more visited, and a store
knows only finitely many ids; no node comes from it with any other. -/
def entries (resolver : Resolver) (workers : Workers) (visited : List Text) (parent : Node) :
    List Node → Resolving (List Entry)
  | [] => return []
  | node :: rest => do
    if _ : visited.contains node.id = false then
      match node.kind with
      | .leaf => return .leaf node :: (← resolver.entries workers visited parent rest)
      | .index =>
        if _ : node.id ∈ resolver.store.ids then
          let below ← resolver.linked workers (node.id :: visited) node
          let inner ← resolver.entries workers (node.id :: visited) node below
          return .branch node inner :: (← resolver.entries workers visited parent rest)
        else resolver.entries workers visited parent rest
    else
      notice (.circular parent.id node.id)
      resolver.entries workers visited parent rest
termination_by nodes => (unvisited resolver.store visited, nodes.length)
decreasing_by
  · exact Prod.Lex.right _ (by simp)
  · exact Prod.Lex.left _ _ (unvisited_cons_lt (by assumption) (by assumption))
  · exact Prod.Lex.right _ (by simp)
  · exact Prod.Lex.right _ (by simp)
  · exact Prod.Lex.right _ (by simp)

/-- Resolves a root; the ids visited are not entered. -/
def resolve (resolver : Resolver) (workers : Workers) (root : Node) (visited : List Text) :
    Resolving ContentGraph := do
  if visited.contains root.id then
    notice (.alreadyVisited root.id)
    return ⟨root, []⟩
  else
    let visited := root.id :: visited
    let below ← resolver.linked workers visited root
    return ⟨root, ← resolver.entries workers visited root below⟩

/-- Resolves a root from a fresh start. -/
def run (resolver : Resolver) (root : Node) (visited : List Text) (workers : Workers := .one) :
    Except NumberError ContentGraph × Trace :=
  Inquiry.run resolver.store (resolver.resolve workers root visited).run []

end Resolver
end Bindery.Graph
