import Bindery.Proofs.Ancestry
import Mathlib.Data.Finset.Card
import Mathlib.Order.WellFounded

/-! Resolving comes to an end, whatever names whatever in a store. A root calls for the indices that it leads to and
that are not visited yet. Each of them is a node that the store came up with, and once it is visited there is one id
less that is not: the ids left over bound the recursion, and so they bound how deep a graph can be. -/

namespace Bindery

namespace Entry

mutual

/-- How many nodes stand one below another at most, the node of the entry among them. -/
def depth : Entry → Nat
  | .leaf _ => 1
  | .branch _ entries => depthOfAll entries + 1

def depthOfAll : List Entry → Nat
  | [] => 0
  | entry :: entries => max (depth entry) (depthOfAll entries)

end

end Entry

def ContentGraph.depth (graph : ContentGraph) : Nat :=
  Entry.depthOfAll graph.entries + 1

namespace Graph

/-! ### Inquiries one after another -/

namespace Inquiry
variable {α β : Type}

theorem run_bind (store : Store) (inquiry : Inquiry α) (next : α → Inquiry β) (trace : Trace) :
    (inquiry >>= next).run store trace = (next (inquiry.run store trace).1).run store (inquiry.run store trace).2 := by
  induction inquiry generalizing trace with
  | finished result => rfl
  | asking selector rest ih => exact ih _ _
  | noticing notice rest ih => exact ih _

instance : LawfulMonad Inquiry := LawfulMonad.mk' Inquiry
  (by
    intro α inquiry
    induction inquiry with
    | finished result => rfl
    | asking selector rest ih => exact congrArg (asking selector) (funext ih)
    | noticing notice rest ih => exact congrArg (noticing notice) ih)
  (fun _ _ => rfl)
  (by
    intro α β γ inquiry next last
    induction inquiry with
    | finished result => rfl
    | asking selector rest ih => exact congrArg (asking selector) (funext ih)
    | noticing notice rest ih => exact congrArg (noticing notice) ih)

end Inquiry

/-! ### Recursion down to a limit -/

/-- Why resolving stops where its depth has a limit. -/
inductive Stop where
  | unreadable (error : NumberError)
  | tooDeep

abbrev LimitedResolving := ExceptT Stop Inquiry

namespace LimitedResolving
variable {α β : Type} {store : Store}

def ofResolving (resolving : Resolving α) : LimitedResolving α :=
  ExceptT.adapt Stop.unreadable resolving

theorem ofResolving_bind (resolving : Resolving β) (next : β → Resolving α) :
    ofResolving (resolving >>= next) = ofResolving resolving >>= fun result => ofResolving (next result) := by
  apply ExceptT.ext
  change Except.mapError Stop.unreadable <$> (resolving >>= next).run =
    (Except.mapError Stop.unreadable <$> resolving.run) >>= ExceptT.bindCont _
  rw [ExceptT.run_bind, map_bind, bind_map_left]
  apply bind_congr
  intro result
  cases result with
  | ok result => rfl
  | error error => rfl

theorem run_ofResolving (resolving : Resolving α) (trace : Trace) :
    Inquiry.run store (ofResolving resolving).run trace =
      Prod.map (Except.mapError Stop.unreadable) id (Inquiry.run store resolving.run trace) :=
  Inquiry.run_bind store resolving.run (fun result => pure (Except.mapError Stop.unreadable result)) trace

theorem run_eq_ok_of_ofResolving {resolving : Resolving α} {trace : Trace} {result : α}
    (ended : (Inquiry.run store (ofResolving resolving).run trace).1 = .ok result) :
    (Inquiry.run store resolving.run trace).1 = .ok result := by
  rw [run_ofResolving, Prod.map_fst] at ended
  cases own : (Inquiry.run store resolving.run trace).1 with
  | ok other =>
    rw [own] at ended
    exact congrArg Except.ok (Except.ok.inj ended)
  | error error =>
    rw [own] at ended
    cases ended

/-- Nothing tells two of them apart over a store. -/
def Alike (store : Store) (first second : LimitedResolving α) : Prop :=
  ∀ trace, Inquiry.run store first.run trace = Inquiry.run store second.run trace

theorem Alike.refl (store : Store) (resolving : LimitedResolving α) : Alike store resolving resolving :=
  fun _ => rfl

theorem Alike.bind {first second : LimitedResolving β} {next last : β → LimitedResolving α}
    (alike : Alike store first second)
    (after : ∀ result trace, (Inquiry.run store second.run trace).1 = .ok result → Alike store (next result) (last result)) :
    Alike store (first >>= next) (second >>= last) := by
  intro trace
  rw [ExceptT.run_bind, ExceptT.run_bind, Inquiry.run_bind, Inquiry.run_bind, alike trace]
  cases ended : (Inquiry.run store second.run trace).1 with
  | ok result => exact after result trace ended _
  | error stop => rfl

end LimitedResolving

namespace Resolver
open LimitedResolving

/-- Entries for the nodes that a parent leads to, where indices are resolved in some way. -/
def entriesBy (resolve : Node → LimitedResolving ContentGraph) (visited : List Text) (parent : Node) :
    List Node → LimitedResolving (List Entry)
  | [] => return []
  | node :: rest => do
    if visited.contains node.id then
      ofResolving (Resolving.notice (.circular parent.id node.id))
      entriesBy resolve visited parent rest
    else match node.kind with
      | .leaf => return .leaf node :: (← entriesBy resolve visited parent rest)
      | .index =>
        let graph ← resolve node
        return .branch graph.root graph.entries :: (← entriesBy resolve visited parent rest)

/-- Resolves a root, but only so deep. Nothing is known here of the ids that a store can come up with. -/
def resolveTo (resolver : Resolver) (workers : Workers) : Nat → List Text → Node → LimitedResolving ContentGraph
  | 0, _, _ => throw .tooDeep
  | limit + 1, visited, root => do
    if visited.contains root.id then
      ofResolving (Resolving.notice (.alreadyVisited root.id))
      return ⟨root, []⟩
    else
      let below ← ofResolving (resolver.linked workers (root.id :: visited) root)
      return ⟨root, ← entriesBy (resolveTo resolver workers limit (root.id :: visited)) (root.id :: visited) root below⟩

/-- A branch is what resolving its node ends in, with all that is visited above it. -/
theorem entries_cons_index {resolver : Resolver} {workers : Workers} {visited : List Text} {parent node : Node}
    {rest : List Node} (unseen : visited.contains node.id = false) (index : node.kind = .index)
    (known : node.id ∈ resolver.store.ids) :
    resolver.entries workers visited parent (node :: rest) = do
      let graph ← resolver.resolve workers node visited
      return .branch graph.root graph.entries :: (← resolver.entries workers visited parent rest) := by
  rw [entries, dif_pos unseen, index, resolve, if_neg (by simpa using unseen)]
  simp only [dif_pos known, bind_assoc, pure_bind]

/-! ### The ids that are left -/

/-- The ids that a store can come up with and that are not visited. -/
def unseenIds (store : Store) (visited : List Text) : Finset Text :=
  store.ids.toFinset \ visited.toFinset

theorem card_unseenIds_cons_lt {store : Store} {visited : List Text} {id : Text} (known : id ∈ store.ids)
    (unseen : id ∉ visited) : (unseenIds store (id :: visited)).card < (unseenIds store visited).card := by
  have left : id ∈ unseenIds store visited := by simp [unseenIds, known, unseen]
  have one_less : unseenIds store (id :: visited) = (unseenIds store visited).erase id := by
    rw [unseenIds, List.toFinset_cons, Finset.sdiff_insert]
    rfl
  rw [one_less]
  exact Finset.card_erase_lt_of_mem left

theorem card_unseenIds_cons_le (store : Store) (visited : List Text) (id : Text) :
    (unseenIds store (id :: visited)).card ≤ (unseenIds store visited).card := by
  apply Finset.card_le_card
  apply Finset.sdiff_subset_sdiff (Finset.Subset.refl _)
  rw [List.toFinset_cons]
  exact Finset.subset_insert _ _

/-- What a root is resolved with. -/
structure Call where
  visited : List Text
  root : Node

/-- How many ids are left once the root of a call is visited. -/
def Call.left (store : Store) (call : Call) : Nat :=
  (unseenIds store (call.root.id :: call.visited)).card

/-- One call leads to another: for an index, not visited, that the root leads to, whatever was asked before. -/
inductive Calls (resolver : Resolver) (workers : Workers) : Call → Call → Prop where
  | index {visited : List Text} {root node : Node} {trace : Trace} {below : List Node} (unseen : root.id ∉ visited)
      (linked : (Inquiry.run resolver.store (resolver.linked workers (root.id :: visited) root).run trace).1 = .ok below)
      (member : node ∈ below) (fresh : node.id ∉ root.id :: visited) (index : node.kind = .index) :
      Calls resolver workers ⟨visited, root⟩ ⟨root.id :: visited, node⟩

variable {resolver : Resolver} {workers : Workers}

theorem Calls.left_lt {caller callee : Call} (calls : Calls resolver workers caller callee) :
    callee.left resolver.store < caller.left resolver.store := by
  cases calls with
  | index _ linked member fresh _ =>
    have known := (ends_linked_known resolver workers _ _).of_ok linked _ member
    exact card_unseenIds_cons_lt known fresh

theorem wellFounded_calls (resolver : Resolver) (workers : Workers) :
    WellFounded fun callee caller => Calls resolver workers caller callee :=
  (InvImage.wf (Call.left resolver.store) wellFounded_lt).mono fun _ _ calls => calls.left_lt

/-! ### The limit that is never met -/

variable {visited : List Text}

theorem alike_entriesBy {resolve : Node → LimitedResolving ContentGraph}
    (alike : ∀ node, node.id ∈ resolver.store.ids → node.id ∉ visited →
      Alike resolver.store (resolve node) (ofResolving (resolver.resolve workers node visited)))
    (parent : Node) (nodes : List Node) (known : ∀ node ∈ nodes, node.id ∈ resolver.store.ids) :
    Alike resolver.store (entriesBy resolve visited parent nodes)
      (ofResolving (resolver.entries workers visited parent nodes)) := by
  induction nodes with
  | nil =>
    rw [entries]
    exact .refl _ _
  | cons node rest ih =>
    have later := ih fun other member => known other (List.mem_cons_of_mem _ member)
    rw [entriesBy]
    by_cases seen : visited.contains node.id = true
    · rw [if_pos seen, entries, dif_neg (by simpa using seen), ofResolving_bind]
      exact (Alike.refl _ _).bind fun _ _ _ => later
    · have unseen : visited.contains node.id = false := by simpa using seen
      rw [if_neg seen]
      cases kind : node.kind with
      | leaf =>
        rw [entries, dif_pos unseen, kind, ofResolving_bind]
        exact later.bind fun _ _ _ => .refl _ _
      | index =>
        have here := alike node (known node List.mem_cons_self) (by simpa using unseen)
        rw [entries_cons_index unseen kind (known node List.mem_cons_self), ofResolving_bind]
        apply here.bind
        intro graph _ _
        rw [ofResolving_bind]
        exact later.bind fun _ _ _ => .refl _ _

/-- Where more calls may be nested than ids are left, resolving never goes too deep. -/
theorem alike_resolveTo (limit : Nat) (root : Node)
    (enough : (unseenIds resolver.store (root.id :: visited)).card < limit) :
    Alike resolver.store (resolver.resolveTo workers limit visited root)
      (ofResolving (resolver.resolve workers root visited)) := by
  induction limit generalizing visited root with
  | zero => exact absurd enough (Nat.not_lt_zero _)
  | succ limit ih =>
    rw [resolveTo, resolve]
    by_cases seen : visited.contains root.id = true
    · rw [if_pos seen, if_pos seen, ofResolving_bind]
      exact (Alike.refl _ _).bind fun _ _ _ => .refl _ _
    · rw [if_neg seen, if_neg seen, ofResolving_bind]
      apply (Alike.refl _ _).bind
      intro below trace ended
      have known := (ends_linked_known resolver workers _ _).of_ok (run_eq_ok_of_ofResolving ended)
      rw [ofResolving_bind]
      refine (alike_entriesBy (fun node inside unseen => ih node ?_) root below known).bind fun _ _ _ => .refl _ _
      exact Nat.lt_of_lt_of_le (card_unseenIds_cons_lt inside unseen) (Nat.le_of_lt_succ enough)

/-! ### How deep a graph can be -/

/-- The nodes right below a root are known to a store and not visited. -/
def unseenListing (store : Store) : Listing :=
  fun visited _ nodes => ∀ node ∈ nodes, node.id ∈ store.ids ∧ node.id ∉ visited

mutual

theorem depth_le {store : Store} {visited : List Text} {entry : Entry}
    (grown : entry.Grows (unseenListing store) visited) (known : entry.node.id ∈ store.ids)
    (unseen : entry.node.id ∉ visited) : entry.depth ≤ (unseenIds store visited).card := by
  have one_less := card_unseenIds_cons_lt known unseen
  match entry with
  | .leaf node => exact Nat.lt_of_le_of_lt (Nat.zero_le _) one_less
  | .branch root entries =>
    obtain ⟨_, listed, below⟩ := grown
    have inner := depthOfAll_le below fun other member => listed _ (List.mem_map_of_mem member)
    exact Nat.lt_of_le_of_lt inner one_less

theorem depthOfAll_le {store : Store} {visited : List Text} {entries : List Entry}
    (grown : Entry.AllGrow (unseenListing store) visited entries)
    (listed : ∀ entry ∈ entries, entry.node.id ∈ store.ids ∧ entry.node.id ∉ visited) :
    Entry.depthOfAll entries ≤ (unseenIds store visited).card := by
  match entries with
  | [] => exact Nat.zero_le _
  | entry :: entries =>
    obtain ⟨known, unseen⟩ := listed entry List.mem_cons_self
    have rest := depthOfAll_le grown.2 fun other member => listed other (List.mem_cons_of_mem _ member)
    exact Nat.max_le.mpr ⟨depth_le grown.1 known unseen, rest⟩

end

theorem steps_unseen (resolver : Resolver) (workers : Workers) :
    resolver.Steps workers (unseenListing resolver.store) fun root => ¬ root.IsLegible := by
  intro visited root
  refine (ends_linked_known resolver workers _ root).imp (fun nodes known node member => ?_) id
  obtain ⟨inside, unseen⟩ := mem_fresh.mp member
  exact ⟨known node inside, unseen⟩

theorem depth_le_of_run {root : Node} {graph : ContentGraph}
    (resolved : (resolver.run root visited workers).1 = .ok graph) :
    graph.depth ≤ (unseenIds resolver.store visited).card + 1 := by
  obtain ⟨rfl, grown⟩ := grows_of_run (steps_unseen resolver workers) resolved
  apply Nat.succ_le_succ
  by_cases seen : graph.root.id ∈ visited
  · rw [grown.1 seen]
    exact Nat.zero_le _
  · obtain ⟨listed, below⟩ := grown.2 seen
    have inner := depthOfAll_le below fun entry member => listed _ (List.mem_map_of_mem member)
    exact Nat.le_trans inner (card_unseenIds_cons_le _ _ _)

/-- Resolves a root from a fresh start, but only so deep. -/
def runTo (resolver : Resolver) (limit : Nat) (root : Node) (visited : List Text) (workers : Workers := .one) :
    Except Stop ContentGraph × Trace :=
  Inquiry.run resolver.store (resolver.resolveTo workers limit visited root).run []

/-- Resolving ends over every store, however its nodes name one another. Each call leaves fewer ids unvisited that the
store can come up with. So a run that may nest one call more than there are such ids is never cut short: it does what a
run without a limit does, question by question, and its graph is no deeper than that. -/
theorem recursion_is_bounded (resolver : Resolver) (workers : Workers) (root : Node) (visited : List Text) :
    (∀ caller callee, Calls resolver workers caller callee → callee.left resolver.store < caller.left resolver.store) ∧
    (WellFounded fun callee caller => Calls resolver workers caller callee) ∧
    resolver.runTo ((unseenIds resolver.store visited).card + 1) root visited workers =
      Prod.map (Except.mapError Stop.unreadable) id (resolver.run root visited workers) ∧
    ∀ graph, (resolver.run root visited workers).1 = .ok graph →
      graph.depth ≤ (unseenIds resolver.store visited).card + 1 := by
  refine ⟨fun _ _ calls => calls.left_lt, wellFounded_calls resolver workers, ?_, fun _ => depth_le_of_run⟩
  have enough := Nat.lt_succ_of_le (card_unseenIds_cons_le resolver.store visited root.id)
  rw [runTo, alike_resolveTo _ root enough, run_ofResolving]
  rfl

def recto : Node :=
  { work with id := "recto", tags := [⟨"e", "verso"⟩] }

def verso : Node :=
  { work with id := "verso", tags := [⟨"e", "recto"⟩] }

def cover : Node :=
  { work with id := "cover", tags := [⟨"e", "recto"⟩] }

def leaflet : Resolver :=
  ⟨(Shelf.ofNodes [recto, verso]).toStore, [30040], [30041]⟩

/-- Both sides of a leaf name each other. With a root from elsewhere the graph is as deep as it can be. -/
theorem cover_as_deep_as_can_be :
    (leaflet.run cover []).1 = .ok ⟨cover, [.branch recto [.branch verso []]]⟩ ∧
      ContentGraph.depth ⟨cover, [.branch recto [.branch verso []]]⟩ = (unseenIds leaflet.store []).card + 1 ∧
      leaflet.runTo ((unseenIds leaflet.store []).card + 1) cover [] =
        Prod.map (Except.mapError Stop.unreadable) id (leaflet.run cover []) := by
  have resolved : (leaflet.run cover []).1 = .ok ⟨cover, [.branch recto [.branch verso []]]⟩ := by cbv
  have ids : (unseenIds leaflet.store []).card = 2 := by decide
  obtain ⟨_, _, alike, bounded⟩ := recursion_is_bounded leaflet .one cover []
  refine ⟨resolved, le_antisymm (bounded _ resolved) ?_, alike⟩
  rw [ids]
  exact Nat.le_refl 3

end Resolver

end Graph
end Bindery
