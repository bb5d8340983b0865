import Bindery.Proofs.Exchanges
import Bindery.Proofs.KeyedLists

/-! The questions that a root gives rise to. All coordinates of a kind are asked for at once, and so are all ids; what an
answer leaves open is asked for once more, and nothing else is asked for. -/

namespace Bindery.Graph

/-! ### One declaration among others -/

/-- The exchanges in which something is asked for. -/
def exchangesFor (declaration : Declaration) (exchanges : List Exchange) : List Exchange :=
  exchanges.filter fun exchange => declaration ∈ exchange.selector.declarations

/-- Something is asked for as part of a batch, and again, alone, if and only if the answer for the batch has nothing for it. -/
def IsAskedFor (batch : List Declaration) (declaration : Declaration) (exchanges : List Exchange) : Prop :=
  ∃ first again, exchangesFor declaration exchanges = first :: again ∧ first.selector.declarations = batch ∧
    again.map Exchange.selector = if declaration.IsAmong first.nodes then [] else [declaration.alone]

section
variable {declaration : Declaration} {declarations batch losses others : List Declaration}
  {batches : List (List Declaration)} {answer : List Node} {exchanges more : List Exchange} {exchange : Exchange}

theorem exchangesFor_cons_of_mem (names : declaration ∈ exchange.selector.declarations) :
    exchangesFor declaration (exchange :: exchanges) = exchange :: exchangesFor declaration exchanges :=
  List.filter_cons_of_pos (decide_eq_true names)

theorem exchangesFor_cons_of_notMem (other : declaration ∉ exchange.selector.declarations) :
    exchangesFor declaration (exchange :: exchanges) = exchangesFor declaration exchanges :=
  List.filter_cons_of_neg (by simpa using other)

theorem exchangesFor_append : exchangesFor declaration (exchanges ++ more) =
    exchangesFor declaration exchanges ++ exchangesFor declaration more :=
  List.filter_append ..

namespace Repeats

theorem exists_alone (repeats : Repeats answer declarations exchanges losses) (member : exchange ∈ exchanges) :
    ∃ declaration ∈ declarations, exchange.selector = declaration.alone := by
  induction repeats with
  | nil => cases member
  | found _ _ ih =>
    obtain ⟨declaration, inside, same⟩ := ih member
    exact ⟨declaration, List.mem_cons_of_mem _ inside, same⟩
  | again _ _ _ ih | lost _ _ _ ih =>
    rcases List.mem_cons.mp member with rfl | later
    · exact ⟨_, List.mem_cons_self, rfl⟩
    · obtain ⟨declaration, inside, same⟩ := ih later
      exact ⟨declaration, List.mem_cons_of_mem _ inside, same⟩

theorem sublist (repeats : Repeats answer declarations exchanges losses) : losses.Sublist declarations := by
  induction repeats with
  | nil => exact .slnil
  | found _ _ ih => exact ih.cons _
  | again _ _ _ ih => exact ih.cons _
  | lost _ _ _ ih => exact ih.cons_cons _

theorem exchangesFor_eq_nil (repeats : Repeats answer declarations exchanges losses) (absent : declaration ∉ declarations) :
    exchangesFor declaration exchanges = [] := by
  refine List.filter_eq_nil_iff.mpr fun exchange member names => ?_
  obtain ⟨other, inside, same⟩ := repeats.exists_alone member
  simp only [same, Selector.declarations_alone, List.mem_singleton, decide_eq_true_eq] at names
  exact absent (names ▸ inside)

/-- What is asked for again is asked for alone; it is given up just if that brings nothing either. -/
theorem of_mem (repeats : Repeats answer declarations exchanges losses) (distinct : declarations.Nodup)
    (member : declaration ∈ declarations) :
    (exchangesFor declaration exchanges).map Exchange.selector =
        (if declaration.IsAmong answer then [] else [declaration.alone]) ∧
      (declaration ∈ losses ↔ ¬ declaration.IsAmong answer ∧
        ∀ exchange ∈ exchangesFor declaration exchanges, ¬ declaration.IsAmong exchange.nodes) := by
  -- What comes first does not come again, so nothing later is asked for it or given up.
  induction repeats with
  | nil => cases member
  | @found first declarations exchanges losses there rest ih =>
    obtain ⟨fresh, apart⟩ := List.nodup_cons.mp distinct
    rcases List.mem_cons.mp member with rfl | later
    · have unasked := rest.exchangesFor_eq_nil fresh
      have kept : declaration ∉ losses := fun lost => fresh (rest.sublist.subset lost)
      simp [unasked, there, kept]
    · exact ih apart later
  | @again first declarations exchanges losses nodes missing there rest ih =>
    obtain ⟨fresh, apart⟩ := List.nodup_cons.mp distinct
    rcases List.mem_cons.mp member with rfl | later
    · have unasked := rest.exchangesFor_eq_nil fresh
      have kept : declaration ∉ losses := fun lost => fresh (rest.sublist.subset lost)
      rw [exchangesFor_cons_of_mem (by simp), unasked]
      simp [missing, there, kept]
    · have other : declaration ≠ first := fun same => fresh (same ▸ later)
      rw [exchangesFor_cons_of_notMem (by simpa using other)]
      exact ih apart later
  | @lost first declarations exchanges losses nodes missing nowhere rest ih =>
    obtain ⟨fresh, apart⟩ := List.nodup_cons.mp distinct
    rcases List.mem_cons.mp member with rfl | later
    · rw [exchangesFor_cons_of_mem (by simp), rest.exchangesFor_eq_nil fresh]
      simp [missing, nowhere]
    · have other : declaration ≠ first := fun same => fresh (same ▸ later)
      rw [exchangesFor_cons_of_notMem (by simpa using other), List.mem_cons, or_iff_right other]
      exact ih apart later

end Repeats

namespace AsksFor

theorem sublist (asks : AsksFor batch exchanges losses) : losses.Sublist batch := by
  obtain ⟨_, repeats⟩ := asks
  exact repeats.sublist

theorem exchangesFor_eq_nil (asks : AsksFor batch exchanges losses) (absent : declaration ∉ batch) :
    exchangesFor declaration exchanges = [] := by
  obtain ⟨names, repeats⟩ := asks
  rw [exchangesFor_cons_of_notMem (names ▸ absent), repeats.exchangesFor_eq_nil absent]

theorem names_some (asks : AsksFor batch exchanges losses) (present : batch ≠ []) (member : exchange ∈ exchanges) :
    exchange.selector.declarations ≠ [] ∧ ∀ declaration ∈ exchange.selector.declarations, declaration ∈ batch := by
  obtain ⟨names, repeats⟩ := asks
  rcases List.mem_cons.mp member with rfl | later
  · exact ⟨names ▸ present, fun _ inside => names ▸ inside⟩
  · obtain ⟨declaration, inside, same⟩ := repeats.exists_alone later
    rw [same, Selector.declarations_alone]
    exact ⟨List.cons_ne_nil _ _, fun other only => List.mem_singleton.mp only ▸ inside⟩

theorem of_mem (asks : AsksFor batch exchanges losses) (distinct : batch.Nodup) (member : declaration ∈ batch) :
    IsAskedFor batch declaration exchanges ∧
      (declaration ∈ losses ↔ ∀ exchange ∈ exchangesFor declaration exchanges, ¬ declaration.IsAmong exchange.nodes) := by
  obtain @⟨selector, answer, again, losses, rfl, repeats⟩ := asks
  obtain ⟨repeated, lost⟩ := repeats.of_mem distinct member
  have whole : exchangesFor declaration (⟨selector, answer⟩ :: again) = ⟨selector, answer⟩ :: exchangesFor declaration again :=
    exchangesFor_cons_of_mem member
  rw [whole, List.forall_mem_cons]
  exact ⟨⟨_, _, whole, rfl, repeated⟩, lost⟩

end AsksFor

namespace AsksForAll

theorem sublist (asks : AsksForAll batches exchanges losses) : losses.Sublist batches.flatten := by
  induction asks with
  | nil => exact .slnil
  | cons first _ ih => exact first.sublist.append ih

theorem exchangesFor_eq_nil (asks : AsksForAll batches exchanges losses) (absent : declaration ∉ batches.flatten) :
    exchangesFor declaration exchanges = [] := by
  induction asks with
  | nil => rfl
  | cons first rest ih =>
    rw [List.flatten_cons, List.mem_append, not_or] at absent
    rw [exchangesFor_append, first.exchangesFor_eq_nil absent.1, ih absent.2]
    rfl

theorem names_some (asks : AsksForAll batches exchanges losses) (present : ∀ batch ∈ batches, batch ≠ [])
    (member : exchange ∈ exchanges) : exchange.selector.declarations ≠ [] ∧
      ∀ declaration ∈ exchange.selector.declarations, declaration ∈ batches.flatten := by
  induction asks with
  | nil => cases member
  | cons first rest ih =>
    obtain ⟨here, others⟩ := List.forall_mem_cons.mp present
    rcases List.mem_append.mp member with early | late
    · obtain ⟨nonempty, inside⟩ := first.names_some here early
      exact ⟨nonempty, fun declaration names => List.mem_append_left _ (inside declaration names)⟩
    · obtain ⟨nonempty, inside⟩ := ih others late
      exact ⟨nonempty, fun declaration names => List.mem_append_right _ (inside declaration names)⟩

/-- Nothing that is in one batch is in another, so what is asked for a declaration is what is asked for it in its batch. -/
theorem of_mem (asks : AsksForAll batches exchanges losses) (distinct : batches.flatten.Nodup) (inside : batch ∈ batches)
    (member : declaration ∈ batch) : IsAskedFor batch declaration exchanges ∧
      (declaration ∈ losses ↔ ∀ exchange ∈ exchangesFor declaration exchanges, ¬ declaration.IsAmong exchange.nodes) := by
  induction asks with
  | nil => cases inside
  | @cons head tail exchanges more losses others first rest ih =>
    rw [List.flatten_cons] at distinct
    obtain ⟨distinctHere, distinctLater, apart⟩ := List.nodup_append.mp distinct
    rw [exchangesFor_append, List.mem_append, IsAskedFor, exchangesFor_append]
    rcases List.mem_cons.mp inside with rfl | later
    · have absent : declaration ∉ tail.flatten := fun again => apart _ member _ again rfl
      have kept : declaration ∉ others := fun lost => absent (rest.sublist.subset lost)
      rw [rest.exchangesFor_eq_nil absent, List.append_nil, or_iff_left kept]
      exact first.of_mem distinctHere member
    · have absent : declaration ∉ head := fun early => apart _ early _ (List.mem_flatten_of_mem later member) rfl
      have kept : declaration ∉ losses := fun lost => absent (first.sublist.subset lost)
      rw [first.exchangesFor_eq_nil absent, List.nil_append, or_iff_right kept]
      exact ih distinctLater later

end AsksForAll

end

/-! ### Batches of a root -/

namespace Resolver

/-- What is asked for together: coordinates of one kind, or ids. -/
def sort? : Declaration → Option Int
  | .coordinate value => some value.kind
  | .id _ => none

/-- Some edge leads to it. -/
def IsTarget (edges : Edges) : Declaration → Prop
  | .coordinate value => value ∈ edges.coordinates.map Edge.target
  | .id value => value ∈ edges.ids.map Edge.target

def sortsOf (edges : Edges) : List (Option Int) :=
  ((edges.coordinates.map Edge.target).map Coordinate.kind).eraseDups.map some
    ++ if (edges.ids.map Edge.target).eraseDups.isEmpty then [] else [none]

def batchOf (edges : Edges) : Option Int → List Declaration
  | some kind => ((edges.coordinates.map Edge.target).filter (·.kind = kind)).eraseDups.map .coordinate
  | none => (edges.ids.map Edge.target).eraseDups.map .id

variable {edges : Edges} {declaration : Declaration} {sort : Option Int}

theorem mem_batchOf : declaration ∈ batchOf edges sort ↔ IsTarget edges declaration ∧ sort? declaration = sort := by
  cases sort with
  | none => cases declaration <;> simp [batchOf, IsTarget, sort?]
  | some kind => cases declaration <;> simp [batchOf, IsTarget, sort?]

theorem mem_sortsOf : sort ∈ sortsOf edges ↔ ∃ declaration, IsTarget edges declaration ∧ sort? declaration = sort := by
  have ids : (edges.ids.map Edge.target).eraseDups.isEmpty = true ↔ edges.ids.map Edge.target = [] := by
    simp only [List.isEmpty_iff, List.eq_nil_iff_forall_not_mem, List.mem_eraseDups]
  simp only [sortsOf, List.mem_append, List.mem_map, List.mem_eraseDups, ids]
  constructor
  · rintro (⟨_, ⟨coordinate, member, rfl⟩, rfl⟩ | inside)
    · exact ⟨.coordinate coordinate, List.mem_map.mpr member, rfl⟩
    · split at inside
      next => cases inside
      next nonempty =>
        obtain ⟨id, member⟩ := List.exists_mem_of_ne_nil _ nonempty
        exact ⟨.id id, member, (List.mem_singleton.mp inside).symm⟩
  · rintro ⟨declaration, target, rfl⟩
    cases declaration with
    | coordinate value => exact Or.inl ⟨value.kind, ⟨value, List.mem_map.mp target, rfl⟩, rfl⟩
    | id value =>
      rw [if_neg (List.ne_nil_of_mem target)]
      exact Or.inr List.mem_cons_self

theorem nodup_batchOf (edges : Edges) (sort : Option Int) : (batchOf edges sort).Nodup := by
  cases sort with
  | none => exact (nodup_eraseDups _).map fun _ _ same => Declaration.id.inj same
  | some kind => exact (nodup_eraseDups _).map fun _ _ same => Declaration.coordinate.inj same

theorem nodup_sortsOf (edges : Edges) : (sortsOf edges).Nodup := by
  have kinds : (((edges.coordinates.map Edge.target).map Coordinate.kind).eraseDups.map some).Nodup :=
    (nodup_eraseDups _).map fun _ _ same => Option.some.inj same
  unfold sortsOf
  split
  next => rwa [List.append_nil]
  next => exact List.nodup_append.mpr ⟨kinds, List.nodup_singleton none, by simp⟩

/-- No two batches are of one sort, so they have nothing in common. -/
theorem nodup_batches (edges : Edges) : ((sortsOf edges).map (batchOf edges)).flatten.Nodup := by
  refine List.nodup_flatten.mpr ⟨List.forall_mem_map.mpr fun sort _ => nodup_batchOf edges sort, ?_⟩
  refine List.pairwise_map.mpr ((nodup_sortsOf edges).imp fun different => ?_)
  intro declaration first second
  exact different ((mem_batchOf.mp first).2.symm.trans (mem_batchOf.mp second).2)

theorem mem_flatten_batches : declaration ∈ ((sortsOf edges).map (batchOf edges)).flatten ↔ IsTarget edges declaration := by
  simp only [List.mem_flatten, List.mem_map, exists_exists_and_eq_and, mem_batchOf]
  constructor
  · rintro ⟨_, _, target, _⟩
    exact target
  · exact fun target => ⟨_, mem_sortsOf.mpr ⟨declaration, target, rfl⟩, target, rfl⟩

theorem batchOf_ne_nil (inside : sort ∈ sortsOf edges) : batchOf edges sort ≠ [] := by
  obtain ⟨declaration, target⟩ := mem_sortsOf.mp inside
  exact List.ne_nil_of_mem (mem_batchOf.mpr target)

theorem each_tells (answers : Answers) (edges : Edges) :
    List.Forall₂ (fun inquiry batch => inquiry.Tells answers fun exchanges losses _ => AsksFor batch exchanges losses)
      (inquiries edges) ((sortsOf edges).map (batchOf edges)) := by
  unfold inquiries sortsOf batches
  rw [List.map_append]
  apply List.rel_append
  · simp only [List.forall₂_map_left_iff, List.forall₂_map_right_iff, List.forall₂_same]
    exact fun kind _ => (Search.tells_fetch Search.declares_byCoordinate _).map
  · split
    next => exact .nil
    next => exact .cons (Search.tells_fetch Search.declares_byId _).map .nil

/-! ### Tags are read without questions -/

end Resolver

namespace Resolving
variable {α β : Type}

theorem isSilent_bind {resolving : Resolving β} {next : β → Resolving α} (first : resolving.run.IsSilent)
    (later : ∀ result, (next result).run.IsSilent) : (resolving >>= next).run.IsSilent := by
  rw [ExceptT.run_bind]
  refine first.bind fun result => ?_
  cases result with
  | ok result => exact later result
  | error error => exact trivial

theorem isSilent_after_notice {notice : Notice} {result : α} (keeps : notice.lost? = none) :
    (do Resolving.notice notice; return result : Resolving α).run.IsSilent :=
  isSilent_bind ⟨keeps, trivial⟩ fun _ => trivial

end Resolving

namespace Resolver
open Resolving
variable {resolver : Resolver} {visited : List Text} {root : Node}

theorem isSilent_coordinateTarget (value : Text) : (resolver.coordinateTarget root value).run.IsSilent := by
  unfold coordinateTarget
  refine isSilent_bind ?_ fun coordinate => ?_
  · cases Coordinate.parse value <;> exact trivial
  · cases coordinate with
    | none => exact isSilent_after_notice rfl
    | some coordinate =>
      dsimp only
      split
      next => exact isSilent_after_notice rfl
      next =>
        split
        next => exact isSilent_after_notice rfl
        next => exact trivial

theorem isSilent_idTarget (value : Text) : (idTarget visited root value).run.IsSilent := by
  unfold idTarget
  split
  next => exact isSilent_after_notice rfl
  next =>
    split
    next => exact isSilent_after_notice rfl
    next => exact trivial

theorem isSilent_edgesFrom (position : Nat) (tags : List Tag) :
    (resolver.edgesFrom visited root position tags).run.IsSilent := by
  induction tags generalizing position with
  | nil => exact trivial
  | cons tag tags ih =>
    rw [edgesFrom]
    split
    next => exact isSilent_bind (isSilent_coordinateTarget tag.value) fun _ => isSilent_bind (ih _) fun _ => trivial
    next =>
      split
      next => exact isSilent_bind (isSilent_idTarget tag.value) fun _ => isSilent_bind (ih _) fun _ => trivial
      next => exact ih _

/-! ### All questions for a root -/

variable {workers : Workers} {answers : Answers}

theorem tells_linked (one : workers.count ≤ 1) (legible : root.IsLegible) :
    (resolver.linked workers visited root).run.Tells answers fun exchanges losses result =>
      AsksForAll ((sortsOf (resolver.edgesOf visited root)).map (batchOf (resolver.edgesOf visited root))) exchanges losses ∧
        ∃ found, result = .ok found := by
  have edges : (resolver.edges visited root).run.Tells answers _ :=
    (isSilent_edgesFrom 0 root.tags).tells (@ends_edges resolver visited root resolver.store) answers
  unfold linked
  rw [ExceptT.run_bind]
  refine Inquiry.tells_bind (edges.imp ?_)
  rintro _ _ result ⟨rfl, rfl, read⟩
  cases result with
  | error error => exact absurd legible read
  | ok result =>
    obtain rfl : result = resolver.edgesOf visited root := read
    have inTurn : workers.carryOut visited (inquiries (resolver.edgesOf visited root)) =
        Inquiry.inTurn (inquiries (resolver.edgesOf visited root)) := by
      rw [Workers.carryOut, if_neg]
      simp [Int.not_lt.mpr one]
    have asks := Inquiry.tells_inTurn (each_tells answers (resolver.edgesOf visited root))
    change Inquiry.Tells answers _ (ExceptT.run (ExceptT.lift _ >>= _))
    rw [ExceptT.run_bind_lift, fetch, inTurn]
    refine Inquiry.tells_bind (Inquiry.Tells.map (asks.imp fun exchanges losses results all => ?_))
    exact Inquiry.tells_pure ⟨by simpa using all, _, rfl⟩

theorem runOver_resolve {trace after : Trace} {found : List Node} (unseen : root.id ∉ visited)
    (linked : (resolver.linked workers (root.id :: visited) root).run.runOver answers trace = (.ok found, after)) :
    (resolver.resolve workers root visited).run.runOver answers trace = Inquiry.runOver answers (do
      return ⟨root, ← resolver.entries workers (root.id :: visited) root found⟩ : Resolving ContentGraph).run after := by
  rw [resolve, if_neg (by simpa using unseen)]
  dsimp only
  rw [ExceptT.run_bind, Inquiry.runOver_bind, linked]

/-- A root has to ask for it: some tag declares it, and it is none of the ids that are not entered. -/
def Needs (resolver : Resolver) (visited : List Text) (root : Node) : Declaration → Prop
  | .coordinate value => root.Declares resolver.kinds (.coordinate value)
  | .id value => root.Declares resolver.kinds (.id value) ∧ value ≠ root.id ∧ value ∉ visited

/-- Only what has to be asked for is asked for, all of one sort at once; what the answer leaves open is asked for again,
alone, and what is left open even then is given up. -/
structure AsksMinimally (resolver : Resolver) (visited : List Text) (root : Node) (exchanges : List Exchange)
    (losses : List Declaration) : Prop where
  present : ∀ exchange ∈ exchanges, exchange.selector.declarations ≠ []
  needed : ∀ exchange ∈ exchanges, ∀ declaration ∈ exchange.selector.declarations, resolver.Needs visited root declaration
  once : ∀ declaration, resolver.Needs visited root declaration → ∃ batch, IsAskedFor batch declaration exchanges ∧
    batch.Nodup ∧ ∀ other, other ∈ batch ↔ resolver.Needs visited root other ∧ sort? other = sort? declaration
  lostOnce : losses.Nodup
  lost : ∀ declaration, declaration ∈ losses ↔ resolver.Needs visited root declaration ∧
    ∀ exchange ∈ exchangesFor declaration exchanges, ¬ declaration.IsAmong exchange.nodes

theorem mem_targets {α : Type} {target : Tag → Option α} {tags : List Tag} {value : α} :
    value ∈ (edgesBy target 0 tags).map Edge.target ↔ ∃ tag ∈ tags, target tag = some value := by
  constructor
  · intro given
    obtain ⟨edge, member, rfl⟩ := List.mem_map.mp given
    obtain ⟨tag, here, leads⟩ := mem_edgesBy.mp member
    exact ⟨tag, List.mem_of_getElem? here, leads⟩
  · rintro ⟨tag, member, leads⟩
    obtain ⟨position, here⟩ := List.mem_iff_getElem?.mp member
    exact List.mem_map.mpr ⟨⟨position, value⟩, mem_edgesBy.mpr ⟨tag, here, leads⟩, rfl⟩

theorem isTarget_iff {declaration : Declaration} :
    IsTarget (resolver.edgesOf (root.id :: visited) root) declaration ↔ resolver.Needs visited root declaration := by
  cases declaration with
  | coordinate value =>
    refine mem_targets.trans ?_
    simp only [coordinateOf?_eq_some, supports_eq_true, Needs, Node.Declares]
    grind
  | id value =>
    refine mem_targets.trans ?_
    simp only [idOf?_eq_some, Needs, Node.Declares, List.mem_cons]
    grind

theorem asksMinimally {exchanges : List Exchange} {losses : List Declaration}
    (asks : AsksForAll ((sortsOf (resolver.edgesOf (root.id :: visited) root)).map
      (batchOf (resolver.edgesOf (root.id :: visited) root))) exchanges losses) :
    resolver.AsksMinimally visited root exchanges losses := by
  have distinct := nodup_batches (resolver.edgesOf (root.id :: visited) root)
  have nonempty : ∀ batch ∈ (sortsOf (resolver.edgesOf (root.id :: visited) root)).map
      (batchOf (resolver.edgesOf (root.id :: visited) root)), batch ≠ [] :=
    List.forall_mem_map.mpr fun sort inside => batchOf_ne_nil inside
  have asked : ∀ declaration, resolver.Needs visited root declaration →
      IsAskedFor (batchOf (resolver.edgesOf (root.id :: visited) root) (sort? declaration)) declaration exchanges ∧
        (declaration ∈ losses ↔ ∀ exchange ∈ exchangesFor declaration exchanges, ¬ declaration.IsAmong exchange.nodes) := by
    intro declaration needs
    have target := isTarget_iff.mpr needs
    have listed := mem_sortsOf.mpr ⟨declaration, target, rfl⟩
    exact asks.of_mem distinct (List.mem_map_of_mem listed) (mem_batchOf.mpr ⟨target, rfl⟩)
  refine
    { present := fun exchange member => (asks.names_some nonempty member).1
      needed := fun exchange member declaration names => ?needed
      once := fun declaration needs => ⟨_, (asked declaration needs).1, nodup_batchOf _ _, fun other => ?once⟩
      lostOnce := distinct.sublist asks.sublist
      lost := fun declaration => ?lost }
  case needed => exact isTarget_iff.mp (mem_flatten_batches.mp ((asks.names_some nonempty member).2 declaration names))
  case once => rw [mem_batchOf, isTarget_iff]
  case lost =>
    constructor
    · intro lost
      have needs := isTarget_iff.mp (mem_flatten_batches.mp (asks.sublist.subset lost))
      exact ⟨needs, (asked declaration needs).2.mp lost⟩
    · rintro ⟨needs, missing⟩
      exact (asked declaration needs).2.mpr missing

/-- Whatever is answered, resolving a root asks as little as it can. After that come the entries, each branch of which is
another call. -/
theorem questions_are_minimal (resolver : Resolver) (answers : Answers) (workers : Workers) (one : workers.count ≤ 1)
    (root : Node) (legible : root.IsLegible) (visited : List Text) (unseen : root.id ∉ visited) (trace : Trace) :
    ∃ (found : List Node) (own : Trace),
      (resolver.linked workers (root.id :: visited) root).run.runOver answers trace = (.ok found, trace ++ own) ∧
      (resolver.resolve workers root visited).run.runOver answers trace = Inquiry.runOver answers (do
        return ⟨root, ← resolver.entries workers (root.id :: visited) root found⟩ : Resolving ContentGraph).run
          (trace ++ own) ∧
      resolver.AsksMinimally visited root (own.exchanges answers trace.questions) own.losses := by
  obtain ⟨own, traced, asks, found, ended⟩ := tells_linked one legible trace
  have linked : (resolver.linked workers (root.id :: visited) root).run.runOver answers trace =
      (.ok found, trace ++ own) := Prod.ext ended traced
  exact ⟨found, own, linked, runOver_resolve unseen linked, asksMinimally asks⟩

/-- A work whose last chapter is not there yet. -/
def unfinishedWork : Node :=
  { work with tags := work.tags ++ [⟨"e", "chapter-3"⟩, ⟨"e", "chapter-1"⟩] }

/-- Of several things that it asks for, it gets the first alone. -/
def hastyResolver : Resolver :=
  ⟨Shortfall.onlyFirstOfMany.store (Shelf.ofNodes shelfOfWork), [30040], [30041]⟩

def traceOfUnfinishedWork : Trace :=
  [.asked (.atCoordinates [⟨30040, "alice", "part"⟩]), .asked (.withIds ["chapter-1", "chapter-2", "chapter-3"]),
    .asked (.withIds ["chapter-2"]), .asked (.withIds ["chapter-3"]), .noticed (.idNotFound "chapter-3")]

/-- Of three chapters the first comes at once. Of the two that are asked for again, one is given up. -/
theorem unfinished_work_asks_minimally :
    (Inquiry.run hastyResolver.store (hastyResolver.linked .one ["work-1"] unfinishedWork).run []).2 =
        traceOfUnfinishedWork ∧
      hastyResolver.AsksMinimally [] unfinishedWork (traceOfUnfinishedWork.exchanges hastyResolver.store.answer [])
        [.id "chapter-3"] := by
  obtain ⟨found, own, linked, _, minimal⟩ := questions_are_minimal hastyResolver hastyResolver.store.answer .one (by decide)
    unfinishedWork (by decide) [] (by decide) []
  have traced : (Inquiry.run hastyResolver.store (hastyResolver.linked .one ["work-1"] unfinishedWork).run []).2 =
      traceOfUnfinishedWork := by cbv
  rw [← Inquiry.run_eq_runOver] at linked
  obtain rfl : own = traceOfUnfinishedWork := (congrArg Prod.snd linked).symm.trans traced
  exact ⟨traced, minimal⟩

end Resolver

end Bindery.Graph
