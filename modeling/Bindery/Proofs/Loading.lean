import Bindery.Archive.Load
import Bindery.Proofs.ArchiveHistory
import Bindery.Proofs.NodeFiles
import Mathlib.Data.Finset.Card

/-! Loading a file of nodes as a session goes about it: nodes are put into a working copy one after another, and an
error on the way rolls back what was put before it. Loading the same file again meets, under every id, the last node of
the file, so it changes nothing in the end even where it rewrites rows back and forth. -/

namespace Bindery

namespace Node
variable {node other third : Node}

theorem StoredLike.symm (alike : node.StoredLike other) : other.StoredLike node := by
  obtain ⟨kind, owner, tags, body, age⟩ := alike
  exact ⟨kind.symm, owner.symm, tags.symm, body.symm, age.symm⟩

theorem StoredLike.trans (alike : node.StoredLike other) (also : other.StoredLike third) : node.StoredLike third := by
  obtain ⟨kind, owner, tags, body, age⟩ := alike
  obtain ⟨kind', owner', tags', body', age'⟩ := also
  exact ⟨kind.trans kind', owner.trans owner', tags.trans tags', body.trans body', age.trans age'⟩

end Node

/-! ### Transactions -/

/-- An archive during a session: what is kept, and what the session has made of it so far. -/
structure Transaction where
  kept : Archive
  working : Archive

namespace Transaction

def begin (archive : Archive) : Transaction :=
  ⟨archive, archive⟩

def commit (transaction : Transaction) : Transaction :=
  { transaction with kept := transaction.working }

def rollBack (transaction : Transaction) : Transaction :=
  { transaction with working := transaction.kept }

/-- Puts nodes up to the first that cannot be put; those before it have been put by then. -/
def putAll (transaction : Transaction) : List Node → Transaction × Except StoringError (List (Status × Row))
  | [] => (transaction, .ok [])
  | node :: nodes =>
    match transaction.working.put node with
    | .error error => (transaction, .error error)
    | .ok (changed, report) =>
      let (last, reports) := putAll { transaction with working := changed } nodes
      (last, reports.map (report :: ·))

/-- A session is committed once all its nodes are put, and rolled back if one of them cannot be put. -/
def run (transaction : Transaction) (nodes : List Node) : Transaction × Except StoringError (List (Status × Row)) :=
  match transaction.putAll nodes with
  | (last, .ok reports) => (last.commit, .ok reports)
  | (last, .error error) => (last.rollBack, .error error)

/-- Nothing that is put is kept before a commit. -/
theorem kept_putAll (transaction : Transaction) (nodes : List Node) : (transaction.putAll nodes).1.kept = transaction.kept := by
  induction nodes generalizing transaction with
  | nil => rfl
  | cons node nodes ih =>
    rw [putAll]
    split
    next => rfl
    next changed report _ => exact ih { transaction with working := changed }

theorem putAll_eq (transaction : Transaction) (nodes : List Node) :
    transaction.working.putAll nodes =
      (transaction.putAll nodes).2.map fun reports => ((transaction.putAll nodes).1.working, reports) := by
  induction nodes generalizing transaction with
  | nil => rfl
  | cons node nodes ih =>
    rw [putAll, Archive.putAll]
    cases transaction.working.put node with
    | error error => rfl
    | ok result =>
      obtain ⟨changed, report⟩ := result
      have later := ih { transaction with working := changed }
      simp only at later ⊢
      show (changed.putAll nodes).bind (fun rest => .ok (rest.1, report :: rest.2)) = _
      rw [later]
      cases ({ transaction with working := changed }.putAll nodes).2 <;> rfl

theorem run_begin (archive : Archive) (nodes : List Node) :
    (begin archive).run nodes =
      (begin (archive.perform ⟨nodes, true⟩).1, (archive.perform ⟨nodes, true⟩).2) := by
  have put := putAll_eq (begin archive) nodes
  have kept := kept_putAll (begin archive) nodes
  rw [run, Archive.perform]
  simp only [begin] at put kept ⊢
  rw [put]
  generalize putAll ⟨archive, archive⟩ nodes = result at kept ⊢
  obtain ⟨last, reports⟩ := result
  cases reports with
  | error error =>
    simp only at kept
    simp only [rollBack, kept]
    rfl
  | ok reports => rfl

end Transaction

namespace LoadCounts

theorem total_ofStatuses (statuses : List Status) : (ofStatuses statuses).total = statuses.length := by
  induction statuses with
  | nil => rfl
  | cons status statuses ih =>
    simp only [ofStatuses, total, List.count_cons, List.length_cons] at ih ⊢
    cases status <;> simp <;> omega

end LoadCounts

namespace Archive

/-! ### Nodes put twice -/

theorem lastWithId?_append (before nodes : List Node) (id : Text) :
    lastWithId? (before ++ nodes) id = (lastWithId? nodes id).or (lastWithId? before id) := by
  rw [lastWithId?, List.reverse_append, List.find?_append]
  rfl

theorem lastWithId?_eq_none_iff {nodes : List Node} {id : Text} : lastWithId? nodes id = none ↔ id ∉ nodes.map Node.id := by
  simp [lastWithId?]

theorem exists_lastWithId? {nodes : List Node} {node : Node} (member : node ∈ nodes) :
    ∃ last, lastWithId? nodes node.id = some last := by
  apply Option.ne_none_iff_exists'.mp
  rw [ne_eq, lastWithId?_eq_none_iff, not_not]
  exact List.mem_map_of_mem member

theorem Holds.row?_eq_none_iff {archive : Archive} {nodes : List Node} (holds : archive.Holds nodes) {id : Text} :
    lastWithId? nodes id = none ↔ id ∉ archive.rows.map Row.id := by
  have absent : archive.row? id = none ↔ id ∉ archive.rows.map Row.id := by simp [row?]
  rw [← absent]
  refine ⟨fun missing => ?_, holds.lastWithId?_eq_none⟩
  rw [holds.rows, missing]
  rfl

theorem Reports.length_eq {before nodes : List Node} {reports : List (Status × Row)} (reported : Reports before nodes reports) :
    reports.length = nodes.length := by
  induction reported with
  | nil => rfl
  | cons _ _ ih => rw [List.length_cons, List.length_cons, ih]

/-- New are the ids that were never put before, each of them once. -/
theorem Reports.created_eq {before nodes : List Node} {reports : List (Status × Row)} (reported : Reports before nodes reports) :
    (reports.map (·.1)).count .created =
      ((nodes.map Node.id).toFinset.filter fun id => lastWithId? before id = none).card := by
  induction reported with
  | nil => rfl
  | @cons before node first more reports report _ ih =>
    have remaining : (more.map Node.id).toFinset.filter (fun id => lastWithId? (before ++ [node]) id = none) =
        ((more.map Node.id).toFinset.filter fun id => lastWithId? before id = none).erase node.id := by
      ext id
      rw [Finset.mem_erase, Finset.mem_filter, Finset.mem_filter, lastWithId?_concat]
      by_cases same : node.id = id
      · simp [same]
      · simp [same, Ne.symm same]
    rw [List.map_cons, List.map_cons, List.count_cons, ih, List.toFinset_cons, Finset.filter_insert, remaining]
    by_cases fresh : lastWithId? before node.id = none
    · have reportedNew : first.1 = .created := report.created.mpr fresh
      rw [if_pos fresh, reportedNew, ← Finset.erase_insert_eq_erase]
      exact Finset.card_erase_add_one (Finset.mem_insert_self _ _)
    · have old : node.id ∉ (more.map Node.id).toFinset.filter fun id => lastWithId? before id = none := by
        simp [fresh]
      have reportedOld : first.1 ≠ .created := fun created => fresh (report.created.mp created)
      rw [if_neg fresh, Finset.erase_eq_of_notMem old]
      simp [reportedOld]

/-- Where all ids are known, nothing is reported as changed if every node is like the one before it with its id. -/
theorem Reports.forall_not_updated_iff {before nodes : List Node} {reports : List (Status × Row)}
    (reported : Reports before nodes reports) (known : ∀ node ∈ nodes, node.id ∈ before.map Node.id) :
    (∀ report ∈ reports, report.1 ≠ .updated) ↔
      ∀ node ∈ nodes, ∀ old, lastWithId? before node.id = some old → old.StoredLike node := by
  induction reported with
  | nil => exact ⟨fun _ => List.forall_mem_nil _, fun _ => List.forall_mem_nil _⟩
  | @cons before node first more reports report _ ih =>
    obtain ⟨here, later⟩ := List.forall_mem_cons.mp known
    have own : first.1 ≠ .updated ↔ ∀ old, lastWithId? before node.id = some old → old.StoredLike node := by
      rw [ne_eq, report.updated]
      push Not
      rfl
    have others := ih fun other member => by
      rw [List.map_append]
      exact List.mem_append_left _ (later other member)
    rw [List.forall_mem_cons, List.forall_mem_cons, own, others]
    refine and_congr_right fun alike => forall₂_congr fun other member => ?_
    by_cases same : node.id = other.id
    · obtain ⟨old, last⟩ : ∃ old, lastWithId? before node.id = some old := by
        apply Option.ne_none_iff_exists'.mp
        rw [ne_eq, lastWithId?_eq_none_iff, not_not]
        exact here
      -- What is compared with the other node is this one, but it is like the one that stood there before.
      simp only [lastWithId?_concat, ← same, if_true, last, Option.some.injEq, forall_eq']
      exact ⟨(alike old last).trans, (alike old last).symm.trans⟩
    · rw [lastWithId?_concat, if_neg same]

/-! ### Rows kept in place -/

theorem Holds.rows_eq {archive : Archive} {nodes : List Node} (holds : archive.Holds nodes) :
    archive.rows = (archive.rows.map Row.id).filterMap archive.row? := by
  rw [List.filterMap_map]
  have each : ∀ row ∈ archive.rows, (archive.row? ∘ Row.id) row = some row := fun row member =>
    (row?_eq_some holds.distinct).mpr ⟨member, rfl⟩
  rw [List.filterMap_congr each, List.filterMap_some]

theorem ids_keep {archive : Archive} {row : Row} (known : row.id ∈ archive.rows.map Row.id) :
    (archive.keep row).rows.map Row.id = archive.rows.map Row.id := by
  have found : (archive.row? row.id).isSome = true := by simpa [row?] using known
  rw [keep, if_pos found, List.map_map]
  apply List.map_congr_left
  intro other _
  simp only [Function.comp_apply]
  split
  next same => exact same.symm
  next => rfl

theorem ids_put {archive changed : Archive} {node : Node} {report : Status × Row}
    (put : archive.put node = .ok (changed, report)) (known : node.id ∈ archive.rows.map Row.id) :
    changed.rows.map Row.id = archive.rows.map Row.id := by
  have kept : ∀ {status : Status} {row : Row}, row.id = node.id → archive.keepAs status row = .ok (changed, report) →
      changed.rows.map Row.id = archive.rows.map Row.id := by
    intro status row same keeps
    rw [keepAs] at keeps
    split at keeps
    next =>
      cases keeps
      exact ids_keep (same ▸ known)
    next => cases keeps
  rw [Archive.put] at put
  split at put
  next => cases put
  next kind _ =>
    split at put
    next => exact kept rfl put
    next row found =>
      split at put
      next =>
        cases put
        rfl
      next =>
        have own : (row.revised kind node).id = node.id := by simpa [Row.revised] using List.find?_some found
        exact kept own put

theorem ids_putAll {archive changed : Archive} {nodes : List Node} {reports : List (Status × Row)}
    (put : archive.putAll nodes = .ok (changed, reports)) (known : ∀ node ∈ nodes, node.id ∈ archive.rows.map Row.id) :
    changed.rows.map Row.id = archive.rows.map Row.id := by
  induction nodes generalizing archive reports with
  | nil =>
    cases put
    rfl
  | cons node nodes ih =>
    obtain ⟨here, later⟩ := List.forall_mem_cons.mp known
    rw [putAll] at put
    cases first : archive.put node with
    | error error =>
      rw [first] at put
      cases put
    | ok result =>
      obtain ⟨middle, report⟩ := result
      have same := ids_put first here
      cases rest : middle.putAll nodes with
      | error error =>
        rw [first] at put
        simp [bind, Except.bind, rest] at put
      | ok result =>
        obtain ⟨last, others⟩ := result
        rw [first] at put
        simp only [bind, Except.bind, rest, pure, Except.pure, Except.ok.injEq, Prod.mk.injEq] at put
        obtain ⟨rfl, _⟩ := put
        rw [← same]
        exact ih rest (same ▸ later)

/-! ### Putting again -/

/-- Nodes that were just put change nothing when they are put again. -/
theorem Holds.putAll_again {archive : Archive} {before nodes : List Node} (holds : archive.Holds (before ++ nodes))
    (accepted : nodes.findSome? Node.refusal? = none) :
    ∃ reports, archive.putAll nodes = .ok (archive, reports) ∧ Reports (before ++ nodes) nodes reports := by
  obtain ⟨changed, reports, put, held, reported⟩ := holds.exists_putAll accepted
  have known : ∀ node ∈ nodes, node.id ∈ archive.rows.map Row.id := by
    intro node member
    by_contra absent
    have missing := holds.row?_eq_none_iff.mpr absent
    rw [lastWithId?_eq_none_iff] at missing
    exact missing (List.mem_map_of_mem (List.mem_append_right before member))
  have same : ∀ id, changed.row? id = archive.row? id := by
    intro id
    rw [held.rows, holds.rows, lastWithId?_append, lastWithId?_append]
    cases lastWithId? nodes id <;> rfl
  have rows : changed.rows = archive.rows := by
    rw [held.rows_eq, holds.rows_eq, ids_putAll put known, funext same]
  have unchanged : changed = archive := congrArg Archive.mk rows
  exact ⟨reports, unchanged ▸ put, reported⟩

/-- Nothing is reported as changed when nodes are put again just where nodes that share an id are alike. -/
theorem Reports.updated_eq_zero_iff {before nodes : List Node} {reports : List (Status × Row)}
    (reported : Reports (before ++ nodes) nodes reports) :
    (reports.map (·.1)).count .updated = 0 ↔
      ∀ node ∈ nodes, ∀ other ∈ nodes, node.id = other.id → node.StoredLike other := by
  have known : ∀ node ∈ nodes, node.id ∈ (before ++ nodes).map Node.id := fun node member =>
    List.mem_map_of_mem (List.mem_append_right before member)
  have counted : (reports.map (·.1)).count .updated = 0 ↔ ∀ report ∈ reports, report.1 ≠ .updated := by
    rw [List.count_eq_zero]
    simp only [List.mem_map, not_exists, not_and, ne_eq]
  have last : ∀ node ∈ nodes, lastWithId? (before ++ nodes) node.id = lastWithId? nodes node.id := by
    intro node member
    obtain ⟨last, found⟩ := exists_lastWithId? member
    rw [lastWithId?_append, found, Option.some_or]
  rw [counted, reported.forall_not_updated_iff known]
  constructor
  · intro alike node member other also same
    obtain ⟨old, found⟩ := exists_lastWithId? member
    have first := alike node member old ((last node member).trans found)
    have second := alike other also old ((last other also).trans (same ▸ found))
    exact first.symm.trans second
  · intro alike node member old found
    rw [last node member] at found
    obtain ⟨inside, same⟩ := of_lastWithId?_eq_some found
    exact alike old inside node member same

/-! ### Files -/

theorem exists_items {path : Text} {indexKinds : List Int} {source : Source} {nodes : List Node}
    (read : NodeFile.nodes path indexKinds source = .ok nodes) :
    ∃ items, source.data (NodeFile.format path) = .ok (.list items) ∧ nodes.length = items.length := by
  obtain ⟨items, data, sound⟩ := NodeFile.nodes_eq_ok.mp read
  exact ⟨items, data, sound.length_eq.symm⟩

/-- What the loading of a file leaves behind, and what it reports. Nothing is begun if the file cannot be read. -/
def loading (archive : Archive) (indexKinds : List Int) (path : Text) (source : Source) :
    Archive × Except LoadError LoadCounts :=
  match NodeFile.nodes path indexKinds source with
  | .error error => (archive, .error (.file error))
  | .ok nodes =>
    let (transaction, reports) := (Transaction.begin archive).run nodes
    (transaction.kept, (reports.mapError .storing).map fun reports => .ofStatuses (reports.map (·.1)))

theorem load_eq_loading (archive : Archive) (indexKinds : List Int) (path : Text) (source : Source) :
    archive.load indexKinds path source =
      (archive.loading indexKinds path source).2.map fun counts => ((archive.loading indexKinds path source).1, counts) := by
  unfold load loading
  cases NodeFile.nodes path indexKinds source with
  | error error => rfl
  | ok nodes =>
    simp only [Transaction.run_begin]
    cases reports : (archive.perform ⟨nodes, true⟩).2 with
    | error error => simp [Except.mapError, bind, Except.bind, Except.map, reports]
    | ok reports' => simp [Except.mapError, bind, Except.bind, Except.map, pure, Except.pure, reports, Transaction.begin]

theorem loading_of_nodes {archive : Archive} {indexKinds : List Int} {path : Text} {source : Source} {nodes : List Node}
    (read : NodeFile.nodes path indexKinds source = .ok nodes) :
    archive.loading indexKinds path source =
      ((archive.perform ⟨nodes, true⟩).1,
        ((archive.perform ⟨nodes, true⟩).2.mapError .storing).map fun reports => .ofStatuses (reports.map (·.1))) := by
  simp only [loading, read, Transaction.run_begin]
  rfl

theorem loading_of_putAll {archive changed : Archive} {indexKinds : List Int} {path : Text} {source : Source}
    {nodes : List Node} {reports : List (Status × Row)} (read : NodeFile.nodes path indexKinds source = .ok nodes)
    (put : archive.putAll nodes = .ok (changed, reports)) :
    archive.loading indexKinds path source = (changed, .ok (.ofStatuses (reports.map (·.1)))) := by
  rw [loading_of_nodes read, perform, put]
  rfl

/-- A load that fails keeps the archive. -/
theorem Holds.loading_of_error {archive : Archive} {before : List Node} (holds : archive.Holds before) {indexKinds : List Int}
    {path : Text} {source : Source} {error : LoadError} (failed : (archive.loading indexKinds path source).2 = .error error) :
    (archive.loading indexKinds path source).1 = archive := by
  cases read : NodeFile.nodes path indexKinds source with
  | error unread => rw [loading, read]
  | ok nodes =>
    rw [loading_of_nodes read] at failed ⊢
    cases refused : (Session.mk nodes true).refusal? with
    | some refusal => rw [holds.perform_of_refusal refused]
    | none =>
      obtain ⟨changed, reports, put, _, _⟩ := holds.exists_putAll refused
      rw [Archive.perform, put] at failed
      cases failed

/-- A load that does not fail has read nodes, all of which are accepted, and it has put them. -/
theorem Holds.exists_of_loading {archive kept : Archive} {before : List Node} (holds : archive.Holds before)
    {indexKinds : List Int} {path : Text} {source : Source} {counts : LoadCounts}
    (loaded : archive.loading indexKinds path source = (kept, .ok counts)) :
    ∃ nodes reports, NodeFile.nodes path indexKinds source = .ok nodes ∧ nodes.findSome? Node.refusal? = none ∧
      kept.Holds (before ++ nodes) ∧ Reports before nodes reports ∧ counts = .ofStatuses (reports.map (·.1)) := by
  cases read : NodeFile.nodes path indexKinds source with
  | error unread =>
    rw [loading, read] at loaded
    cases loaded
  | ok nodes =>
    cases refused : (Session.mk nodes true).refusal? with
    | some refusal =>
      rw [loading_of_nodes read, holds.perform_of_refusal refused] at loaded
      cases loaded
    | none =>
      obtain ⟨changed, reports, put, held, reported⟩ := holds.exists_putAll refused
      rw [loading_of_putAll read put] at loaded
      cases loaded
      exact ⟨nodes, reports, rfl, refused, held, reported, rfl⟩

/-- A file is loaded into an archive as a whole or not at all. What is loaded replaces rows by the last node of the file
with their id. Loading the file again changes nothing, though it may report changes where nodes that share an id differ. -/
theorem load_atomic_and_repeatable (sessions : List Session) (indexKinds : List Int) (path : Text) (source : Source) :
    (after sessions).load indexKinds path source = ((after sessions).loading indexKinds path source).2.map
        (fun counts => (((after sessions).loading indexKinds path source).1, counts)) ∧
    (∀ error, ((after sessions).loading indexKinds path source).2 = .error error →
      ((after sessions).loading indexKinds path source).1 = after sessions) ∧
    ∀ kept counts, (after sessions).loading indexKinds path source = (kept, .ok counts) →
      ∃ items nodes, source.data (NodeFile.format path) = .ok (.list items) ∧
        NodeFile.nodes path indexKinds source = .ok nodes ∧
        (kept.rows.map Row.id).Nodup ∧
        (∀ row, row ∈ kept.rows ↔
          (∃ node, lastWithId? nodes row.id = some node ∧ node.row? = some row) ∨
          row ∈ (after sessions).rows ∧ row.id ∉ nodes.map Node.id) ∧
        counts.created + counts.updated + counts.unchanged = items.length ∧
        counts.created = ((nodes.map Node.id).toFinset.filter fun id => id ∉ (after sessions).rows.map Row.id).card ∧
        ∃ again, kept.loading indexKinds path source = (kept, .ok again) ∧ again.created = 0 ∧
          (again.updated = 0 ↔ ∀ node ∈ nodes, ∀ other ∈ nodes, node.id = other.id → node.StoredLike other) := by
  have holds := holds_after sessions
  refine ⟨load_eq_loading _ indexKinds path source, fun _ => holds.loading_of_error, ?_⟩
  intro kept counts loaded
  obtain ⟨nodes, reports, read, accepted, held, reported, rfl⟩ := holds.exists_of_loading loaded
  obtain ⟨items, data, length⟩ := exists_items read
  obtain ⟨again, putAgain, reportedAgain⟩ := held.putAll_again accepted
  refine ⟨items, nodes, data, read, held.distinct, fun row => ?_, ?_, ?_, _, loading_of_putAll read putAgain, ?_, ?_⟩
  · rw [held.mem_rows, holds.mem_rows, lastWithId?_append, ← lastWithId?_eq_none_iff]
    cases lastWithId? nodes row.id <;> simp
  · rw [← length, ← reported.length_eq]
    exact (LoadCounts.total_ofStatuses _).trans (List.length_map _)
  · refine reported.created_eq.trans (congrArg Finset.card (Finset.filter_congr fun id _ => ?_))
    exact holds.row?_eq_none_iff
  · refine reportedAgain.created_eq.trans (Finset.card_eq_zero.mpr (Finset.filter_eq_empty_iff.mpr fun id member => ?_))
    rw [lastWithId?_eq_none_iff, not_not, List.map_append]
    exact List.mem_append_right _ (List.mem_toFinset.mp member)
  · exact reportedAgain.updated_eq_zero_iff

def twoVersions : Source :=
  .ok (Utf8.encode ("[\x7b\x22id\x22: \x22a\x22, \x22pubkey\x22: \x22alice\x22, \x22kind\x22: 1\x7d, " ++
    "\x7b\x22id\x22: \x22a\x22, \x22pubkey\x22: \x22alice\x22, \x22kind\x22: 2\x7d]"))

/-- The versions of one node that stand in the file. -/
def version (kind : Int) : Node :=
  ⟨"a", "alice", .leaf, some kind, [], "", 0⟩

/-- The second version stays whenever the file is loaded, but it is not like the first. -/
theorem versions_loaded_twice :
    ∃ kept counts, (after []).loading [30040] "nodes.json" twoVersions = (kept, .ok counts) ∧ counts.created = 1 ∧
      ∃ again, kept.loading [30040] "nodes.json" twoVersions = (kept, .ok again) ∧ again.updated ≠ 0 := by
  have counted : ((after []).loading [30040] "nodes.json" twoVersions).2.toOption = some ⟨1, 1, 0⟩ := by decide +kernel
  have listed : (NodeFile.nodes "nodes.json" [30040] twoVersions).toOption = some [version 1, version 2] := by decide +kernel
  generalize loaded : (after []).loading [30040] "nodes.json" twoVersions = result at counted
  obtain ⟨kept, counts⟩ := result
  cases counts with
  | error error => cases counted
  | ok counts =>
    obtain rfl : counts = ⟨1, 1, 0⟩ := Option.some.inj counted
    obtain ⟨items, nodes, _, read, _, _, _, _, again, unchanged, _, updated⟩ :=
      (load_atomic_and_repeatable [] [30040] "nodes.json" twoVersions).2.2 kept _ loaded
    rw [read] at listed
    obtain rfl : nodes = [version 1, version 2] := Option.some.inj listed
    refine ⟨kept, _, rfl, rfl, again, unchanged, fun zero => ?_⟩
    obtain ⟨sameKind, _⟩ := updated.mp zero (version 1) List.mem_cons_self (version 2) (by simp) rfl
    cases sameKind

end Archive
end Bindery
