import Bindery.Archive.Query
import Bindery.Archive.Session
import Bindery.Proofs.KeyedLists
import Mathlib.Data.List.Induction

/-! What sessions make of an archive. Under each id stands the last node that a committed session put there,
and nothing else is held. A node is reported by comparison with the one put under its id before it, be that in
an earlier session or earlier in its own. -/

namespace Bindery

namespace Node

/-- Why a node cannot be put into any archive. -/
def refusal? (node : Node) : Option StoringError :=
  match node.kindNumber with
  | none => some (.noKindNumber node.id)
  | some kind => if isStorable kind && isStorable node.createdAt then none else some .integerTooLarge

def row? (node : Node) : Option Row :=
  node.kindNumber.map (Row.ofNode · node)

/-- Alike in all that an archive compares. -/
def StoredLike (node other : Node) : Prop :=
  node.kindNumber = other.kindNumber ∧ node.owner = other.owner ∧ node.tags = other.tags ∧ node.body = other.body ∧
    node.createdAt = other.createdAt

/-- A node as an archive gives it back: its kind number tells its kind. -/
def asKept (indexKinds : List Int) (node : Node) : Node :=
  { node with kind := (node.kindNumber.map (NodeKind.ofNumber indexKinds)).getD node.kind }

theorem refusal?_eq_none {node : Node} :
    node.refusal? = none ↔
      ∃ kind, node.kindNumber = some kind ∧ isStorable kind = true ∧ isStorable node.createdAt = true := by
  unfold refusal?
  cases node.kindNumber <;> simp

end Node

/-! ### Single rows -/

namespace Archive
variable {archive : Archive} {nodes : List Node} {id : Text}

theorem row?_keep (archive : Archive) (row : Row) (id : Text) :
    (archive.keep row).row? id = if row.id = id then some row else archive.row? id := by
  unfold keep
  split
  next known =>
    obtain ⟨old, found⟩ := Option.isSome_iff_exists.mp known
    have own : (fun other : Row => decide ((if other.id = row.id then row else other).id = id)) =
        fun other => decide (other.id = id) := by
      funext other
      split <;> simp_all
    simp only [row?, List.find?_map, Function.comp_def, own]
    by_cases same : row.id = id
    · subst same
      have oldId : old.id = row.id := by simpa using List.find?_some found
      rw [row?] at found
      simp [found, oldId]
    · rw [if_neg same]
      cases other : archive.rows.find? fun other => decide (other.id = id) with
      | none => rfl
      | some found =>
        have foundId : found.id = id := by simpa using List.find?_some other
        rw [Option.map_some, if_neg fun again => same (again.symm.trans foundId)]
  next unknown =>
    have absent : archive.rows.find? (fun other => decide (other.id = row.id)) = none := by
      simpa [row?] using unknown
    by_cases same : row.id = id
    · subst same
      simp [row?, List.find?_append, absent]
    · simp [row?, List.find?_append, same]

theorem nodup_keep {row : Row} (distinct : (archive.rows.map Row.id).Nodup) :
    ((archive.keep row).rows.map Row.id).Nodup := by
  unfold keep
  split
  next known =>
    have same : Row.id ∘ (fun other => if other.id = row.id then row else other) = Row.id := by
      funext other
      simp only [Function.comp_apply]
      split <;> simp_all
    simpa only [List.map_map, same] using distinct
  next unknown =>
    have fresh : ∀ other ∈ archive.rows, other.id ≠ row.id := by simpa [row?] using unknown
    simpa [List.nodup_append, distinct] using fresh

theorem row?_eq_some (distinct : (archive.rows.map Row.id).Nodup) {row : Row} :
    archive.row? id = some row ↔ row ∈ archive.rows ∧ row.id = id :=
  find?_eq_some_iff_mem distinct

/-! ### The last node with an id -/

def lastWithId? (nodes : List Node) (id : Text) : Option Node :=
  nodes.reverse.find? (·.id = id)

theorem lastWithId?_concat (nodes : List Node) (node : Node) (id : Text) :
    lastWithId? (nodes ++ [node]) id = if node.id = id then some node else lastWithId? nodes id := by
  by_cases same : node.id = id <;> simp [lastWithId?, same]

theorem lastWithId?_append_of_notMem {more : List Node} (absent : id ∉ more.map Node.id) :
    lastWithId? (nodes ++ more) id = lastWithId? nodes id := by
  have missing : more.reverse.find? (fun node => decide (node.id = id)) = none := by simpa using absent
  simp [lastWithId?, List.find?_append, missing]

theorem of_lastWithId?_eq_some {node : Node} (last : lastWithId? nodes id = some node) :
    node ∈ nodes ∧ node.id = id :=
  ⟨List.mem_reverse.mp (List.mem_of_find?_eq_some last), by simpa using List.find?_some last⟩

/-- Under each id an archive holds the last of some nodes, all of which can be put into it. -/
structure Holds (archive : Archive) (nodes : List Node) : Prop where
  distinct : (archive.rows.map Row.id).Nodup
  rows : ∀ id, archive.row? id = (lastWithId? nodes id).bind Node.row?
  accepted : ∀ node ∈ nodes, node.refusal? = none

theorem holds_empty : empty.Holds [] where
  distinct := List.nodup_nil
  rows _ := rfl
  accepted := by simp

/-- Where nothing is held under an id, no node with that id was put. -/
theorem Holds.lastWithId?_eq_none (holds : archive.Holds nodes) (absent : archive.row? id = none) :
    lastWithId? nodes id = none := by
  rw [holds.rows] at absent
  apply Option.eq_none_iff_forall_ne_some.mpr
  intro node last
  obtain ⟨kind, numbered, _⟩ := Node.refusal?_eq_none.mp (holds.accepted node (of_lastWithId?_eq_some last).1)
  simp [last, Node.row?, numbered] at absent

theorem Holds.exists_last (holds : archive.Holds nodes) {row : Row} (held : archive.row? id = some row) :
    ∃ old kind, lastWithId? nodes id = some old ∧ old.kindNumber = some kind ∧ row = Row.ofNode kind old ∧
      old.id = id ∧ row.isStorable = true := by
  rw [holds.rows] at held
  obtain ⟨old, last, same⟩ := Option.bind_eq_some_iff.mp held
  obtain ⟨kind, numbered, rfl⟩ := Option.map_eq_some_iff.mp same
  obtain ⟨member, own⟩ := of_lastWithId?_eq_some last
  obtain ⟨other, also, kindStorable, ageStorable⟩ := Node.refusal?_eq_none.mp (holds.accepted old member)
  obtain rfl := Option.some.inj (numbered.symm.trans also)
  exact ⟨old, kind, last, numbered, rfl, own, by simp [Row.isStorable, Row.ofNode, kindStorable, ageStorable]⟩

theorem Holds.concat {changed : Archive} {node : Node} (holds : archive.Holds nodes) (accepted : node.refusal? = none)
    (distinct : (changed.rows.map Row.id).Nodup)
    (rows : ∀ id, changed.row? id = if node.id = id then node.row? else archive.row? id) :
    changed.Holds (nodes ++ [node]) where
  distinct := distinct
  rows id := by
    rw [rows, lastWithId?_concat, holds.rows]
    split <;> rfl
  accepted := List.forall_mem_append.mpr ⟨holds.accepted, by simpa using accepted⟩

/-! ### Putting nodes -/

/-- The report of a node that is put after others. -/
structure IsReport (before : List Node) (node : Node) (report : Status × Row) : Prop where
  row : node.row? = some report.2
  created : report.1 = .created ↔ lastWithId? before node.id = none
  unchanged : report.1 = .unchanged ↔ ∃ old, lastWithId? before node.id = some old ∧ old.StoredLike node
  updated : report.1 = .updated ↔ ∃ old, lastWithId? before node.id = some old ∧ ¬ old.StoredLike node

/-- Reports of nodes that are put one after another. -/
inductive Reports : List Node → List Node → List (Status × Row) → Prop where
  | nil : Reports before [] []
  | cons (report : IsReport before node first) (rest : Reports (before ++ [node]) more reports) :
      Reports before (node :: more) (first :: reports)

theorem agreesWith_eq_true {row : Row} {kind : Int} {node : Node} :
    row.agreesWith kind node = true ↔ row.kind = kind ∧ row.owner = node.owner ∧ row.tags = node.tags ∧
      row.body = node.body ∧ row.createdAt = node.createdAt := by
  simp only [Row.agreesWith, Bool.and_eq_true, decide_eq_true_eq, and_assoc]

theorem agreesWith_ofNode {node old : Node} {kind oldKind : Int} (numbered : node.kindNumber = some kind)
    (oldNumbered : old.kindNumber = some oldKind) :
    (Row.ofNode oldKind old).agreesWith kind node = true ↔ old.StoredLike node := by
  simp [agreesWith_eq_true, Row.ofNode, Node.StoredLike, numbered, oldNumbered]

theorem Holds.exists_put (holds : archive.Holds nodes) {node : Node} (accepted : node.refusal? = none) :
    ∃ changed report, archive.put node = .ok (changed, report) ∧ changed.Holds (nodes ++ [node]) ∧
      IsReport nodes node report := by
  obtain ⟨kind, numbered, kindStorable, ageStorable⟩ := Node.refusal?_eq_none.mp accepted
  have storable : (Row.ofNode kind node).isStorable = true := by
    simp [Row.isStorable, Row.ofNode, kindStorable, ageStorable]
  have own : node.row? = some (Row.ofNode kind node) := by rw [Node.row?, numbered]; rfl
  have kept : (archive.keep (Row.ofNode kind node)).Holds (nodes ++ [node]) :=
    holds.concat accepted (nodup_keep holds.distinct) fun id => by rw [row?_keep, own]; rfl
  unfold put
  simp only [numbered]
  cases held : archive.row? node.id with
  | none =>
    have absent := holds.lastWithId?_eq_none held
    exact ⟨_, _, if_pos storable, kept, own, by simp [absent], by simp [absent], by simp [absent]⟩
  | some row =>
    obtain ⟨old, oldKind, last, oldNumbered, rfl, oldId, _⟩ := holds.exists_last held
    have alike := agreesWith_ofNode numbered oldNumbered
    simp only
    split
    next same =>
      -- Rows that agree in their tags have one name, so the row that is held is the row of the node.
      obtain ⟨sameKind, sameOwner, sameTags, sameBody, sameAge⟩ := alike.mp same
      have sameRow : Row.ofNode oldKind old = Row.ofNode kind node := by
        rw [oldNumbered, numbered, Option.some.injEq] at sameKind
        simp [Row.ofNode, Node.name, Node.first, sameKind, sameOwner, sameTags, sameBody, sameAge, oldId]
      refine ⟨_, _, rfl, holds.concat accepted holds.distinct fun id => ?_, own.trans (by rw [sameRow]), ?_, ?_, ?_⟩
      · split
        next here => rw [← here, held, own, sameRow]
        next => rfl
      · simp [last]
      · simp [last, alike.mp same]
      · simp [last, alike.mp same]
    next different =>
      have unlike : ¬ old.StoredLike node := fun given => different (alike.mpr given)
      have revised : (Row.ofNode oldKind old).revised kind node = Row.ofNode kind node := by
        simp [Row.revised, Row.ofNode, oldId]
      rw [revised]
      exact ⟨_, _, if_pos storable, kept, own, by simp [last], by simp [last, unlike], by simp [last, unlike]⟩

theorem Holds.put_eq_error (holds : archive.Holds nodes) {node : Node} {error : StoringError}
    (refused : node.refusal? = some error) : archive.put node = .error error := by
  unfold Node.refusal? at refused
  unfold put
  cases numbered : node.kindNumber with
  | none =>
    rw [numbered] at refused
    cases refused
    rfl
  | some kind =>
    simp only [numbered, Option.ite_none_left_eq_some, Option.some.injEq] at refused
    obtain ⟨tooLarge, rfl⟩ := refused
    have unstorable : ∀ row : Row, row.kind = kind → row.createdAt = node.createdAt → row.isStorable = false := by
      intro row sameKind sameAge
      simpa [Row.isStorable, sameKind, sameAge] using tooLarge
    cases held : archive.row? node.id with
    | none => exact if_neg (by simp [unstorable (Row.ofNode kind node) rfl rfl])
    | some row =>
      obtain ⟨_, _, _, _, _, _, storable⟩ := holds.exists_last held
      have different : row.agreesWith kind node = false := by
        by_contra same
        obtain ⟨sameKind, _, _, _, sameAge⟩ := agreesWith_eq_true.mp (eq_true_of_ne_false same)
        rw [unstorable row sameKind sameAge] at storable
        cases storable
      simp only [different, Bool.false_eq_true, if_false]
      exact if_neg (by simp [unstorable (row.revised kind node) rfl rfl])

theorem Holds.exists_putAll (holds : archive.Holds nodes) {more : List Node}
    (accepted : more.findSome? Node.refusal? = none) :
    ∃ changed reports, archive.putAll more = .ok (changed, reports) ∧ changed.Holds (nodes ++ more) ∧
      Reports nodes more reports := by
  induction more generalizing archive nodes with
  | nil => exact ⟨archive, [], rfl, by simpa using holds, .nil⟩
  | cons node more ih =>
    obtain ⟨first, later⟩ : node.refusal? = none ∧ more.findSome? Node.refusal? = none := by simpa using accepted
    obtain ⟨changed, report, put, held, isReport⟩ := holds.exists_put first
    obtain ⟨last, reports, putRest, heldLast, areReports⟩ := ih held later
    refine ⟨last, report :: reports, ?_, by simpa using heldLast, .cons isReport areReports⟩
    simp [putAll, put, putRest, bind, Except.bind, pure, Except.pure]

theorem Holds.putAll_eq_error (holds : archive.Holds nodes) {more : List Node} {error : StoringError}
    (refused : more.findSome? Node.refusal? = some error) : archive.putAll more = .error error := by
  induction more generalizing archive nodes with
  | nil => cases refused
  | cons node more ih =>
    rw [List.findSome?_cons] at refused
    cases first : node.refusal? with
    | some other =>
      rw [first] at refused
      cases refused
      rw [putAll, holds.put_eq_error first]
      rfl
    | none =>
      rw [first] at refused
      obtain ⟨changed, report, put, held, _⟩ := holds.exists_put first
      simp [putAll, put, ih held refused, bind, Except.bind]

/-! ### Sessions -/

namespace Session

/-- Why a session fails: the first of its nodes that cannot be put. -/
def refusal? (session : Session) : Option StoringError :=
  session.nodes.findSome? Node.refusal?

/-- The nodes of a session that are there to stay. -/
def lasting (session : Session) : List Node :=
  if session.commits ∧ session.refusal? = none then session.nodes else []

end Session

theorem Holds.perform_of_refusal (holds : archive.Holds nodes) {session : Session} {error : StoringError}
    (refused : session.refusal? = some error) : archive.perform session = (archive, .error error) := by
  rw [perform, holds.putAll_eq_error refused]

theorem Holds.perform (holds : archive.Holds nodes) (session : Session) :
    (archive.perform session).1.Holds (nodes ++ session.lasting) := by
  cases refused : session.refusal? with
  | some error =>
    rw [holds.perform_of_refusal refused, Session.lasting, refused]
    simpa using holds
  | none =>
    obtain ⟨changed, reports, put, held, _⟩ := holds.exists_putAll refused
    rw [Archive.perform, put, Session.lasting, refused]
    cases session.commits
    · simpa using holds
    · simpa using held

/-- All nodes that sessions put to stay, in order. -/
def written (sessions : List Session) : List Node :=
  sessions.flatMap Session.lasting

theorem holds_after (sessions : List Session) : (after sessions).Holds (written sessions) := by
  induction sessions using List.reverseRecOn with
  | nil => exact holds_empty
  | append_singleton sessions session ih =>
    have step := ih.perform session
    simpa only [after, written, List.foldl_concat, List.flatMap_append, List.flatMap_singleton] using step

theorem Holds.mem_rows (holds : archive.Holds nodes) {row : Row} :
    row ∈ archive.rows ↔ ∃ node, lastWithId? nodes row.id = some node ∧ node.row? = some row := by
  rw [← Option.bind_eq_some_iff, ← holds.rows, row?_eq_some holds.distinct]
  exact (and_iff_left rfl).symm

theorem Holds.get? (holds : archive.Holds nodes) (indexKinds : List Int) (id : Text) :
    archive.get? indexKinds id = (lastWithId? nodes id).map (·.asKept indexKinds) := by
  unfold Archive.get?
  cases held : archive.row? id with
  | none => rw [holds.lastWithId?_eq_none held]; rfl
  | some row =>
    obtain ⟨old, kind, last, numbered, rfl, _⟩ := holds.exists_last held
    rw [last]
    simp [Row.toNode, Row.ofNode, Node.asKept, numbered]

/-- After any sessions an archive holds, under each id, the last node that a committed session put there, named
by its own tags. The next session fails just where one of its nodes cannot be put, and then changes nothing.
Otherwise it reports each node against those put before it; ids that it does not mention it leaves alone. -/
theorem archive_replays_sessions (sessions : List Session) :
    ((after sessions).rows.map Row.id).Nodup ∧
    (∀ row, row ∈ (after sessions).rows ↔
      ∃ node, lastWithId? (written sessions) row.id = some node ∧ node.row? = some row) ∧
    (∀ row ∈ (after sessions).rows, row.name = (row.tags.find? fun tag : Tag => tag.key = "d").map Tag.value) ∧
    (∀ indexKinds id, (after sessions).get? indexKinds id =
      (lastWithId? (written sessions) id).map (·.asKept indexKinds)) ∧
    ∀ session : Session,
      (∀ error, session.refusal? = some error →
        (after sessions).perform session = (after sessions, .error error)) ∧
      (session.refusal? = none → ∃ reports, ((after sessions).perform session).2 = .ok reports ∧
        Reports (written sessions) session.nodes reports) ∧
      ∀ row, row.id ∉ session.nodes.map Node.id →
        (row ∈ ((after sessions).perform session).1.rows ↔ row ∈ (after sessions).rows) := by
  have holds := holds_after sessions
  refine ⟨holds.distinct, fun row => holds.mem_rows, ?_, holds.get?, fun session => ⟨fun _ => holds.perform_of_refusal, ?_, ?_⟩⟩
  · intro row member
    obtain ⟨node, _, own⟩ := holds.mem_rows.mp member
    obtain ⟨kind, _, rfl⟩ := Option.map_eq_some_iff.mp own
    rfl
  · intro accepted
    obtain ⟨changed, reports, put, _, areReports⟩ := holds.exists_putAll accepted
    exact ⟨reports, by rw [Archive.perform, put], areReports⟩
  · intro row absent
    have untouched : row.id ∉ session.lasting.map Node.id := by
      unfold Session.lasting
      split
      · exact absent
      · simp
    rw [(holds.perform session).mem_rows, holds.mem_rows, lastWithId?_append_of_notMem untouched]

end Archive
end Bindery
