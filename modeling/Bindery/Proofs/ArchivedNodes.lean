import Bindery.Proofs.ArchivedGraphs

/-! What an archive holds, taken as a shelf. Whatever sessions led to it, an archive tells of each coordinate and each id
what a shelf of its own nodes tells: looked up for itself, or asked for among others and picked out of the answer. Rows
are compared by the names they were kept with, nodes by those that their tags give, and these are the same. -/

namespace Bindery
open Bindery.Graph

/-! ### The newest nodes of an answer -/

namespace Graph
variable {coordinate : Coordinate}

/-- Nodes elsewhere do not matter to what is newest at a coordinate. -/
theorem nodeAt?_newestByCoordinate_filter (nodes : List Node) :
    nodeAt? (newestByCoordinate (nodes.filter (·.coordinate = some coordinate))) coordinate =
      nodeAt? (newestByCoordinate nodes) coordinate := by
  induction nodes using List.reverseRecOn with
  | nil => rfl
  | append_singleton nodes next ih =>
    rw [newestByCoordinate_concat, nodeAt?_keepNewest, List.filter_append]
    by_cases there : next.coordinate = some coordinate
    · have kept : [next].filter (·.coordinate = some coordinate) = [next] := by simp [there]
      rw [kept, newestByCoordinate_concat, nodeAt?_keepNewest, ih]
    · have dropped : [next].filter (·.coordinate = some coordinate) = [] := by simp [there]
      rw [dropped, List.append_nil, if_neg there, ih]

/-- Nor does it matter that nodes come again. -/
theorem nodeAt?_newestByCoordinate_append {nodes more : List Node} (again : more ⊆ nodes) :
    nodeAt? (newestByCoordinate (nodes ++ more)) coordinate = nodeAt? (newestByCoordinate nodes) coordinate := by
  apply nodeAt?_newestByCoordinate_of_part (List.append_subset.mpr ⟨List.Subset.refl nodes, again⟩)
  intro node newest
  have notNewer : ∀ other ∈ more, other.coordinate = some coordinate → other.createdAt ≤ node.createdAt :=
    fun other member there => newest.le (again member) there
  obtain ⟨there, before, after, rfl, older, later⟩ := newest
  refine ⟨there, before, after ++ more, by simp, older, ?_⟩
  exact List.forall_mem_append.mpr ⟨later, notNewer⟩

end Graph

section
variable {α β : Type} [DecidableEq α] {key : α} {keys : List α} (part : List β)

/-- Of parts for keys, all but those for one key empty, the first for that key is the whole, and what follows repeats it. -/
theorem exists_flatMap_ite (member : key ∈ keys) :
    ∃ more ⊆ part, (keys.flatMap fun other => if other = key then part else []) = part ++ more := by
  induction keys with
  | nil => cases member
  | cons first rest ih =>
    rw [List.flatMap_cons]
    split
    next =>
      refine ⟨_, fun item inside => ?_, rfl⟩
      obtain ⟨other, _, inside⟩ := List.mem_flatMap.mp inside
      split at inside
      · exact inside
      · cases inside
    next other => exact ih ((List.mem_cons.mp member).resolve_left fun same => other same.symm)

theorem flatMap_ite_eq_nil (absent : key ∉ keys) : (keys.flatMap fun other => if other = key then part else []) = [] := by
  rw [List.flatMap_eq_nil_iff]
  intro other member
  refine if_neg ?_
  rintro rfl
  exact absent member

end

/-! ### Rows and their nodes -/

/-- A row as an archive keeps it: named by its own tags, and of numbers that can be kept. -/
structure Row.IsSound (row : Row) : Prop where
  named : row.name = (row.tags.find? fun tag : Tag => tag.key = "d").map Tag.value
  storable : row.isStorable = true

namespace Row.IsSound
variable {row : Row} (sound : row.IsSound) (indexKinds : List Int)
include sound

theorem row?_toNode : (row.toNode indexKinds).row? = some row := by
  show some (Row.mk row.id row.kind row.owner (row.toNode indexKinds).name row.tags row.body row.createdAt) = some row
  have name : (row.toNode indexKinds).name = row.name := sound.named.symm
  rw [name]

/-- A row is at a coordinate just where its node has it. Only an empty name makes no coordinate. -/
theorem coordinate_toNode {coordinate : Coordinate} :
    (row.toNode indexKinds).coordinate = some coordinate ↔ row.isAt coordinate = true ∧ coordinate.name ≠ [] := by
  have name : (row.toNode indexKinds).name = row.name := sound.named.symm
  constructor
  · intro there
    refine ⟨(Row.isAt_iff (sound.row?_toNode indexKinds) there).mpr rfl, ?_⟩
    unfold Node.coordinate at there
    split at there
    next kind given numbered named =>
      cases there
      simpa using (Option.filter_eq_some_iff.mp named).2
    next => cases there
  · intro given
    obtain ⟨isAt, present⟩ := given
    simp only [Row.isAt, Bool.and_eq_true, decide_eq_true_eq] at isAt
    obtain ⟨⟨kind, owner⟩, sameName⟩ := isAt
    have named : Reference.named (row.toNode indexKinds).name = some coordinate.name := by
      rw [name, sameName]
      exact Option.filter_eq_some_iff.mpr ⟨rfl, by simpa using present⟩
    have numbered : (row.toNode indexKinds).kindNumber = some coordinate.kind := congrArg some kind
    unfold Node.coordinate
    rw [numbered, named]
    exact congrArg (fun owner => some (Coordinate.mk coordinate.kind owner coordinate.name)) owner

theorem isArchivable_toNode : (row.toNode indexKinds).IsArchivable indexKinds := by
  have storable := sound.storable
  simp only [Row.isStorable, Bool.and_eq_true] at storable
  refine ⟨⟨row.kind, rfl, storable.1, ?_⟩, storable.2⟩
  simp [Row.toNode, NodeKind.ofNumber]

end Row.IsSound

namespace Archive
variable {archive : Archive}

/-- The nodes that an archive gives back, in the order of its rows. -/
def nodes (archive : Archive) (indexKinds : List Int) : List Node :=
  archive.rows.map (Row.toNode indexKinds)

theorem mem_nodes {indexKinds : List Int} {node : Node} :
    node ∈ archive.nodes indexKinds ↔ ∃ row ∈ archive.rows, row.toNode indexKinds = node :=
  List.mem_map

/-- Those with some coordinate. -/
def nodesAt (archive : Archive) (indexKinds : List Int) (coordinate : Coordinate) : List Node :=
  (archive.nodes indexKinds).filter (·.coordinate = some coordinate)

theorem Holds.isSound {nodes : List Node} (holds : archive.Holds nodes) {row : Row} (member : row ∈ archive.rows) :
    row.IsSound := by
  obtain ⟨old, kind, _, _, rfl, _, storable⟩ := holds.exists_last ((row?_eq_some holds.distinct).mpr ⟨member, rfl⟩)
  exact ⟨rfl, storable⟩

/-- Each row is named by its tags and can be kept, and no two have one id. -/
structure IsSound (archive : Archive) : Prop where
  distinct : (archive.rows.map Row.id).Nodup
  rows : ∀ row ∈ archive.rows, row.IsSound

theorem isSound_after (sessions : List Session) : (after sessions).IsSound :=
  ⟨(holds_after sessions).distinct, fun _ => (holds_after sessions).isSound⟩

/-- An archive as a shelf of its nodes. -/
def IsSound.shelf (sound : archive.IsSound) (indexKinds : List Int) : Shelf where
  nodes := archive.nodes indexKinds
  distinct := by
    have ids : (archive.nodes indexKinds).map Node.id = archive.rows.map Row.id := by
      rw [nodes, List.map_map]
      rfl
    rw [ids]
    exact sound.distinct

section
variable (sound : archive.IsSound) {indexKinds : List Int}
include sound

theorem IsSound.mirrors : archive.Mirrors indexKinds (sound.shelf indexKinds) where
  rows row := by
    constructor
    · intro member
      exact ⟨row.toNode indexKinds, mem_nodes.mpr ⟨row, member, rfl⟩, (sound.rows row member).row?_toNode indexKinds⟩
    · intro given
      obtain ⟨node, present, own⟩ := given
      obtain ⟨other, member, rfl⟩ := mem_nodes.mp present
      rw [(sound.rows other member).row?_toNode indexKinds] at own
      exact Option.some.inj own ▸ member
  archivable node present := by
    obtain ⟨row, member, rfl⟩ := mem_nodes.mp present
    exact (sound.rows row member).isArchivable_toNode indexKinds

/-- The nodes at a coordinate come from the rows there, and from no rows at another. -/
theorem IsSound.filter_rowsAt (indexKinds : List Int) (coordinate asked : Coordinate) :
    ((archive.rows.filter (·.isAt asked)).map (Row.toNode indexKinds)).filter (·.coordinate = some coordinate) =
      if asked = coordinate then archive.nodesAt indexKinds coordinate else [] := by
  rw [nodesAt, nodes, List.filter_map, List.filter_map, List.filter_filter]
  split
  next same =>
    subst same
    refine congrArg (List.map _) (List.filter_congr fun row member => ?_)
    have isAt : (row.toNode indexKinds).coordinate = some asked → row.isAt asked = true :=
      fun there => (((sound.rows row member).coordinate_toNode indexKinds).mp there).1
    rw [Bool.and_eq_left_iff_imp]
    simpa using isAt
  next other =>
    rw [List.map_eq_nil_iff, List.filter_eq_nil_iff]
    intro row member both
    simp only [Function.comp_apply, Bool.and_eq_true, decide_eq_true_eq] at both
    have own := (sound.rows row member).row?_toNode indexKinds
    exact other ((Row.isAt_iff own both.1).mp both.2).symm

/-- What is newest at a coordinate is found in any answer for it, whatever else was asked for, and however often. -/
theorem IsSound.nodeAt?_answer {asked : List Selector} {coordinates : List Coordinate} {answer : List Node}
    (answered : (archive.toStore indexKinds).answer asked (.atCoordinates coordinates) = some answer)
    (coordinate : Coordinate) :
    nodeAt? (newestByCoordinate answer) coordinate =
      if coordinate ∈ coordinates then (sound.shelf indexKinds).at? coordinate else none := by
  obtain ⟨rows, found, rfl⟩ := exists_rows_of_answer answered
  cases parts : coordinates.mapM archive.rowsAt with
  | error error => rw [rowsFor, parts] at found; cases found
  | ok parts' =>
    rw [rowsFor, parts] at found
    cases found
    obtain rfl := mapM_rowsAt_eq_ok parts
    have grouped : (((coordinates.map fun asked => archive.rows.filter (·.isAt asked)).flatten.map
          (Row.toNode indexKinds)).filter (·.coordinate = some coordinate)) =
        coordinates.flatMap fun asked => if asked = coordinate then archive.nodesAt indexKinds coordinate else [] := by
      rw [List.map_flatten, List.filter_flatten, List.map_map, List.map_map, ← List.flatMap_def]
      exact List.flatMap_congr fun asked _ => sound.filter_rowsAt indexKinds coordinate asked
    rw [← nodeAt?_newestByCoordinate_filter, grouped]
    split
    next member =>
      obtain ⟨more, again, whole⟩ := exists_flatMap_ite (archive.nodesAt indexKinds coordinate) member
      rw [whole, nodeAt?_newestByCoordinate_append again]
      exact nodeAt?_newestByCoordinate_filter _
    next absent =>
      rw [flatMap_ite_eq_nil _ absent]
      rfl

open Resolver in
theorem IsSound.finds_at :
    Search.byCoordinate.Finds (archive.toStore indexKinds) fun coordinate found =>
      found = (sound.shelf indexKinds).at? coordinate where
  batch asked coordinates coordinate node found := by
    cases answered : (archive.toStore indexKinds).answer asked (.atCoordinates coordinates) with
    | none => simp [Search.byCoordinate, answered, newestByCoordinate] at found
    | some answer =>
      simp only [Search.byCoordinate, answered, Option.getD_some] at found
      rw [sound.nodeAt?_answer answered] at found
      split at found
      · exact found.symm
      · cases found
  alone asked coordinate := by
    cases answered : (archive.toStore indexKinds).answer asked (.atCoordinates [coordinate]) with
    | none =>
      simp only [Search.byCoordinate, answered, Option.getD_none]
      exact (sound.mirrors.at?_eq_none_of_failed answered).symm
    | some answer =>
      simp only [Search.byCoordinate, answered, Option.getD_some]
      rw [sound.nodeAt?_answer answered, if_pos (List.mem_singleton_self coordinate)]

/-- Resolving finds in an archive what is on the shelf of its nodes, also where revisions are of one age. -/
theorem IsSound.reveals : (archive.toStore indexKinds).Reveals (sound.shelf indexKinds) :=
  ⟨sound.finds_at, Resolver.archive_finds_withId sound.mirrors⟩

end

/-! ### Looking nodes up one by one -/

theorem newest?_concat (rows : List Row) (row : Row) :
    newest? (rows ++ [row]) = some ((newest? rows).elim row (newer · row)) := by
  cases rows with
  | nil => rfl
  | cons first rest => simp [newest?, List.foldl_append]

theorem toNode_newer (indexKinds : List Int) (old row : Row) :
    (newer old row).toNode indexKinds = Graph.newer (old.toNode indexKinds) (row.toNode indexKinds) :=
  apply_ite (Row.toNode indexKinds) _ row old

/-- Of rows at one coordinate the row and the node that is newest are found alike, also where several are as new. -/
theorem newest?_map_toNode {indexKinds : List Int} {coordinate : Coordinate} {rows : List Row}
    (there : ∀ row ∈ rows, (row.toNode indexKinds).coordinate = some coordinate) :
    (newest? rows).map (Row.toNode indexKinds) =
      nodeAt? (newestByCoordinate (rows.map (Row.toNode indexKinds))) coordinate := by
  induction rows using List.reverseRecOn with
  | nil => rfl
  | append_singleton rows row ih =>
    rw [List.forall_mem_append, List.forall_mem_singleton] at there
    rw [newest?_concat, List.map_append, List.map_singleton, newestByCoordinate_concat, nodeAt?_keepNewest,
      if_pos there.2, ← ih there.1]
    cases newest? rows with
    | none => rfl
    | some old => exact congrArg some (toNode_newer indexKinds old row)

/-- What is looked up at a coordinate is the newest node there, wherever kinds can be kept. -/
theorem IsSound.at?_eq_ok (sound : archive.IsSound) {indexKinds : List Int} {coordinate : Coordinate}
    (storable : isStorable coordinate.kind = true) (named : coordinate.name ≠ []) :
    archive.at? indexKinds coordinate = .ok ((sound.shelf indexKinds).at? coordinate) := by
  have rowsAt : archive.rowsAt coordinate = .ok (archive.rows.filter (·.isAt coordinate)) := if_pos storable
  have there : ∀ row ∈ archive.rows.filter (·.isAt coordinate), (row.toNode indexKinds).coordinate = some coordinate := by
    intro row member
    obtain ⟨held, isAt⟩ := List.mem_filter.mp member
    exact ((sound.rows row held).coordinate_toNode indexKinds).mpr ⟨isAt, named⟩
  have all : ∀ node ∈ (archive.rows.filter (·.isAt coordinate)).map (Row.toNode indexKinds),
      decide (node.coordinate = some coordinate) = true := by
    rw [List.forall_mem_map]
    exact fun row member => decide_eq_true (there row member)
  have nodes : (archive.rows.filter (·.isAt coordinate)).map (Row.toNode indexKinds) =
      archive.nodesAt indexKinds coordinate := by
    have filtered := sound.filter_rowsAt indexKinds coordinate coordinate
    rwa [if_pos rfl, List.filter_eq_self.mpr all] at filtered
  rw [at?, rowsAt]
  refine congrArg Except.ok ?_
  rw [newest?_map_toNode there, nodes]
  exact nodeAt?_newestByCoordinate_filter _

theorem IsSound.get?_eq (sound : archive.IsSound) {indexKinds : List Int} (id : Text) :
    archive.get? indexKinds id = (sound.shelf indexKinds).withId? id := by
  show (archive.rows.find? (·.id = id)).map (Row.toNode indexKinds) =
    (archive.rows.map (Row.toNode indexKinds)).find? (·.id = id)
  rw [List.find?_map]
  rfl

end Archive
end Bindery
