import Bindery.Proofs.DocumentLines
import Bindery.Proofs.SectionHeadings
import Bindery.Proofs.Tokens

/-! The header of a document in AsciiDoc: its lines up to the first empty one. The title and the attributes are written
as they are, so they can be read back just where each of them is one line. -/

namespace Bindery
open Text

namespace Document.AsciiDoc

/-! ### Lines up to the first empty one -/

def headerLines (text : Text) : List Text :=
  (lines text).takeWhile (!·.isEmpty)

theorem headerLines_toAsciiDoc (document : Document) :
    headerLines document.toAsciiDoc = headerLines (header document) := by
  rw [headerLines, lines_toAsciiDoc, frontLines, partLines, List.append_assoc, List.append_assoc, headerLines]
  generalize lines (header document) = front
  induction front with
  | nil => rfl
  | cons line front ih =>
    rw [List.cons_append, List.takeWhile_cons, List.takeWhile_cons, ih]

theorem ne_nil_of_mem_statements {document : Document} {line : Text} (member : line ∈ statements document) : line ≠ [] := by
  rcases List.mem_cons.mp member with rfl | later
  · simp
  · obtain ⟨field, _, rfl⟩ := List.mem_map.mp later
    simp [attributeLine]

/-- Title and attributes take one line each. -/
def IsLined (document : Document) : Prop :=
  ∀ line ∈ statements document, '\n' ∉ line

theorem headerLines_eq_iff (document : Document) :
    headerLines document.toAsciiDoc = statements document ↔ IsLined document := by
  rw [headerLines_toAsciiDoc, headerLines]
  constructor
  · intro same line member newline
    rw [← same] at member
    exact notMem_of_mem_lines ((List.takeWhile_sublist _).subset member) newline
  · intro lined
    rw [header_eq, lines_unlines lined (List.cons_ne_nil _ _)]
    apply List.takeWhile_eq_self_iff.mpr
    intro line member
    simp [ne_nil_of_mem_statements member]

theorem isLined_iff {document : Document} (keyed : ∀ field ∈ attributes document, '\n' ∉ field.key) :
    IsLined document ↔ '\n' ∉ document.title ∧ ∀ field ∈ attributes document, '\n' ∉ field.value := by
  unfold IsLined statements
  rw [List.forall_mem_cons, List.forall_mem_map]
  refine and_congr (by simp) ?_
  apply forall₂_congr
  intro field member
  simp [attributeLine, keyed field member]

/-! ### Reading a header -/

/-- Reads a line such as `:key: value`. -/
def readAttribute? (line : Text) : Option Tag := do
  let (key, after) ← cutAt ':' (← dropStart? ":" line)
  return ⟨key, ← dropStart? " " after⟩

/-- Reads the title and the attributes of a document from the lines of its header. -/
def readHeader? : List Text → Option (Text × List Tag)
  | [] => none
  | first :: rest => do
    let title ← dropStart? "= " first
    return (title, ← rest.mapM readAttribute?)

theorem readAttribute?_eq_some {line : Text} {field : Tag} :
    readAttribute? line = some field ↔ line = attributeLine field ∧ ':' ∉ field.key := by
  simp only [readAttribute?, Option.bind_eq_bind, Option.bind_eq_some_iff, dropStart?_eq_some, Option.pure_def,
    Option.some.injEq, Prod.exists, cutAt_eq_some, attributeLine]
  constructor
  · rintro ⟨_, rfl, key, _, ⟨rfl, absent⟩, value, rfl, rfl⟩
    exact ⟨by simp, absent⟩
  · rintro ⟨rfl, absent⟩
    exact ⟨_, List.append_assoc _ _ _ |>.trans (List.append_assoc _ _ _), field.key, _, ⟨rfl, absent⟩, field.value, rfl, rfl⟩

theorem mapM_readAttribute?_eq_some {lines : List Text} {fields : List Tag} :
    lines.mapM readAttribute? = some fields ↔ lines = fields.map attributeLine ∧ ∀ field ∈ fields, ':' ∉ field.key := by
  induction lines generalizing fields with
  | nil => cases fields <;> simp
  | cons line rest ih =>
    rw [List.mapM_cons]
    simp only [Option.bind_eq_bind, Option.bind_eq_some_iff, Option.pure_def, Option.some.injEq, readAttribute?_eq_some, ih]
    constructor
    · rintro ⟨field, ⟨rfl, absent⟩, later, ⟨rfl, others⟩, rfl⟩
      exact ⟨rfl, List.forall_mem_cons.mpr ⟨absent, others⟩⟩
    · intro given
      obtain ⟨written, absent⟩ := given
      cases fields with
      | nil => cases written
      | cons field fields =>
        obtain ⟨first, later⟩ := List.cons.inj written
        obtain ⟨own, others⟩ := List.forall_mem_cons.mp absent
        exact ⟨field, ⟨first, own⟩, fields, ⟨later, others⟩, rfl⟩

/-- Just what would be written is read, as long as no key holds a colon. -/
theorem readHeader?_eq_some {document : Document} (keyed : ∀ field ∈ attributes document, ':' ∉ field.key)
    {lines : List Text} :
    readHeader? lines = some (document.title, attributes document) ↔ lines = statements document := by
  cases lines with
  | nil => simp [readHeader?, statements]
  | cons first rest =>
    simp only [readHeader?, Option.bind_eq_bind, Option.bind_eq_some_iff, Option.pure_def, Option.some.injEq, Prod.mk.injEq,
      dropStart?_eq_some, mapM_readAttribute?_eq_some, statements, List.cons.injEq]
    constructor
    · rintro ⟨title, rfl, fields, ⟨rfl, _⟩, rfl, rfl⟩
      exact ⟨rfl, rfl⟩
    · rintro ⟨rfl, rfl⟩
      exact ⟨document.title, rfl, attributes document, ⟨rfl, keyed⟩, rfl, rfl⟩

end Document.AsciiDoc

namespace Compositor
open Document.AsciiDoc

/-! ### Front matter -/

theorem frontMatter_of_isPresent {compositor : Compositor} {root : Node} {title : Text} (present : isPresent title = true) :
    compositor.frontMatter root title =
      ⟨"title", strip title⟩ :: (compositor.frontMatter root title).filter fun field => field.key ≠ ("title" : Text) := by
  have titled : ∀ others : List Tag, ("title" : Text) ∉ others.map Tag.key →
      presentFields (⟨"title", title⟩ :: others) = ⟨"title", strip title⟩ ::
        (presentFields (⟨"title", title⟩ :: others)).filter fun field => field.key ≠ ("title" : Text) := by
    intro others absent
    have split : presentFields (⟨"title", title⟩ :: others) = ⟨"title", strip title⟩ :: presentFields others := by
      simp [presentFields, present]
    have kept : (presentFields others).filter (fun field => field.key ≠ ("title" : Text)) = presentFields others := by
      apply List.filter_eq_self.mpr
      intro field member
      have key := mem_keys_of_mem_presentFields member
      rw [decide_eq_true_eq]
      intro same
      exact absent (same ▸ key)
    rw [split, List.filter_cons_of_neg (by simp), kept]
  apply titled
  show ("title" : Text) ∉ frontMatterKeys.tail
  decide

/-- The header of an assembled document has one line for the title and one for each attribute, and is read back as
these, just where the title and all values are one line each. The title heads the front matter unless it is blank. -/
theorem header_reads_back_iff (compositor : Compositor) (isTrueRoot : Bool) (reference : Option Text)
    (graph : ContentGraph) :
    (3 ≤ compositor.deepest → compositor.deepest ≤ 6 →
      ∃ document, compositor.assemble isTrueRoot reference graph = .ok document) ∧
    ∀ document, compositor.assemble isTrueRoot reference graph = .ok document →
      (headerLines document.toAsciiDoc = ("= " ++ document.title) ::
          (attributes document).map (fun field => ":" ++ field.key ++ ": " ++ field.value) ↔
        '\n' ∉ document.title ∧ ∀ field ∈ attributes document, '\n' ∉ field.value) ∧
      (readHeader? (headerLines document.toAsciiDoc) = some (document.title, attributes document) ↔
        '\n' ∉ document.title ∧ ∀ field ∈ attributes document, '\n' ∉ field.value) ∧
      (isPresent document.title = true →
        document.frontMatter = ⟨"title", strip document.title⟩ :: attributes document) := by
  constructor
  · intro room known
    obtain ⟨document, assembled, _⟩ := exists_assemble room known isTrueRoot reference graph
    exact ⟨document, assembled⟩
  · intro document assembled
    have fields := (fields_of_assemble assembled).1
    have keyed : ∀ field ∈ attributes document, ':' ∉ field.key ∧ '\n' ∉ field.key := by
      intro field member
      have inside : field ∈ document.frontMatter := List.mem_of_mem_filter member
      rw [fields] at inside
      obtain ⟨colonless, feedless, _⟩ := frontMatterKeys_plain field.key (mem_frontMatterKeys inside)
      exact ⟨colonless, feedless⟩
    have lined := isLined_iff fun field member => (keyed field member).2
    refine ⟨(headerLines_eq_iff document).trans lined, ?_, fun present => ?_⟩
    · rw [readHeader?_eq_some fun field member => (keyed field member).1, headerLines_eq_iff, lined]
    · rw [attributes, fields]
      exact frontMatter_of_isPresent present

def workInTwoLines : ContentGraph where
  root := ⟨"work-1", "alice", .index, some 30040,
    [⟨"d", "work"⟩, ⟨"title", "Work"⟩, ⟨"summary", "First line\nSecond line"⟩], "", 0⟩
  entries := []

/-- The second line of the summary stands in the header by itself, and what is read is not what was written. -/
theorem summary_breaks_header :
    ∃ document, plainCompositor.assemble true none workInTwoLines = .ok document ∧
      isPresent document.title = true ∧ headerLines document.toAsciiDoc ≠ statements document ∧
      readHeader? (headerLines document.toAsciiDoc) ≠ some (document.title, attributes document) := by
  obtain ⟨assembles, reads⟩ := header_reads_back_iff plainCompositor true none workInTwoLines
  obtain ⟨document, assembled⟩ := assembles (by decide) (by decide)
  obtain ⟨written, read, _⟩ := reads document assembled
  have title : document.title = "Work" := by cases assembled; rfl
  have summary : ⟨"summary", "First line\nSecond line"⟩ ∈ attributes document := by
    rw [attributes, (fields_of_assemble assembled).1, title]
    decide
  have broken : ¬ ('\n' ∉ document.title ∧ ∀ field ∈ attributes document, '\n' ∉ field.value) := by
    rintro ⟨_, whole⟩
    exact whole _ summary (by decide)
  exact ⟨document, assembled, by rw [title]; decide, fun same => broken (written.mp same), fun same => broken (read.mp same)⟩

end Compositor
end Bindery
