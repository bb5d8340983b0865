import Bindery.Proofs.BlockReadings

/-! Blocks that hold no other blocks: headings, code and the rest of them. They are found where blocks are read, and a
leaf ends before the next one begins, so that no line of a leaf is in a heading beside it. What is nested too deeply to
be read holds no leaves. -/

namespace Bindery.Markdown
open Text

/-- A block that holds no other blocks, with the lines it takes. -/
inductive Leaf where
  | heading (heading : Heading)
  | code (start stop : Nat)
  | other (start stop : Nat)
  deriving DecidableEq, Repr

namespace Leaf

def start : Leaf → Nat
  | heading found => found.start
  | code start _ | other start _ => start

def stop : Leaf → Nat
  | heading found => found.stop
  | code _ stop | other _ stop => stop

def heading? : Leaf → Option Heading
  | heading found => some found
  | code .. | other .. => none

end Leaf

/-- Leaves of what was read from a line on, each of them before the next. -/
structure Charts (number : Nat) (reading : Reading) (leaves : List Leaf) : Prop where
  headings : leaves.filterMap Leaf.heading? = reading.headings
  ordered : leaves.Pairwise fun leaf later => leaf.stop ≤ later.start
  bounds : ∀ leaf ∈ leaves, number ≤ leaf.start ∧ leaf.start < leaf.stop ∧ leaf.stop ≤ number + reading.taken

theorem charts_nil (number taken : Nat) : Charts number ⟨[], taken⟩ [] :=
  ⟨rfl, .nil, nofun⟩

theorem Charts.append {number : Nat} {first second : Reading} {leaves more : List Leaf} (charts : Charts number first leaves)
    (next : Charts (number + first.taken) second more) :
    Charts number ⟨first.headings ++ second.headings, first.taken + second.taken⟩ (leaves ++ more) := by
  constructor
  · rw [List.filterMap_append, charts.headings, next.headings]
  · rw [List.pairwise_append]
    refine ⟨charts.ordered, next.ordered, fun leaf before later after => ?_⟩
    have ends := (charts.bounds leaf before).2.2
    have begins := (next.bounds later after).1
    omega
  · intro leaf member
    show _ ∧ _ ∧ leaf.stop ≤ number + (first.taken + second.taken)
    rcases List.mem_append.mp member with before | after
    · have bounds := charts.bounds leaf before
      omega
    · have bounds := next.bounds leaf after
      omega

/-- One leaf that is no heading takes all lines. -/
theorem charts_of_leaf (leaf : Leaf) {taken : Nat} (headless : leaf.heading? = none) (stop : leaf.stop = leaf.start + taken)
    (positive : 1 ≤ taken) : Charts leaf.start ⟨[], taken⟩ [leaf] := by
  constructor
  · rw [List.filterMap_cons_none headless, List.filterMap_nil]
  · exact List.pairwise_singleton _ _
  · intro other member
    obtain rfl := List.mem_singleton.mp member
    show _ ∧ _ ∧ other.stop ≤ other.start + taken
    omega

theorem charts_of_headings {number : Nat} {reading : Reading} (within : Within number reading.headings (number + reading.taken)) :
    Charts number reading (reading.headings.map .heading) := by
  constructor
  · rw [List.filterMap_map]
    exact List.filterMap_some
  · exact List.pairwise_map.mpr within.pairwise
  · intro leaf member
    obtain ⟨heading, found, rfl⟩ := List.mem_map.mp member
    exact within.bounds found

/-- Headings that were found are the leaves; where none was found, all lines are one leaf. -/
theorem charts_of_block {number : Nat} {block : Reading} (within : Within number block.headings (number + block.taken))
    (positive : 1 ≤ block.taken) :
    Charts number block (if block.headings.isEmpty then [.other number (number + block.taken)] else block.headings.map .heading) := by
  split
  next headless =>
    have whole : block = ⟨[], block.taken⟩ := by rw [← List.isEmpty_iff.mp headless]
    rw [whole]
    exact charts_of_leaf (.other number (number + block.taken)) rfl rfl positive
  · exact charts_of_headings within

/-- A leaf that is no heading has no line in common with one. -/
theorem Charts.apart {number : Nat} {reading : Reading} {leaves : List Leaf} (charts : Charts number reading leaves) {leaf : Leaf}
    (member : leaf ∈ leaves) (other : leaf.heading? = none) {heading : Heading} (found : heading ∈ reading.headings) :
    leaf.stop ≤ heading.start ∨ heading.stop ≤ leaf.start := by
  have among : .heading heading ∈ leaves := by
    rw [← charts.headings, List.mem_filterMap] at found
    obtain ⟨headed, inside, same⟩ := found
    cases headed with
    | heading => exact Option.some.inj same ▸ inside
    | code | other => cases same
  have ordered := charts.ordered
  obtain ⟨front, back, rfl⟩ := List.append_of_mem member
  rw [List.pairwise_append, List.pairwise_cons] at ordered
  obtain ⟨_, ⟨behind, _⟩, before⟩ := ordered
  rcases List.mem_append.mp among with early | late
  · exact Or.inr (before _ early leaf List.mem_cons_self)
  · rcases List.mem_cons.mp late with rfl | late
    · cases other
    · exact Or.inl (behind _ late)

/-- A reader of blocks, and the leaves among the lines that it reads. -/
structure Surveyor where
  read : BlockReader
  leaves : Context → List Line → List Leaf
  reads : Reads read
  starts : Starts read
  charts : ∀ {headed : Nat → Prop} {context : Context} {number : Nat} {lines : List Line}, 0 ≤ context.edge →
    Numbered headed number lines → Charts number (read context lines) (leaves context lines)

variable {headed : Nat → Prop}

/-! ### Leaves in containers -/

def leavesOfQuote (quote : Surveyor) (context : Context) (line : Line) (rest : List Line) : List Leaf :=
  quote.leaves (quoteContext context) (line.insideQuote :: quoteLines context line.insideQuote.isEmpty rest)

def leavesOfItem (item : Surveyor) (context : Context) (marker : ListMarker) (line : Line) (rest : List Line) : List Leaf :=
  if (line.insideItem marker).isEmpty && rest.head?.all Line.isEmpty then []
  else item.leaves (itemContext context marker line) (line.insideItem marker :: rest)

theorem length_lt_of_drop_eq_cons {lines more : List Line} {next : Line} {used : Nat} (later : lines.drop used = next :: more) :
    more.length < lines.length := by
  have shorter := congrArg List.length later
  rw [List.length_drop, List.length_cons] at shorter
  omega

def leavesOfItems (item : Surveyor) (context : Context) (marker : ListMarker) (line : Line) (rest : List Line) : List Leaf :=
  let own := leavesOfItem item context marker line rest
  match later : rest.drop ((readItem item.read context marker line rest).taken - 1) with
  | [] => own
  | next :: more =>
    have : more.length < rest.length := length_lt_of_drop_eq_cons later
    match nextMarker? context marker next with
    | none => own
    | some marker => own ++ leavesOfItems item context marker next more
termination_by rest.length

theorem charts_leavesOfQuote (quote : Surveyor) {context : Context} {line : Line} {rest : List Line} {number : Nat}
    (numbered : Numbered headed number (line :: rest)) :
    Charts number (readQuote quote.read context line rest) (leavesOfQuote quote context line rest) :=
  quote.charts (Int.le_refl 0) (numbered.insideQuote (numbered_quoteLines numbered.2))

theorem charts_leavesOfItem (item : Surveyor) {context : Context} {marker : ListMarker} {line : Line} {rest : List Line}
    {number : Nat} (numbered : Numbered headed number (line :: rest)) :
    Charts number (readItem item.read context marker line rest) (leavesOfItem item context marker line rest) := by
  rw [readItem_eq, leavesOfItem]
  split
  · exact charts_nil number _
  · exact item.charts (Int.natCast_nonneg _) (numbered.insideItem marker)

theorem charts_leavesOfItem_of_last (item : Surveyor) {context : Context} {marker : ListMarker} {line : Line} {rest : List Line}
    {number : Nat} (numbered : Numbered headed number (line :: rest))
    (last : ∀ next ∈ (rest.drop ((readItem item.read context marker line rest).taken - 1)).head?,
      nextMarker? context marker next = none) :
    Charts number (readItems item.read context marker line rest) (leavesOfItem item context marker line rest) := by
  rw [readItems_of_last last, Nat.sub_add_cancel (starts_readItem item.starts context marker line rest)]
  exact charts_leavesOfItem item numbered

theorem charts_leavesOfItems (item : Surveyor) {context : Context} {marker : ListMarker} {line : Line} {rest : List Line}
    {number : Nat} (numbered : Numbered headed number (line :: rest)) :
    Charts number (readItems item.read context marker line rest) (leavesOfItems item context marker line rest) := by
  fun_induction leavesOfItems item context marker line rest generalizing number with
  | case1 marker line rest own =>
    rename_i spent
    apply charts_leavesOfItem_of_last item numbered
    rw [spent]
    exact nofun
  | case2 marker line rest own next more later =>
    rename_i last
    apply charts_leavesOfItem_of_last item numbered
    rw [later]
    rintro _ ⟨⟩
    exact last
  | case3 marker line rest own next more later shorter further found =>
    rename_i ih
    have whole := Nat.sub_add_cancel (starts_readItem item.starts context marker line rest)
    have dropped : (line :: rest).drop (readItem item.read context marker line rest).taken = next :: more := by
      rw [← whole, List.drop_succ_cons, later]
    rw [readItems_of_next later found, whole]
    exact (charts_leavesOfItem item numbered).append (ih (dropped ▸ numbered.drop _))

/-! ### Leaves among blocks -/

def leavesOfBlock (quote item : Surveyor) (context : Context) (line : Line) (rest : List Line) : List Leaf :=
  let block := readBlock quote.read item.read context line rest
  if context.isCode line || (fenceMark? line.content).isSome then [.code line.number (line.number + block.taken)]
  else if isQuoted line.content then leavesOfQuote quote context line rest
  else if isRule line.content then [.other line.number (line.number + 1)]
  else
    match opensList? context false line with
    | some marker => leavesOfItems item context marker line rest
    | none =>
      if block.headings.isEmpty then [.other line.number (line.number + block.taken)] else block.headings.map .heading

def leavesOfBlocks (quote item : Surveyor) (context : Context) : List Line → List Leaf
  | [] => []
  | line :: rest =>
    if line.isEmpty then leavesOfBlocks quote item context rest
    else if line.indent < context.edge then []
    else
      leavesOfBlock quote item context line rest
        ++ leavesOfBlocks quote item context (rest.drop ((readBlock quote.read item.read context line rest).taken - 1))
termination_by lines => lines.length
decreasing_by
  · simp
  · simp only [List.length_drop, List.length_cons]; omega

theorem charts_leavesOfBlock (quote item : Surveyor) {context : Context} {line : Line} {rest : List Line} {number : Nat}
    (outside : 0 ≤ context.edge) (numbered : Numbered headed number (line :: rest)) (reaches : context.edge ≤ line.indent)
    (present : line.isEmpty = false) :
    Charts number (readBlock quote.read item.read context line rest) (leavesOfBlock quote item context line rest) := by
  obtain rfl : line.number = number := numbered.1.1
  have starts : 1 ≤ (readBlock quote.read item.read context line rest).taken := starts_readBlock quote.starts context line rest
  have sound := sound_readBlock quote.reads item.reads item.starts outside numbered reaches present
  have kinds := readBlock_cases quote.read item.read context line rest
  unfold leavesOfBlock
  generalize readBlock quote.read item.read context line rest = block at starts sound kinds ⊢
  cases kinds with
  | code code =>
    rw [if_pos (by simp [code])]
    exact charts_of_leaf (.code ..) rfl rfl starts
  | fence near mark width fenced =>
    rw [if_pos (by simp [fenced])]
    exact charts_of_leaf (.code ..) rfl rfl starts
  | quote near unfenced quoted =>
    rw [if_neg (by simp [near, unfenced]), if_pos quoted]
    exact charts_leavesOfQuote quote numbered
  | rule near unfenced unquoted ruled =>
    rw [if_neg (by simp [near, unfenced]), if_neg (by simp [unquoted]), if_pos ruled]
    exact charts_of_leaf (.other ..) rfl rfl starts
  | list near unfenced unquoted unruled marker opens =>
    simp only [near, unfenced, unquoted, unruled, opens]
    exact charts_leavesOfItems item numbered
  | definition plain | html plain | hashes plain | underlined plain | paragraph plain =>
    simp only [plain.near, plain.unfenced, plain.unquoted, plain.unruled, plain.unlisted]
    exact charts_of_block sound.within starts

theorem charts_leavesOfBlocks (quote item : Surveyor) {context : Context} {number : Nat} {lines : List Line}
    (outside : 0 ≤ context.edge) (numbered : Numbered headed number lines) :
    Charts number (readBlocks quote.read item.read context lines) (leavesOfBlocks quote item context lines) := by
  fun_induction leavesOfBlocks quote item context lines generalizing number with
  | case1 =>
    rw [readBlocks]
    exact charts_nil number 0
  | case2 line rest empty ih =>
    rw [readBlocks, if_pos empty]
    show Charts number ⟨_, (readBlocks quote.read item.read context rest).taken + 1⟩ _
    rw [Nat.add_comm]
    exact (charts_nil number 1).append (ih numbered.2)
  | case3 line rest present before =>
    rw [readBlocks, if_neg present, if_pos before]
    exact charts_nil number 0
  | case4 line rest present reaches ih =>
    have starts : 1 ≤ (readBlock quote.read item.read context line rest).taken := starts_readBlock quote.starts context line rest
    have whole := Nat.sub_add_cancel starts
    rw [readBlocks, if_neg present, if_neg reaches]
    simp only [whole]
    rw [Bool.not_eq_true] at present
    apply (charts_leavesOfBlock quote item outside numbered (Int.not_lt.mp reaches) present).append
    apply ih
    have dropped := numbered.drop (readBlock quote.read item.read context line rest).taken
    rwa [← whole, List.drop_succ_cons, whole] at dropped

namespace Surveyor

def passingOver : Surveyor where
  read := passOver
  leaves _ _ := []
  reads := sound_passOver
  starts := starts_passOver
  charts := by
    intro headed context number lines _ _
    rcases passOver_cases context lines with all | ⟨empty, _, _, _, _, _, _, passed⟩
    · exact all ▸ charts_nil number _
    · exact passed ▸ charts_nil number _

/-- Blocks one after another, of which quotes and items are read in their own ways. -/
def ofBlocks (quote item : Surveyor) : Surveyor where
  read := readBlocks quote.read item.read
  leaves := leavesOfBlocks quote item
  reads := sound_readBlocks quote.reads quote.starts item.reads item.starts
  starts := starts_readBlocks quote.read item.read
  charts := charts_leavesOfBlocks quote item

/-- Blocks with room for so many levels of containers. -/
def within : Nat → Surveyor
  | 0 => passingOver
  | 1 => ofBlocks passingOver passingOver
  | room + 2 => ofBlocks (within (room + 1)) (within room)

theorem read_within (room : Nat) : (within room).read = readWithin room := by
  fun_induction within room with
  | case1 | case2 => rfl
  | case3 room quote item =>
    rw [readWithin, ← quote, ← item]
    rfl

end Surveyor

/-- All leaves of a text given by its lines, in order. -/
def leaves (lines : List Text) : List Leaf :=
  (Surveyor.within deepestNesting).leaves .outermost (readLines lines)

theorem charts_leaves {lines : List Text} (numbered : Numbered headed 0 (readLines lines)) :
    Charts 0 (readWithin deepestNesting .outermost (readLines lines)) (leaves lines) := by
  rw [← Surveyor.read_within]
  exact (Surveyor.within deepestNesting).charts (Int.le_refl 0) numbered

end Bindery.Markdown
