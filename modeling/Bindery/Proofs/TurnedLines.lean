import Bindery.Proofs.BlockLines

/-! Lines of headings. The markers of quotes and items on such a line lead to the first line of the heading. When
hashes take its place, the line still leads through the same containers, and it still ends what it ended before. -/

namespace Bindery.Markdown
open Text

/-! ### Kinds of lines -/

theorem exists_of_isQuoted {content : Text} (quoted : isQuoted content = true) : ∃ rest, content = '>' :: rest := by
  unfold isQuoted at quoted
  exact List.head?_eq_some_iff.mp (of_decide_eq_true quoted)

theorem exists_of_hashLevel? {content : Text} {level : Nat} (found : hashLevel? content = some level) :
    ∃ rest, content = '#' :: rest := by
  unfold hashLevel? at found
  obtain ⟨marks, _⟩ := Option.ite_none_right_eq_some.mp found
  cases content with
  | nil => exact absurd marks (by decide)
  | cons c rest =>
    by_cases hash : c = '#'
    · exact ⟨rest, by rw [hash]⟩
    · exact absurd marks (by simp [hash])

theorem solid_of_hashLevel? {content : Text} {level : Nat} (found : hashLevel? content = some level) : Solid content := by
  obtain ⟨rest, rfl⟩ := exists_of_hashLevel? found
  exact ⟨'#', rest, rfl, by decide⟩

/-- A rule is made of its own mark and gaps. -/
theorem isRule_eq_false_of_hash {content : Text} (hash : '#' ∈ content) : isRule content = false := by
  cases content with
  | nil => rfl
  | cons c rest =>
    apply Bool.eq_false_iff.mpr
    intro rule
    simp only [isRule, Bool.and_eq_true, Bool.or_eq_true, decide_eq_true_eq, List.all_eq_true] at rule
    obtain ⟨⟨mark, others⟩, _⟩ := rule
    rcases List.mem_cons.mp hash with rfl | later
    · simp at mark
    · rcases others '#' later with rfl | gap
      · simp at mark
      · exact absurd gap (by decide)

theorem foldCase_eq_lt {c : Char} (same : foldCase c = '<') : c = '<' := by
  unfold foldCase at same
  split at same
  next upper =>
    simp only [isAsciiUpper, Bool.and_eq_true, decide_eq_true_eq, Char.le_def] at upper
    have bounds : 65 ≤ c.toNat ∧ c.toNat ≤ 90 := ⟨upper.1, upper.2⟩
    have value := congrArg Char.toNat same
    have valid : (c.toNat + 32).isValidChar := Or.inl (by omega)
    rw [Char.ofNat, dif_pos valid] at value
    have code : c.toNat + 32 = 60 := value
    omega
  next => grind

theorem htmlKind?_eq_none {c : Char} (other : c ≠ '<') (rest : Text) : htmlKind? (c :: rest) = none := by
  have named : ∀ name, dropName? ('<' :: name) (c :: rest) = none := by
    intro name
    apply if_neg
    intro same
    exact other (foldCase_eq_lt (List.cons.inj same).1)
  have raw : opensRaw (c :: rest) = false := by
    apply List.any_eq_false.mpr
    intro name _
    simp [named]
  have block : opensBlock (c :: rest) = false := by
    unfold opensBlock
    simp only []
    split
    · simp_all
    · simp_all
    · rfl
  have lone : isLoneTag (c :: rest) = false := by
    unfold isLoneTag
    split <;> simp_all
  have start : ∀ tail : Text, List.isPrefixOf ('<' :: tail) (c :: rest) = false := by
    intro tail
    simp [List.isPrefixOf, Ne.symm other]
  unfold htmlKind?
  simp [raw, block, lone, start]

theorem fenceMark?_eq_none {c : Char} (tilde : c ≠ '~') (tick : c ≠ '\x60') (rest : Text) :
    fenceMark? (c :: rest) = none := by
  simp [fenceMark?, tilde, tick]

theorem hashLevel?_eq_none {c : Char} (other : c ≠ '#') (rest : Text) : hashLevel? (c :: rest) = none := by
  simp [hashLevel?, other]

/-- What starts with a marker of an item is nothing else but a rule, if anything. -/
theorem kinds_of_listMarker? {content : Text} {marker : ListMarker} (found : listMarker? content = some marker) :
    isQuoted content = false ∧ fenceMark? content = none ∧ htmlKind? content = none ∧ hashLevel? content = none := by
  obtain ⟨digits, sign, rest, rfl, decimal, bullet, _⟩ := exists_of_listMarker? found
  have first : ∃ c more, digits ++ sign :: rest = c :: more ∧ (isAsciiDigit c = true ∨ c = '*' ∨ c = '-' ∨ c = '+') := by
    cases digits with
    | nil => exact ⟨sign, rest, rfl, Or.inr (bullet rfl)⟩
    | cons c more => exact ⟨c, more ++ sign :: rest, rfl, Or.inl (decimal c List.mem_cons_self)⟩
  obtain ⟨c, more, same, start⟩ := first
  rw [same]
  have other : ∀ d, isAsciiDigit d = false → d ≠ '*' → d ≠ '-' → d ≠ '+' → c ≠ d := by
    rintro d plain star dash plus rfl
    rcases start with digit | rfl | rfl | rfl
    · exact absurd digit (by simp [plain])
    · exact star rfl
    · exact dash rfl
    · exact plus rfl
  refine ⟨?_, fenceMark?_eq_none ?_ ?_ more, htmlKind?_eq_none ?_ more, hashLevel?_eq_none ?_ more⟩
  · simp [isQuoted, other '>' (by decide) (by decide) (by decide) (by decide)]
  all_goals exact other _ (by decide) (by decide) (by decide) (by decide)

theorem listMarker?_eq_none {c : Char} (plain : isAsciiDigit c = false) (star : c ≠ '*') (dash : c ≠ '-') (plus : c ≠ '+')
    (rest : Text) : listMarker? (c :: rest) = none := by
  have undigited : ∀ d ∈ ([] : Text), isAsciiDigit d = true := nofun
  have shape := listMarker?_append undigited plain rest
  simpa [star, dash, plus] using shape

/-! ### Lines that lead to a heading -/

/-- The markers on a line lead to content that has the property. -/
inductive Leads (property : Text → Prop) : Line → Prop where
  | here {line} (unquoted : isQuoted line.content = false) (unmarked : listMarker? line.content = none)
      (present : line.isEmpty = false) (holds : property line.content) : Leads property line
  | quote {line} (quoted : isQuoted line.content = true) (inner : Leads property line.insideQuote) : Leads property line
  | item {line} (marker : ListMarker) (marked : listMarker? line.content = some marker)
      (unruled : isRule line.content = false) (inner : Leads property (line.insideItem marker)) : Leads property line

theorem Leads.exists_holds {property : Text → Prop} {line : Line} (leads : Leads property line) : ∃ content, property content := by
  induction leads with
  | here _ _ _ holds => exact ⟨_, holds⟩
  | quote _ _ ih => exact ih
  | item _ _ _ _ ih => exact ih

/-- A line leads to other content than before, through the same markers: to hashes of a level. -/
inductive Turned (level : Nat) : Line → Line → Prop where
  | here {line other} (indent : other.indent = line.indent) (unquoted : isQuoted line.content = false)
      (unmarked : listMarker? line.content = none) (present : line.isEmpty = false)
      (hashes : hashLevel? other.content = some level) : Turned level line other
  | quote {line other} (indent : other.indent = line.indent) (quoted : isQuoted line.content = true)
      (quoted' : isQuoted other.content = true) (inner : Turned level line.insideQuote other.insideQuote) :
      Turned level line other
  | item {line other} (indent : other.indent = line.indent) (marker : ListMarker)
      (marked : listMarker? line.content = some marker) (marked' : listMarker? other.content = some marker)
      (unruled : isRule line.content = false) (unruled' : isRule other.content = false)
      (inner : Turned level (line.insideItem marker) (other.insideItem marker)) : Turned level line other

/-- What remains of a text after all markers that blocks could begin with. -/
def afterBlockMarkers : Nat → Text → Text
  | 0, text => text.dropWhile isGap
  | fuel + 1, text =>
    let content := text.dropWhile isGap
    if isQuoted content then afterBlockMarkers fuel (content.drop 1)
    else
      match listMarker? content with
      | some marker => afterBlockMarkers fuel (content.drop marker.width)
      | none => content

theorem exists_gap (text : Text) :
    ∃ gap rest, text = gap ++ rest ∧ (∀ c ∈ gap, isGap c = true) ∧ text.dropWhile isGap = rest :=
  ⟨_, _, List.takeWhile_append_dropWhile.symm, fun _ member => List.mem_takeWhile_imp member, rfl⟩

theorem afterBlockMarkers_dropWhile (fuel : Nat) (text : Text) :
    afterBlockMarkers fuel (text.dropWhile isGap) = afterBlockMarkers fuel text := by
  cases fuel with
  | zero => exact List.dropWhile_idempotent isGap text
  | succ fuel => simp only [afterBlockMarkers, List.dropWhile_idempotent isGap text]

theorem Solid.dropWhile_eq {text : Text} (solid : Solid text) : text.dropWhile isGap = text :=
  dropWhile_isGap_append (show ∀ c ∈ ([] : Text), isGap c = true from nofun) solid

section
variable {text : Text} (solid : Solid text)
include solid

theorem afterBlockMarkers_here (unquoted : isQuoted text = false) (unmarked : listMarker? text = none) (fuel : Nat) :
    afterBlockMarkers fuel text = text := by
  cases fuel with
  | zero => exact solid.dropWhile_eq
  | succ fuel => simp [afterBlockMarkers, solid.dropWhile_eq, unquoted, unmarked]

theorem afterBlockMarkers_quote (quoted : isQuoted text = true) (fuel : Nat) :
    afterBlockMarkers (fuel + 1) text = afterBlockMarkers fuel (text.drop 1) := by
  simp [afterBlockMarkers, solid.dropWhile_eq, quoted]

theorem afterBlockMarkers_item {marker : ListMarker} (marked : listMarker? text = some marker) (fuel : Nat) :
    afterBlockMarkers (fuel + 1) text = afterBlockMarkers fuel (text.drop marker.width) := by
  simp [afterBlockMarkers, solid.dropWhile_eq, (kinds_of_listMarker? marked).1, marked]

end

/-- Content behind the markers that a line begins with. Hashes in its place turn the line. -/
structure Turnable (fuel : Nat) (line : Line) (front title : Text) : Prop where
  content : line.content = front ++ title
  title_eq : title = afterBlockMarkers fuel line.content
  solid : Solid title
  turns : ∀ {level : Nat} {hashes : Text} {other : Line}, hashLevel? hashes = some level → other.content = front ++ hashes →
    other.indent = line.indent → other.origin = line.origin → Turned level line other

theorem Turnable.solid_content {fuel : Nat} {line : Line} {front title : Text} (turnable : Turnable fuel line front title)
    (flush : line.Flush) : Solid (front ++ title) :=
  turnable.content ▸ flush.solid (by simp [Line.isEmpty, turnable.content, turnable.solid.ne_nil])

theorem Turnable.quote {fuel : Nat} {line : Line} {front title : Text} (turnable : Turnable fuel line.insideQuote front title)
    (flush : line.Flush) {gap : Text} (blank : ∀ c ∈ gap, isGap c = true) (content : line.content = '>' :: (gap ++ (front ++ title))) :
    Turnable (fuel + 1) line ('>' :: (gap ++ front)) title where
  content := by simp [content]
  title_eq := by
    have marked : Solid line.content := flush.solid (by simp [Line.isEmpty, content])
    have quoted : isQuoted line.content = true := by rw [content]; rfl
    have inside : line.insideQuote.content = (gap ++ (front ++ title)).dropWhile isGap := by
      rw [Line.content_insideQuote, content]
      rfl
    rw [turnable.title_eq, inside, afterBlockMarkers_dropWhile, afterBlockMarkers_quote marked quoted, content]
    rfl
  solid := turnable.solid
  turns {level hashes other} turned content' indent origin := by
    have within : Solid (front ++ title) := turnable.solid_content line.flush_insideQuote
    have within' : Solid (front ++ hashes) := within.exchange (solid_of_hashLevel? turned)
    rw [List.cons_append, List.append_assoc] at content'
    obtain ⟨indent', origin'⟩ := Line.insideQuote_exchange blank within within' content content' indent origin
    refine .quote indent (by rw [content]; rfl) (by rw [content']; rfl) (turnable.turns turned ?_ indent' origin')
    rw [Line.content_insideQuote, content']
    exact dropWhile_isGap_append blank within'

theorem Turnable.item {fuel : Nat} {line : Line} {marker : ListMarker} {front title : Text}
    (turnable : Turnable fuel (line.insideItem marker) front title) (flush : line.Flush)
    (marked : listMarker? line.content = some marker) (unruled : isRule line.content = false) {digits gap : Text} {sign : Char}
    (blank : ∀ c ∈ gap, isGap c = true) (width : marker.width = digits.length + 1)
    (ends : endsMarker (gap ++ (front ++ title)) = true)
    (others : ∀ after, endsMarker after = true → listMarker? (digits ++ sign :: after) = some marker)
    (content : line.content = digits ++ sign :: (gap ++ (front ++ title))) :
    Turnable (fuel + 1) line (digits ++ sign :: (gap ++ front)) title := by
  have drops : ∀ tail, (digits ++ sign :: tail).drop marker.width = tail := by
    intro tail
    rw [width]
    simp
  have begun : Solid line.content := flush.solid (by simp [Line.isEmpty, content])
  have within : Solid (front ++ title) := turnable.solid_content (line.flush_insideItem marker)
  refine ⟨by simp [content], ?_, turnable.solid, ?_⟩
  · rw [turnable.title_eq, Line.content_insideItem, afterBlockMarkers_dropWhile, afterBlockMarkers_item begun marked]
  · intro level hashes other turned content' indent origin
    have within' : Solid (front ++ hashes) := within.exchange (solid_of_hashLevel? turned)
    obtain ⟨_, separate⟩ := endsMarker_append within ends
    rw [List.append_assoc, List.cons_append, List.append_assoc] at content'
    have marked' : listMarker? other.content = some marker := content' ▸ others _ (separate _)
    have unruled' : isRule other.content = false := by
      apply isRule_eq_false_of_hash
      obtain ⟨more, rfl⟩ := exists_of_hashLevel? turned
      simp [content']
    refine .item indent marker marked marked' unruled unruled' (turnable.turns turned ?_ ?_ origin)
    · rw [Line.content_insideItem, content', drops]
      exact dropWhile_isGap_append blank within'
    · simp only [Line.insideItem, indent, origin, content, content', drops, spanGap_append blank within,
        spanGap_append blank within']

/-- Hashes in the place of what a line leads to turn the line. -/
theorem Leads.exists_turnable {property : Text → Prop} {line : Line} (leads : Leads property line) (flush : line.Flush)
    {fuel : Nat} (room : line.content.length ≤ fuel) : ∃ front title, Turnable fuel line front title ∧ property title := by
  induction leads generalizing fuel with
  | @here line unquoted unmarked present holds =>
    have solid := flush.solid present
    refine ⟨[], line.content, ⟨rfl, (afterBlockMarkers_here solid unquoted unmarked fuel).symm, solid, ?_⟩, holds⟩
    intro level hashes other turned content indent origin
    exact .here indent unquoted unmarked present (content ▸ turned)
  | @quote line quoted inner ih =>
    obtain ⟨after, content⟩ := exists_of_isQuoted quoted
    obtain ⟨gap, rest, split, blank, dropped⟩ := exists_gap after
    have inside : line.insideQuote.content = rest := by
      rw [Line.content_insideQuote, content, ← dropped]
      rfl
    obtain ⟨fuel, rfl⟩ : ∃ less, fuel = less + 1 := Nat.exists_eq_succ_of_ne_zero (by rintro rfl; simp [content] at room)
    have shorter : line.insideQuote.content.length ≤ fuel := by
      simp only [content, split, List.length_cons, List.length_append] at room
      rw [inside]
      omega
    obtain ⟨front, title, turnable, holds⟩ := ih line.flush_insideQuote shorter
    obtain rfl : rest = front ++ title := inside.symm.trans turnable.content
    exact ⟨_, title, turnable.quote flush blank (content.trans (by rw [split])), holds⟩
  | @item line marker marked unruled inner ih =>
    obtain ⟨digits, sign, after, content, _, _, width, ends, others⟩ := exists_of_listMarker? marked
    obtain ⟨gap, rest, split, blank, dropped⟩ := exists_gap after
    have inside : (line.insideItem marker).content = rest := by
      rw [Line.content_insideItem, content, width, ← dropped]
      simp
    obtain ⟨fuel, rfl⟩ : ∃ less, fuel = less + 1 := Nat.exists_eq_succ_of_ne_zero (by rintro rfl; simp [content] at room)
    have shorter : (line.insideItem marker).content.length ≤ fuel := by
      simp only [content, split, List.length_cons, List.length_append] at room
      rw [inside]
      omega
    obtain ⟨front, title, turnable, holds⟩ := ih (line.flush_insideItem marker) shorter
    obtain rfl : rest = front ++ title := inside.symm.trans turnable.content
    rw [split] at content ends
    exact ⟨_, title, turnable.item flush marked unruled blank width ends others content, holds⟩

/-! ### What such lines end -/

theorem isCode_eq {context : Context} {line other : Line} (indent : other.indent = line.indent) :
    context.isCode other = context.isCode line := by
  simp only [Context.isCode, indent]

theorem not_isCode_of_breaksParagraph {context : Context} {inParagraph : Bool} {line : Line}
    (breaks : breaksParagraph context inParagraph line = true) : context.isCode line = false := by
  by_contra code
  rw [Bool.not_eq_false] at code
  simp [breaksParagraph, breaksList, opensList?, opensHtml?, code] at breaks

namespace Turned
variable {level : Nat} {line other : Line} (turned : Turned level line other)
include turned

theorem indent_eq : other.indent = line.indent := by
  cases turned <;> assumption

theorem present : line.isEmpty = false ∧ other.isEmpty = false := by
  have nonempty : ∀ {line : Line} {c : Char} {rest : Text}, line.content = c :: rest → line.isEmpty = false := by
    intro line c rest content
    rw [Line.isEmpty, content]
    rfl
  have marked : ∀ {line : Line} {marker : ListMarker}, listMarker? line.content = Option.some marker → line.isEmpty = false := by
    intro line marker found
    cases content : line.content with
    | nil => rw [content] at found; cases found
    | cons c rest => exact nonempty content
  cases turned with
  | here _ _ _ present hashes =>
    obtain ⟨rest, content⟩ := exists_of_hashLevel? hashes
    exact ⟨present, nonempty content⟩
  | quote _ quoted quoted' _ =>
    obtain ⟨rest, content⟩ := exists_of_isQuoted quoted
    obtain ⟨rest', content'⟩ := exists_of_isQuoted quoted'
    exact ⟨nonempty content, nonempty content'⟩
  | item _ marker found found' _ _ _ => exact ⟨marked found, marked found'⟩

theorem isQuoted_eq : isQuoted other.content = isQuoted line.content := by
  cases turned with
  | here _ unquoted _ _ hashes =>
    obtain ⟨rest, content⟩ := exists_of_hashLevel? hashes
    rw [unquoted, content]
    rfl
  | quote _ quoted quoted' _ => rw [quoted, quoted']
  | item _ marker found found' _ _ _ => rw [(kinds_of_listMarker? found).1, (kinds_of_listMarker? found').1]

end Turned

theorem not_all_isGap_of_insideItem {line : Line} {marker : ListMarker} (present : (line.insideItem marker).isEmpty = false) :
    (line.content.drop marker.width).all isGap = false := by
  rw [Line.isEmpty, Line.content_insideItem] at present
  apply Bool.eq_false_iff.mpr
  intro blank
  rw [List.dropWhile_eq_nil_iff.mpr (List.all_eq_true.mp blank)] at present
  cases present

/-- Items that hold something open lists alike, whatever it is. -/
theorem opensList?_eq {context : Context} {inParagraph : Bool} {line other : Line} {marker : ListMarker}
    (indent : other.indent = line.indent) (marked : listMarker? line.content = some marker)
    (marked' : listMarker? other.content = some marker) (present : (line.insideItem marker).isEmpty = false)
    (present' : (other.insideItem marker).isEmpty = false) :
    opensList? context inParagraph other = opensList? context inParagraph line := by
  simp only [opensList?, isCode_eq indent, indent, marked, marked', Option.filter, not_all_isGap_of_insideItem present,
    not_all_isGap_of_insideItem present']

theorem breaksList_eq_of_item {context : Context} {line : Line} {marker : ListMarker}
    (marked : listMarker? line.content = some marker) (unruled : isRule line.content = false) :
    breaksList context line = false := by
  obtain ⟨unquoted, unfenced, _⟩ := kinds_of_listMarker? marked
  simp [breaksList, unquoted, unfenced, unruled]

theorem Turned.breaksParagraph {level : Nat} {line other : Line} (turned : Turned level line other) {context : Context}
    {inParagraph : Bool} (breaks : breaksParagraph context inParagraph line = true) :
    breaksParagraph context inParagraph other = true := by
  have near := not_isCode_of_breaksParagraph breaks
  rw [← isCode_eq turned.indent_eq] at near
  cases turned with
  | here indent _ _ _ hashes => simp [Markdown.breaksParagraph, near, hashes]
  | quote indent quoted quoted' _ => simp [Markdown.breaksParagraph, breaksList, near, quoted']
  | item indent marker marked marked' unruled unruled' inner =>
    have opens : opensList? context inParagraph other = opensList? context inParagraph line :=
      opensList?_eq indent marked marked' inner.present.1 inner.present.2
    obtain ⟨_, _, plain, unhashed⟩ := kinds_of_listMarker? marked
    have opened : (opensList? context inParagraph line).isSome = true := by
      simpa [Markdown.breaksParagraph, breaksList_eq_of_item marked unruled, opensHtml?, plain, unhashed] using breaks
    simp [Markdown.breaksParagraph, opens, opened]

theorem Turned.nextMarker?_eq {level : Nat} {line other : Line} (turned : Turned level line other) (context : Context)
    (marker : ListMarker) : nextMarker? context marker other = nextMarker? context marker line := by
  unfold nextMarker?
  rw [turned.indent_eq, isCode_eq turned.indent_eq]
  cases turned with
  | here indent unquoted unmarked _ hashes =>
    obtain ⟨rest, content⟩ := exists_of_hashLevel? hashes
    have unmarked' : listMarker? other.content = none :=
      content ▸ listMarker?_eq_none (by decide) (by decide) (by decide) (by decide) rest
    simp [unmarked, unmarked']
  | quote indent quoted quoted' _ =>
    by_cases code : context.isCode line = true
    · simp [code]
    · have broken : ∀ {line : Line}, isQuoted line.content = true → context.isCode line = false → breaksList context line = true := by
        intro line quoted near
        simp [breaksList, quoted, near]
      rw [Bool.not_eq_true] at code
      simp [broken quoted code, broken quoted' ((isCode_eq indent).trans code)]
  | item indent marker marked marked' unruled unruled' inner =>
    rw [breaksList_eq_of_item marked unruled, breaksList_eq_of_item marked' unruled', marked, marked']

/-- Such a line is no underline. -/
theorem Turned.underlineLevel?_eq_none {level : Nat} {line other : Line} (turned : Turned level line other) :
    underlineLevel? other.content = none := by
  cases turned with
  | here indent unquoted unmarked _ hashes =>
    obtain ⟨rest, content⟩ := exists_of_hashLevel? hashes
    simp [content, underlineLevel?]
  | quote indent quoted quoted' _ =>
    obtain ⟨rest, content⟩ := exists_of_isQuoted quoted'
    simp [content, underlineLevel?]
  | item indent marker marked marked' unruled unruled' inner =>
    obtain ⟨digits, sign, rest, content, decimal, bullet, width, ends, _⟩ := exists_of_listMarker? marked'
    have inked := not_all_isGap_of_insideItem inner.present.2
    rw [content, width, ← List.drop_drop, List.drop_left, List.drop_succ_cons, List.drop_zero] at inked
    rw [content]
    cases digits with
    | cons c more =>
      have digit := decimal c List.mem_cons_self
      have equals : c ≠ '=' := by
        rintro rfl
        exact absurd digit (by decide)
      have dash : c ≠ '-' := by
        rintro rfl
        exact absurd digit (by decide)
      simp [underlineLevel?, equals, dash]
    | nil =>
      rcases bullet rfl with rfl | rfl | rfl
      · simp [underlineLevel?]
      · cases rest with
        | nil => cases inked
        | cons c more =>
          have gap : isGap c = true := ends
          have other : c ≠ '-' := by
            rintro rfl
            exact absurd gap (by decide)
          have stops : ('-' :: c :: more).dropWhile (· = '-') = c :: more := by simp [other]
          simp only [List.nil_append, underlineLevel?, stops, inked]
          simp
      · simp [underlineLevel?]

/-! ### Lines that no paragraph goes on with -/

/-- A paragraph, or what could be one, does not go on with this line. -/
def Breaks (context : Context) (line : Line) : Prop :=
  continues context line = false ∧ breaksParagraph context false line = true

/-- A block could begin here, as far as the indent goes. -/
structure Reaches (context : Context) (line : Line) : Prop where
  inside : 0 ≤ line.indent
  near : line.indent - context.edge < 4
  listed : 0 ≤ context.listEdge → line.indent < context.edge → line.indent - context.listEdge < 4

theorem reaches_of_edge_le {context : Context} {line : Line} (outside : 0 ≤ context.edge) (reaches : context.edge ≤ line.indent)
    (near : context.isCode line = false) : Reaches context line where
  inside := Int.le_trans outside reaches
  near := by simpa [Context.isCode] using near
  listed _ before := absurd before (Int.not_lt.mpr reaches)

namespace Reaches
variable {context : Context} {line : Line} (reaches : Reaches context line)
include reaches

theorem congr_indent {other : Line} (indent : other.indent = line.indent) : Reaches context other := by
  constructor <;> rw [indent]
  exacts [reaches.inside, reaches.near, reaches.listed]

theorem isCode_eq_false : context.isCode line = false := by
  simpa [Context.isCode] using reaches.near

theorem continues_eq_false : continues context line = false := by
  have near := reaches.near
  have inside := reaches.inside
  simp only [continues, Bool.or_eq_false_iff, decide_eq_false_iff_not]
  omega

theorem opensList?_eq {marker : ListMarker} (marked : listMarker? line.content = some marker) :
    opensList? context false line = some marker := by
  have listed : ¬ (0 ≤ context.listEdge ∧ 4 ≤ line.indent - context.listEdge ∧ line.indent < context.edge) := by
    rintro ⟨inside, far, before⟩
    have near := reaches.listed inside before
    omega
  simp only [opensList?, reaches.isCode_eq_false, Bool.false_eq_true, if_false, marked]
  rw [if_neg (by simpa [and_assoc] using listed)]
  rfl

theorem breaks_of_marked {marker : ListMarker} (marked : listMarker? line.content = some marker) : Breaks context line :=
  ⟨reaches.continues_eq_false, by simp [breaksParagraph, reaches.opensList?_eq marked]⟩

theorem breaks_of_quoted (quoted : isQuoted line.content = true) : Breaks context line :=
  ⟨reaches.continues_eq_false, by simp [breaksParagraph, breaksList, reaches.isCode_eq_false, quoted]⟩

end Reaches

/-- A line of a heading breaks off a paragraph wherever a block could begin with it. -/
theorem Turned.breaks {level : Nat} {line other : Line} (turned : Turned level line other) {context : Context}
    (reaches : Reaches context other) : Breaks context other := by
  cases turned with
  | here indent _ _ _ hashes =>
    exact ⟨reaches.continues_eq_false, by simp [Markdown.breaksParagraph, reaches.isCode_eq_false, hashes]⟩
  | quote indent quoted quoted' _ => exact reaches.breaks_of_quoted quoted'
  | item indent marker marked marked' _ _ inner => exact reaches.breaks_of_marked marked'

end Bindery.Markdown
