import Bindery.Proofs.TurnedLines
import Mathlib.Data.List.Forall2

/-! How far blocks reach that hold no others. Each line has its own share in that, so a block reaches as far as before
where its lines stay and what comes after it still does not belong to it. -/

namespace Bindery.Markdown
open Text

/-! ### Lines that stay and lines that come after -/

/-- The same lines, at other places. -/
def Kept : List Line → List Line → Prop :=
  List.Forall₂ fun line other => ∃ number, other = line.movedTo number

/-- What came after a block and what comes after it now. The lines stay, up to the first line of a heading or the
end. -/
inductive Meets : List Line → List Line → Prop where
  | ends (lines : List Line) : Meets lines []
  | kept (line : Line) (number : Nat) {rest others : List Line} (later : Meets rest others) :
      Meets (line :: rest) (line.movedTo number :: others)
  | turned {level : Nat} {line other : Line} (turned : Turned level line other) (rest others : List Line) :
      Meets (line :: rest) (other :: others)

theorem Kept.meets {lines others rest rest' : List Line} (kept : Kept lines others) (meets : Meets rest rest') :
    Meets (lines ++ rest) (others ++ rest') := by
  induction kept with
  | nil => exact meets
  | cons same _ ih =>
    obtain ⟨number, rfl⟩ := same
    exact ih.kept _ number

/-! ### Shares -/

/-- What a line does about a block: not belong to it, end it, go on with it, or belong to it if something after it
does. -/
inductive Share where
  | stops
  | closes
  | goes
  | waits

def extentOf (share : Line → Share) : List Line → Nat
  | [] => 0
  | line :: rest =>
    match share line with
    | .stops => 0
    | .closes => 1
    | .goes => extentOf share rest + 1
    | .waits => if extentOf share rest = 0 then 0 else extentOf share rest + 1

theorem extentOf_le (share : Line → Share) (lines : List Line) : extentOf share lines ≤ lines.length := by
  induction lines with
  | nil => exact Nat.le_refl 0
  | cons line rest ih =>
    unfold extentOf
    rw [List.length_cons]
    cases share line <;> simp only
    · omega
    · omega
    · omega
    · split <;> omega

/-- Shares of lines that other headings in the text leave alone. -/
structure Stable (share : Line → Share) : Prop where
  moved : ∀ line number, share (Line.movedTo number line) = share line
  ready : ∀ {level line other}, Turned level line other → share line ≠ .waits
  stops : ∀ {level line other}, Turned level line other → share line = .stops → share other = .stops

namespace Stable
variable {share : Line → Share} (stable : Stable share)
include stable

theorem none_after {rest others : List Line} (meets : Meets rest others) (stopped : extentOf share rest = 0) :
    extentOf share others = 0 := by
  induction meets with
  | ends => rfl
  | @kept line number rest others _ ih =>
    unfold extentOf at stopped ⊢
    rw [stable.moved]
    cases own : share line with
    | stops => rfl
    | closes => simp [own] at stopped
    | goes => simp [own] at stopped
    | waits =>
      have later : extentOf share rest = 0 := by
        by_contra further
        simp [own, further] at stopped
      simp [ih later]
  | @turned level line other turned rest others =>
    have own : share line = .stops := by
      unfold extentOf at stopped
      cases own : share line with
      | stops => rfl
      | closes => simp [own] at stopped
      | goes => simp [own] at stopped
      | waits => exact absurd own (stable.ready turned)
    unfold extentOf
    rw [stable.stops turned own]

/-- An extent within lines that stay is the same, whatever comes after them now. -/
theorem extentOf_eq {lines others rest rest' : List Line} (kept : Kept lines others) (meets : Meets rest rest')
    (within : extentOf share (lines ++ rest) ≤ lines.length) :
    extentOf share (others ++ rest') = extentOf share (lines ++ rest) := by
  induction kept with
  | nil =>
    have stopped : extentOf share rest = 0 := Nat.le_zero.mp within
    exact (stable.none_after meets stopped).trans stopped.symm
  | @cons line other lines others same tail ih =>
    obtain ⟨number, rfl⟩ := same
    rw [List.cons_append, List.length_cons] at within
    rw [List.cons_append, List.cons_append]
    unfold extentOf at within ⊢
    rw [stable.moved]
    cases own : share line with
    | stops => rfl
    | closes => rfl
    | goes =>
      have later : extentOf share (lines ++ rest) ≤ lines.length := by simpa [own] using within
      simp only [ih later]
    | waits =>
      have later : extentOf share (lines ++ rest) ≤ lines.length := by
        simp only [own] at within
        split at within <;> omega
      simp only [ih later]

end Stable

/-! ### Blocks that hold no others -/

def codeShare (context : Context) (line : Line) : Share :=
  if line.isEmpty then .waits else if context.isCode line then .goes else .stops

theorem codeExtent_eq (context : Context) (lines : List Line) :
    codeExtent context lines = extentOf (codeShare context) lines := by
  induction lines with
  | nil => rfl
  | cons line rest ih =>
    simp only [codeExtent, extentOf, codeShare, ih]
    split
    · rfl
    · split <;> rfl

theorem stable_codeShare (context : Context) : Stable (codeShare context) where
  moved _ _ := rfl
  ready := by
    intro level line other turned
    simp only [codeShare, turned.present.1, Bool.false_eq_true, if_false]
    split <;> simp
  stops := by
    intro level line other turned
    unfold codeShare
    rw [turned.present.1, turned.present.2, isCode_eq turned.indent_eq]
    exact id

def fenceShare (context : Context) (mark : Char) (width : Nat) (line : Line) : Share :=
  if !line.isEmpty && line.indent < context.edge then .stops
  else if !context.isCode line && closesFence mark width line.content then .closes
  else .goes

theorem fenceExtent_eq (context : Context) (mark : Char) (width : Nat) (lines : List Line) :
    fenceExtent context mark width lines = extentOf (fenceShare context mark width) lines := by
  induction lines with
  | nil => rfl
  | cons line rest ih =>
    simp only [fenceExtent, extentOf, fenceShare, ih]
    split
    · rfl
    · split <;> rfl

theorem stable_fenceShare (context : Context) (mark : Char) (width : Nat) : Stable (fenceShare context mark width) where
  moved _ _ := rfl
  ready := by
    intro level line other turned
    unfold fenceShare
    split
    · simp
    · split <;> simp
  stops := by
    intro level line other turned own
    unfold fenceShare at own ⊢
    rw [turned.present.1] at own
    rw [turned.present.2, turned.indent_eq]
    split at own
    next below => exact if_pos below
    next => split at own <;> cases own

def htmlShare (context : Context) (kind : HtmlKind) (line : Line) : Share :=
  if line.indent < context.edge then .stops
  else if kind.endsOn line.content then (if line.isEmpty then .stops else .closes)
  else .goes

theorem htmlExtent_eq (context : Context) (kind : HtmlKind) (lines : List Line) :
    htmlExtent context kind lines = extentOf (htmlShare context kind) lines := by
  induction lines with
  | nil => rfl
  | cons line rest ih =>
    simp only [htmlExtent, extentOf, htmlShare, ih]
    split
    · rfl
    · split
      · split <;> rfl
      · rfl

theorem stable_htmlShare (context : Context) (kind : HtmlKind) : Stable (htmlShare context kind) where
  moved _ _ := rfl
  ready := by
    intro level line other turned
    unfold htmlShare
    rw [turned.present.1]
    split
    · simp
    · split <;> simp
  stops := by
    intro level line other turned own
    unfold htmlShare at own ⊢
    rw [turned.present.1] at own
    rw [turned.indent_eq]
    split at own
    next below => exact if_pos below
    next => split at own <;> cases own

def paragraphShare (context : Context) (inParagraph : Bool) (line : Line) : Share :=
  if line.isEmpty then .stops
  else if continues context line || !breaksParagraph context inParagraph line then .goes
  else .stops

/-- A line goes on with a paragraph, or stops it. -/
theorem paragraphShare_eq_goes {context : Context} {inParagraph : Bool} {line : Line} :
    paragraphShare context inParagraph line = .goes ↔
      line.isEmpty = false ∧ (continues context line || !breaksParagraph context inParagraph line) = true := by
  unfold paragraphShare
  split
  next empty => simp [empty]
  next present =>
    rw [Bool.not_eq_true] at present
    split
    next goes => simp [present, goes]
    next stops => simpa [present] using stops

theorem paragraphShare_eq_stops {context : Context} {inParagraph : Bool} {line : Line}
    (other : paragraphShare context inParagraph line ≠ .goes) : paragraphShare context inParagraph line = .stops := by
  unfold paragraphShare at other ⊢
  split
  · rfl
  · split <;> simp_all

theorem paragraphExtent_eq (context : Context) (inParagraph : Bool) (lines : List Line) :
    paragraphExtent context inParagraph lines = extentOf (paragraphShare context inParagraph) lines := by
  induction lines with
  | nil => rfl
  | cons line rest ih =>
    simp only [paragraphExtent, extentOf, paragraphShare, ih]
    split
    · rfl
    · split <;> rfl

theorem stable_paragraphShare (context : Context) (inParagraph : Bool) : Stable (paragraphShare context inParagraph) where
  moved _ _ := rfl
  ready := by
    intro level line other turned
    unfold paragraphShare
    split
    · simp
    · split <;> simp
  stops := by
    intro level line other turned own
    unfold paragraphShare at own ⊢
    rw [turned.present.1] at own
    rw [turned.present.2]
    simp only [Bool.false_eq_true, if_false, ite_eq_right_iff, reduceCtorEq, imp_false, Bool.not_eq_true,
      Bool.or_eq_false_iff, Bool.not_eq_false'] at own ⊢
    refine ⟨?_, turned.breaksParagraph own.2⟩
    rw [← own.1]
    simp only [continues, turned.indent_eq]

/-! ### Underlines -/

theorem underline?_cons {context : Context} {line : Line} (present : line.isEmpty = false) (rest : List Line) :
    underline? context (line :: rest) =
      match if continues context line || line.indent < context.edge then none else underlineLevel? line.content with
      | some level => some (level, 0)
      | none =>
        if continues context line || !breaksParagraph context true line then
          (underline? context rest).map fun (level, before) => (level, before + 1)
        else none := by
  rw [underline?, present]
  rfl

/-- The lines of a heading after its first one are not empty, and the last one is the underline. -/
theorem underline?_bounds {context : Context} {lines : List Line} {level before : Nat}
    (found : underline? context lines = some (level, before)) :
    before < lines.length ∧ ∀ line ∈ lines.take (before + 1), line.isEmpty = false := by
  induction lines generalizing before with
  | nil => cases found
  | cons line rest ih =>
    by_cases empty : line.isEmpty = true
    · simp [underline?, empty] at found
    · rw [Bool.not_eq_true] at empty
      rw [underline?_cons empty] at found
      split at found
      next own =>
        obtain ⟨_, rfl⟩ := Prod.mk.inj (Option.some.inj found)
        simp [empty]
      next =>
        obtain ⟨_, later⟩ := Option.ite_none_right_eq_some.mp found
        obtain ⟨⟨deeper, count⟩, inner, same⟩ := Option.map_eq_some_iff.mp later
        obtain ⟨rfl, rfl⟩ := Prod.mk.inj same
        obtain ⟨below, filled⟩ := ih inner
        refine ⟨Nat.succ_lt_succ below, ?_⟩
        rw [List.take_succ_cons, List.forall_mem_cons]
        exact ⟨empty, filled⟩

/-- The level that a line gives to the lines above it. -/
def ownLevel? (context : Context) (line : Line) : Option Nat :=
  if continues context line || line.indent < context.edge then none else underlineLevel? line.content

theorem underline?_cons_eq_none {context : Context} {line : Line} (present : line.isEmpty = false) {rest : List Line} :
    underline? context (line :: rest) = none ↔ ownLevel? context line = none ∧
      (paragraphShare context true line = .goes → underline? context rest = none) := by
  rw [underline?_cons present, paragraphShare_eq_goes, ← ownLevel?]
  cases own : ownLevel? context line with
  | some level => simp
  | none => simp only [present, true_and, ite_eq_right_iff, Option.map_eq_none_iff]

/-- A paragraph without an underline gets none. -/
theorem underline?_eq_none {context : Context} {lines others rest rest' : List Line} (kept : Kept lines others)
    (meets : Meets rest rest') (whole : paragraphExtent context true (lines ++ rest) = lines.length)
    (plain : underline? context (lines ++ rest) = none) : underline? context (others ++ rest') = none := by
  rw [paragraphExtent_eq] at whole
  induction kept with
  | nil =>
    cases meets with
    | ends => rfl
    | @kept line number rest others later =>
      have stops : paragraphShare context true line ≠ .goes := by
        intro goes
        simp [extentOf, goes] at whole
      by_cases empty : line.isEmpty = true
      · simp [underline?, empty]
      · rw [Bool.not_eq_true] at empty
        obtain ⟨own, _⟩ := (underline?_cons_eq_none empty).mp plain
        exact (underline?_cons_eq_none empty).mpr ⟨own, fun goes => absurd goes stops⟩
    | @turned level line other turned rest others =>
      have stops : paragraphShare context true line = .stops := by
        apply paragraphShare_eq_stops
        intro goes
        simp [extentOf, goes] at whole
      have stops' := (stable_paragraphShare context true).stops turned stops
      refine (underline?_cons_eq_none turned.present.2).mpr ⟨?_, fun goes => ?_⟩
      · unfold ownLevel?
        rw [turned.underlineLevel?_eq_none, ite_self]
      · rw [stops'] at goes
        cases goes
  | @cons line other lines others same tail ih =>
    obtain ⟨number, rfl⟩ := same
    have goes : paragraphShare context true line = .goes := by
      by_contra other
      simp [extentOf, paragraphShare_eq_stops other] at whole
    obtain ⟨present, _⟩ := paragraphShare_eq_goes.mp goes
    obtain ⟨own, later⟩ := (underline?_cons_eq_none present).mp plain
    refine (underline?_cons_eq_none present).mpr ⟨own, fun _ => ih ?_ (later goes)⟩
    simpa [extentOf, goes] using whole

end Bindery.Markdown
