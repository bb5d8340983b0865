import Bindery.Proofs.LeafBlocks
import Bindery.Proofs.RenumberedMarkdown

/-! What renumbering leaves alone in a Markdown body. Headings take lines of their own, one stretch after another, and each
is written on one line. All other lines are copied in order, and so are code and the other blocks that hold no blocks,
each as a whole. -/

namespace Bindery.Heading.Markdown
open Text Bindery.Markdown

theorem charts_headings {lines : List Text} (whole : ∀ line ∈ lines, '\n' ∉ line ∧ '\r' ∉ line) :
    Charts 0 ⟨headings lines, lines.length⟩ (leaves lines) := by
  have charts := charts_leaves (readLines_eq lines ▸ numbered_lines whole)
  rwa [readLines_eq, readWithin_lines (numbered_lines whole), length_readFrom] at charts

/-- Only headings change. Their lines lie one stretch after another in the body and each stretch becomes one line; what
stands between them, all blocks without blocks of their own included, is copied. -/
theorem only_headings_change (deepest depth : Int) (body : Text) :
    ((headingsOf body).Pairwise fun heading later => heading.stop ≤ later.start) ∧
      (∀ heading ∈ headingsOf body, heading.start < heading.stop ∧ heading.stop ≤ (lines (unifyLineEnds body)).length) ∧
      lines (Heading.renumber .markdown deepest depth body) =
        exchanged (fun heading => headingLine deepest depth heading ((lines (unifyLineEnds body)).getD heading.start []))
          (lines (unifyLineEnds body)) 0 (headingsOf body) ∧
      (leaves (lines (unifyLineEnds body))).filterMap Leaf.heading? = headingsOf body ∧
      (∀ leaf ∈ leaves (lines (unifyLineEnds body)), leaf.heading? = none →
        leaf.start < leaf.stop ∧ leaf.stop ≤ (lines (unifyLineEnds body)).length ∧
          (lines (unifyLineEnds body)).extract leaf.start leaf.stop <:+: lines (Heading.renumber .markdown deepest depth body)) ∧
      (headingsOf body = [] → Heading.renumber .markdown deepest depth body = unifyLineEnds body) := by
  have whole : ∀ line ∈ lines (unifyLineEnds body), '\n' ∉ line ∧ '\r' ∉ line := fun _ => whole_of_mem_lines
  have within := within_headings whole
  have charts := charts_headings whole
  have written := (lines_renumber deepest depth body).trans (renumber_eq_exchanged whole deepest depth)
  refine ⟨within.pairwise, fun heading found => (within.bounds found).2, written, charts.headings, ?_, fun headless => ?_⟩
  · intro leaf member other
    obtain ⟨_, nonempty, inside⟩ := charts.bounds leaf member
    rw [Nat.zero_add] at inside
    refine ⟨nonempty, inside, ?_⟩
    rw [written]
    exact extract_infix_exchanged (Nat.zero_le _) inside fun heading found => charts.apart member other found
  · have same : lines (Heading.renumber .markdown deepest depth body) = lines (unifyLineEnds body) := by
      rw [written, show headings (lines (unifyLineEnds body)) = [] from headless, exchanged, List.drop_zero]
    rw [← unlines_lines (Heading.renumber .markdown deepest depth body), same, unlines_lines]

/-- A heading in a quote that is underlined there, and code that looks like a heading. -/
def fencedBody : Text :=
  "# One\n\n> Two\n> ---\n\n```\n# not a heading\n```\n"

theorem fenced_lines_copied :
    .code 5 8 ∈ leaves (lines (unifyLineEnds fencedBody)) ∧
      (["```", "# not a heading", "```"] : List Text) <:+: lines (Heading.renumber .markdown 6 3 fencedBody) := by
  have code : .code 5 8 ∈ leaves (lines (unifyLineEnds fencedBody)) := by decide +kernel
  have fence : (lines (unifyLineEnds fencedBody)).extract 5 8 = (["```", "# not a heading", "```"] : List Text) := by
    decide +kernel
  obtain ⟨_, _, _, _, copied, _⟩ := only_headings_change 6 3 fencedBody
  refine ⟨code, ?_⟩
  rw [← fence]
  exact (copied _ code rfl).2.2

example : Heading.renumber .markdown 6 3 fencedBody = "#### One\n\n> #### Two\n\n```\n# not a heading\n```\n" := by
  decide +kernel

end Bindery.Heading.Markdown
