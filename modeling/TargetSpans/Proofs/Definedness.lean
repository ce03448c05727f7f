import TargetSpans.Proofs.LinePartition
import TargetSpans.Proofs.Stages

/-!
# Resolution is always defined

Resolving targets gives spans or refuses them.  It never asks a text something that has no answer,
although only the spans of the marks are checked: trees may be those of older texts, and a piece may
end between the two characters of a line break.  What every stage keeps is that the rows of a range
exist, and a text has all answers about existing rows.

The columns and lengths that these answers are made of are differences of character counts.  They
are shown to be exact, so none of them is cut off at zero.
-/

namespace TargetSpans

namespace Document

/-- The counts that positions and indices are worked out from fit together: what is taken away from
a count never exceeds it, and no index lies past the end of the text. -/
structure ExactCounts (d : Document) : Prop where
  /-- The break of a line can be read off its end. -/
  ending : ∀ row l, d.line? row = some l → Text.finalBreak? l.chars = l.ending
  /-- A row starts where the content and the break of the row above it end. -/
  rowStart_succ : ∀ row l, d.line? row = some l →
    d.text.rowStart row + l.length + l.endingChars.length = d.text.rowStart (row + 1)
  rowStart_le_length : ∀ row, d.text.rowStart row ≤ d.text.length
  /-- The row of an index starts at the index or before it. -/
  rowStart_position_le : ∀ index, d.text.rowStart (d.position index).row ≤ min index d.text.length
  index_le_length : ∀ p, d.index p ≤ d.text.length

theorem exactCounts (d : Document) : d.ExactCounts where
  ending row l found := by
    apply Line.finalBreak?_chars
    exact Text.ofChar?_eq_none_of_mem_content d.text l (List.mem_of_getElem? found)
  rowStart_succ row l found := Text.rowStart_add_line found
  rowStart_le_length row := by
    have whole := Line.totalSize_take_add_drop d.lines row
    rw [d.totalSize_lines] at whole
    exact Nat.le.intro whole
  rowStart_position_le index := by
    have sum := d.rowStart_add_col_position index
    omega
  index_le_length := d.index_le_length

end Document

namespace Workspace

/-- Whatever the documents, trees, marks and scopes of a workspace are, resolving targets gives
spans or refuses them, and all counts on the way are exact. -/
theorem resolveAll_defined (w : Workspace) (adjust : Adjuster) (targets : List Target) :
    w.resolveAll adjust targets ≠ .error .undefined ∧
      ∀ d : Document, d.ExactCounts := by
  constructor
  · have each : Answer.Yields (fun _ => True) (w.resolveAll adjust targets) := by
      refine (Answer.yields_mapM fun target _ => w.resolve_yields adjust target).imp ?_
      exact fun _ _ => trivial
    exact each.ne_undefined
  · exact Document.exactCounts

end Workspace

end TargetSpans
