import TargetSpans.Context

/-!
# Selections of whole rows

Lines and paragraphs.  Both run from the first character of their first row that is not blank to
the end of their last row, and both are delimited by the line breaks around them; the delimiters
of a paragraph reach over one more row on each side.
-/

namespace TargetSpans

namespace Document

/-- From the first character of a row that is not blank to the end of another row. -/
def rowRange? (d : Document) (first last : Nat) : Option Range := do
  let line ← d.line? first
  let stop ← d.lineEnd? last
  return ⟨⟨first, line.indent⟩, stop⟩

/-- The rows that a range touches, from the first column of the first one to the end of the last
one. -/
def fullRows? (d : Document) (r : Range) : Option Range := do
  let stop ← d.lineEnd? r.stop.row
  return ⟨⟨r.start.row, 0⟩, stop⟩

/-- The row upward from a row where its paragraph starts: the first row of the document, or else the
one under the nearest blank row. -/
def paragraphStart? (d : Document) : Nat → Option Nat
  | 0 => some 0
  | above + 1 => do
      let line ← d.line? above
      if line.allBlank then return above + 1 else d.paragraphStart? above

/-- The row downward from a row with `below` rows after it where its paragraph stops: the last one
of these, or else the one over the nearest blank row. -/
def paragraphStop? (d : Document) (row : Nat) : (below : Nat) → Option Nat
  | 0 => some row
  | below + 1 => do
      let line ← d.line? (row + 1)
      if line.allBlank then return row else d.paragraphStop? (row + 1) below

/-- The first and the last row of the paragraph around a range: outward up to a blank row or the
edge of the document. -/
def paragraphRows? (d : Document) (r : Range) : Option (Nat × Nat) := do
  let first ← d.paragraphStart? r.start.row
  let last ← d.paragraphStop? r.stop.row (d.lineCount - (r.stop.row + 1))
  return (first, last)

/-- The delimiters of a selection of rows that reach up to the end of the row `above` and down to
the start of the row `below`. -/
def rowDelimiters? (d : Document) (r : Range) (above below : Option Nat) :
    Option DelimiterContext := do
  let leading ← above.mapM fun row => do return (⟨← d.lineEnd? row, r.start⟩ : Range)
  let trailing := below.map fun row => (⟨r.stop, ⟨row, 0⟩⟩ : Range)
  let outer ← d.fullRows? r
  let inList := leading.isSome || trailing.isSome
  return {
    inList
    literal := if inList then some ['\n'] else none
    leading
    trailing
    outer := some outer }

/-- The delimiters of a selection of lines: the line breaks before and after it. -/
def lineDelimiters? (d : Document) (r : Range) : Option DelimiterContext :=
  let above := match r.start.row with
    | 0 => none
    | row + 1 => some row
  let below := if r.stop.row + 1 < d.lineCount then some (r.stop.row + 1) else none
  d.rowDelimiters? r above below

/-- The delimiters of a paragraph: as for lines, but over one separating row on each side where
there is one. -/
def paragraphDelimiters? (d : Document) (r : Range) : Option DelimiterContext :=
  let above := match r.start.row with
    | 0 => none
    | 1 => some 0
    | row + 2 => some row
  let below :=
    if r.stop.row + 2 < d.lineCount then some (r.stop.row + 2)
    else if r.stop.row + 1 < d.lineCount then some (r.stop.row + 1)
    else none
  d.rowDelimiters? r above below

end Document

end TargetSpans
