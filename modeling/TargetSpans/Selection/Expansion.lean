import TargetSpans.Part
import TargetSpans.Selection.Delimiters
import TargetSpans.Selection.Rows

/-!
# Growing a part to a selection type

A token stays what it is, lines and paragraphs grow to whole rows, and a document selection takes
in everything.  The result keeps the direction of the part.  Delimiters that the modifier has
found are kept where the selection type has a use for them; otherwise they are worked out anew.
-/

namespace TargetSpans

namespace Document

/-- The range that a part grows to, in forward direction unless it is the part itself, and its
delimiters. -/
def grow (d : Document) (r : Range) (known : DelimiterContext) :
    SelectionType → Answer (Range × DelimiterContext)
  | .token => do
      let context ←
        if known.isEmpty then .ofOption (d.inferDelimiters? r) else pure known
      return (r, context)
  | .line => do
      let rows ← .ofOption (d.rowRange? r.start.row r.stop.row)
      let context ←
        if known.inList then pure known else .ofOption (d.lineDelimiters? rows)
      return (rows, context)
  | .paragraph => do
      let (first, last) ← .ofOption (d.paragraphRows? r)
      let rows ← .ofOption (d.rowRange? first last)
      let context ←
        if known.inList then pure known else .ofOption (d.paragraphDelimiters? rows)
      return (rows, context)
  | .document => return (⟨.origin, d.finish⟩, known)
  | .character => .refuse (.notImplemented .characterSelection)

/-- A part of a mark grown to a selection type. -/
def expand (d : Document) (selectionType : SelectionType) (p : Part) : Answer TypedSpan := do
  let (range, context) ← d.grow p.span.range p.context selectionType
  return {
    span := { p.span with range := range.toward p.span.range.direction }
    selectionType
    context }

end Document

end TargetSpans
