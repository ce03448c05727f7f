import TargetSpans.Context

/-!
# Delimiters on a line

What separates a token from its neighbours on the line is guessed from the text: a run of
separators that touches the token, with something else beyond it.
-/

namespace TargetSpans

namespace Text

/-- The length of the run of list separators that a text starts with, if the run is not empty and
does not reach the end. -/
def separatorRun? (t : Text) : Option Nat :=
  let run := (t.takeWhile isListSeparator).length
  if run = 0 ∨ run = t.length then none else some run

end Text

namespace Document

/-- The run of separators that ends at a position, within its row. -/
def separatorsBefore? (d : Document) (p : Position) : Option (Option Range) := do
  let line ← d.line? p.row
  match Text.separatorRun? (line.content.take p.col).reverse with
  | none => return none
  | some run =>
      let start ← p.left? run
      return some ⟨start, p⟩

/-- The run of separators that starts at a position, within its row. -/
def separatorsAfter? (d : Document) (p : Position) : Option (Option Range) := do
  let line ← d.line? p.row
  return (Text.separatorRun? (line.content.drop p.col)).map fun run => ⟨p, p.right run⟩

/-- The delimiters around a range, guessed from its first and its last row. -/
def inferDelimiters? (d : Document) (r : Range) : Option DelimiterContext := do
  let leading ← d.separatorsBefore? r.start
  let trailing ← d.separatorsAfter? r.stop
  match trailing <|> leading with
  | none => return {}
  | some nearest =>
      let literal ← d.textOf? nearest
      return .ofDelimiters literal leading trailing

end Document

end TargetSpans
