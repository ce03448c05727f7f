import TargetSpans.Document
import TargetSpans.Target.Basic

/-!
# Delimiters and typed spans

What a step of resolution hands to the next one: a span with its selection type and with what
delimits it from its neighbours.
-/

namespace TargetSpans

/-- What separates a span from its neighbours.  All ranges lie in the document of the span. -/
structure DelimiterContext where
  /-- Whether the span is an item of a list. -/
  inList : Bool := false
  /-- The text between two items of that list. -/
  literal : Option Text := none
  leading : Option Range := none
  trailing : Option Range := none
  /-- The span widened over its delimiters. -/
  outer : Option Range := none
  deriving DecidableEq, Repr

namespace DelimiterContext

/-- Whether nothing is known of the delimiters; the outer range does not count. -/
def isEmpty (c : DelimiterContext) : Bool :=
  !c.inList && c.literal.isNone && c.leading.isNone && c.trailing.isNone

/-- The context of a list item, from the delimiters that it has. -/
def ofDelimiters (literal : Text) (leading trailing : Option Range) : DelimiterContext :=
  { inList := true, literal := some literal, leading := leading, trailing := trailing }

/-- The delimiter that goes with the span when it is taken out of its list: the trailing one, or at
the end of the list the leading one. -/
def nearest? (c : DelimiterContext) : Option Range := c.trailing <|> c.leading

end DelimiterContext

/-- A span on its way to a result, with its selection type, its delimiters and where the target
lies on it. -/
structure TypedSpan where
  span : Span
  selectionType : SelectionType
  context : DelimiterContext := {}
  insideOutside : Option InsideOutside := none
  placement : Placement := .contents
  deriving DecidableEq, Repr

namespace TypedSpan

def doc (t : TypedSpan) : DocumentId := t.span.doc

def range (t : TypedSpan) : Range := t.span.range

def withRange (t : TypedSpan) (r : Range) : TypedSpan :=
  { t with span := { t.span with range := r } }

@[simp] theorem range_withRange (t : TypedSpan) (r : Range) : (t.withRange r).range = r := rfl

/-- The outer range, or the range itself where there is none. -/
def outerOrRange (t : TypedSpan) : Range := t.context.outer.getD t.range

end TypedSpan

end TargetSpans
