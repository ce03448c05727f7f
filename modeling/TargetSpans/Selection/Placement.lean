import TargetSpans.Context

/-!
# Placing a target at its selection

A target lies at the contents of its selection, or it is the point before or after them.  As the
last step of resolution an adjuster sees every span once; the usual one widens the targets that are
meant with their delimiters.
-/

namespace TargetSpans

abbrev Adjuster := TypedSpan → TypedSpan

namespace TypedSpan

/-- A typed span placed as the target says.  Whether the target takes in its delimiters is noted
for the adjuster. -/
def place (t : TypedSpan) (placement : Placement) (insideOutside : Option InsideOutside) :
    TypedSpan :=
  let range := match placement with
    | .contents => t.range
    | .before => .point t.range.start
    | .after => .point t.range.stop
  { t.withRange range with insideOutside, placement }

/-- The range that a typed span takes up with its delimiters: the outer range where there is one,
else the span with its trailing delimiter, else with its leading one. -/
def widened? (t : TypedSpan) : Option Range :=
  t.context.outer <|> t.context.nearest?.map t.range.union

/-- The adjuster that widens an outside target over its delimiters.  Points before or after a
selection stay as they are. -/
def widenOutside (t : TypedSpan) : TypedSpan :=
  if t.insideOutside = some .outside ∧ t.placement = .contents then
    match t.widened? with
    | some wide => t.withRange (wide.toward t.range.direction)
    | none => t
  else t

end TypedSpan

end TargetSpans
