import TargetSpans.Context
import TargetSpans.Failure

/-!
# Joining two spans

The stretch from one typed span to another.  It runs backward where the second span starts first;
each delimiter then comes from the span at that end of the text, while all else comes from the
first span.
-/

namespace TargetSpans

namespace TypedSpan

/-- Whether the stretch from one typed span to another runs forward. -/
def runsForwardTo (first second : TypedSpan) : Bool :=
  first.range.start ≤ second.range.start

def join (first second : TypedSpan) : Answer TypedSpan :=
  if first.doc = second.doc then
    let forward := first.runsForwardTo second
    let range : Range :=
      if forward then ⟨first.range.start, second.range.stop⟩
      else ⟨first.range.stop, second.range.start⟩
    let upper := if forward then first else second
    let lower := if forward then second else first
    .ok {
      span := { first.span with range }
      selectionType := first.selectionType
      context := {
        inList := first.context.inList
        literal := first.context.literal
        leading := upper.context.leading
        trailing := lower.context.trailing
        outer := some ⟨upper.outerOrRange.start, lower.outerOrRange.stop⟩ }
      insideOutside := first.insideOutside
      placement := .contents }
  else .refuse .crossDocumentRange

/-- The stretches from each of some typed spans to its partner among as many others. -/
def joinAll (firsts seconds : List TypedSpan) : Answer (List TypedSpan) :=
  if firsts.length = seconds.length then
    (firsts.zip seconds).mapM fun pair => pair.1.join pair.2
  else .refuse (.lengthMismatch firsts.length seconds.length)

end TypedSpan

end TargetSpans
