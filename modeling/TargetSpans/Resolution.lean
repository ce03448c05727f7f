import TargetSpans.Selection.Expansion
import TargetSpans.Selection.Join
import TargetSpans.Selection.Placement

/-!
# Resolving targets

A primitive target is resolved in four stages: its mark gives spans, its modifier picks parts of
each of them, its selection type grows the parts, and its placement puts the target at them.  A
range resolves both of its ends and joins them pairwise; a list resolves its elements in order.
The adjuster sees every resulting span once.  The first failure ends the whole resolution.
-/

namespace TargetSpans

namespace Workspace

variable {M T : Type} [ScopeMatcher M] [SyntaxProvider T]

/-- The end of a range that lies outside a document, the anchor before the head. -/
def outlier? (d : Document) (r : Range) : Option Position :=
  [r.anchor, r.head].find? fun p => !d.contains p

/-- What a primitive target makes of one span of its mark. -/
def resolveSpan (w : Workspace M T) (p : Primitive) (s : Span) : Answer (List TypedSpan) := do
  let d ← w.document s.doc
  match outlier? d s.range with
  | some position => .refuse (.outOfBounds s.doc position)
  | none =>
      let parts ← w.parts p.modifier d s
      parts.mapM fun part => do
        let typed ← d.expand p.selectionType part
        return typed.place p.placement p.insideOutside

/-- The spans of a primitive target, before any adjustment. -/
def resolvePrimitive (w : Workspace M T) (p : Primitive) : Answer (List TypedSpan) := do
  let spans ← w.marked p.mark
  let groups ← spans.mapM (w.resolveSpan p)
  return groups.flatten

/-- The spans of an element, before any adjustment. -/
def resolveElement (w : Workspace M T) : Element → Answer (List TypedSpan)
  | .primitive p => w.resolvePrimitive p
  | .range start stop => do
      let firsts ← w.resolvePrimitive start
      let seconds ← w.resolvePrimitive stop
      TypedSpan.joinAll firsts seconds

/-- The adjusted spans of an element. -/
def resolveAdjusted (w : Workspace M T) (adjust : Adjuster) (e : Element) :
    Answer (List TypedSpan) := do
  let spans ← w.resolveElement e
  return spans.map adjust

def resolve (w : Workspace M T) (adjust : Adjuster) : Target → Answer (List TypedSpan)
  | .single e => w.resolveAdjusted adjust e
  | .list elements => do
      let groups ← elements.mapM (w.resolveAdjusted adjust)
      return groups.flatten

/-- The spans of each of some targets. -/
def resolveAll (w : Workspace M T) (adjust : Adjuster) (targets : List Target) :
    Answer (List (List TypedSpan)) :=
  targets.mapM (w.resolve adjust)

end Workspace

end TargetSpans
