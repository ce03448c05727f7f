import TargetSpans.Position

/-!
# Directed ranges

A range runs from an anchor to a head.  The head is the end that moves when a selection is
extended; a range whose head comes first runs backward.  The bounds of a range do not depend on
its direction, and an empty range always counts as forward.
-/

namespace TargetSpans

/-- The two ways in which a range can run. -/
inductive Direction where
  | forward
  | backward
  deriving DecidableEq, Repr

/-- A stretch of a text between two positions, with a direction. -/
structure Range where
  anchor : Position
  head : Position
  deriving DecidableEq, Repr

namespace Range

def point (p : Position) : Range := ⟨p, p⟩

def start (r : Range) : Position := min r.anchor r.head

def stop (r : Range) : Position := max r.anchor r.head

def isEmpty (r : Range) : Bool := r.anchor = r.head

def isReversed (r : Range) : Bool := r.head < r.anchor

def direction (r : Range) : Direction := if r.isReversed then .backward else .forward

/-- The same stretch in the other direction. -/
def flip (r : Range) : Range := ⟨r.head, r.anchor⟩

/-- The same stretch in the given direction. -/
def toward (r : Range) (d : Direction) : Range :=
  if r.direction = d ∨ r.isEmpty then r else r.flip

/-- The smallest range that covers both, in the direction of the first. -/
def union (r s : Range) : Range :=
  Range.toward ⟨min r.start s.start, max r.stop s.stop⟩ r.direction

end Range

end TargetSpans
