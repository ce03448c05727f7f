/-!
# Positions

A position in a text is a row and a column, both from zero; columns count the characters of the
row.  Positions are ordered by row first.
-/

namespace TargetSpans

structure Position where
  row : Nat
  col : Nat
  deriving DecidableEq, Repr, Inhabited

namespace Position

instance : LE Position := ⟨fun p q => p.row < q.row ∨ p.row = q.row ∧ p.col ≤ q.col⟩

instance : LT Position := ⟨fun p q => p.row < q.row ∨ p.row = q.row ∧ p.col < q.col⟩

instance (p q : Position) : Decidable (p ≤ q) :=
  inferInstanceAs (Decidable (p.row < q.row ∨ p.row = q.row ∧ p.col ≤ q.col))

instance (p q : Position) : Decidable (p < q) :=
  inferInstanceAs (Decidable (p.row < q.row ∨ p.row = q.row ∧ p.col < q.col))

instance : Min Position := minOfLe

instance : Max Position := maxOfLe

def origin : Position := ⟨0, 0⟩

/-- The position `n` columns further to the left; undefined where the row has too few. -/
def left? (p : Position) (n : Nat) : Option Position :=
  if n ≤ p.col then some ⟨p.row, p.col - n⟩ else none

/-- The position `n` columns further to the right. -/
def right (p : Position) (n : Nat) : Position := ⟨p.row, p.col + n⟩

end Position

end TargetSpans
