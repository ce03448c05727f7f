import Mathlib.Order.MinMax
import TargetSpans.Range

/-!
# Bounds of ranges

Positions are linearly ordered, row first.  The bounds of a range do not depend on its direction,
so turning a range around or widening it moves the bounds in a way that this file states once: all
later statements about ranges speak of `start`, `stop` and `Covers` only.
-/

namespace TargetSpans

namespace Position

theorem le_iff {p q : Position} :
    p ≤ q ↔ p.row < q.row ∨ p.row = q.row ∧ p.col ≤ q.col :=
  Iff.rfl

theorem lt_iff {p q : Position} :
    p < q ↔ p.row < q.row ∨ p.row = q.row ∧ p.col < q.col :=
  Iff.rfl

instance : LinearOrder Position where
  le_refl p := Or.inr ⟨rfl, le_refl p.col⟩
  le_trans p q r first second := by
    rw [le_iff] at *
    omega
  lt_iff_le_not_ge p q := by
    rw [le_iff, le_iff, lt_iff]
    omega
  le_antisymm p q first second := by
    cases p
    cases q
    simp only [le_iff, mk.injEq] at *
    omega
  le_total p q := by
    rw [le_iff, le_iff]
    omega
  min := min
  max := max
  min_def _ _ := rfl
  max_def _ _ := rfl
  toDecidableLE := inferInstance
  toDecidableEq := inferInstance
  toDecidableLT := inferInstance

theorem origin_le (p : Position) : origin ≤ p := by
  rw [le_iff]
  simp only [origin]
  omega

theorem row_le_of_le {p q : Position} (le : p ≤ q) : p.row ≤ q.row := by
  rw [le_iff] at le
  omega

theorem le_of_row_lt {p q : Position} (lt : p.row < q.row) : p ≤ q :=
  Or.inl lt

theorem mk_le_mk {row a b : Nat} (le : a ≤ b) : (⟨row, a⟩ : Position) ≤ ⟨row, b⟩ :=
  Or.inr ⟨rfl, le⟩

theorem le_succ_row {p q : Position} (le : p ≤ q) :
    (⟨p.row + 1, p.col⟩ : Position) ≤ ⟨q.row + 1, q.col⟩ := by
  rw [le_iff] at *
  simp only
  omega

end Position

namespace Range

theorem start_le_stop (r : Range) : r.start ≤ r.stop :=
  le_trans (min_le_left r.anchor r.head) (le_max_left r.anchor r.head)

theorem start_mk_of_le {p q : Position} (le : p ≤ q) : (⟨p, q⟩ : Range).start = p :=
  min_eq_left le

theorem stop_mk_of_le {p q : Position} (le : p ≤ q) : (⟨p, q⟩ : Range).stop = q :=
  max_eq_right le

theorem start_mk_of_ge {p q : Position} (le : q ≤ p) : (⟨p, q⟩ : Range).start = q :=
  min_eq_right le

theorem stop_mk_of_ge {p q : Position} (le : q ≤ p) : (⟨p, q⟩ : Range).stop = p :=
  max_eq_left le

theorem start_eq_anchor_or_head (r : Range) : r.start = r.anchor ∨ r.start = r.head :=
  min_choice r.anchor r.head

theorem stop_eq_anchor_or_head (r : Range) : r.stop = r.anchor ∨ r.stop = r.head :=
  max_choice r.anchor r.head

@[simp]
theorem start_point (p : Position) : (point p).start = p :=
  min_self p

@[simp]
theorem stop_point (p : Position) : (point p).stop = p :=
  max_self p

@[simp]
theorem start_flip (r : Range) : r.flip.start = r.start :=
  min_comm r.head r.anchor

@[simp]
theorem stop_flip (r : Range) : r.flip.stop = r.stop :=
  max_comm r.head r.anchor

@[simp]
theorem start_toward (r : Range) (d : Direction) : (r.toward d).start = r.start := by
  unfold toward
  split
  · rfl
  · exact start_flip r

@[simp]
theorem stop_toward (r : Range) (d : Direction) : (r.toward d).stop = r.stop := by
  unfold toward
  split
  · rfl
  · exact stop_flip r

@[simp]
theorem start_union (r s : Range) : (r.union s).start = min r.start s.start := by
  have ordered : min r.start s.start ≤ max r.stop s.stop :=
    le_trans (min_le_left _ _) (le_trans (start_le_stop r) (le_max_left _ _))
  rw [union, start_toward, start_mk_of_le ordered]

@[simp]
theorem stop_union (r s : Range) : (r.union s).stop = max r.stop s.stop := by
  have ordered : min r.start s.start ≤ max r.stop s.stop :=
    le_trans (min_le_left _ _) (le_trans (start_le_stop r) (le_max_left _ _))
  rw [union, stop_toward, stop_mk_of_le ordered]

theorem isReversed_iff {r : Range} : r.isReversed = true ↔ r.head < r.anchor :=
  decide_eq_true_iff

theorem direction_eq_iff {r s : Range} :
    r.direction = s.direction ↔ r.isReversed = s.isReversed := by
  unfold direction
  cases r.isReversed <;> cases s.isReversed <;> decide

/-- A range that is not empty runs one way, and its flip the other way. -/
theorem isReversed_flip {r : Range} (nonempty : r.isEmpty = false) :
    r.flip.isReversed = !r.isReversed := by
  have apart : r.anchor ≠ r.head := by simpa [isEmpty] using nonempty
  rcases lt_or_gt_of_ne apart with forward | backward
  · simp [isReversed, flip, forward, not_lt_of_gt forward]
  · simp [isReversed, flip, backward, not_lt_of_gt backward]

theorem toward_eq_self_of_direction {r : Range} {d : Direction} (same : r.direction = d) :
    r.toward d = r :=
  if_pos (Or.inl same)

theorem toward_of_isEmpty {r : Range} (empty : r.isEmpty = true) (d : Direction) :
    r.toward d = r :=
  if_pos (Or.inr empty)

@[simp]
theorem isEmpty_toward (r : Range) (d : Direction) : (r.toward d).isEmpty = r.isEmpty := by
  unfold toward
  split
  · rfl
  · simp only [isEmpty, flip, eq_comm]

/-- Turning a range that is not empty gives it the wanted direction. -/
theorem direction_toward {r : Range} (nonempty : r.isEmpty = false) (d : Direction) :
    (r.toward d).direction = d := by
  by_cases same : r.direction = d
  · rw [toward_eq_self_of_direction same, same]
  · have turned : r.toward d = r.flip := if_neg (by simp [same, nonempty])
    rw [turned]
    unfold direction at same ⊢
    rw [isReversed_flip nonempty]
    cases d <;> cases reversed : r.isReversed <;> simp_all

theorem toward_toward (r : Range) (d : Direction) : (r.toward d).toward d = r.toward d := by
  cases empty : r.isEmpty with
  | true => rw [toward_of_isEmpty empty, toward_of_isEmpty empty]
  | false => exact toward_eq_self_of_direction (direction_toward empty d)

/-- The direction that a range has after turning leads to the same range again. -/
theorem toward_direction_toward (r : Range) (d : Direction) :
    r.toward (r.toward d).direction = r.toward d := by
  cases empty : r.isEmpty with
  | true => rw [toward_of_isEmpty empty, toward_of_isEmpty empty]
  | false => rw [direction_toward empty]

/-- A union already runs the way of its first range. -/
theorem toward_union (r s : Range) : (r.union s).toward r.direction = r.union s :=
  toward_toward _ _

/-- Two ranges start and stop at the same places, whichever way each of them runs. -/
structure SameBounds (r s : Range) : Prop where
  start : r.start = s.start
  stop : r.stop = s.stop

namespace SameBounds

variable {r s t : Range}

theorem refl (r : Range) : r.SameBounds r :=
  ⟨rfl, rfl⟩

theorem symm (same : r.SameBounds s) : s.SameBounds r :=
  ⟨same.start.symm, same.stop.symm⟩

theorem trans (first : r.SameBounds s) (second : s.SameBounds t) : r.SameBounds t :=
  ⟨first.start.trans second.start, first.stop.trans second.stop⟩

theorem congr {r' s' : Range} (left : r.SameBounds r') (right : s.SameBounds s') :
    r.SameBounds s ↔ r'.SameBounds s' :=
  ⟨fun same => left.symm.trans (same.trans right), fun same => left.trans (same.trans right.symm)⟩

theorem toward (r : Range) (d : Direction) : (r.toward d).SameBounds r :=
  ⟨start_toward r d, stop_toward r d⟩

theorem bounds (r : Range) : (⟨r.start, r.stop⟩ : Range).SameBounds r :=
  ⟨start_mk_of_le r.start_le_stop, stop_mk_of_le r.start_le_stop⟩

end SameBounds

/-- The bounds of one range lie around those of another. -/
def Covers (outer inner : Range) : Prop :=
  outer.start ≤ inner.start ∧ inner.stop ≤ outer.stop

namespace Covers

theorem refl (r : Range) : r.Covers r :=
  ⟨le_refl _, le_refl _⟩

theorem trans {r s t : Range} (first : r.Covers s) (second : s.Covers t) : r.Covers t :=
  ⟨le_trans first.1 second.1, le_trans second.2 first.2⟩

end Covers

instance (outer inner : Range) : Decidable (outer.Covers inner) :=
  inferInstanceAs (Decidable (_ ∧ _))

@[simp]
theorem toward_covers (r s : Range) (d : Direction) : (r.toward d).Covers s ↔ r.Covers s := by
  simp [Covers]

@[simp]
theorem covers_toward (r s : Range) (d : Direction) : r.Covers (s.toward d) ↔ r.Covers s := by
  simp [Covers]

theorem union_covers_left (r s : Range) : (r.union s).Covers r := by
  constructor
  · rw [start_union]
    exact min_le_left _ _
  · rw [stop_union]
    exact le_max_left _ _

theorem union_covers_right (r s : Range) : (r.union s).Covers s := by
  constructor
  · rw [start_union]
    exact min_le_right _ _
  · rw [stop_union]
    exact le_max_right _ _

theorem Covers.union {r s t : Range} (first : t.Covers r) (second : t.Covers s) :
    t.Covers (r.union s) := by
  constructor
  · rw [start_union]
    exact le_min first.1 second.1
  · rw [stop_union]
    exact max_le first.2 second.2

theorem SameBounds.covers_of_union {r s t : Range} (same : t.SameBounds (r.union s)) :
    t.Covers s := by
  have covers := union_covers_right r s
  exact ⟨same.start.le.trans covers.1, covers.2.trans same.stop.ge⟩

/-- The bounds of a stretch between ordered positions. -/
theorem mk_covers_iff {p q : Position} {r : Range} (ordered : p ≤ q) :
    (⟨p, q⟩ : Range).Covers r ↔ p ≤ r.start ∧ r.stop ≤ q := by
  rw [Covers, start_mk_of_le ordered, stop_mk_of_le ordered]

end Range

end TargetSpans
