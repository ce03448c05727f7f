import TargetSpans.Proofs.RangeBounds

/-!
# Unions of ranges

The union of two ranges is the one range that takes in both, goes no further than it has to and
runs the way of the first.  All of its laws follow from that: as far as bounds go it is the join of
two stretches, and only its direction tells the two sides apart.  Empty ranges count as forward,
whichever way they have been turned.  The direction of a union needs no exception for them, since a
union is empty only if its first range is; but to turn an empty range around is not to turn the
unions that begin with it.
-/

namespace TargetSpans

namespace Range

variable {hull hull' r s t : Range}

/-! ## Bounds and direction -/

theorem anchor_eq (r : Range) : r.anchor = if r.isReversed then r.stop else r.start := by
  split
  case isTrue backward => exact (max_eq_left (isReversed_iff.mp backward).le).symm
  case isFalse forward => exact (min_eq_left (not_lt.mp (mt isReversed_iff.mpr forward))).symm

theorem head_eq (r : Range) : r.head = if r.isReversed then r.start else r.stop := by
  split
  case isTrue backward => exact (min_eq_right (isReversed_iff.mp backward).le).symm
  case isFalse forward => exact (max_eq_right (not_lt.mp (mt isReversed_iff.mpr forward))).symm

/-- A range is determined by its bounds and the way it runs. -/
theorem eq_of_sameBounds (same : r.SameBounds s) (way : r.isReversed = s.isReversed) : r = s := by
  have anchor : r.anchor = s.anchor := by
    rw [anchor_eq, anchor_eq, same.start, same.stop, way]
  have head : r.head = s.head := by
    rw [head_eq, head_eq, same.start, same.stop, way]
  cases r
  cases s
  exact congr (congrArg mk anchor) head

theorem isEmpty_iff : r.isEmpty = true ↔ r.start = r.stop :=
  decide_eq_true_iff.trans inf_eq_sup.symm

theorem isReversed_of_isEmpty (empty : r.isEmpty = true) : r.isReversed = false := by
  have same : r.anchor = r.head := of_decide_eq_true empty
  exact decide_eq_false (same ▸ lt_irrefl r.anchor)

namespace Covers

/-- There is no room for anything but an empty range within an empty one. -/
theorem isEmpty (covers : s.Covers r) (empty : s.isEmpty = true) : r.isEmpty = true := by
  have stop : r.stop ≤ s.start := covers.2.trans (isEmpty_iff.mp empty).ge
  exact isEmpty_iff.mpr (le_antisymm r.start_le_stop (stop.trans covers.1))

theorem isEmpty_eq_false (covers : s.Covers r) (nonempty : r.isEmpty = false) :
    s.isEmpty = false := by
  rw [Bool.eq_false_iff] at nonempty ⊢
  exact mt covers.isEmpty nonempty

theorem antisymm (forth : r.Covers s) (back : s.Covers r) : r.SameBounds s :=
  ⟨le_antisymm forth.1 back.1, le_antisymm back.2 forth.2⟩

end Covers

@[simp]
theorem flip_covers (r s : Range) : r.flip.Covers s ↔ r.Covers s := by
  simp [Covers]

@[simp]
theorem covers_flip (r s : Range) : r.Covers s.flip ↔ r.Covers s := by
  simp [Covers]

/-! ## Hulls -/

/-- A range takes in two others and nothing that every range around both of them would not. -/
structure IsHull (hull r s : Range) : Prop where
  left : hull.Covers r
  right : hull.Covers s
  least : ∀ t : Range, t.Covers r → t.Covers s → t.Covers hull

namespace IsHull

/-- The hull of two ranges is unique but for the way it runs. -/
theorem sameBounds (isHull : hull.IsHull r s) (isHull' : hull'.IsHull r s) :
    hull.SameBounds hull' :=
  Covers.antisymm (isHull'.least hull isHull.left isHull.right)
    (isHull.least hull' isHull'.left isHull'.right)

theorem swap (isHull : hull.IsHull r s) : hull.IsHull s r :=
  ⟨isHull.right, isHull.left, fun t first second => isHull.least t second first⟩

/-- The direction of a hull does not matter, nor does that of its first range. -/
theorem flip (isHull : hull.IsHull r s) : hull.flip.IsHull r.flip s := by
  refine ⟨?_, ?_, fun t first second => ?_⟩
  · simpa using isHull.left
  · simpa using isHull.right
  · simpa using isHull.least t (by simpa using first) second

/-- A range around another one is the hull of both. -/
theorem of_covers (covers : r.Covers s) : r.IsHull r s :=
  ⟨Covers.refl r, covers, fun _ first _ => first⟩

end IsHull

theorem isHull_union (r s : Range) : (r.union s).IsHull r s :=
  ⟨union_covers_left r s, union_covers_right r s, fun _ => Covers.union⟩

theorem isHull_union_assoc (r s t : Range) : ((r.union s).union t).IsHull r (s.union t) := by
  have outer : ((r.union s).union t).Covers (r.union s) := union_covers_left (r.union s) t
  refine ⟨outer.trans (union_covers_left r s), ?_, ?_⟩
  · exact Covers.union (outer.trans (union_covers_right r s)) (union_covers_right (r.union s) t)
  · intro wide first rest
    have second : wide.Covers s := rest.trans (union_covers_left s t)
    have third : wide.Covers t := rest.trans (union_covers_right s t)
    exact Covers.union (Covers.union first second) third

/-! ## Unions -/

theorem isReversed_union (r s : Range) : (r.union s).isReversed = r.isReversed := by
  cases empty : (r.union s).isEmpty with
  | true =>
      -- An empty union cannot be turned, but then neither could its first range.
      have within := (union_covers_left r s).isEmpty empty
      rw [isReversed_of_isEmpty empty, isReversed_of_isEmpty within]
  | false =>
      have turned := direction_toward ((isEmpty_toward _ r.direction).symm.trans empty) r.direction
      exact direction_eq_iff.mp turned

/-- The union is the hull that runs the way of the first range, and there is no other one. -/
theorem eq_union_iff : t = r.union s ↔ t.IsHull r s ∧ t.isReversed = r.isReversed := by
  constructor
  · rintro rfl
    exact ⟨isHull_union r s, isReversed_union r s⟩
  · rintro ⟨isHull, way⟩
    exact eq_of_sameBounds (isHull.sameBounds (isHull_union r s))
      (way.trans (isReversed_union r s).symm)

theorem sameBounds_union_comm (r s : Range) : (r.union s).SameBounds (s.union r) :=
  (isHull_union r s).sameBounds (isHull_union s r).swap

theorem union_assoc (r s t : Range) : (r.union s).union t = r.union (s.union t) := by
  refine eq_union_iff.mpr ⟨isHull_union_assoc r s t, ?_⟩
  rw [isReversed_union, isReversed_union]

/-- Nothing is gained by the union with a range that is taken in already. -/
theorem union_eq_self (covers : r.Covers s) : r.union s = r :=
  (eq_union_iff.mpr ⟨IsHull.of_covers covers, rfl⟩).symm

theorem sameBounds_union_iff : r.SameBounds (r.union s) ↔ r.Covers s := by
  refine ⟨SameBounds.covers_of_union, fun covers => ?_⟩
  rw [union_eq_self covers]
  exact SameBounds.refl r

theorem union_self (r : Range) : r.union r = r :=
  union_eq_self (Covers.refl r)

theorem union_union_self (r s : Range) : (r.union s).union s = r.union s :=
  union_eq_self (union_covers_right r s)

/-- Turned around, a range that is not empty hands its new direction on to the union. -/
theorem flip_union (nonempty : r.isEmpty = false) (s : Range) :
    r.flip.union s = (r.union s).flip := by
  have wide : (r.union s).isEmpty = false :=
    (union_covers_left r s).isEmpty_eq_false nonempty
  refine (eq_union_iff.mpr ⟨(isHull_union r s).flip, ?_⟩).symm
  rw [isReversed_flip wide, isReversed_flip nonempty, isReversed_union]

/-- The union of two ranges is the least stretch around both and runs backward exactly if the first
one does.  Its bounds do not depend on the order of the two.  It is associative even in its
direction, and a range united with itself stays as it is.  Turning a range keeps its bounds and,
unless it is empty, gives it the wanted direction.  Therefore a union has taken in its second range
already, and it turns with its first one unless that is empty. -/
theorem union_laws (r s t : Range) :
    (r.union s).IsHull r s ∧
      ((r.union s).isReversed = true ↔ r.isReversed = true) ∧
      (r.union s).SameBounds (s.union r) ∧
      (r.union s).union t = r.union (s.union t) ∧
      r.union r = r ∧
      (∀ d, (r.toward d).SameBounds r) ∧
      (∀ d, r.isEmpty = false → (r.toward d).direction = d) ∧
      (r.union s).union s = r.union s ∧
      (r.isEmpty = false → r.flip.union s = (r.union s).flip) :=
  ⟨isHull_union r s, by rw [isReversed_union], sameBounds_union_comm r s, union_assoc r s t,
    union_self r, SameBounds.toward r, fun d nonempty => direction_toward nonempty d,
    union_union_self r s, fun nonempty => flip_union nonempty s⟩

/-- From the third column of one row back to the eighth column of the row above. -/
def backOverBreak : Range := ⟨⟨1, 2⟩, ⟨0, 7⟩⟩

/-- A stretch of the upper row that begins further to the left. -/
def inUpperRow : Range := ⟨⟨0, 3⟩, ⟨0, 9⟩⟩

theorem backOverBreak_unions :
    backOverBreak.isEmpty = false ∧
      backOverBreak.union inUpperRow = ⟨⟨1, 2⟩, ⟨0, 3⟩⟩ ∧
      (backOverBreak.union inUpperRow).IsHull backOverBreak inUpperRow ∧
      (backOverBreak.toward .forward).direction = .forward ∧
      backOverBreak.flip.union inUpperRow = ⟨⟨0, 3⟩, ⟨1, 2⟩⟩ := by
  obtain ⟨isHull, _, _, _, _, _, direction, _, turned⟩ :=
    union_laws backOverBreak inUpperRow inUpperRow
  exact ⟨rfl, rfl, isHull, direction .forward rfl, turned rfl⟩

end Range

end TargetSpans
