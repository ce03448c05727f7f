import TargetSpans.Proofs.RangeSymmetry
import TargetSpans.Proofs.TokenDelimiters

/-!
# What a joined span takes up

A stretch starts where the first of its ends in the text starts, and it stops where the last of them
stops, even if the other one goes on beyond that.  It therefore takes in both of its ends unless the
lower one lies within the upper one and stops short of it; the rest of the upper one is then left
out.  Its delimiters and its outer range are put together from those of its ends, each from the end
on its side, and fit it whenever they have fitted both of them.
-/

namespace TargetSpans

namespace TypedSpan

/-- The one of two typed spans that starts first in the text, or the first one if they start
together. -/
def upperOf (first second : TypedSpan) : TypedSpan :=
  if first.range.start ≤ second.range.start then first else second

/-- The one of two typed spans that starts last in the text, or the second one if they start
together. -/
def lowerOf (first second : TypedSpan) : TypedSpan :=
  if first.range.start ≤ second.range.start then second else first

/-- The delimiters of a typed span touch it, and its outer range takes it in. -/
structure Framed (t : TypedSpan) : Prop where
  leading_stop : ∀ delimiter, t.context.leading = some delimiter → delimiter.stop = t.range.start
  trailing_start : ∀ delimiter, t.context.trailing = some delimiter →
    delimiter.start = t.range.stop
  outer_covers : t.outerOrRange.Covers t.range

variable {t upper lower first second : TypedSpan}

theorem stretches_of_join (joined : first.join second = .ok t) :
    t.Stretches (upperOf first second) (lowerOf first second) := by
  unfold upperOf lowerOf
  split
  case isTrue le => exact (stretches_of_join_of_le joined le).1
  case isFalse later => exact (stretches_of_join_of_lt joined (lt_of_not_ge later)).1

theorem start_upperOf (first second : TypedSpan) :
    (upperOf first second).range.start = min first.range.start second.range.start := by
  unfold upperOf
  split
  case isTrue le => exact (min_eq_left le).symm
  case isFalse later => exact (min_eq_right (le_of_not_ge later)).symm

/-- What holds of both of two spans holds of the upper and of the lower one. -/
theorem upperOf_and_lowerOf_iff {P : TypedSpan → Prop} :
    P (upperOf first second) ∧ P (lowerOf first second) ↔ P first ∧ P second := by
  unfold upperOf lowerOf
  split
  · exact Iff.rfl
  · exact and_comm

namespace Stretches

theorem covers_lower (stretch : t.Stretches upper lower) : t.range.Covers lower.range := by
  refine ⟨?_, stretch.stop.ge⟩
  rw [stretch.start]
  exact stretch.ordered

theorem covers_upper_iff (stretch : t.Stretches upper lower) :
    t.range.Covers upper.range ↔ upper.range.stop ≤ lower.range.stop := by
  rw [Range.Covers, stretch.stop]
  exact and_iff_right stretch.start.le

/-- Each side of a stretch has its delimiter and its outer bound from the span that it ends at. -/
theorem framed (stretch : t.Stretches upper lower) (above : upper.Framed) (below : lower.Framed) :
    t.Framed where
  leading_stop delimiter known := by
    rw [stretch.leading] at known
    rw [stretch.start]
    exact above.leading_stop delimiter known
  trailing_start delimiter known := by
    rw [stretch.trailing] at known
    rw [stretch.stop]
    exact below.trailing_start delimiter known
  outer_covers := by
    have start : upper.outerOrRange.start ≤ t.range.start := by
      rw [stretch.start]
      exact above.outer_covers.1
    have stop : t.range.stop ≤ lower.outerOrRange.stop := by
      rw [stretch.stop]
      exact below.outer_covers.2
    have ordered : upper.outerOrRange.start ≤ lower.outerOrRange.stop :=
      le_trans start (le_trans t.range.start_le_stop stop)
    rw [outerOrRange, stretch.outer]
    exact (Range.mk_covers_iff ordered).mpr ⟨start, stop⟩

end Stretches

/-- Two typed spans of one document are always joined.  The stretch starts at the smaller of their
starts, stops where the lower one stops, and runs backward exactly if the second one starts first.
It takes in both of them exactly if the upper one does not stop after the lower one, and what
delimits it fits it if that is so of both of them. -/
theorem join_extent (first second : TypedSpan) (same : first.doc = second.doc) :
    ∃ t, first.join second = .ok t ∧ t.doc = first.doc ∧
      t.range.start = min first.range.start second.range.start ∧
      t.range.stop = (lowerOf first second).range.stop ∧
      (t.range.isReversed = true ↔ second.range.start < first.range.start) ∧
      (t.range.Covers first.range ∧ t.range.Covers second.range ↔
        (upperOf first second).range.stop ≤ (lowerOf first second).range.stop) ∧
      (first.Framed → second.Framed → t.Framed) := by
  obtain ⟨t, joined⟩ := exists_join same
  have stretch := stretches_of_join joined
  refine ⟨t, joined, doc_of_join joined, ?_, stretch.stop, isReversed_of_join joined, ?_, ?_⟩
  · rw [stretch.start, start_upperOf]
  · rw [← upperOf_and_lowerOf_iff (P := fun u => t.range.Covers u.range),
      and_iff_left stretch.covers_lower, stretch.covers_upper_iff]
  · intro one other
    obtain ⟨above, below⟩ := upperOf_and_lowerOf_iff.mpr ⟨one, other⟩
    exact stretch.framed above below

/-- The whole text `a, b`, with nothing around it. -/
def wholeCall : TypedSpan where
  span := ⟨⟨1⟩, ⟨⟨0, 0⟩, ⟨0, 4⟩⟩⟩
  selectionType := .document

/-- From the whole of `a, b` to its first argument there is no more than that argument, with the
delimiter after it: they start together, so that the argument is the lower one. -/
theorem wholeCall_to_firstArgument :
    wholeCall.doc = Workspace.firstArgument.doc ∧
      ∃ t, wholeCall.join Workspace.firstArgument = .ok t ∧ t.range.stop = ⟨0, 1⟩ ∧
        ¬ (t.range.Covers wholeCall.range ∧ t.range.Covers Workspace.firstArgument.range) ∧
        t.Framed := by
  refine ⟨rfl, ?_⟩
  obtain ⟨t, joined, _, _, stop, _, covers, framed⟩ :=
    join_extent wholeCall Workspace.firstArgument rfl
  have whole : wholeCall.Framed := ⟨by rintro _ ⟨⟩, by rintro _ ⟨⟩, Range.Covers.refl _⟩
  have argument : Workspace.firstArgument.Framed := by
    refine ⟨by rintro _ ⟨⟩, ?_, by decide⟩
    rintro _ ⟨⟩
    rfl
  exact ⟨t, joined, stop, fun both => absurd (covers.mp both) (by decide), framed whole argument⟩

end TypedSpan

end TargetSpans
