import TargetSpans.Proofs.Unions
import TargetSpans.Selection.Placement

/-!
# Widening again

The usual adjuster sees every span once, but a second look would change nothing: a span that has
taken in its delimiter takes in no more.  Nothing is assumed here of the span, its delimiters or its
outer range; they may lie anywhere.
-/

namespace TargetSpans

namespace DelimiterContext

theorem nearest?_eq_some_iff {c : DelimiterContext} {delimiter : Range} :
    c.nearest? = some delimiter ↔
      c.trailing = some delimiter ∨ c.trailing = none ∧ c.leading = some delimiter := by
  rw [nearest?, Option.orElse_eq_orElse, Option.orElse_eq_or, Option.or_eq_some_iff]

end DelimiterContext

namespace TypedSpan

variable {t : TypedSpan} {wide : Range}

/-- The spans that the usual adjuster looks at: those that are meant with their delimiters and lie
at the contents of their selection. -/
abbrev Widens (t : TypedSpan) : Prop := t.insideOutside = some .outside ∧ t.placement = .contents

theorem widenOutside_of_not_widens (exempt : ¬ t.Widens) : t.widenOutside = t :=
  if_neg exempt

theorem widenOutside_of_widened?_none (nothing : t.widened? = none) : t.widenOutside = t := by
  rw [widenOutside, nothing]
  exact ite_self t

theorem widenOutside_of_widened? (widens : t.Widens) (widened : t.widened? = some wide) :
    t.widenOutside = t.withRange (wide.toward t.range.direction) := by
  rw [widenOutside, if_pos widens, widened]

/-- Whether the adjuster applies and which range it finds, nothing else of a span is changed. -/
theorem exists_withRange_widenOutside (t : TypedSpan) : ∃ r, t.widenOutside = t.withRange r := by
  by_cases widens : t.Widens
  · cases widened : t.widened? with
    | some wide => exact ⟨_, widenOutside_of_widened? widens widened⟩
    | none => exact ⟨t.range, widenOutside_of_widened?_none widened⟩
  · exact ⟨t.range, widenOutside_of_not_widens widens⟩

/-- A span that has been widened would be widened to the range that it has. -/
theorem widened?_withRange (widened : t.widened? = some wide) :
    (t.withRange (wide.toward t.range.direction)).widened? = some wide := by
  cases outer : t.context.outer with
  | some o =>
      have same : wide = o := by simpa [widened?, outer, eq_comm] using widened
      simp [widened?, withRange, outer, same]
  | none =>
      obtain ⟨delimiter, nearest, rfl⟩ : ∃ delimiter, t.context.nearest? = some delimiter ∧
          t.range.union delimiter = wide := by
        simpa [widened?, outer] using widened
      rw [Range.toward_union]
      simpa [widened?, withRange, range, outer, nearest] using
        Range.union_union_self t.range delimiter

theorem widenOutside_widenOutside (t : TypedSpan) :
    t.widenOutside.widenOutside = t.widenOutside := by
  by_cases widens : t.Widens
  · cases widened : t.widened? with
    | some wide =>
        have again := widenOutside_of_widened? (t := t.withRange (wide.toward t.range.direction))
          widens (widened?_withRange widened)
        rw [widenOutside_of_widened? widens widened, again]
        exact congrArg t.withRange (Range.toward_direction_toward wide t.range.direction)
    | none => rw [widenOutside_of_widened?_none widened, widenOutside_of_widened?_none widened]
  · rw [widenOutside_of_not_widens widens, widenOutside_of_not_widens widens]

theorem direction_widenOutside (nonempty : t.widenOutside.range.isEmpty = false) :
    t.widenOutside.range.direction = t.range.direction := by
  by_cases widens : t.Widens
  · cases widened : t.widened? with
    | some wide =>
        rw [widenOutside_of_widened? widens widened] at nonempty ⊢
        exact Range.direction_toward ((Range.isEmpty_toward wide _).symm.trans nonempty) _
    | none => rw [widenOutside_of_widened?_none widened]
  · rw [widenOutside_of_not_widens widens]

theorem isHull_widenOutside {delimiter : Range} (widens : t.Widens)
    (noOuter : t.context.outer = none) (nearest : t.context.nearest? = some delimiter) :
    t.widenOutside.range.IsHull t.range delimiter := by
  have widened : t.widened? = some (t.range.union delimiter) := by
    simp [widened?, noOuter, nearest]
  rw [widenOutside_of_widened? widens widened, Range.toward_union]
  exact Range.isHull_union t.range delimiter

/-- What the usual adjuster does to any span whatsoever.  A second widening changes nothing; only
the range is changed, and only that of a span that is meant with its delimiters and lies at its
contents; a range that is not empty runs the way of the span; and without an outer range it is just
wide enough for the span and the delimiter behind it or, if there is none, the one in front. -/
theorem widenOutside_laws (t : TypedSpan) :
    t.widenOutside.widenOutside = t.widenOutside ∧
      (∃ r, t.widenOutside = t.withRange r) ∧
      (¬ (t.insideOutside = some .outside ∧ t.placement = .contents) → t.widenOutside = t) ∧
      (t.widenOutside.range.isEmpty = false →
        t.widenOutside.range.direction = t.range.direction) ∧
      ∀ delimiter, t.insideOutside = some .outside → t.placement = .contents →
        t.context.outer = none →
        (t.context.trailing = some delimiter ∨
          t.context.trailing = none ∧ t.context.leading = some delimiter) →
        t.widenOutside.range.IsHull t.range delimiter :=
  ⟨t.widenOutside_widenOutside, t.exists_withRange_widenOutside, widenOutside_of_not_widens,
    direction_widenOutside, fun _ outside contents noOuter nearest =>
      isHull_widenOutside ⟨outside, contents⟩ noOuter
        (DelimiterContext.nearest?_eq_some_iff.mpr nearest)⟩

/-- The second item of `one, two, four`, selected backward, with both of its delimiters. -/
def backwardItem : TypedSpan where
  span := ⟨⟨1⟩, ⟨⟨0, 8⟩, ⟨0, 5⟩⟩⟩
  selectionType := .token
  context := .ofDelimiters [',', ' '] (some ⟨⟨0, 3⟩, ⟨0, 5⟩⟩) (some ⟨⟨0, 8⟩, ⟨0, 10⟩⟩)
  insideOutside := some .outside

theorem backwardItem_widened :
    backwardItem.widenOutside.range = ⟨⟨0, 10⟩, ⟨0, 5⟩⟩ ∧
      backwardItem.widenOutside.range.IsHull backwardItem.range ⟨⟨0, 8⟩, ⟨0, 10⟩⟩ ∧
      backwardItem.widenOutside.range.direction = .backward ∧
      backwardItem.widenOutside.widenOutside = backwardItem.widenOutside := by
  obtain ⟨again, _, _, direction, hull⟩ := widenOutside_laws backwardItem
  exact ⟨rfl, hull _ rfl rfl rfl (.inl rfl), direction rfl, again⟩

end TypedSpan

end TargetSpans
