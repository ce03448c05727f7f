import TargetSpans.Proofs.RangeSymmetry
import TargetSpans.Proofs.TokenDelimiters
import TargetSpans.Proofs.Unions

/-!
# Ranges from a target to itself

Joined with itself, a span keeps its bounds and its delimiters.  It gets an outer range even where
it has had none, and it forgets that it was placed before or after a selection.  Neither is seen
unless the target is meant with its delimiters.  In that case a span whose delimiters come without
an outer range is widened only on its own, and a point beside a selection with an outer range only
as both ends of a range; all other targets come out alike.
-/

namespace TargetSpans

open Answer

namespace TypedSpan

/-- A typed span joined with itself. -/
def doubled (t : TypedSpan) : TypedSpan where
  span := { t.span with range := ⟨t.range.start, t.range.stop⟩ }
  selectionType := t.selectionType
  context := { t.context with outer := some ⟨t.outerOrRange.start, t.outerOrRange.stop⟩ }
  insideOutside := t.insideOutside
  placement := .contents

theorem join_self (t : TypedSpan) : t.join t = .ok t.doubled := by
  have forward : t.runsForwardTo t = true := decide_eq_true (le_refl _)
  rw [join, if_pos rfl, forward]
  rfl

theorem joinAll_self (spans : List TypedSpan) :
    joinAll spans spans = .ok (spans.map doubled) := by
  rw [joinAll_eq_ok_iff, mapM_eq_ok_iff]
  refine ⟨rfl, ?_⟩
  induction spans with
  | nil => exact List.Forall₂.nil
  | cons t rest ih => exact List.Forall₂.cons t.join_self ih

/-- A span that is meant with its delimiters is widened otherwise on its own than joined with itself
in two cases: at the contents of a selection, if there is no outer range and the nearest delimiter
reaches out of the span, and at a point beside a selection with an outer range that reaches beyond
the point. -/
def WidensApart (t : TypedSpan) : Prop :=
  t.insideOutside = some .outside ∧
    (t.placement = .contents ∧ t.context.outer = none ∧
        (∃ nearest, t.context.nearest? = some nearest ∧ ¬ t.range.Covers nearest) ∨
      t.placement ≠ .contents ∧
        ∃ outer, t.context.outer = some outer ∧ ¬ outer.SameBounds t.range)

variable {t : TypedSpan}

/-- Where widening leads to, for a span that is meant with its delimiters. -/
theorem sameBounds_widenOutside (outside : t.insideOutside = some .outside) :
    t.widenOutside.range.SameBounds
      (if t.placement = .contents then t.widened?.getD t.range else t.range) := by
  unfold widenOutside
  simp only [outside, true_and]
  split
  case isFalse => exact Range.SameBounds.refl t.range
  case isTrue =>
    cases t.widened? with
    | some wide => exact Range.SameBounds.toward wide _
    | none => exact Range.SameBounds.refl t.range

theorem range_widenOutside_of_ne (inside : t.insideOutside ≠ some .outside) :
    t.widenOutside.range = t.range := by
  rw [widenOutside, if_neg fun applies => inside applies.1]

/-- Joined with itself, a span is widened to its outer range or stays as it is. -/
theorem sameBounds_widenOutside_doubled (t : TypedSpan) :
    t.doubled.widenOutside.range.SameBounds
      (if t.insideOutside = some .outside then t.outerOrRange else t.range) := by
  split
  case isTrue outside =>
    exact (sameBounds_widenOutside (t := t.doubled) outside).trans (Range.SameBounds.bounds _)
  case isFalse inside =>
    rw [range_widenOutside_of_ne (t := t.doubled) inside]
    exact Range.SameBounds.bounds t.range

theorem doc_widenOutside (t : TypedSpan) : t.widenOutside.doc = t.doc := by
  unfold widenOutside
  split
  · split <;> rfl
  · rfl

/-- There is no third case. -/
theorem sameBounds_doubled_iff (t : TypedSpan) :
    t.doubled.widenOutside.range.SameBounds t.widenOutside.range ↔ ¬ t.WidensApart := by
  have joined := t.sameBounds_widenOutside_doubled
  by_cases outside : t.insideOutside = some .outside
  swap
  · rw [if_neg outside] at joined
    rw [range_widenOutside_of_ne (t := t) outside]
    exact iff_of_true joined fun apart => outside apart.1
  rw [if_pos outside] at joined
  rw [Range.SameBounds.congr joined (sameBounds_widenOutside outside)]
  have self := Range.SameBounds.refl
  by_cases contents : t.placement = .contents
  · cases outer : t.context.outer with
    | some wide =>
        simpa [WidensApart, outerOrRange, widened?, contents, outer] using self wide
    | none =>
        cases found : t.context.nearest? with
        | none =>
            simpa [WidensApart, outerOrRange, widened?, contents, outer, found] using self t.range
        | some nearest =>
            -- Alone the span takes in the delimiter; its double has its own range as the outer one.
            simpa [WidensApart, outerOrRange, widened?, outside, contents, outer, found]
              using Range.sameBounds_union_iff
  · cases outer : t.context.outer with
    | none => simpa [WidensApart, outerOrRange, contents, outer] using self t.range
    | some wide => simp [WidensApart, outerOrRange, outside, contents, outer]

end TypedSpan

namespace Workspace

/-- The range from a target to itself resolves whenever the target does, to as many spans of the
same documents, whatever the matchers and the provider of syntax trees are.  A span of the range has
the same bounds as the span of the target, unless that one is widened apart; in either case it takes
up the outer range of the unadjusted span, or that span itself if there is none or it is not meant
with its delimiters. -/
theorem resolve_range_self {M T : Type} [ScopeMatcher M] [SyntaxProvider T] (w : Workspace M T)
    (p : Primitive) {wide : List TypedSpan}
    (resolved : w.resolve TypedSpan.widenOutside (.single (.primitive p)) = .ok wide) :
    ∃ plain joined, w.resolve id (.single (.primitive p)) = .ok plain ∧
      wide = plain.map TypedSpan.widenOutside ∧
      w.resolve TypedSpan.widenOutside (.single (.range p p)) = .ok joined ∧
      List.Forall₂ (fun t j => j.doc = t.widenOutside.doc ∧
        (j.range.SameBounds t.widenOutside.range ↔ ¬ t.WidensApart) ∧
        j.range.SameBounds (if p.insideOutside = some .outside then t.outerOrRange else t.range) ∧
        t.selectionType = p.selectionType ∧ t.placement = p.placement ∧
        t.insideOutside = p.insideOutside) plain joined := by
  rw [resolve_eq_map, map_eq_ok_iff] at resolved
  obtain ⟨plain, own, rfl⟩ := resolved
  refine ⟨plain, _, own, rfl, (w.resolve_range_eq_ok_iff _ p p _).mpr
    ⟨plain, plain, _, own, own, TypedSpan.joinAll_self plain, rfl⟩, ?_⟩
  rw [List.map_map, List.forall₂_map_right_iff, List.forall₂_same]
  intro t member
  rw [resolve_primitive] at own
  have tags := tags_of_resolvePrimitive own t member
  have sameDoc : t.doubled.widenOutside.doc = t.widenOutside.doc := by
    rw [TypedSpan.doc_widenOutside, TypedSpan.doc_widenOutside]
    rfl
  have bounds : t.doubled.widenOutside.range.SameBounds
      (if p.insideOutside = some .outside then t.outerOrRange else t.range) := by
    rw [← tags.2.2]
    exact t.sameBounds_widenOutside_doubled
  exact ⟨sameDoc, t.sameBounds_doubled_iff, bounds, tags⟩

/-- The first argument of `a, b` comes with an outer range, and is widened to it either way. -/
theorem firstArgument_range_self :
    ∃ j, arguments.resolve TypedSpan.widenOutside
        (.single (.range (argumentTarget .token) (argumentTarget .token))) = .ok [j] ∧
      j.range.SameBounds firstArgument.widenOutside.range ∧
      firstArgument.widenOutside.range = ⟨⟨0, 0⟩, ⟨0, 3⟩⟩ := by
  have alone : arguments.resolve TypedSpan.widenOutside
      (.single (.primitive (argumentTarget .token))) = .ok [firstArgument.widenOutside] := rfl
  obtain ⟨plain, joined, own, _, resolved, related⟩ := resolve_range_self arguments _ alone
  rw [resolve_primitive] at own
  cases arguments_token.symm.trans own
  cases related with
  | cons here rest =>
      cases rest
      have notApart : ¬ firstArgument.WidensApart := by
        rintro ⟨_, ⟨_, bare, _⟩ | ⟨point, _⟩⟩
        · cases bare
        · exact point rfl
      exact ⟨_, resolved, here.2.1.mpr notApart, rfl⟩

/-- The point before the row of the second letter, meant with its delimiters. -/
def beforeRow : Primitive := { tokenTarget 'b' with selectionType := .line, placement := .before }

/-- The second letter of `a, b, c` is widened over the comma after it, but as both ends of a range
it stays by itself.  The point before its row stays a point, but as both ends of a range it becomes
the whole row. -/
theorem letterTokens_range_self_apart :
    (∃ u j, letterTokens.resolve TypedSpan.widenOutside (.single (.primitive (tokenTarget 'b'))) =
        .ok [u] ∧
      letterTokens.resolve TypedSpan.widenOutside
        (.single (.range (tokenTarget 'b') (tokenTarget 'b'))) = .ok [j] ∧
      u.range = ⟨⟨0, 3⟩, ⟨0, 6⟩⟩ ∧ j.range = ⟨⟨0, 3⟩, ⟨0, 4⟩⟩ ∧ ¬ j.range.SameBounds u.range) ∧
    ∃ u j, letterTokens.resolve TypedSpan.widenOutside (.single (.primitive beforeRow)) = .ok [u] ∧
      letterTokens.resolve TypedSpan.widenOutside (.single (.range beforeRow beforeRow)) = .ok [j] ∧
      u.range = .point ⟨0, 0⟩ ∧ j.range = ⟨⟨0, 0⟩, ⟨0, 7⟩⟩ ∧ ¬ j.range.SameBounds u.range :=
  ⟨⟨_, _, rfl, rfl, rfl, rfl, fun same => absurd same.stop (by decide)⟩,
    _, _, rfl, rfl, rfl, rfl, fun same => absurd same.stop (by decide)⟩

/-- The text `a,` over `b`.  Its first letter is found by code, with the comma and the break after
it as the delimiter but without an outer range. -/
def commaAndBreak : Workspace CodeMatcher where
  documents := .ofList [⟨⟨1⟩, "text", ['a', ',', '\n', 'b']⟩]
  selections := [⟨⟨1⟩, .point ⟨0, 0⟩⟩]
  trees := .ofList [(⟨1⟩, .node ⟨"text", true, none, 0, 4⟩ [])]
  scopes := some (ScopeRegistry.empty.register "text" .list
    ⟨fun _ _ => some (some ⟨⟨⟨0, 0⟩, ⟨0, 1⟩⟩,
      .ofDelimiters [',', '\n'] none (some ⟨⟨0, 1⟩, ⟨1, 0⟩⟩)⟩)⟩)

/-- The row of the list around the selection, meant with its delimiters. -/
def listRow : Primitive where
  mark := .cursor
  modifier := .containingScope .list false
  selectionType := .line
  insideOutside := some .outside

-- The whole row does not cover the delimiter, so rows are widened apart as well.
example : ∃ u j, commaAndBreak.resolve TypedSpan.widenOutside (.single (.primitive listRow)) =
      .ok [u] ∧
    commaAndBreak.resolve TypedSpan.widenOutside (.single (.range listRow listRow)) = .ok [j] ∧
    u.range = ⟨⟨0, 0⟩, ⟨1, 0⟩⟩ ∧ j.range = ⟨⟨0, 0⟩, ⟨0, 2⟩⟩ :=
  ⟨_, _, rfl, rfl, rfl, rfl⟩

end Workspace

end TargetSpans
