import TargetSpans.Proofs.Composition
import TargetSpans.Proofs.Joining

/-!
# Ranges from either end

It makes no difference to the stretch of a range which of its ends is named first: it takes up the
same text with the same delimiters and can be widened to the same text, and only its direction tells
the ends apart.  Ends that start at the same place are the exception, for then neither of them is
the upper one and each range stops where its own second end does.
-/

namespace TargetSpans

open Answer

namespace TypedSpan

/-- Two typed spans take up the same text and know the same of what is around it, whichever way they
run. -/
structure SameExtent (t u : TypedSpan) : Prop where
  doc : t.doc = u.doc
  start : t.range.start = u.range.start
  stop : t.range.stop = u.range.stop
  leading : t.context.leading = u.context.leading
  trailing : t.context.trailing = u.context.trailing
  outer : t.context.outer = u.context.outer

variable {t u upper lower first second : TypedSpan}

namespace SameExtent

theorem withRange (same : t.SameExtent u) {r s : Range} (start : r.start = s.start)
    (stop : r.stop = s.stop) : (t.withRange r).SameExtent (u.withRange s) :=
  ⟨same.doc, start, stop, same.leading, same.trailing, same.outer⟩

theorem nearest? (same : t.SameExtent u) : t.context.nearest? = u.context.nearest? := by
  rw [DelimiterContext.nearest?, DelimiterContext.nearest?, same.leading, same.trailing]

/-- Widening looks at nothing but the extent, apart from what decides whether to widen. -/
theorem widenOutside (same : t.SameExtent u) (side : t.insideOutside = u.insideOutside)
    (place : t.placement = u.placement) : t.widenOutside.SameExtent u.widenOutside := by
  unfold TypedSpan.widenOutside widened?
  rw [side, place, same.outer, same.nearest?]
  split
  case isFalse => exact same
  case isTrue =>
    cases u.context.outer with
    | some outer =>
        apply same.withRange
        · rw [Range.start_toward, Range.start_toward]
        · rw [Range.stop_toward, Range.stop_toward]
    | none =>
        cases u.context.nearest? with
        | none => exact same
        | some nearest =>
            apply same.withRange
            · rw [Range.start_toward, Range.start_toward, Range.start_union, Range.start_union,
                same.start]
            · rw [Range.stop_toward, Range.stop_toward, Range.stop_union, Range.stop_union,
                same.stop]

end SameExtent

theorem Stretches.sameExtent (one : t.Stretches upper lower) (other : u.Stretches upper lower) :
    t.SameExtent u where
  doc := one.doc_upper.trans other.doc_upper.symm
  start := one.start.trans other.start.symm
  stop := one.stop.trans other.stop.symm
  leading := one.leading.trans other.leading.symm
  trailing := one.trailing.trans other.trailing.symm
  outer := one.outer.trans other.outer.symm

theorem isReversed_of_join (joined : first.join second = .ok t) :
    t.range.isReversed = true ↔ second.range.start < first.range.start := by
  rw [Range.isReversed_iff]
  rcases le_or_gt first.range.start second.range.start with le | lt
  · have ordered := le_trans le second.range.start_le_stop
    rw [(stretches_of_join_of_le joined le).2]
    exact iff_of_false (not_lt_of_ge ordered) (not_lt_of_ge le)
  · have ordered := lt_of_lt_of_le lt first.range.start_le_stop
    rw [(stretches_of_join_of_lt joined lt).2]
    exact iff_of_true ordered lt

/-- Joined in the other order, two spans that start apart give the same stretch the other way. -/
theorem join_swap (joined : first.join second = .ok t) (swapped : second.join first = .ok u)
    (apart : first.range.start ≠ second.range.start) :
    t.SameExtent u ∧ u.range = t.range.flip := by
  rcases lt_or_gt_of_ne apart with lt | lt
  · obtain ⟨stretch, range⟩ := stretches_of_join_of_le joined (le_of_lt lt)
    obtain ⟨stretch', range'⟩ := stretches_of_join_of_lt swapped lt
    exact ⟨stretch.sameExtent stretch', by rw [range, range', Range.flip]⟩
  · obtain ⟨stretch, range⟩ := stretches_of_join_of_lt joined lt
    obtain ⟨stretch', range'⟩ := stretches_of_join_of_le swapped (le_of_lt lt)
    exact ⟨stretch.sameExtent stretch', by rw [range, range', Range.flip]⟩

/-! ## Pairs -/

variable {firsts seconds spans : List TypedSpan}

/-- Spans can be joined in pairs exactly if both lists name the same documents. -/
theorem exists_joinAll_iff :
    (∃ spans, joinAll firsts seconds = .ok spans) ↔
      firsts.map TypedSpan.doc = seconds.map TypedSpan.doc := by
  have pairs : (∃ spans, joinAll firsts seconds = .ok spans) ↔
      List.Forall₂ (fun first second => first.doc = second.doc) firsts seconds := by
    simp only [joinAll_eq_ok_iff, exists_and_left, exists_mapM_eq_ok_iff, List.forall₂_iff_zip,
      Prod.forall]
    refine and_congr_right fun _ => forall₂_congr fun first second => imp_congr_right fun _ => ?_
    exact ⟨fun ⟨_, joined⟩ => doc_eq_of_join joined, exists_join⟩
  rw [pairs, ← List.forall₂_eq_eq_eq, List.forall₂_map_left_iff, List.forall₂_map_right_iff]

theorem length_of_joinAll (joined : joinAll firsts seconds = .ok spans) :
    firsts.length = spans.length ∧ seconds.length = spans.length := by
  obtain ⟨same, each⟩ := joinAll_eq_ok_iff.mp joined
  have length := (mapM_eq_ok_iff.mp each).length_eq
  rw [List.length_zip, same, min_self] at length
  exact ⟨same.trans length, length⟩

theorem join_of_joinAll (joined : joinAll firsts seconds = .ok spans) {i : Nat}
    (inFirsts : firsts[i]? = some first) (inSeconds : seconds[i]? = some second)
    (inSpans : spans[i]? = some t) : first.join second = .ok t := by
  have related := mapM_eq_ok_iff.mp (joinAll_eq_ok_iff.mp joined).2
  have inPairs : (firsts.zip seconds)[i]? = some (first, second) := by
    rw [List.getElem?_zip_eq_some]
    exact ⟨inFirsts, inSeconds⟩
  obtain ⟨short, isPair⟩ := List.getElem?_eq_some_iff.mp inPairs
  obtain ⟨short', isSpan⟩ := List.getElem?_eq_some_iff.mp inSpans
  have here := related.get short short'
  rw [List.get_eq_getElem, List.get_eq_getElem, isPair, isSpan] at here
  exact here

end TypedSpan

namespace Workspace

variable {M T : Type} [ScopeMatcher M] [SyntaxProvider T]

theorem resolve_range_isOk_iff (w : Workspace M T) (adjust : Adjuster) (a b : Primitive) :
    (∃ spans, w.resolve adjust (.single (.range a b)) = .ok spans) ↔
      ∃ firsts seconds, w.resolvePrimitive a = .ok firsts ∧ w.resolvePrimitive b = .ok seconds ∧
        firsts.map TypedSpan.doc = seconds.map TypedSpan.doc := by
  simp only [resolve_range, bind_eq_ok_iff, map_eq_ok_iff, ← TypedSpan.exists_joinAll_iff]
  constructor
  · rintro ⟨_, firsts, first, seconds, second, joined, joins, _⟩
    exact ⟨firsts, seconds, first, second, joined, joins⟩
  · rintro ⟨firsts, seconds, first, second, joined, joins⟩
    exact ⟨_, firsts, first, seconds, second, joined, joins, rfl⟩

theorem resolve_range_isOk_comm (w : Workspace M T) (adjust : Adjuster) (a b : Primitive) :
    (∃ spans, w.resolve adjust (.single (.range a b)) = .ok spans) ↔
      ∃ spans, w.resolve adjust (.single (.range b a)) = .ok spans := by
  rw [resolve_range_isOk_iff, resolve_range_isOk_iff]
  constructor
  · rintro ⟨firsts, seconds, first, second, same⟩
    exact ⟨seconds, firsts, second, first, same.symm⟩
  · rintro ⟨firsts, seconds, first, second, same⟩
    exact ⟨seconds, firsts, second, first, same.symm⟩

/-- Exchanging the ends of a range whose ends take in their delimiters alike changes neither whether
it resolves nor to how many spans.  Where two ends start apart, it changes the direction of their
stretch and nothing else about its extent, with or without widening; the stretch runs backward
exactly if its second end starts first. -/
theorem resolve_range_symmetric (w : Workspace M T) {a b : Primitive}
    (alike : a.insideOutside = b.insideOutside) :
    (∀ adjust, (∃ spans, w.resolve adjust (.single (.range a b)) = .ok spans) ↔
      ∃ spans, w.resolve adjust (.single (.range b a)) = .ok spans) ∧
    ∀ ts, w.resolve id (.single (.range a b)) = .ok ts →
      ∃ firsts seconds us : List TypedSpan,
        w.resolve id (.single (.primitive a)) = .ok firsts ∧
        w.resolve id (.single (.primitive b)) = .ok seconds ∧
        (∀ adjust, w.resolve adjust (.single (.range a b)) = .ok (ts.map adjust) ∧
          w.resolve adjust (.single (.range b a)) = .ok (us.map adjust)) ∧
        firsts.length = ts.length ∧ seconds.length = ts.length ∧ us.length = ts.length ∧
        ∀ (i : Nat) (first second t u : TypedSpan), firsts[i]? = some first →
          seconds[i]? = some second → ts[i]? = some t → us[i]? = some u →
          first.range.start ≠ second.range.start →
            t.SameExtent u ∧ t.widenOutside.SameExtent u.widenOutside ∧
            u.range = t.range.flip ∧
            (t.range.isReversed = true ↔ second.range.start < first.range.start) ∧
            (u.range.isReversed = true ↔ first.range.start < second.range.start) := by
  refine ⟨fun adjust => w.resolve_range_isOk_comm adjust a b, fun ts resolved => ?_⟩
  obtain ⟨firsts, seconds, joined, starts, stops, joins, unchanged⟩ :=
    (w.resolve_range_eq_ok_iff id a b ts).mp resolved
  rw [List.map_id] at unchanged
  subst unchanged
  have sameDocs := TypedSpan.exists_joinAll_iff.mp ⟨joined, joins⟩
  obtain ⟨us, swaps⟩ := TypedSpan.exists_joinAll_iff.mpr sameDocs.symm
  obtain ⟨firstsLength, secondsLength⟩ := TypedSpan.length_of_joinAll joins
  have usLength : us.length = joined.length :=
    (TypedSpan.length_of_joinAll swaps).2.symm.trans firstsLength
  refine ⟨firsts, seconds, us, starts, stops, fun adjust => ⟨?_, ?_⟩, firstsLength, secondsLength,
    usLength, ?_⟩
  · exact (w.resolve_range_eq_ok_iff adjust a b _).mpr
      ⟨firsts, seconds, joined, starts, stops, joins, rfl⟩
  · exact (w.resolve_range_eq_ok_iff adjust b a _).mpr
      ⟨seconds, firsts, us, stops, starts, swaps, rfl⟩
  · intro i first second t u inFirsts inSeconds inJoined inUs apart
    have forth := TypedSpan.join_of_joinAll joins inFirsts inSeconds inJoined
    have back := TypedSpan.join_of_joinAll swaps inSeconds inFirsts inUs
    obtain ⟨extent, flipped⟩ := TypedSpan.join_swap forth back apart
    rw [resolve_primitive] at starts stops
    -- Each stretch takes its side from its own first end, hence the need for ends that are alike.
    have side : t.insideOutside = u.insideOutside := by
      calc t.insideOutside
        _ = first.insideOutside := TypedSpan.insideOutside_of_join forth
        _ = a.insideOutside :=
          (tags_of_resolvePrimitive starts first (List.mem_of_getElem? inFirsts)).2.2
        _ = b.insideOutside := alike
        _ = second.insideOutside :=
          (tags_of_resolvePrimitive stops second (List.mem_of_getElem? inSeconds)).2.2.symm
        _ = u.insideOutside := (TypedSpan.insideOutside_of_join back).symm
    have place : t.placement = u.placement :=
      (TypedSpan.placement_of_join forth).trans (TypedSpan.placement_of_join back).symm
    exact ⟨extent, extent.widenOutside side place, flipped, TypedSpan.isReversed_of_join forth,
      TypedSpan.isReversed_of_join back⟩

/-- The text `a, b, c` with a symbol above each letter. -/
def letterTokens : Workspace where
  documents := .ofList [⟨⟨1⟩, "list", ['a', ',', ' ', 'b', ',', ' ', 'c']⟩]
  tokens := .ofList [(("blue", 'a'), ⟨⟨1⟩, ⟨⟨0, 0⟩, ⟨0, 1⟩⟩⟩),
    (("blue", 'b'), ⟨⟨1⟩, ⟨⟨0, 3⟩, ⟨0, 4⟩⟩⟩), (("blue", 'c'), ⟨⟨1⟩, ⟨⟨0, 6⟩, ⟨0, 7⟩⟩⟩)]
  trees := .empty

/-- The token under a symbol, with its delimiters. -/
def tokenTarget (letter : Char) : Primitive where
  mark := .decoratedSymbol "blue" letter
  selectionType := .token
  insideOutside := some .outside

theorem letterTokens_range_symmetric :
    ∃ t u, letterTokens.resolve id (.single (.range (tokenTarget 'a') (tokenTarget 'b'))) =
        .ok [t] ∧
      letterTokens.resolve id (.single (.range (tokenTarget 'b') (tokenTarget 'a'))) = .ok [u] ∧
      t.range = ⟨⟨0, 0⟩, ⟨0, 4⟩⟩ ∧ t.context.trailing = some ⟨⟨0, 4⟩, ⟨0, 6⟩⟩ ∧
      t.SameExtent u ∧ u.range = t.range.flip ∧ u.range.isReversed = true := by
  obtain ⟨t, resolved, range, trailing⟩ : ∃ t,
      letterTokens.resolve id (.single (.range (tokenTarget 'a') (tokenTarget 'b'))) = .ok [t] ∧
        t.range = ⟨⟨0, 0⟩, ⟨0, 4⟩⟩ ∧ t.context.trailing = some ⟨⟨0, 4⟩, ⟨0, 6⟩⟩ :=
    ⟨_, rfl, rfl, rfl⟩
  have alike : (tokenTarget 'a').insideOutside = (tokenTarget 'b').insideOutside := rfl
  obtain ⟨firsts, seconds, us, starts, stops, adjusted, _, _, length, pairs⟩ :=
    (resolve_range_symmetric letterTokens alike).2 [t] resolved
  obtain ⟨u, rfl⟩ := List.length_eq_one_iff.mp length
  cases starts
  cases stops
  obtain ⟨extent, _, flipped, _, reversed⟩ := pairs 0 _ _ t u rfl rfl rfl rfl (by decide)
  exact ⟨t, u, resolved, (adjusted id).2, range, trailing, extent, flipped,
    reversed.mpr (by decide)⟩

end Workspace

end TargetSpans
