import TargetSpans.Proofs.Answer
import TargetSpans.Proofs.RangeBounds
import TargetSpans.Selection.Join

/-!
# Joined spans

Two typed spans of one document are joined by their order in the text: the stretch starts where the
upper one starts, stops where the lower one stops, and on each side has the delimiter and the outer
bound of the span there.  Which of them is the first decides nothing but the direction.
-/

namespace TargetSpans

open Answer

namespace TypedSpan

/-- A typed span stretches from an upper to a lower one, with what delimits either of them on its
own side. -/
structure Stretches (t upper lower : TypedSpan) : Prop where
  doc_upper : t.doc = upper.doc
  doc_lower : t.doc = lower.doc
  ordered : upper.range.start ≤ lower.range.start
  start : t.range.start = upper.range.start
  stop : t.range.stop = lower.range.stop
  leading : t.context.leading = upper.context.leading
  trailing : t.context.trailing = lower.context.trailing
  outer : t.context.outer = some ⟨upper.outerOrRange.start, lower.outerOrRange.stop⟩

variable {first second t : TypedSpan}

theorem doc_eq_of_join (joined : first.join second = .ok t) : first.doc = second.doc := by
  unfold join at joined
  split at joined
  case isTrue same => exact same
  case isFalse => cases joined

theorem exists_join (same : first.doc = second.doc) : ∃ t, first.join second = .ok t :=
  ⟨_, if_pos same⟩

theorem doc_of_join (joined : first.join second = .ok t) : t.doc = first.doc := by
  rw [join, if_pos (doc_eq_of_join joined)] at joined
  cases joined
  rfl

theorem insideOutside_of_join (joined : first.join second = .ok t) :
    t.insideOutside = first.insideOutside := by
  rw [join, if_pos (doc_eq_of_join joined)] at joined
  cases joined
  rfl

theorem placement_of_join (joined : first.join second = .ok t) : t.placement = .contents := by
  rw [join, if_pos (doc_eq_of_join joined)] at joined
  cases joined
  rfl

theorem stretches_of_join_of_le (joined : first.join second = .ok t)
    (le : first.range.start ≤ second.range.start) :
    t.Stretches first second ∧ t.range = ⟨first.range.start, second.range.stop⟩ := by
  have same := doc_eq_of_join joined
  have forward : first.runsForwardTo second = true := decide_eq_true le
  have ordered := le_trans le second.range.start_le_stop
  simp only [join, if_pos same, forward, if_true, Except.ok.injEq] at joined
  subst joined
  refine ⟨⟨rfl, same, le, ?_, ?_, rfl, rfl, rfl⟩, rfl⟩
  · exact Range.start_mk_of_le ordered
  · exact Range.stop_mk_of_le ordered

theorem stretches_of_join_of_lt (joined : first.join second = .ok t)
    (lt : second.range.start < first.range.start) :
    t.Stretches second first ∧ t.range = ⟨first.range.stop, second.range.start⟩ := by
  have same := doc_eq_of_join joined
  have backward : first.runsForwardTo second = false := decide_eq_false (not_le_of_gt lt)
  have ordered := le_trans (le_of_lt lt) first.range.start_le_stop
  simp only [join, if_pos same, backward, Bool.false_eq_true, if_false,
    Except.ok.injEq] at joined
  subst joined
  refine ⟨⟨same, rfl, le_of_lt lt, ?_, ?_, rfl, rfl, rfl⟩, rfl⟩
  · exact Range.start_mk_of_ge ordered
  · exact Range.stop_mk_of_ge ordered

theorem exists_stretches_of_join (joined : first.join second = .ok t) :
    ∃ upper lower, (upper = first ∧ lower = second ∨ upper = second ∧ lower = first) ∧
      t.Stretches upper lower := by
  rcases le_or_gt first.range.start second.range.start with le | lt
  · exact ⟨first, second, Or.inl ⟨rfl, rfl⟩, (stretches_of_join_of_le joined le).1⟩
  · exact ⟨second, first, Or.inr ⟨rfl, rfl⟩, (stretches_of_join_of_lt joined lt).1⟩

/-! ## Pairs -/

theorem joinAll_eq_ok_iff {firsts seconds spans : List TypedSpan} :
    joinAll firsts seconds = .ok spans ↔
      firsts.length = seconds.length ∧
        (firsts.zip seconds).mapM (fun pair => pair.1.join pair.2) = .ok spans := by
  unfold joinAll
  split
  case isTrue same => simp [same]
  case isFalse differ => simp [differ, refuse]

theorem joinAll_of_length_ne {firsts seconds : List TypedSpan}
    (differ : firsts.length ≠ seconds.length) :
    joinAll firsts seconds = refuse (.lengthMismatch firsts.length seconds.length) :=
  if_neg differ

/-- Pairs are joined within both parts of two lists if the cuts lie at the same place. -/
theorem joinAll_append_iff {firsts firsts' seconds seconds' spans : List TypedSpan} :
    joinAll (firsts ++ firsts') (seconds ++ seconds') = .ok spans ∧
        firsts.length = seconds.length ↔
      ∃ a b, joinAll firsts seconds = .ok a ∧ joinAll firsts' seconds' = .ok b ∧
        a ++ b = spans := by
  simp only [joinAll_eq_ok_iff, List.length_append]
  constructor
  · rintro ⟨⟨total, joined⟩, same⟩
    rw [List.zip_append same, mapM_append_eq_ok_iff] at joined
    obtain ⟨a, b, left, right, append⟩ := joined
    exact ⟨a, b, ⟨same, left⟩, ⟨by omega, right⟩, append⟩
  · rintro ⟨a, b, ⟨same, left⟩, ⟨same', right⟩, append⟩
    refine ⟨⟨by omega, ?_⟩, same⟩
    rw [List.zip_append same, mapM_append_eq_ok_iff]
    exact ⟨a, b, left, right, append⟩

end TypedSpan

end TargetSpans
