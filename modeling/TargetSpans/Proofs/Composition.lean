import TargetSpans.Proofs.Stages

/-!
# Targets one by one

Several targets, and the elements of a list, are resolved as if each of them were the only one.
The adjuster comes last of all: whatever it does, it is given the spans that there are without it,
each of them once, and the ends of a range are joined before it sees anything.  It can therefore
change neither how many spans there are, nor which ends are joined, nor why a target is refused.
-/

namespace TargetSpans

open Answer

namespace Workspace

variable {M T : Type} [ScopeMatcher M] [SyntaxProvider T] (w : Workspace M T) (adjust : Adjuster)

/-- Resolving targets with an adjuster is resolving them without it and adjusting every span. -/
theorem resolveAll_eq_map (targets : List Target) :
    w.resolveAll adjust targets = List.map (List.map adjust) <$> w.resolveAll id targets := by
  calc
    w.resolveAll adjust targets
      = targets.mapM (fun target => List.map adjust <$> w.resolve id target) := by
        rw [resolveAll, funext (w.resolve_eq_map adjust)]
    _ = List.map (List.map adjust) <$> w.resolveAll id targets :=
        mapM_map_comp (w.resolve id) (List.map adjust) targets

theorem resolve_list (elements : List Element) :
    w.resolve adjust (.list elements) =
      List.flatten <$> elements.mapM (fun e => w.resolve adjust (.single e)) := by
  rw [resolve, bind_pure_comp]
  rfl

theorem resolve_list_eq_ok_iff (elements : List Element) (spans : List TypedSpan) :
    w.resolve adjust (.list elements) = .ok spans ↔
      ∃ groups,
        List.Forall₂ (fun e group => w.resolve adjust (.single e) = .ok group) elements groups ∧
          groups.flatten = spans := by
  rw [resolve_list, map_eq_ok_iff]
  simp only [mapM_eq_ok_iff]

/-- Every span of a target is one of an element of it, resolved on its own. -/
theorem exists_element_of_mem {target : Target} {spans : List TypedSpan} {t : TypedSpan}
    (resolved : w.resolve adjust target = .ok spans) (member : t ∈ spans) :
    ∃ e ∈ target.elements, ∃ group, w.resolve adjust (.single e) = .ok group ∧ t ∈ group := by
  cases target with
  | single e => exact ⟨e, List.mem_singleton_self e, spans, resolved, member⟩
  | list elements =>
      obtain ⟨groups, related, rfl⟩ := (w.resolve_list_eq_ok_iff adjust elements spans).mp resolved
      obtain ⟨group, groupMember, inGroup⟩ := List.mem_flatten.mp member
      obtain ⟨e, element, ofElement⟩ := exists_mem_of_forall₂ related groupMember
      exact ⟨e, element, group, ofElement, inGroup⟩

theorem resolve_list_eq_error_iff (elements : List Element) (failure : Failure) :
    w.resolve adjust (.list elements) = .error failure ↔
      FailsFirst (fun e => w.resolve adjust (.single e)) elements failure := by
  rw [resolve_list, map_eq_error_iff, mapM_eq_error_iff]

theorem resolve_primitive (p : Primitive) :
    w.resolve id (.single (.primitive p)) = w.resolvePrimitive p := by
  rw [resolve, resolveAdjusted_eq_map, List.map_id_fun, id_map]
  rfl

theorem resolve_primitive_eq_error_iff (p : Primitive) (failure : Failure) :
    w.resolve adjust (.single (.primitive p)) = .error failure ↔
      w.resolvePrimitive p = .error failure := by
  rw [resolve_eq_map, map_eq_error_iff, resolve_primitive]

theorem resolve_primitive_isOk_iff (p : Primitive) :
    (∃ spans, w.resolve adjust (.single (.primitive p)) = .ok spans) ↔
      ∃ spans, w.resolvePrimitive p = .ok spans := by
  simp only [resolve_eq_map w adjust, map_eq_ok_iff, resolve_primitive]
  constructor
  · rintro ⟨_, spans, equal, _⟩
    exact ⟨spans, equal⟩
  · rintro ⟨spans, equal⟩
    exact ⟨_, spans, equal, rfl⟩

/-- A range joins its ends as they are, and the adjuster sees what comes of it. -/
theorem resolve_range (start stop : Primitive) :
    w.resolve adjust (.single (.range start stop)) = (do
      let firsts ← w.resolvePrimitive start
      let seconds ← w.resolvePrimitive stop
      List.map adjust <$> TypedSpan.joinAll firsts seconds) := by
  rw [resolve, resolveAdjusted_eq_map, resolveElement]
  simp only [map_bind]

theorem resolve_range_eq_ok_iff (start stop : Primitive) (spans : List TypedSpan) :
    w.resolve adjust (.single (.range start stop)) = .ok spans ↔
      ∃ firsts seconds joined,
        w.resolve id (.single (.primitive start)) = .ok firsts ∧
          w.resolve id (.single (.primitive stop)) = .ok seconds ∧
            TypedSpan.joinAll firsts seconds = .ok joined ∧ joined.map adjust = spans := by
  simp only [resolve_range, bind_eq_ok_iff, map_eq_ok_iff, resolve_primitive]
  constructor
  · rintro ⟨firsts, first, seconds, second, joined, joins, adjusted⟩
    exact ⟨firsts, seconds, joined, first, second, joins, adjusted⟩
  · rintro ⟨firsts, seconds, joined, first, second, joins, adjusted⟩
    exact ⟨firsts, first, seconds, second, joined, joins, adjusted⟩

/-- A range fails as its first end does that fails on its own, or else as the joining does. -/
theorem resolve_range_eq_error_iff (start stop : Primitive) (failure : Failure) :
    w.resolve adjust (.single (.range start stop)) = .error failure ↔
      FailsFirst (fun p => w.resolve adjust (.single (.primitive p))) [start, stop] failure ∨
        ∃ firsts seconds,
          w.resolve id (.single (.primitive start)) = .ok firsts ∧
            w.resolve id (.single (.primitive stop)) = .ok seconds ∧
              TypedSpan.joinAll firsts seconds = .error failure := by
  simp only [resolve_range, bind_eq_error_iff, map_eq_error_iff, failsFirst_pair_iff,
    resolve_primitive_eq_error_iff, resolve_primitive_isOk_iff, resolve_primitive]
  constructor
  · rintro (first | ⟨firsts, first, second | ⟨seconds, second, joins⟩⟩)
    · exact Or.inl (Or.inl first)
    · exact Or.inl (Or.inr ⟨⟨firsts, first⟩, second⟩)
    · exact Or.inr ⟨firsts, seconds, first, second, joins⟩
  · rintro ((first | ⟨⟨firsts, first⟩, second⟩) | ⟨firsts, seconds, first, second, joins⟩)
    · exact Or.inl first
    · exact Or.inr ⟨firsts, first, Or.inl second⟩
    · exact Or.inr ⟨firsts, first, Or.inr ⟨seconds, second, joins⟩⟩

/-- Targets are resolved one by one, and the elements of a list as targets of their own: there are
spans exactly when there are spans for each, and otherwise the first one that fails on its own,
the start of a range before its stop, says why.  The adjuster is applied at the very end, once to
each span, and a range joins its ends without it. -/
theorem resolveAll_one_by_one (targets : List Target) :
    w.resolveAll adjust targets = List.map (List.map adjust) <$> w.resolveAll id targets ∧
      (∀ groups, w.resolveAll adjust targets = .ok groups ↔
        List.Forall₂ (fun target group => w.resolve adjust target = .ok group) targets groups) ∧
      (∀ failure, w.resolveAll adjust targets = .error failure ↔
        FailsFirst (w.resolve adjust) targets failure) ∧
      (∀ elements spans, w.resolve adjust (.list elements) = .ok spans ↔
        ∃ groups,
          List.Forall₂ (fun e group => w.resolve adjust (.single e) = .ok group)
            elements groups ∧
          groups.flatten = spans) ∧
      (∀ elements failure, w.resolve adjust (.list elements) = .error failure ↔
        FailsFirst (fun e => w.resolve adjust (.single e)) elements failure) ∧
      (∀ start stop spans, w.resolve adjust (.single (.range start stop)) = .ok spans ↔
        ∃ firsts seconds joined,
          w.resolve id (.single (.primitive start)) = .ok firsts ∧
            w.resolve id (.single (.primitive stop)) = .ok seconds ∧
              TypedSpan.joinAll firsts seconds = .ok joined ∧ joined.map adjust = spans) ∧
      ∀ start stop failure, w.resolve adjust (.single (.range start stop)) = .error failure ↔
        FailsFirst (fun p => w.resolve adjust (.single (.primitive p))) [start, stop] failure ∨
          ∃ firsts seconds,
            w.resolve id (.single (.primitive start)) = .ok firsts ∧
              w.resolve id (.single (.primitive stop)) = .ok seconds ∧
                TypedSpan.joinAll firsts seconds = .error failure :=
  ⟨w.resolveAll_eq_map adjust targets, fun _ => mapM_eq_ok_iff, fun _ => mapM_eq_error_iff,
    w.resolve_list_eq_ok_iff adjust, w.resolve_list_eq_error_iff adjust,
    w.resolve_range_eq_ok_iff adjust, w.resolve_range_eq_error_iff adjust⟩

end Workspace

end TargetSpans
