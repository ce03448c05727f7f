import TargetSpans.Proofs.Composition

/-!
# Reserved features

A reserved mark is refused whatever the workspace is.  A reserved modifier or selection type is
refused at the first span that it is applied to, and a mark need not have any: the spans of the
previous action may be none.  Then the target resolves to nothing, as it would without the feature.
-/

namespace TargetSpans

open Answer

/-- A primitive target asks for something that is reserved. -/
def Primitive.IsReserved (p : Primitive) : Prop :=
  p.mark = .lastCursorPosition ∨ p.modifier = .matchingPairSymbol ∨
    p.modifier = .surroundingPair ∨ p.selectionType = .character

instance (p : Primitive) : Decidable p.IsReserved := by
  unfold Primitive.IsReserved
  infer_instance

def Modifier.withoutReserved : Modifier → Modifier
  | .matchingPairSymbol | .surroundingPair => .identity
  | m => m

def SelectionType.withoutReserved : SelectionType → SelectionType
  | .character => .token
  | t => t

/-- A primitive target that takes the spans of the same mark as they are where it would ask for a
reserved modifier or selection type. -/
def Primitive.withoutReserved (p : Primitive) : Primitive :=
  { p with
    modifier := p.modifier.withoutReserved
    selectionType := p.selectionType.withoutReserved }

def Element.withoutReserved : Element → Element
  | .primitive p => .primitive p.withoutReserved
  | .range start stop => .range start.withoutReserved stop.withoutReserved

def Target.withoutReserved : Target → Target
  | .single e => .single e.withoutReserved
  | .list elements => .list (elements.map Element.withoutReserved)

theorem Primitive.withoutReserved_of_not_isReserved {p : Primitive} (available : ¬ p.IsReserved) :
    p.withoutReserved = p := by
  obtain ⟨mark, modifier, selectionType, insideOutside, placement⟩ := p
  simp only [IsReserved, not_or] at available
  obtain ⟨_, noMatchingPair, noSurroundingPair, noCharacter⟩ := available
  have sameModifier : modifier.withoutReserved = modifier := by
    cases modifier with
    | matchingPairSymbol => exact absurd rfl noMatchingPair
    | surroundingPair => exact absurd rfl noSurroundingPair
    | identity | containingScope | subpiece => rfl
  have sameType : selectionType.withoutReserved = selectionType := by
    cases selectionType with
    | character => exact absurd rfl noCharacter
    | token | line | document | paragraph => rfl
  simp only [withoutReserved, sameModifier, sameType]

/-! ## Modifiers mean at least one part -/

namespace ScopeMatcher

variable {M : Type} [ScopeMatcher M] {m : M} {d : Document} {nodes : List Node} {n : Node}
  {found : ScopeMatch}

theorem find_of_findFirst (first : findFirst m d nodes = .ok (some (n, found))) :
    n ∈ nodes ∧ find m d n = .ok (some found) := by
  induction nodes with
  | nil => cases first
  | cons head rest ih =>
      obtain ⟨result, here, first⟩ := bind_eq_ok_iff.mp first
      cases result with
      | some found =>
          cases first
          exact ⟨List.mem_cons_self, here⟩
      | none =>
          obtain ⟨member, there⟩ := ih first
          exact ⟨List.mem_cons_of_mem head member, there⟩

theorem mem_of_findAll {scopes : List ScopeMatch} (all : findAll m d nodes = .ok scopes)
    (member : n ∈ nodes) (here : find m d n = .ok (some found)) : found ∈ scopes := by
  obtain ⟨results, each, equal⟩ := bind_eq_ok_iff.mp all
  cases equal
  obtain ⟨result, inResults, there⟩ := exists_mem_of_forall₂ (mapM_eq_ok_iff.mp each).flip member
  cases here.symm.trans there
  exact List.mem_filterMap.mpr ⟨some found, inResults, rfl⟩

end ScopeMatcher

namespace Workspace

section

variable {M T : Type} [ScopeMatcher M] [SyntaxProvider T] {w : Workspace M T} {d : Document}
  {s : Span} {p : Primitive}

/-- A scope is one of its own siblings, so asking for siblings never gives nothing. -/
theorem scopesAround_ne_nil {r : Range} {kind : ScopeKind} {includeSiblings : Bool}
    {scopes : List ScopeMatch} (around : w.scopesAround d r kind includeSiblings = .ok scopes) :
    scopes ≠ [] := by
  obtain ⟨m, _, around⟩ := bind_eq_ok_iff.mp around
  split at around
  case h_1 => cases around
  case h_2 start smallest =>
    obtain ⟨t, smallestWithin⟩ := SyntaxProvider.exists_within smallest
    obtain ⟨result, first, around⟩ := bind_eq_ok_iff.mp around
    cases result with
    | none => cases around
    | some found =>
        obtain ⟨n, scope⟩ := found
        obtain ⟨member, here⟩ := ScopeMatcher.find_of_findFirst first
        simp only at around
        split at around
        case h_1 =>
          cases around
          exact List.cons_ne_nil scope []
        case h_2 parent above =>
          split at around
          case isTrue =>
            have within := smallestWithin.selfAndParents n member
            have sibling := within.mem_children_of_parent? above
            exact List.ne_nil_of_mem (ScopeMatcher.mem_of_findAll around sibling here)
          case isFalse =>
            cases around
            exact List.cons_ne_nil scope []

theorem parts_ne_nil {m : Modifier} {parts : List Part} (meant : w.parts m d s = .ok parts) :
    parts ≠ [] := by
  cases m with
  | identity =>
      cases meant
      exact List.cons_ne_nil _ _
  | containingScope kind includeSiblings =>
      obtain ⟨scopes, around, equal⟩ := bind_eq_ok_iff.mp meant
      cases equal
      exact mt List.map_eq_nil_iff.mp (scopesAround_ne_nil around)
  | subpiece kind anchor active =>
      obtain ⟨range, _, equal⟩ := bind_eq_ok_iff.mp meant
      cases equal
      exact List.cons_ne_nil _ _
  | matchingPairSymbol => cases meant
  | surroundingPair => cases meant

/-! ## Reserved targets -/

/-- No span of a mark survives a reserved modifier or selection type. -/
theorem resolveSpan_ne_ok (reserved : p.modifier = .matchingPairSymbol ∨
      p.modifier = .surroundingPair ∨ p.selectionType = .character) (spans : List TypedSpan) :
    w.resolveSpan p s ≠ .ok spans := by
  intro resolved
  obtain ⟨d, _, resolved⟩ := bind_eq_ok_iff.mp resolved
  split at resolved
  case h_1 => cases resolved
  case h_2 =>
    obtain ⟨parts, meant, resolved⟩ := bind_eq_ok_iff.mp resolved
    rcases reserved with pair | pair | character
    · rw [pair] at meant
      cases meant
    · rw [pair] at meant
      cases meant
    · obtain ⟨part, rest, rfl⟩ := List.exists_cons_of_ne_nil (parts_ne_nil meant)
      obtain ⟨typed, placed⟩ :=
        exists_mapM_eq_ok_iff.mp ⟨spans, resolved⟩ part List.mem_cons_self
      rw [character] at placed
      cases placed

theorem resolvePrimitive_of_marked_nil (empty : w.marked p.mark = .ok []) :
    w.resolvePrimitive p = .ok [] := by
  rw [resolvePrimitive, empty]
  rfl

theorem marked_eq_nil_of_isReserved (reserved : p.IsReserved) {spans : List TypedSpan}
    (resolved : w.resolvePrimitive p = .ok spans) : w.marked p.mark = .ok [] := by
  obtain ⟨marked, mark, found⟩ := bind_eq_ok_iff.mp resolved
  cases marked with
  | nil => exact mark
  | cons s rest =>
      obtain ⟨groups, each, _⟩ := bind_eq_ok_iff.mp found
      obtain ⟨group, first⟩ := exists_mapM_eq_ok_iff.mp ⟨groups, each⟩ s List.mem_cons_self
      rcases reserved with position | feature
      · rw [position] at mark
        cases mark
      · exact absurd first (resolveSpan_ne_ok feature group)

/-- A primitive target may ask for a reserved feature only where its mark has no spans. -/
theorem resolvePrimitive_eq_ok_iff_withoutReserved {spans : List TypedSpan} :
    w.resolvePrimitive p = .ok spans ↔
      (p.IsReserved → w.marked p.mark = .ok []) ∧
        w.resolvePrimitive p.withoutReserved = .ok spans := by
  by_cases reserved : p.IsReserved
  · -- Without the feature the mark is the same, so that both targets have no spans if it has none.
    have both : w.marked p.mark = .ok [] →
        w.resolvePrimitive p = .ok [] ∧ w.resolvePrimitive p.withoutReserved = .ok [] :=
      fun empty => ⟨resolvePrimitive_of_marked_nil empty, resolvePrimitive_of_marked_nil empty⟩
    constructor
    · intro resolved
      have empty := marked_eq_nil_of_isReserved reserved resolved
      cases resolved.symm.trans (both empty).1
      exact ⟨fun _ => empty, (both empty).2⟩
    · rintro ⟨empty, resolved⟩
      cases resolved.symm.trans (both (empty reserved)).2
      exact (both (empty reserved)).1
  · simp [Primitive.withoutReserved_of_not_isReserved reserved, reserved]

theorem resolveElement_eq_ok_iff_withoutReserved {e : Element} {spans : List TypedSpan} :
    w.resolveElement e = .ok spans ↔
      (∀ p ∈ e.primitives, p.IsReserved → w.marked p.mark = .ok []) ∧
        w.resolveElement e.withoutReserved = .ok spans := by
  cases e with
  | primitive p =>
      simp only [Element.primitives, List.forall_mem_singleton]
      exact resolvePrimitive_eq_ok_iff_withoutReserved
  | range start stop =>
      simp only [Element.primitives, Element.withoutReserved, resolveElement, bind_eq_ok_iff,
        List.forall_mem_cons, List.not_mem_nil, false_imp_iff, implies_true, and_true]
      constructor
      · rintro ⟨firsts, first, seconds, second, joined⟩
        obtain ⟨startEmpty, first⟩ := resolvePrimitive_eq_ok_iff_withoutReserved.mp first
        obtain ⟨stopEmpty, second⟩ := resolvePrimitive_eq_ok_iff_withoutReserved.mp second
        exact ⟨⟨startEmpty, stopEmpty⟩, firsts, first, seconds, second, joined⟩
      · rintro ⟨⟨startEmpty, stopEmpty⟩, firsts, first, seconds, second, joined⟩
        exact ⟨firsts, resolvePrimitive_eq_ok_iff_withoutReserved.mpr ⟨startEmpty, first⟩,
          seconds, resolvePrimitive_eq_ok_iff_withoutReserved.mpr ⟨stopEmpty, second⟩, joined⟩

theorem resolve_single_eq_ok_iff_withoutReserved {adjust : Adjuster} {e : Element}
    {spans : List TypedSpan} :
    w.resolve adjust (.single e) = .ok spans ↔
      (∀ p ∈ e.primitives, p.IsReserved → w.marked p.mark = .ok []) ∧
        w.resolve adjust (.single e.withoutReserved) = .ok spans := by
  simp only [resolve_single_eq_ok_iff, resolveElement_eq_ok_iff_withoutReserved (e := e), and_assoc,
    exists_and_left]

theorem resolve_eq_ok_iff_withoutReserved {adjust : Adjuster} {target : Target}
    {spans : List TypedSpan} :
    w.resolve adjust target = .ok spans ↔
      (∀ p ∈ target.primitives, p.IsReserved → w.marked p.mark = .ok []) ∧
        w.resolve adjust target.withoutReserved = .ok spans := by
  simp only [Target.primitives, List.forall_mem_flatMap]
  cases target with
  | single e =>
      simp only [Target.elements, List.forall_mem_singleton]
      exact resolve_single_eq_ok_iff_withoutReserved
  | list elements =>
      simp only [Target.elements, Target.withoutReserved, resolve_list_eq_ok_iff,
        List.forall₂_map_left_iff]
      constructor
      · rintro ⟨groups, related, rfl⟩
        have each := related.imp fun _ _ => resolve_single_eq_ok_iff_withoutReserved.mp
        obtain ⟨empty, without⟩ := (List.forall₂_and_left _ _).mp each
        exact ⟨empty, groups, without, rfl⟩
      · rintro ⟨empty, groups, without, rfl⟩
        have each := (List.forall₂_and_left _ _).mpr ⟨empty, without⟩
        exact ⟨groups, each.imp fun _ _ => resolve_single_eq_ok_iff_withoutReserved.mpr, rfl⟩

end

/-- A target resolves exactly if no mark under a reserved feature has spans and the target resolves
without these features, and then to the same spans, whatever the matchers and the provider of syntax
trees are.  So a reserved feature with a span to apply it to never goes through, anywhere in a
target, and one without is never noticed.  Where the matchers are described by kinds of nodes, such
a target is refused. -/
theorem resolve_ok_iff_withoutReserved (adjust : Adjuster) (target : Target) :
    (∀ (M T : Type) [ScopeMatcher M] [SyntaxProvider T] (w : Workspace M T)
      (spans : List TypedSpan), w.resolve adjust target = .ok spans ↔
        (∀ p ∈ target.primitives, p.IsReserved → w.marked p.mark = .ok []) ∧
          w.resolve adjust target.withoutReserved = .ok spans) ∧
    ∀ w : Workspace, (∃ p ∈ target.primitives, p.IsReserved ∧ w.marked p.mark ≠ .ok []) →
      ∃ cause, w.resolve adjust target = refuse cause := by
  refine ⟨fun _ _ _ _ _ _ => resolve_eq_ok_iff_withoutReserved, ?_⟩
  rintro w ⟨p, member, reserved, spans⟩
  rcases (w.resolve_yields adjust target).isOk_or_refused with ⟨found, resolved⟩ | refused
  · obtain ⟨empty, _⟩ := resolve_eq_ok_iff_withoutReserved.mp resolved
    exact absurd (empty p member reserved) spans
  · exact refused

/-- The text `ab` with a caret at its start, before any action. -/
def freshWorkspace : Workspace where
  documents := .ofList [⟨⟨1⟩, "plain", ['a', 'b']⟩]
  selections := [⟨⟨1⟩, .point ⟨0, 0⟩⟩]
  trees := .empty

/-- The line at a mark. -/
def lineTarget (mark : Mark) : Primitive where
  mark
  selectionType := .line

/-- The pair around a mark. -/
def pairTarget (mark : Mark) : Primitive where
  mark
  modifier := .surroundingPair
  selectionType := .token

theorem pair_at_caret_refused :
    ∃ cause, freshWorkspace.resolve TypedSpan.widenOutside
      (.list [.primitive (lineTarget .cursor), .range (lineTarget .cursor) (pairTarget .cursor)]) =
        refuse cause := by
  refine (resolve_ok_iff_withoutReserved TypedSpan.widenOutside _).2 freshWorkspace ?_
  refine ⟨pairTarget .cursor, ?_, by decide, by decide⟩
  simp [Target.primitives, Target.elements, Element.primitives]

/-- Before any action there is nothing to look for a pair around, and that is no failure. -/
theorem pair_around_nothing_resolves :
    (pairTarget .that).IsReserved ∧
      freshWorkspace.resolve TypedSpan.widenOutside (.single (.primitive (pairTarget .that))) =
        .ok [] :=
  ⟨by decide, rfl⟩

end Workspace

end TargetSpans
