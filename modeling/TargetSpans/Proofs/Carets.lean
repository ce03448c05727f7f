import TargetSpans.Proofs.Composition
import TargetSpans.Proofs.Joining

/-!
# Carets one by one

The spans of a target whose marks are the carets come caret after caret.  A primitive target looks
at one caret at a time, so cutting the list of carets in two cuts its result in two.  A range
resolves its ends first and joins them by their places in the two resulting lists, without looking
at the carets they come from.  That keeps the carets apart exactly if the two ends always have
equally many spans for a caret, as they do unless an end includes the siblings of a scope.
-/

namespace TargetSpans

open Answer

namespace Workspace

variable {M T : Type} [ScopeMatcher M] [SyntaxProvider T] {w : Workspace M T}

/-! ## Spans of a mark without siblings -/

theorem length_scopesAround {d : Document} {r : Range} {kind : ScopeKind}
    {scopes : List ScopeMatch} (found : w.scopesAround d r kind false = .ok scopes) :
    scopes.length = 1 := by
  unfold scopesAround at found
  obtain ⟨m, _, found⟩ := bind_eq_ok_iff.mp found
  split at found
  case h_1 => cases found
  case h_2 start _ =>
    obtain ⟨result, _, found⟩ := bind_eq_ok_iff.mp found
    cases result with
    | none => cases found
    | some scope =>
        simp only at found
        split at found
        · cases found
          rfl
        · rw [if_neg Bool.false_ne_true] at found
          cases found
          rfl

end Workspace

theorem Element.forall_primitives_range {start stop : Primitive} {P : Primitive → Prop} :
    (∀ p ∈ (Element.range start stop).primitives, P p) ↔ P start ∧ P stop := by
  simp [Element.primitives]

/-- Whether a modifier asks for all scopes beside the one around the mark. -/
def Modifier.includesSiblings : Modifier → Bool
  | .containingScope _ includeSiblings => includeSiblings
  | _ => false

namespace Workspace

variable {M T : Type} [ScopeMatcher M] [SyntaxProvider T] {w : Workspace M T}

theorem length_parts {d : Document} {s : Span} {m : Modifier} {parts : List Part}
    (alone : m.includesSiblings = false) (found : w.parts m d s = .ok parts) :
    parts.length = 1 := by
  cases m with
  | identity =>
      cases found
      rfl
  | containingScope kind includeSiblings =>
      cases alone
      obtain ⟨scopes, around, found⟩ := bind_eq_ok_iff.mp found
      cases found
      rw [List.length_map, length_scopesAround around]
  | subpiece kind anchor active =>
      obtain ⟨range, _, found⟩ := bind_eq_ok_iff.mp found
      cases found
      rfl
  | matchingPairSymbol => cases found
  | surroundingPair => cases found

theorem length_resolveSpan {p : Primitive} (alone : p.modifier.includesSiblings = false)
    {s : Span} {spans : List TypedSpan} (resolved : w.resolveSpan p s = .ok spans) :
    spans.length = 1 := by
  unfold resolveSpan at resolved
  obtain ⟨d, _, resolved⟩ := bind_eq_ok_iff.mp resolved
  split at resolved
  case h_1 => cases resolved
  case h_2 =>
    obtain ⟨parts, meant, resolved⟩ := bind_eq_ok_iff.mp resolved
    rw [← (mapM_eq_ok_iff.mp resolved).length_eq, length_parts alone meant]

/-- Without siblings, a primitive target has one span for each span of its mark. -/
theorem length_resolvePrimitive {p : Primitive} (alone : p.modifier.includesSiblings = false)
    {spans : List TypedSpan} (resolved : w.resolvePrimitive p = .ok spans) :
    ∃ marked, w.marked p.mark = .ok marked ∧ spans.length = marked.length := by
  obtain ⟨marked, mark, found⟩ := bind_eq_ok_iff.mp resolved
  obtain ⟨groups, each, flat⟩ := bind_eq_ok_iff.mp found
  cases flat
  refine ⟨marked, mark, ?_⟩
  have related := mapM_eq_ok_iff.mp each
  clear resolved found each mark
  induction related with
  | nil => rfl
  | cons head _ ih =>
      rw [List.flatten_cons, List.length_append, ih, length_resolveSpan alone head,
        List.length_cons, Nat.add_comm]

/-! ## Cutting the list of carets -/

/-- The workspace with other selections. -/
def withSelections (w : Workspace M T) (selections : List Span) : Workspace M T :=
  { w with selections }

/-- The two ends of a range resolve to equally many spans. -/
def Balanced (w : Workspace M T) : Element → Prop
  | .primitive _ => True
  | .range start stop => ∀ firsts seconds, w.resolvePrimitive start = .ok firsts →
      w.resolvePrimitive stop = .ok seconds → firsts.length = seconds.length

theorem resolvePrimitive_withSelections {p : Primitive} (cursor : p.mark = .cursor)
    (selections : List Span) :
    (w.withSelections selections).resolvePrimitive p =
      List.flatten <$> selections.mapM (w.resolveSpan p) := by
  rw [resolvePrimitive, cursor]
  rfl

theorem resolvePrimitive_append_iff {p : Primitive} (cursor : p.mark = .cursor)
    {first second : List Span} {spans : List TypedSpan} :
    (w.withSelections (first ++ second)).resolvePrimitive p = .ok spans ↔
      ∃ a b, (w.withSelections first).resolvePrimitive p = .ok a ∧
        (w.withSelections second).resolvePrimitive p = .ok b ∧ a ++ b = spans := by
  simp only [resolvePrimitive_withSelections cursor, map_eq_ok_iff, mapM_append_eq_ok_iff]
  constructor
  · rintro ⟨_, ⟨a, b, left, right, rfl⟩, rfl⟩
    exact ⟨a.flatten, b.flatten, ⟨a, left, rfl⟩, ⟨b, right, rfl⟩, List.flatten_append.symm⟩
  · rintro ⟨_, _, ⟨a, left, rfl⟩, ⟨b, right, rfl⟩, rfl⟩
    exact ⟨a ++ b, ⟨a, b, left, right, rfl⟩, List.flatten_append⟩

theorem resolveElement_append_iff {e : Element} (cursors : ∀ p ∈ e.primitives, p.mark = .cursor)
    {first second : List Span} {spans : List TypedSpan} :
    (w.withSelections (first ++ second)).resolveElement e = .ok spans ∧
        (w.withSelections first).Balanced e ↔
      ∃ a b, (w.withSelections first).resolveElement e = .ok a ∧
        (w.withSelections second).resolveElement e = .ok b ∧ a ++ b = spans := by
  cases e with
  | primitive p =>
      have cursor := cursors p (List.mem_singleton_self p)
      exact (and_iff_left trivial).trans (resolvePrimitive_append_iff cursor)
  | range start stop =>
      obtain ⟨startCursor, stopCursor⟩ := Element.forall_primitives_range.mp cursors
      simp only [resolveElement, Balanced, bind_eq_ok_iff,
        resolvePrimitive_append_iff startCursor, resolvePrimitive_append_iff stopCursor]
      constructor
      · rintro ⟨⟨_, ⟨f, f', start₁, start₂, rfl⟩, _, ⟨g, g', stop₁, stop₂, rfl⟩, joined⟩, balanced⟩
        obtain ⟨a, b, left, right, append⟩ :=
          TypedSpan.joinAll_append_iff.mp ⟨joined, balanced f g start₁ stop₁⟩
        exact ⟨a, b, ⟨f, start₁, g, stop₁, left⟩, ⟨f', start₂, g', stop₂, right⟩, append⟩
      · rintro ⟨a, b, ⟨f, start₁, g, stop₁, left⟩, ⟨f', start₂, g', stop₂, right⟩, append⟩
        obtain ⟨joined, same⟩ := TypedSpan.joinAll_append_iff.mpr ⟨a, b, left, right, append⟩
        refine ⟨⟨_, ⟨f, f', start₁, start₂, rfl⟩, _, ⟨g, g', stop₁, stop₂, rfl⟩, joined⟩, ?_⟩
        intro firsts seconds first second
        cases start₁.symm.trans first
        cases stop₁.symm.trans second
        exact same

theorem resolve_append_iff (adjust : Adjuster) {e : Element}
    (cursors : ∀ p ∈ e.primitives, p.mark = .cursor) (first second : List Span)
    (spans : List TypedSpan) :
    (w.withSelections (first ++ second)).resolve adjust (.single e) = .ok spans ∧
        (w.withSelections first).Balanced e ↔
      ∃ a b, (w.withSelections first).resolve adjust (.single e) = .ok a ∧
        (w.withSelections second).resolve adjust (.single e) = .ok b ∧ a ++ b = spans := by
  simp only [resolve_single_eq_ok_iff]
  constructor
  · rintro ⟨⟨_, resolved, rfl⟩, balanced⟩
    obtain ⟨a, b, left, right, rfl⟩ :=
      (resolveElement_append_iff cursors).mp ⟨resolved, balanced⟩
    exact ⟨_, _, ⟨a, left, rfl⟩, ⟨b, right, rfl⟩, List.map_append.symm⟩
  · rintro ⟨_, _, ⟨a, left, rfl⟩, ⟨b, right, rfl⟩, rfl⟩
    obtain ⟨resolved, balanced⟩ :=
      (resolveElement_append_iff cursors).mpr ⟨a, b, left, right, rfl⟩
    exact ⟨⟨a ++ b, resolved, List.map_append⟩, balanced⟩

theorem balanced_of_alone {e : Element} (cursors : ∀ p ∈ e.primitives, p.mark = .cursor)
    (alone : ∀ p ∈ e.primitives, p.modifier.includesSiblings = false) : w.Balanced e := by
  cases e with
  | primitive p => trivial
  | range start stop =>
      obtain ⟨startCursor, stopCursor⟩ := Element.forall_primitives_range.mp cursors
      obtain ⟨startAlone, stopAlone⟩ := Element.forall_primitives_range.mp alone
      intro firsts seconds first second
      obtain ⟨marked, mark, count⟩ := length_resolvePrimitive startAlone first
      obtain ⟨marked', mark', count'⟩ := length_resolvePrimitive stopAlone second
      rw [startCursor] at mark
      rw [stopCursor] at mark'
      cases mark.symm.trans mark'
      rw [count, count']

/-- An element resolves to what the carets give one after the other exactly if its ends are
balanced at every caret. -/
theorem resolve_each_caret_iff (adjust : Adjuster) {e : Element}
    (cursors : ∀ p ∈ e.primitives, p.mark = .cursor) (selections : List Span)
    (spans : List TypedSpan) :
    (w.withSelections selections).resolve adjust (.single e) = .ok spans ∧
        (∀ caret ∈ selections, (w.withSelections [caret]).Balanced e) ↔
      ∃ groups,
        List.Forall₂ (fun caret group =>
          (w.withSelections [caret]).resolve adjust (.single e) = .ok group) selections groups ∧
        groups.flatten = spans := by
  induction selections generalizing spans with
  | nil =>
      have empty : (w.withSelections []).resolve adjust (.single e) = .ok [] := by
        rw [resolve_single_eq_ok_iff]
        refine ⟨[], ?_, rfl⟩
        cases e with
        | primitive p => exact resolvePrimitive_withSelections (cursors p List.mem_cons_self) []
        | range start stop =>
            obtain ⟨startCursor, stopCursor⟩ := Element.forall_primitives_range.mp cursors
            rw [resolveElement, resolvePrimitive_withSelections startCursor,
              resolvePrimitive_withSelections stopCursor]
            rfl
      simp [empty]
  | cons caret rest ih =>
      -- Each cut takes off a single caret, so that it asks for balance at that caret only.
      have cut := resolve_append_iff (w := w) adjust cursors [caret] rest spans
      rw [List.singleton_append] at cut
      constructor
      · rintro ⟨resolved, balanced⟩
        obtain ⟨a, b, left, right, append⟩ := cut.mp ⟨resolved, balanced caret List.mem_cons_self⟩
        obtain ⟨groups, related, rfl⟩ := (ih b).mp
          ⟨right, fun other member => balanced other (List.mem_cons_of_mem caret member)⟩
        exact ⟨a :: groups, List.Forall₂.cons left related, append⟩
      · rintro ⟨_, _ | ⟨left, related⟩, append⟩
        obtain ⟨right, balanced⟩ := (ih _).mpr ⟨_, related, rfl⟩
        obtain ⟨resolved, first⟩ := cut.mpr ⟨_, _, left, right, append⟩
        refine ⟨resolved, fun other member => ?_⟩
        rcases List.mem_cons.mp member with rfl | later
        · exact first
        · exact balanced other later

/-- Where a range resolves although its ends are not balanced on the first part of the carets, they
are not balanced on the other part either, and both parts are refused. -/
theorem refused_of_not_balanced (adjust : Adjuster) {e : Element}
    (cursors : ∀ p ∈ e.primitives, p.mark = .cursor) {first second : List Span}
    {spans : List TypedSpan}
    (resolved : (w.withSelections (first ++ second)).resolve adjust (.single e) = .ok spans)
    (unbalanced : ¬ (w.withSelections first).Balanced e) :
    ∃ starts stops starts' stops', starts ≠ stops ∧ starts' ≠ stops' ∧
      (w.withSelections first).resolve adjust (.single e) =
        refuse (.lengthMismatch starts stops) ∧
      (w.withSelections second).resolve adjust (.single e) =
        refuse (.lengthMismatch starts' stops') := by
  cases e with
  | primitive p => exact absurd trivial unbalanced
  | range start stop =>
      obtain ⟨startCursor, stopCursor⟩ := Element.forall_primitives_range.mp cursors
      obtain ⟨plain, element, _⟩ := resolve_single_eq_ok_iff.mp resolved
      simp only [resolveElement, bind_eq_ok_iff, resolvePrimitive_append_iff startCursor,
        resolvePrimitive_append_iff stopCursor] at element
      obtain ⟨_, ⟨f, f', start₁, start₂, rfl⟩, _, ⟨g, g', stop₁, stop₂, rfl⟩, joined⟩ := element
      have total := (TypedSpan.joinAll_eq_ok_iff.mp joined).1
      rw [List.length_append, List.length_append] at total
      have differ : f.length ≠ g.length := by
        intro same
        apply unbalanced
        intro firsts seconds one other
        cases start₁.symm.trans one
        cases stop₁.symm.trans other
        exact same
      have differ' : f'.length ≠ g'.length := by omega
      refine ⟨f.length, g.length, f'.length, g'.length, differ, differ', ?_, ?_⟩
      · rw [resolve_range, start₁, stop₁]
        exact congrArg (List.map adjust <$> ·) (TypedSpan.joinAll_of_length_ne differ)
      · rw [resolve_range, start₂, stop₂]
        exact congrArg (List.map adjust <$> ·) (TypedSpan.joinAll_of_length_ne differ')

/-- Carets are independent of each other unless the ends of a range have different numbers of spans
for one of them.  The result for a list of carets is that for its first part followed by that for
its second part exactly if the ends are balanced on the first part, and if they are not then both
parts are refused.  The ends are always balanced where no siblings are included, and ends that are
balanced at every caret join nothing but spans of the same caret. -/
theorem resolve_caret_by_caret (w : Workspace M T) (adjust : Adjuster) {e : Element}
    (cursors : ∀ p ∈ e.primitives, p.mark = .cursor) :
    (∀ first second spans,
      (w.withSelections (first ++ second)).resolve adjust (.single e) = .ok spans ∧
          (w.withSelections first).Balanced e ↔
        ∃ a b, (w.withSelections first).resolve adjust (.single e) = .ok a ∧
          (w.withSelections second).resolve adjust (.single e) = .ok b ∧ a ++ b = spans) ∧
    (∀ first second spans,
      (w.withSelections (first ++ second)).resolve adjust (.single e) = .ok spans →
        ¬ (w.withSelections first).Balanced e →
          ∃ starts stops starts' stops', starts ≠ stops ∧ starts' ≠ stops' ∧
            (w.withSelections first).resolve adjust (.single e) =
              refuse (.lengthMismatch starts stops) ∧
            (w.withSelections second).resolve adjust (.single e) =
              refuse (.lengthMismatch starts' stops')) ∧
    ((∀ p ∈ e.primitives, p.modifier.includesSiblings = false) →
      ∀ selections, (w.withSelections selections).Balanced e) ∧
    ∀ selections spans,
      (w.withSelections selections).resolve adjust (.single e) = .ok spans ∧
          (∀ caret ∈ selections, (w.withSelections [caret]).Balanced e) ↔
        ∃ groups,
          List.Forall₂ (fun caret group =>
            (w.withSelections [caret]).resolve adjust (.single e) = .ok group) selections groups ∧
          groups.flatten = spans := by
  refine ⟨resolve_append_iff adjust cursors, ?_, ?_, resolve_each_caret_iff adjust cursors⟩
  · intro _ _ _ resolved unbalanced
    exact refused_of_not_balanced adjust cursors resolved unbalanced
  · exact fun alone _ => balanced_of_alone cursors alone

/-- The tree of the text `ab` over `cd`: a call of two letters, and below it two calls of one. -/
def callsTree : SyntaxTree :=
  let letter (offset : Nat) : SyntaxTree :=
    .node ⟨"letter", true, none, offset, offset + 1⟩ []
  .node ⟨"text", true, none, 0, 5⟩
    [.node ⟨"line", true, none, 0, 2⟩
      [.node ⟨"call", true, none, 0, 2⟩ [letter 0, letter 1]],
    .node ⟨"line", true, none, 3, 5⟩
      [.node ⟨"call", true, none, 3, 4⟩ [letter 3], .node ⟨"call", true, none, 4, 5⟩ [letter 4]]]

/-- The text `ab` over `cd` with its tree and matchers for its letters and calls. -/
def calls : Workspace where
  documents := .ofList [⟨⟨1⟩, "call", ['a', 'b', '\n', 'c', 'd']⟩]
  trees := .ofList [(⟨1⟩, callsTree)]
  scopes := some ((ScopeRegistry.empty.register "call" .argumentOrParameter
    { kinds := ["letter"] }).register "call" .functionCall { kinds := ["call"] })

/-- A caret at the start of a row. -/
def caretAt (row : Nat) : Span := ⟨⟨1⟩, .point ⟨row, 0⟩⟩

/-- All scopes of a kind beside the one at each caret. -/
def scopesAtCarets (kind : ScopeKind) (placement : Placement) : Primitive where
  mark := .cursor
  modifier := .containingScope kind true
  selectionType := .token
  placement

/-- A stretch of the text of `calls`. -/
def stretch (first last : Position) : TypedSpan where
  span := ⟨⟨1⟩, ⟨first, last⟩⟩
  selectionType := .token
  context := { outer := some ⟨first, last⟩ }

/-- From each letter beside a caret to the same letter: the ends are balanced although siblings are
included. -/
def lettersTarget : Element :=
  .range (scopesAtCarets .argumentOrParameter .before) (scopesAtCarets .argumentOrParameter .after)

/-- From the letters beside a caret to the calls beside it: two letters and one call above, one
letter and two calls below. -/
def lettersToCallsTarget : Element :=
  .range (scopesAtCarets .argumentOrParameter .contents) (scopesAtCarets .functionCall .contents)

theorem letters_caret_by_caret :
    ∃ a b, (calls.withSelections [caretAt 0]).resolve id (.single lettersTarget) = .ok a ∧
      (calls.withSelections [caretAt 1]).resolve id (.single lettersTarget) = .ok b ∧
        a ++ b = [stretch ⟨0, 0⟩ ⟨0, 1⟩, stretch ⟨0, 1⟩ ⟨0, 2⟩, stretch ⟨1, 0⟩ ⟨1, 1⟩] := by
  have cursors : ∀ p ∈ lettersTarget.primitives, p.mark = .cursor :=
    Element.forall_primitives_range.mpr ⟨rfl, rfl⟩
  have balanced : (calls.withSelections [caretAt 0]).Balanced lettersTarget := by
    intro firsts seconds first second
    cases first
    cases second
    rfl
  exact ((resolve_caret_by_caret calls id cursors).1 [caretAt 0] [caretAt 1] _).mp ⟨rfl, balanced⟩

/-- With both carets the second letter above is joined with the first call below, although neither
caret has a result of its own. -/
theorem lettersToCalls_not_caret_by_caret :
    (∀ p ∈ lettersToCallsTarget.primitives, p.mark = .cursor) ∧
      (calls.withSelections ([caretAt 0] ++ [caretAt 1])).resolve id
          (.single lettersToCallsTarget) =
        .ok [stretch ⟨0, 0⟩ ⟨0, 2⟩, stretch ⟨0, 1⟩ ⟨1, 1⟩, stretch ⟨1, 0⟩ ⟨1, 2⟩] ∧
      (calls.withSelections [caretAt 0]).resolve id (.single lettersToCallsTarget) =
        refuse (.lengthMismatch 2 1) ∧
      (calls.withSelections [caretAt 1]).resolve id (.single lettersToCallsTarget) =
        refuse (.lengthMismatch 1 2) :=
  ⟨Element.forall_primitives_range.mpr ⟨rfl, rfl⟩, rfl, rfl, rfl⟩

end Workspace

end TargetSpans
