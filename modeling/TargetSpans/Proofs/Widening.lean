import TargetSpans.Proofs.Joining
import TargetSpans.Proofs.TokenDelimiters

/-!
# Widening

The usual adjuster is meant to widen: a target with its delimiters should take in the target
without them.  It trusts the outer range that an earlier step has put beside the span.  Outer ranges
of tokens, of freshly delimited rows and of joined spans take in what they belong to.  The one
exception is a scope that is grown to rows or to the whole document while it keeps the delimiters
that its matcher has found, for then the outer range is still that of the scope.
-/

namespace TargetSpans

namespace Range

theorem Covers.point_start {outer r : Range} (covers : outer.Covers r) :
    outer.Covers (point r.start) := by
  rw [Covers, start_point, stop_point]
  exact ⟨covers.1, le_trans r.start_le_stop covers.2⟩

theorem Covers.point_stop {outer r : Range} (covers : outer.Covers r) :
    outer.Covers (point r.stop) := by
  rw [Covers, start_point, stop_point]
  exact ⟨le_trans covers.1 r.start_le_stop, covers.2⟩

end Range

namespace TypedSpan

/-- The outer range of a typed span leaves some of the span out. -/
def FallsShort (t : TypedSpan) : Prop :=
  ∃ outer, t.context.outer = some outer ∧ ¬ outer.Covers t.range

theorem outerOrRange_covers {t : TypedSpan} (whole : ¬ t.FallsShort) :
    t.outerOrRange.Covers t.range := by
  unfold outerOrRange
  cases known : t.context.outer with
  | none => exact Range.Covers.refl t.range
  | some outer =>
      by_contra short
      exact whole ⟨outer, known, short⟩

/-- Widening a span takes in the span unless the widening applies and the outer range does not. -/
theorem widenOutside_covers_iff (t : TypedSpan) :
    t.widenOutside.range.Covers t.range ↔
      ¬ (t.insideOutside = some .outside ∧ t.placement = .contents ∧ t.FallsShort) := by
  by_cases applies : t.insideOutside = some .outside ∧ t.placement = .contents
  · rw [widenOutside, if_pos applies]
    simp only [applies, true_and]
    cases known : t.context.outer with
    | some outer =>
        have widened : t.widened? = some outer := by simp [widened?, known]
        simp [widened, FallsShort, known]
    | none =>
        have whole : ¬ t.FallsShort := by simp [FallsShort, known]
        simp only [whole, not_false_eq_true, iff_true]
        have widened : t.widened? = t.context.nearest?.map t.range.union := by
          simp [widened?, known]
        rw [widened]
        cases t.context.nearest? with
        | none => exact Range.Covers.refl t.range
        | some nearest =>
            simp only [Option.map_some, range_withRange, Range.toward_covers]
            exact Range.union_covers_left t.range nearest
  · rw [widenOutside, if_neg applies]
    have excluded : ¬ (t.insideOutside = some .outside ∧ t.placement = .contents ∧
        t.FallsShort) := fun all => applies ⟨all.1, all.2.1⟩
    exact iff_of_true (Range.Covers.refl t.range) excluded

/-- The outer range of a joined span falls short only if that of one of its ends does. -/
theorem FallsShort.of_join {first second t : TypedSpan} (joined : first.join second = .ok t)
    (short : t.FallsShort) : first.FallsShort ∨ second.FallsShort := by
  obtain ⟨upper, lower, ends, stretch⟩ := exists_stretches_of_join joined
  have either : upper.FallsShort ∨ lower.FallsShort := by
    by_contra whole
    rw [not_or] at whole
    have above := outerOrRange_covers whole.1
    have below := outerOrRange_covers whole.2
    -- Bounds that come from two spans could be the wrong way round if one of them fell short.
    have ordered : upper.outerOrRange.start ≤ lower.outerOrRange.stop := by
      calc upper.outerOrRange.start
        _ ≤ upper.range.start := above.1
        _ ≤ lower.range.start := stretch.ordered
        _ ≤ lower.range.stop := lower.range.start_le_stop
        _ ≤ lower.outerOrRange.stop := below.2
    obtain ⟨known, isOuter, leavesOut⟩ := short
    rw [stretch.outer, Option.some.injEq] at isOuter
    subst isOuter
    apply leavesOut
    rw [Range.mk_covers_iff ordered, stretch.start, stretch.stop]
    exact ⟨above.1, below.2⟩
  rcases ends with ⟨rfl, rfl⟩ | ⟨rfl, rfl⟩
  · exact either
  · exact either.symm

/-- An outer range that covers a span covers every place at it. -/
theorem covers_place {t : TypedSpan} {outer : Range} (covers : outer.Covers t.range)
    (placement : Placement) (insideOutside : Option InsideOutside) :
    outer.Covers (t.place placement insideOutside).range := by
  cases placement with
  | contents => exact covers
  | before => exact covers.point_start
  | after => exact covers.point_stop

end TypedSpan

namespace Document

variable {d : Document} {r : Range}

/-- From the first column of their first row to the end of their last one, whole rows are covered
with their indentation. -/
theorem fullRows_covers_rowRange {first last : Nat} {rows : Range} (ordered : first ≤ last)
    (whole : d.rowRange? first last = some rows) {bottom : Line}
    (lastLine : d.line? rows.stop.row = some bottom) :
    (⟨⟨rows.start.row, 0⟩, ⟨rows.stop.row, bottom.length⟩⟩ : Range).Covers rows := by
  obtain ⟨_, line, _, found, _, stop⟩ := bounds_of_rowRange? ordered whole
  have same : line = bottom := by
    rw [stop] at lastLine
    exact Option.some.inj (found.symm.trans lastLine)
  have stopEq : rows.stop = ⟨rows.stop.row, bottom.length⟩ := by rw [stop, same]
  have above : (⟨rows.start.row, 0⟩ : Position) ≤ rows.start :=
    Position.mk_le_mk (Nat.zero_le rows.start.col)
  have below : rows.stop ≤ ⟨rows.stop.row, bottom.length⟩ := le_of_eq stopEq
  rw [Range.mk_covers_iff (le_trans above (le_trans rows.start_le_stop below))]
  exact ⟨above, below⟩

theorem outer_covers_rowRange {first last : Nat} {rows : Range} (ordered : first ≤ last)
    (whole : d.rowRange? first last = some rows) {c : DelimiterContext} {outer : Range}
    (fresh : d.lineDelimiters? rows = some c ∨ d.paragraphDelimiters? rows = some c)
    (known : c.outer = some outer) : outer.Covers rows := by
  have bounds : ∃ bottom, d.line? rows.stop.row = some bottom ∧
      c.outer = some ⟨⟨rows.start.row, 0⟩, ⟨rows.stop.row, bottom.length⟩⟩ := by
    rcases fresh with fresh | fresh
    · exact (of_rowDelimiters?_eq_some fresh).2.2
    · exact (of_rowDelimiters?_eq_some fresh).2.2
  obtain ⟨bottom, lastLine, outerEq⟩ := bounds
  cases known.symm.trans outerEq
  exact fullRows_covers_rowRange ordered whole lastLine

/-- What a range grows to is covered by the outer range that comes with it, unless that one has been
known before and the range has grown to rows or to the document. -/
theorem Grows.covers_or_kept {known context : DelimiterContext} {selectionType : SelectionType}
    {grown outer : Range} (rows : d.HasRows r)
    (fits : ∀ o, known.outer = some o → o.Covers r)
    (grows : d.Grows r known selectionType grown context) (hasOuter : context.outer = some outer) :
    outer.Covers grown ∨ selectionType ≠ .token ∧ context = known := by
  cases grows with
  | token kept inferred =>
      -- Guessed delimiters come without an outer range, and known ones fit the range as it is.
      left
      cases empty : known.isEmpty with
      | true =>
          have none := (delimits_of_inferDelimiters? rows (inferred empty)).2
          cases none.symm.trans hasOuter
      | false =>
          apply fits
          rw [← kept empty, hasOuter]
  | line whole kept fresh =>
      cases listed : known.inList with
      | true => exact Or.inr ⟨by decide, kept listed⟩
      | false =>
          left
          have ordered := Position.row_le_of_le r.start_le_stop
          exact outer_covers_rowRange ordered whole (Or.inl (fresh listed)) hasOuter
  | paragraph whole kept fresh =>
      cases listed : known.inList with
      | true => exact Or.inr ⟨by decide, kept listed⟩
      | false =>
          left
          have ordered := paragraphRows_ordered rows
          exact outer_covers_rowRange ordered whole (Or.inr (fresh listed)) hasOuter
  | document => exact Or.inr ⟨by decide, rfl⟩

end Document

namespace Workspace

variable {w : Workspace} {d : Document} {s : Span}

theorem PartOf.covers_of_outer {modifier : Modifier} {part : Part} {outer : Range}
    (means : w.PartOf d s modifier part) (known : part.context.outer = some outer) :
    outer.Covers part.span.range := by
  rw [means.outer_eq, Option.map_eq_some_iff] at known
  obtain ⟨nearest, _, rfl⟩ := known
  exact Range.union_covers_left _ nearest

/-- A part has an outer range only where a matcher with a delimiter has found it. -/
theorem PartOf.delimited_of_outer {modifier : Modifier} {part : Part} {outer : Range}
    (means : w.PartOf d s modifier part) (known : part.context.outer = some outer) :
    ∃ kind includeSiblings m, modifier = .containingScope kind includeSiblings ∧
      w.matcher d.language kind = .ok m ∧ m.delimiter.isSome := by
  cases means with
  | identity => cases known
  | piece first last => cases known
  | scope matcher tree within source =>
      rcases source.context with ⟨_, empty⟩ | ⟨delimiter, delimited, _⟩
      · simp only [empty] at known
        cases known
      · exact ⟨_, _, _, rfl, matcher, by simp [delimited]⟩

/-- A primitive target regrows a scope if it grows a scope to more than a token and a matcher with a
delimiter finds the scopes of that kind in some open document. -/
def RegrowsScope (w : Workspace) (p : Primitive) : Prop :=
  p.selectionType ≠ .token ∧ ∃ id d kind includeSiblings m,
    w.documents.get? id = some d ∧ p.modifier = .containingScope kind includeSiblings ∧
      w.matcher d.language kind = .ok m ∧ m.delimiter.isSome

/-- The outer range of a produced span falls short only where a scope is regrown. -/
theorem Produces.regrowsScope {p : Primitive} {t : TypedSpan} (produces : w.Produces p s t)
    (short : t.FallsShort) : w.RegrowsScope p := by
  obtain @⟨d, part, range, context, document, anchor, head, means, grows⟩ := produces
  obtain ⟨outer, known, leavesOut⟩ := short
  have hasOuter : context.outer = some outer := known
  have rows := means.hasRows (Document.hasRows_of_contains anchor head)
  rcases grows.covers_or_kept rows (fun _ => means.covers_of_outer) hasOuter with
    covers | ⟨grown, kept⟩
  · exfalso
    apply leavesOut
    apply TypedSpan.covers_place
    exact (Range.covers_toward outer range _).mpr covers
  · obtain ⟨kind, includeSiblings, m, modifier, matcher, delimited⟩ :=
      means.delimited_of_outer (kept ▸ hasOuter)
    exact ⟨grown, s.doc, d, kind, includeSiblings, m, document, modifier, matcher, delimited⟩

theorem Spans.regrowsScope {e : Element} {t : TypedSpan} (spans : w.Spans e t)
    (short : t.FallsShort) : ∃ p ∈ e.primitives, w.RegrowsScope p := by
  cases spans with
  | primitive produces => exact ⟨_, List.mem_singleton_self _, produces.regrowsScope short⟩
  | range starts stops joined =>
      rcases short.of_join joined with first | second
      · exact ⟨_, List.mem_cons_self, starts.regrowsScope first⟩
      · exact ⟨_, List.mem_cons_of_mem _ (List.mem_singleton_self _), stops.regrowsScope second⟩

/-- With the usual adjuster a target that resolves without it resolves to as many spans, and each of
them takes in what it was without it unless it is meant with its delimiters and its outer range
falls short.  That needs a primitive target that regrows a scope. -/
theorem resolve_widenOutside_covers_iff (w : Workspace) (target : Target)
    {plain : List TypedSpan} (resolved : w.resolve id target = .ok plain) :
    ∃ wide, w.resolve TypedSpan.widenOutside target = .ok wide ∧
      List.Forall₂ (fun t widened =>
        (widened.range.Covers t.range ↔
          ¬ (t.insideOutside = some .outside ∧ t.placement = .contents ∧ t.FallsShort)) ∧
        (t.FallsShort → ∃ e ∈ target.elements, ∃ p ∈ e.primitives, w.RegrowsScope p))
        plain wide := by
  refine ⟨plain.map TypedSpan.widenOutside, ?_, ?_⟩
  · rw [resolve_eq_map, resolved]
    rfl
  · rw [List.forall₂_map_right_iff, List.forall₂_same]
    intro t member
    refine ⟨t.widenOutside_covers_iff, fun short => ?_⟩
    obtain ⟨e, elementMember, _, spans, rfl⟩ :=
      (w.resolve_yields id target).of_eq_ok resolved t member
    exact ⟨e, elementMember, spans.regrowsScope short⟩

/-- The line of the first argument of `a, b`.  The delimiters, and with them the outer range, are
still those of the argument. -/
def argumentLine : TypedSpan :=
  { firstArgument with span := ⟨⟨1⟩, ⟨⟨0, 0⟩, ⟨0, 4⟩⟩⟩, selectionType := .line }

theorem arguments_line : arguments.resolve id (.single (.primitive (argumentTarget .line))) =
    .ok [argumentLine] :=
  rfl

theorem argumentLine_widening :
    ∃ wide, arguments.resolve TypedSpan.widenOutside
        (.single (.primitive (argumentTarget .line))) = .ok wide ∧
      List.Forall₂ (fun t widened =>
        (widened.range.Covers t.range ↔
          ¬ (t.insideOutside = some .outside ∧ t.placement = .contents ∧ t.FallsShort)) ∧
        (t.FallsShort → ∃ e ∈ (Target.single (.primitive (argumentTarget .line))).elements,
          ∃ p ∈ e.primitives, arguments.RegrowsScope p))
        [argumentLine] wide :=
  resolve_widenOutside_covers_iff arguments (.single (.primitive (argumentTarget .line)))
    arguments_line

/-- The line of an argument shrinks to the argument and the comma after it, although the tree is in
order. -/
theorem not_covers_argumentLine :
    (∀ id t, arguments.trees.get? id = some t → t.Ordered) ∧
      ∃ plain wide : TypedSpan,
        arguments.resolve id (.single (.primitive (argumentTarget .line))) = .ok [plain] ∧
          arguments.resolve TypedSpan.widenOutside
            (.single (.primitive (argumentTarget .line))) = .ok [wide] ∧
          plain.range = ⟨⟨0, 0⟩, ⟨0, 4⟩⟩ ∧ wide.range = ⟨⟨0, 0⟩, ⟨0, 3⟩⟩ ∧
          ¬ wide.range.Covers plain.range :=
  ⟨arguments_trees_ordered, argumentLine, argumentLine.widenOutside, rfl, rfl, rfl, rfl, by decide⟩

end Workspace

end TargetSpans
