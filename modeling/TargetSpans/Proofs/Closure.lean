import TargetSpans.Proofs.Composition
import TargetSpans.Proofs.Joining
import TargetSpans.Proofs.Places

/-!
# Results lie in their documents

The spans of one action may be the mark of the next, and a mark is refused unless both of its ends
are places of its document.  Growing, placing, joining and widening make no ends that are not places
out of ends that are, so whatever the modifiers hand over in the document stays in it.  Only a token
that cuts a break leaves it, and then the result can be no mark.
-/

namespace TargetSpans

open Answer

namespace Workspace

/-- Both ends of a span are places of its document, which is open. -/
def Holds {M T : Type} (w : Workspace M T) (s : Span) : Prop :=
  ∃ d, w.documents.get? s.doc = some d ∧ d.HasPlaces s.range

/-- The trees of open documents split none of their breaks. -/
def SparesBreaks {M : Type} (w : Workspace M) : Prop :=
  ∀ id d t, w.documents.get? id = some d → w.trees.get? id = some t → t.SparesBreaks d.text

/-- A primitive target cuts a break: it keeps characters of a span of its mark as they are, from or
up to a place between the two characters of a break. -/
def CutsBreak {M T : Type} (w : Workspace M T) (p : Primitive) : Prop :=
  p.selectionType = .token ∧ ∃ anchor active, p.modifier = .subpiece .character anchor active ∧
    ∃ marked, w.marked p.mark = .ok marked ∧ ∃ s ∈ marked, ∃ d,
      w.documents.get? s.doc = some d ∧ d.CutsBreak s.range anchor active

/-- A typed span lies in its document together with all that is known of its delimiters. -/
def Encloses {M T : Type} (w : Workspace M T) (t : TypedSpan) : Prop :=
  ∃ d, w.documents.get? t.doc = some d ∧ d.HasPlaces t.range ∧ d.HasContext t.context

/-- The scopes that are found in an open document lie in it, with their delimiters. -/
def FindsPlaces {M T : Type} [ScopeMatcher M] [SyntaxProvider T] (w : Workspace M T) : Prop :=
  ∀ id d r kind includeSiblings scopes, w.documents.get? id = some d →
    w.scopesAround d r kind includeSiblings = .ok scopes →
      ∀ found ∈ scopes, d.HasPlaces found.range ∧ d.HasContext found.context

/-- Matchers that are described by kinds of nodes find places in trees that split no breaks. -/
theorem findsPlaces_of_sparesBreaks {w : Workspace} (spares : w.SparesBreaks) : w.FindsPlaces := by
  intro id d r kind includeSiblings scopes document around found member
  obtain ⟨m, t, n, scope, matcher, tree, within, source⟩ :=
    (w.scopesAround_yields d r kind includeSiblings).of_eq_ok around found member
  have inside := NodeMatcher.within_scopeNode? within source.narrowed
  rw [Documents.id_of_get? document] at tree
  have spared := spares id d t document tree
  refine ⟨source.range ▸ Node.hasPlaces_range inside spared, ?_⟩
  rcases source.context with ⟨_, empty⟩ | ⟨delimiter, _, siblings⟩
  · exact empty ▸ Document.HasContext.empty
  · exact Node.hasContext_of_siblingContext inside spared siblings

variable {M T : Type} {w : Workspace M T} {d : Document} {s : Span} {t : TypedSpan}

theorem Encloses.holds (encloses : w.Encloses t) : w.Holds t.span := by
  obtain ⟨d, document, places, _⟩ := encloses
  exact ⟨d, document, places⟩

theorem Encloses.place (encloses : w.Encloses t) (placement : Placement)
    (insideOutside : Option InsideOutside) : w.Encloses (t.place placement insideOutside) := by
  obtain ⟨d, document, places, context⟩ := encloses
  refine ⟨d, document, ?_, context⟩
  cases placement with
  | contents => exact places
  | before => exact Document.HasPlaces.point places.start
  | after => exact Document.HasPlaces.point places.stop

theorem hasPlaces_outerOrRange (places : d.HasPlaces t.range) (context : d.HasContext t.context) :
    d.HasPlaces t.outerOrRange := by
  unfold TypedSpan.outerOrRange
  cases known : t.context.outer with
  | none => exact places
  | some outer => exact context.outer outer known

theorem outer_or_nearest_of_widened? {wide : Range} (widened : t.widened? = some wide) :
    t.context.outer = some wide ∨
      ∃ nearest, t.context.nearest? = some nearest ∧ t.range.union nearest = wide := by
  unfold TypedSpan.widened? at widened
  cases known : t.context.outer with
  | some outer =>
      left
      rwa [known] at widened
  | none =>
      right
      rw [known] at widened
      exact Option.map_eq_some_iff.mp widened

theorem Encloses.widenOutside (encloses : w.Encloses t) : w.Encloses t.widenOutside := by
  obtain ⟨d, document, places, context⟩ := encloses
  unfold TypedSpan.widenOutside
  split
  · split
    case h_1 wide widened =>
      have widePlaces : d.HasPlaces wide := by
        rcases outer_or_nearest_of_widened? widened with outer | ⟨nearest, isNearest, rfl⟩
        · exact context.outer wide outer
        · exact places.union (context.nearest isNearest)
      exact ⟨d, document, widePlaces.toward _, context⟩
    case h_2 => exact ⟨d, document, places, context⟩
  · exact ⟨d, document, places, context⟩

/-- A stretch between spans of one document has no ends of its own. -/
theorem Encloses.stretch {upper lower : TypedSpan} (above : w.Encloses upper)
    (below : w.Encloses lower) (stretch : t.Stretches upper lower) : w.Encloses t := by
  obtain ⟨d, document, upperPlaces, upperContext⟩ := above
  obtain ⟨d', document', lowerPlaces, lowerContext⟩ := below
  have sameDoc : upper.doc = lower.doc := stretch.doc_upper.symm.trans stretch.doc_lower
  rw [← sameDoc] at document'
  cases document.symm.trans document'
  refine ⟨d, stretch.doc_upper ▸ document, ?_, ?_, ?_, ?_⟩
  · apply Document.HasPlaces.of_bounds
    · exact stretch.start ▸ upperPlaces.start
    · exact stretch.stop ▸ lowerPlaces.stop
  · intro leading known
    exact upperContext.leading leading (stretch.leading.symm.trans known)
  · intro trailing known
    exact lowerContext.trailing trailing (stretch.trailing.symm.trans known)
  · intro outer known
    cases known.symm.trans stretch.outer
    exact ⟨(hasPlaces_outerOrRange upperPlaces upperContext).start,
      (hasPlaces_outerOrRange lowerPlaces lowerContext).stop⟩

theorem Encloses.join {first second : TypedSpan} (one : w.Encloses first)
    (other : w.Encloses second) (joined : first.join second = .ok t) : w.Encloses t := by
  obtain ⟨upper, lower, ⟨rfl, rfl⟩ | ⟨rfl, rfl⟩, stretch⟩ :=
    TypedSpan.exists_stretches_of_join joined
  · exact one.stretch other stretch
  · exact other.stretch one stretch

theorem encloses_of_grows {p : Primitive} {part : Part} {range : Range} {known : DelimiterContext}
    (document : w.documents.get? s.doc = some d) (sameDoc : part.span.doc = s.doc)
    (context : d.HasContext part.context)
    (places : p.selectionType = .token → d.HasPlaces part.span.range)
    (grows : d.Grows part.span.range part.context p.selectionType range known) :
    w.Encloses {
      span := { part.span with range := range.toward part.span.range.direction }
      selectionType := p.selectionType
      context := known } := by
  obtain ⟨grownPlaces, grownContext⟩ := grows.hasPlaces context places
  refine ⟨d, ?_, grownPlaces.toward _, grownContext⟩
  exact (congrArg w.documents.get? sameDoc).trans document

/-! ## Stages -/

variable [ScopeMatcher M] [SyntaxProvider T]

/-- The parts of a span lie in its document, with their delimiters, unless they cut a break. -/
theorem parts_hasPlaces_or (finds : w.FindsPlaces) {id : DocumentId}
    (document : w.documents.get? id = some d) (places : d.HasPlaces s.range) {m : Modifier}
    {parts : List Part} (meant : w.parts m d s = .ok parts) :
    ∀ part ∈ parts, d.HasRows part.span.range ∧ d.HasContext part.context ∧
      (d.HasPlaces part.span.range ∨ ∃ anchor active,
        m = .subpiece .character anchor active ∧ d.CutsBreak s.range anchor active) := by
  intro part member
  cases m with
  | identity =>
      cases meant
      cases List.mem_singleton.mp member
      exact ⟨places.rows, Document.HasContext.empty, Or.inl places⟩
  | containingScope kind includeSiblings =>
      obtain ⟨scopes, around, equal⟩ := bind_eq_ok_iff.mp meant
      cases equal
      obtain ⟨found, isScope, rfl⟩ := List.mem_map.mp member
      obtain ⟨own, context⟩ := finds id d _ _ _ scopes document around found isScope
      exact ⟨own.rows, context, Or.inl own⟩
  | subpiece kind anchor active =>
      obtain ⟨piece, found, equal⟩ := bind_eq_ok_iff.mp meant
      cases equal
      cases List.mem_singleton.mp member
      have rows : d.HasRows piece := by
        obtain ⟨first, last, rfl⟩ :=
          (subpiece_yields places.rows kind anchor active).of_eq_ok found
        exact Document.hasRows_positions first last
      refine ⟨rows, Document.HasContext.empty, ?_⟩
      by_cases cuts : kind = .character ∧ d.CutsBreak s.range anchor active
      · obtain ⟨rfl, cuts⟩ := cuts
        exact Or.inr ⟨anchor, active, rfl, cuts⟩
      · exact Or.inl ((Document.subpiece_hasPlaces_iff found).mpr cuts)
  | matchingPairSymbol => cases meant
  | surroundingPair => cases meant

/-- A primitive target keeps the spans of its mark within their documents unless it cuts a break. -/
theorem resolveSpan_encloses_or (finds : w.FindsPlaces) {p : Primitive} {marked : List Span}
    (mark : w.marked p.mark = .ok marked) (member : s ∈ marked) {spans : List TypedSpan}
    (resolved : w.resolveSpan p s = .ok spans) :
    ∀ t ∈ spans, w.Encloses t ∨ w.CutsBreak p := by
  intro t inSpans
  obtain ⟨d, known, resolved⟩ := bind_eq_ok_iff.mp resolved
  have document := (w.document_yields s.doc).of_eq_ok known
  split at resolved
  case h_1 => cases resolved
  case h_2 inside =>
    obtain ⟨anchor, head⟩ := contains_of_outlier?_eq_none inside
    obtain ⟨parts, meant, resolved⟩ := bind_eq_ok_iff.mp resolved
    obtain ⟨part, partMember, placed⟩ :=
      exists_mem_of_forall₂ (mapM_eq_ok_iff.mp resolved) inSpans
    obtain ⟨typed, expanded, equal⟩ := bind_eq_ok_iff.mp placed
    cases equal
    obtain ⟨rows, context, within⟩ :=
      parts_hasPlaces_or finds document ⟨anchor, head⟩ meant part partMember
    obtain ⟨range, known, grows, rfl⟩ := (expand_yields rows p.selectionType).of_eq_ok expanded
    by_cases cuts : w.CutsBreak p
    · exact Or.inr cuts
    · have tokenPlaces : p.selectionType = .token → d.HasPlaces part.span.range := by
        intro token
        rcases within with lies | ⟨anchor, active, modifier, cutsHere⟩
        · exact lies
        · exfalso
          exact cuts ⟨token, anchor, active, modifier, marked, mark, s, member, d, document,
            cutsHere⟩
      have sameDoc := doc_of_parts meant part partMember
      exact Or.inl ((encloses_of_grows document sameDoc context tokenPlaces grows).place _ _)

theorem resolve_encloses_or {adjust : Adjuster}
    (usual : adjust = id ∨ adjust = TypedSpan.widenOutside) (finds : w.FindsPlaces) {e : Element}
    {spans : List TypedSpan} (resolved : w.resolve adjust (.single e) = .ok spans) :
    ∀ t ∈ spans, w.Encloses t ∨ ∃ p ∈ e.primitives, w.CutsBreak p := by
  -- A cut leaves nothing to prove.  Without one the invariant speaks of the delimiters as well as
  -- of the spans, for the outer ranges are what widening turns into spans.
  by_cases cuts : ∃ p ∈ e.primitives, w.CutsBreak p
  · exact fun _ _ => Or.inr cuts
  · have encloses : ∀ t ∈ spans, w.Encloses t := by
      refine forall_of_resolve (P := w.Encloses) ?_ ?_ ?_ resolved
      · intro other element p primitive marked mark s member spans ofSpan t inside
        cases List.mem_singleton.mp element
        exact (resolveSpan_encloses_or finds mark member ofSpan t inside).resolve_right
          fun cut => cuts ⟨p, primitive, cut⟩
      · exact fun first second t one other joined => one.join other joined
      · rcases usual with rfl | rfl
        · exact fun t plain => plain
        · exact fun t plain => plain.widenOutside
    exact fun t member => Or.inl (encloses t member)

/-! ## Tokens -/

theorem span_of_expand_token {part : Part} (expanded : d.expand .token part = .ok t) :
    t.span = part.span := by
  obtain ⟨⟨range, context⟩, grown, equal⟩ := bind_eq_ok_iff.mp expanded
  have kept : range = part.span.range := by
    simp only [Document.grow] at grown
    split at grown
    · obtain ⟨_, _, pair⟩ := bind_eq_ok_iff.mp grown
      cases pair
      rfl
    · cases grown
      rfl
  cases equal
  rw [kept, Range.toward_eq_self_of_direction rfl]

/-- A token at its contents has the span of the part that it is made from. -/
theorem exists_parts_of_resolveSpan {p : Primitive} (token : p.selectionType = .token)
    (contents : p.placement = .contents) {spans : List TypedSpan}
    (resolved : w.resolveSpan p s = .ok spans) :
    ∃ d parts, w.documents.get? s.doc = some d ∧ d.HasPlaces s.range ∧
      w.parts p.modifier d s = .ok parts ∧ spans.map TypedSpan.span = parts.map Part.span := by
  obtain ⟨d, document, resolved⟩ := bind_eq_ok_iff.mp resolved
  split at resolved
  case h_1 => cases resolved
  case h_2 inside =>
    obtain ⟨anchor, head⟩ := contains_of_outlier?_eq_none inside
    obtain ⟨parts, found, resolved⟩ := bind_eq_ok_iff.mp resolved
    have related := mapM_eq_ok_iff.mp resolved
    have same : List.Forall₂ (fun part t => part.span = t.span) parts spans := by
      refine related.imp fun part t placed => ?_
      obtain ⟨typed, expanded, equal⟩ := bind_eq_ok_iff.mp placed
      rw [token] at expanded
      rw [contents] at equal
      cases equal
      exact (span_of_expand_token expanded).symm
    refine ⟨d, parts, (w.document_yields s.doc).of_eq_ok document, ⟨anchor, head⟩, found, ?_⟩
    rw [← List.forall₂_eq_eq_eq, List.forall₂_map_left_iff, List.forall₂_map_right_iff]
    exact same.flip.imp fun _ _ => Eq.symm

theorem exists_not_holds_of_cutsBreak {p : Primitive} (token : p.selectionType = .token)
    (contents : p.placement = .contents) {anchor active : Int}
    (modifier : p.modifier = .subpiece .character anchor active)
    (document : w.documents.get? s.doc = some d) (cuts : d.CutsBreak s.range anchor active)
    {spans : List TypedSpan} (resolved : w.resolveSpan p s = .ok spans) :
    ∃ t ∈ spans, ¬ w.Holds t.span := by
  obtain ⟨d', parts, document', _, found, same⟩ :=
    exists_parts_of_resolveSpan token contents resolved
  cases document.symm.trans document'
  rw [modifier] at found
  obtain ⟨piece, isPiece, found⟩ := bind_eq_ok_iff.mp found
  cases found
  have mapped : ({ s with range := piece } : Span) ∈ spans.map TypedSpan.span := by
    rw [same]
    exact List.mem_singleton_self _
  obtain ⟨t, member, isPieceSpan⟩ := List.mem_map.mp mapped
  refine ⟨t, member, ?_⟩
  rw [isPieceSpan]
  rintro ⟨d', document', places⟩
  cases document.symm.trans document'
  exact (Document.subpiece_hasPlaces_iff isPiece).mp places ⟨rfl, cuts⟩

/-- Tokens at their contents all lie in their documents exactly if their target cuts no break. -/
theorem resolvePrimitive_holds_iff (finds : w.FindsPlaces) {p : Primitive}
    (token : p.selectionType = .token) (contents : p.placement = .contents)
    {spans : List TypedSpan} (resolved : w.resolvePrimitive p = .ok spans) :
    (∀ t ∈ spans, w.Holds t.span) ↔ ¬ w.CutsBreak p := by
  obtain ⟨marked, mark, found⟩ := bind_eq_ok_iff.mp resolved
  obtain ⟨groups, each, flat⟩ := bind_eq_ok_iff.mp found
  cases flat
  have related := mapM_eq_ok_iff.mp each
  constructor
  · rintro holds ⟨_, anchor, active, modifier, marked', mark', s, member, d, document, cuts⟩
    cases mark.symm.trans mark'
    obtain ⟨group, groupMember, ofSpan⟩ := exists_mem_of_forall₂ related.flip member
    obtain ⟨t, inGroup, outside⟩ :=
      exists_not_holds_of_cutsBreak token contents modifier document cuts ofSpan
    exact outside (holds t (List.mem_flatten.mpr ⟨group, groupMember, inGroup⟩))
  · intro spared t member
    obtain ⟨group, groupMember, inGroup⟩ := List.mem_flatten.mp member
    obtain ⟨s, inMark, ofSpan⟩ := exists_mem_of_forall₂ related groupMember
    have encloses := resolveSpan_encloses_or finds mark inMark ofSpan t inGroup
    exact (encloses.resolve_right spared).holds

/-! ## Results as marks -/

/-- The workspace after an action with other spans. -/
def withThat {M T : Type} (w : Workspace M T) (that : List Span) : Workspace M T := { w with that }

/-- The spans of the previous action, as they are. -/
def previous : Primitive where
  mark := .that
  selectionType := .token

theorem map_span_of_resolveSpan_previous {spans : List TypedSpan}
    (resolved : w.resolveSpan previous s = .ok spans) :
    w.Holds s ∧ spans.map TypedSpan.span = [s] := by
  obtain ⟨d, parts, document, places, found, same⟩ := exists_parts_of_resolveSpan rfl rfl resolved
  cases found
  exact ⟨⟨d, document, places⟩, same⟩

theorem exists_resolveSpan_previous (holds : w.Holds s) :
    ∃ spans, w.resolveSpan previous s = .ok spans := by
  obtain ⟨d, document, places⟩ := holds
  have known : w.document s.doc = .ok d := by rw [Workspace.document, document]
  have inside : outlier? d s.range = none := by simp [outlier?, places.anchor, places.head]
  obtain ⟨context, guessed⟩ := Document.exists_inferDelimiters?_eq_some places.rows
  have grown : d.grow s.range {} .token = .ok (s.range, context) :=
    bind_eq_ok_iff.mpr ⟨context, ofOption_eq_ok_iff.mpr guessed, rfl⟩
  have expanded : ∃ typed, d.expand .token { span := s } = .ok typed :=
    ⟨_, bind_eq_ok_iff.mpr ⟨_, grown, rfl⟩⟩
  obtain ⟨typed, expanded⟩ := expanded
  refine ⟨[typed.place .contents none], bind_eq_ok_iff.mpr ⟨d, known, ?_⟩⟩
  rw [inside]
  refine bind_eq_ok_iff.mpr ⟨[{ span := s }], rfl, mapM_eq_ok_iff.mpr ?_⟩
  exact List.Forall₂.cons (bind_eq_ok_iff.mpr ⟨typed, expanded, rfl⟩) List.Forall₂.nil

/-- Spans are a mark with themselves as its result exactly if all of them lie in their documents. -/
theorem resolvePrimitive_previous_iff (w : Workspace M T) (that : List Span) :
    (∀ s ∈ that, w.Holds s) ↔
      ∃ again, (w.withThat that).resolvePrimitive previous = .ok again ∧
        again.map TypedSpan.span = that := by
  have unfolded : (w.withThat that).resolvePrimitive previous =
      List.flatten <$> that.mapM (w.resolveSpan previous) := rfl
  rw [unfolded]
  constructor
  · intro holds
    obtain ⟨groups, resolved⟩ :=
      exists_mapM_eq_ok_iff.mpr fun s member => exists_resolveSpan_previous (holds s member)
    refine ⟨groups.flatten, map_eq_ok_iff.mpr ⟨groups, resolved, rfl⟩, ?_⟩
    have related := mapM_eq_ok_iff.mp resolved
    clear holds unfolded resolved
    induction related with
    | nil => rfl
    | cons head _ ih =>
        rw [List.flatten_cons, List.map_append, ih, (map_span_of_resolveSpan_previous head).2,
          List.singleton_append]
  · rintro ⟨_, resolved, _⟩ s member
    obtain ⟨groups, each, _⟩ := map_eq_ok_iff.mp resolved
    obtain ⟨spans, ofSpan⟩ := exists_mapM_eq_ok_iff.mp ⟨groups, each⟩ s member
    exact (map_span_of_resolveSpan_previous ofSpan).1

theorem map_adjust_of_undecided {adjust : Adjuster}
    (usual : adjust = id ∨ adjust = TypedSpan.widenOutside) {spans : List TypedSpan}
    (undecided : ∀ t ∈ spans, t.insideOutside = none) : spans.map adjust = spans := by
  rcases usual with rfl | rfl
  · exact List.map_id spans
  · have same : ∀ t ∈ spans, t.widenOutside = id t := by
      intro t member
      exact if_neg (by simp [undecided t member])
    exact (List.map_congr_left same).trans (List.map_id spans)

theorem resolve_previous_eq_ok_iff {adjust : Adjuster}
    (usual : adjust = id ∨ adjust = TypedSpan.widenOutside) {spans : List TypedSpan} :
    w.resolve adjust (.single (.primitive previous)) = .ok spans ↔
      w.resolvePrimitive previous = .ok spans := by
  rw [resolve_single_eq_ok_iff]
  constructor
  · rintro ⟨plain, element, rfl⟩
    rw [map_adjust_of_undecided usual fun t member =>
      (tags_of_resolvePrimitive element t member).2.2]
    exact element
  · intro element
    have unchanged := map_adjust_of_undecided usual fun t member =>
      (tags_of_resolvePrimitive element t member).2.2
    exact ⟨spans, element, unchanged⟩

/-- As the mark of the next action the resulting spans give just themselves exactly if both ends of
each of them are places of its document.  Where the scopes that are found lie in their documents, as
those described by kinds of nodes do in trees that split no breaks, they all are, but for the spans of
an element in which a primitive target cuts a break.  A primitive target of tokens at their contents
that cuts a break always leaves its document, before anything is widened. -/
theorem resolve_within_documents (w : Workspace M T) {adjust : Adjuster}
    (usual : adjust = id ∨ adjust = TypedSpan.widenOutside) {target : Target}
    {spans : List TypedSpan} (resolved : w.resolve adjust target = .ok spans) :
    ((∀ t ∈ spans, w.Holds t.span) ↔
      ∃ again, (w.withThat (spans.map TypedSpan.span)).resolve adjust
          (.single (.primitive previous)) = .ok again ∧
        again.map TypedSpan.span = spans.map TypedSpan.span) ∧
    (w.FindsPlaces →
      (∀ t ∈ spans, w.Holds t.span ∨ ∃ e ∈ target.elements,
        (∃ group, w.resolve adjust (.single e) = .ok group ∧ t ∈ group) ∧
          ∃ p ∈ e.primitives, w.CutsBreak p) ∧
      ∀ p tokens, p.selectionType = .token → p.placement = .contents →
        w.resolve id (.single (.primitive p)) = .ok tokens →
          ((∀ t ∈ tokens, w.Holds t.span) ↔ ¬ w.CutsBreak p)) ∧
    ∀ described : Workspace, described.SparesBreaks → described.FindsPlaces := by
  refine ⟨?_, fun finds => ⟨?_, ?_⟩, fun described => findsPlaces_of_sparesBreaks⟩
  · simp only [resolve_previous_eq_ok_iff usual, ← resolvePrimitive_previous_iff,
      List.forall_mem_map]
  · intro t member
    obtain ⟨e, element, group, ofElement, inGroup⟩ := w.exists_element_of_mem adjust resolved member
    rcases resolve_encloses_or usual finds ofElement t inGroup with encloses | cuts
    · exact Or.inl encloses.holds
    · exact Or.inr ⟨e, element, ⟨group, ofElement, inGroup⟩, cuts⟩
  · intro p tokens token contents ofPrimitive
    obtain ⟨plain, found, same⟩ := resolve_single_eq_ok_iff.mp ofPrimitive
    rw [List.map_id] at same
    exact same ▸ resolvePrimitive_holds_iff finds token contents found

/-- The tree of the text `a,` over `b`: two items with a comma between them. -/
def itemsTree : SyntaxTree :=
  .node ⟨"list", true, none, 0, 5⟩
    [.node ⟨"item", true, none, 0, 1⟩ [], .node ⟨",", false, none, 1, 2⟩ [],
      .node ⟨"item", true, none, 4, 5⟩ []]

/-- The text `a,` over `b`, with two characters for the break. -/
def itemsDocument : Document := ⟨⟨1⟩, "list", ['a', ',', '\r', '\n', 'b']⟩

/-- The whole of that text is selected, and its items can be told. -/
def items : Workspace where
  documents := .ofList [itemsDocument]
  selections := [⟨⟨1⟩, ⟨⟨0, 0⟩, ⟨1, 1⟩⟩⟩]
  trees := .ofList [(⟨1⟩, itemsTree)]
  scopes := some (ScopeRegistry.empty.register "list" .argumentOrParameter
    { kinds := ["item"], delimiter := some "," })

/-- The first item of the selection, with its delimiters. -/
def itemTarget : Primitive where
  mark := .cursor
  modifier := .containingScope .argumentOrParameter false
  selectionType := .token
  insideOutside := some .outside

/-- One character of the selection. -/
def characterTarget (index : Int) : Primitive where
  mark := .cursor
  modifier := .subpiece .character index index
  selectionType := .token

/-- The third byte is the one between the two characters of the break. -/
theorem byteOffset_of_splitsBreak_itemsDocument {i : Nat}
    (splits : itemsDocument.text.SplitsBreak i) : itemsDocument.text.byteOffset i = 3 := by
  have notPlace : itemsDocument.contains (itemsDocument.position i) ≠ true :=
    fun place => (Document.contains_position_iff i).mp place splits
  have first := splits.pos
  have last : i < 5 := splits.lt_length
  obtain rfl | rfl | rfl | rfl : i = 1 ∨ i = 2 ∨ i = 3 ∨ i = 4 := by omega
  · exact absurd rfl notPlace
  · exact absurd rfl notPlace
  · rfl
  · exact absurd rfl notPlace

theorem sparesBreaks_itemsTree : itemsTree.SparesBreaks itemsDocument.text := by
  have spares : ∀ offset, offset ≠ 3 →
      ∀ i, itemsDocument.text.SplitsBreak i → offset ≠ itemsDocument.text.byteOffset i := by
    intro offset other i splits
    rw [byteOffset_of_splitsBreak_itemsDocument splits]
    exact other
  have leaf : ∀ label : NodeLabel, label.start ≠ 3 → label.stop ≠ 3 →
      (SyntaxTree.node label []).SparesBreaks itemsDocument.text :=
    fun label start stop => SyntaxTree.SparesBreaks.node (spares _ start) (spares _ stop) (by simp)
  refine SyntaxTree.SparesBreaks.node (spares _ (by decide)) (spares _ (by decide)) ?_
  intro child member
  simp only [List.mem_cons, List.not_mem_nil, or_false] at member
  rcases member with rfl | rfl | rfl
  all_goals exact leaf _ (by decide) (by decide)

theorem sparesBreaks_items : items.SparesBreaks := by
  intro id d t document tree
  have isDocument : d = itemsDocument := Documents.eq_of_get?_singleton document
  have isTree : t = itemsTree := Keyed.eq_of_get?_singleton tree
  exact isDocument ▸ isTree ▸ sparesBreaks_itemsTree

/-- Meant with its delimiters, the first item reaches over the break to the start of the second
row, and so does its result as a mark. -/
theorem item_within_documents :
    ∃ first, items.resolve TypedSpan.widenOutside (.single (.primitive itemTarget)) = .ok [first] ∧
      first.span = ⟨⟨1⟩, ⟨⟨0, 0⟩, ⟨1, 0⟩⟩⟩ ∧
      ∃ again, (items.withThat [first.span]).resolve TypedSpan.widenOutside
          (.single (.primitive previous)) = .ok again ∧
        again.map TypedSpan.span = [first.span] := by
  obtain ⟨first, resolved, span⟩ :
      ∃ first, items.resolve TypedSpan.widenOutside (.single (.primitive itemTarget)) =
        .ok [first] ∧ first.span = ⟨⟨1⟩, ⟨⟨0, 0⟩, ⟨1, 0⟩⟩⟩ :=
    ⟨_, rfl, rfl⟩
  obtain ⟨reusable, within, described⟩ := resolve_within_documents items (Or.inr rfl) resolved
  refine ⟨first, resolved, span, reusable.mp ?_⟩
  intro t member
  refine ((within (described items sparesBreaks_items)).1 t member).resolve_right ?_
  rintro ⟨e, element, _, p, primitive, _, anchor, active, modifier, _⟩
  cases List.mem_singleton.mp element
  cases List.mem_singleton.mp primitive
  cases modifier

/-- The first character of a break stops where no place is, and cannot be the mark of the next
action. -/
theorem character_not_within_documents :
    items.SparesBreaks ∧
      ∃ character, items.resolve id (.single (.primitive (characterTarget 2))) = .ok [character] ∧
        character.range = ⟨⟨0, 2⟩, ⟨0, 3⟩⟩ ∧ itemsDocument.contains ⟨0, 3⟩ = false ∧
        (items.withThat [character.span]).resolve id (.single (.primitive previous)) =
          refuse (.outOfBounds ⟨1⟩ ⟨0, 3⟩) :=
  ⟨sparesBreaks_items, _, rfl, rfl, rfl, rfl⟩

end Workspace

end TargetSpans
