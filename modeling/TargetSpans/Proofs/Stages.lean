import TargetSpans.Resolution
import TargetSpans.Proofs.NodeRanges

/-!
# What the stages of a resolution can produce

Each stage is described by what it can hand to the next one: the parts of a span that a modifier
can mean, the ranges and contexts that a part can grow to, and the typed spans that a target can
produce.  The stages are shown to produce nothing else, and never to ask a text something that has
no answer; what holds of all products then holds of every resolution.
-/

namespace TargetSpans

open Answer

namespace Document

/-- What a range with known delimiters can grow to: known delimiters are kept unless they are
empty, for a token, or not those of a list, for whole rows. -/
inductive Grows (d : Document) (r : Range) (known : DelimiterContext) :
    SelectionType → Range → DelimiterContext → Prop
  | token {context : DelimiterContext} (kept : known.isEmpty = false → context = known)
      (inferred : known.isEmpty = true → d.inferDelimiters? r = some context) :
      Grows d r known .token r context
  | line {rows : Range} {context : DelimiterContext}
      (whole : d.rowRange? r.start.row r.stop.row = some rows)
      (kept : known.inList = true → context = known)
      (fresh : known.inList = false → d.lineDelimiters? rows = some context) :
      Grows d r known .line rows context
  | paragraph {rows : Range} {context : DelimiterContext}
      (whole : d.rowRange? (d.paragraphRows r).1 (d.paragraphRows r).2 = some rows)
      (kept : known.inList = true → context = known)
      (fresh : known.inList = false → d.paragraphDelimiters? rows = some context) :
      Grows d r known .paragraph rows context
  | document : Grows d r known .document ⟨.origin, d.finish⟩ known

variable {d : Document} {r : Range}

theorem grow_yields (inside : d.HasRows r) (known : DelimiterContext)
    (selectionType : SelectionType) :
    Yields (fun result => d.Grows r known selectionType result.1 result.2)
      (d.grow r known selectionType) := by
  cases selectionType with
  | token =>
      simp only [grow]
      split
      case isTrue empty =>
        have guess := exists_inferDelimiters?_eq_some inside
        refine (yields_ofOption guess).map fun context equal => ?_
        exact Grows.token (by simp [empty]) fun _ => equal
      case isFalse nonempty =>
        exact yields_ok (Grows.token (fun _ => rfl) fun empty => absurd empty nonempty)
  | line =>
      obtain ⟨_, _, _, _, whole⟩ := exists_rowRange? inside.start_row inside.stop_row
      simp only [grow]
      refine (yields_ofOption ⟨_, whole⟩).bind fun rows whole => ?_
      split
      case isTrue listed =>
        exact yields_ok (Grows.line whole (fun _ => rfl) (by simp [listed]))
      case isFalse unlisted =>
        have fresh := exists_lineDelimiters? (hasRows_of_rowRange? whole)
        refine (yields_ofOption fresh).map fun context equal => ?_
        exact Grows.line whole (fun listed => absurd listed unlisted) fun _ => equal
  | paragraph =>
      -- The rows are counted from the range both ways, so neither end can leave the document.
      obtain ⟨above, below, lastInside⟩ := paragraphRows_spec inside
      have firstInside : (d.paragraphRows r).1 < d.lineCount :=
        Nat.lt_of_le_of_lt above inside.start_row
      obtain ⟨_, _, _, _, whole⟩ := exists_rowRange? firstInside lastInside
      simp only [grow, paragraphRows?_eq inside]
      refine (yields_ofOption ⟨_, whole⟩).bind fun rows whole => ?_
      split
      case isTrue listed =>
        exact yields_ok (Grows.paragraph whole (fun _ => rfl) (by simp [listed]))
      case isFalse unlisted =>
        have fresh := exists_paragraphDelimiters? (hasRows_of_rowRange? whole)
        refine (yields_ofOption fresh).map fun context equal => ?_
        exact Grows.paragraph whole (fun listed => absurd listed unlisted) fun _ => equal
  | document => exact yields_ok Grows.document
  | character => exact yields_refuse _ _

theorem of_expand_eq_ok {part : Part} {selectionType : SelectionType} {t : TypedSpan}
    (expanded : d.expand selectionType part = .ok t) :
    t.doc = part.span.doc ∧ t.selectionType = selectionType := by
  obtain ⟨_, _, equal⟩ := bind_eq_ok_iff.mp expanded
  cases equal
  exact ⟨rfl, rfl⟩

end Document

namespace Workspace

/-- The parts of a span that a modifier can mean: the span itself, a scope around it that the
matcher for the language finds in the tree of the document, or the stretch between two indices. -/
inductive PartOf (w : Workspace) (d : Document) (s : Span) : Modifier → Part → Prop
  | identity : PartOf w d s .identity { span := s }
  | scope {kind : ScopeKind} {includeSiblings : Bool} {m : NodeMatcher} {t : SyntaxTree}
      {n scope : Node} {found : ScopeMatch} (matcher : w.matcher d.language kind = .ok m)
      (tree : w.trees.get? d.id = some t) (within : Node.Within t n)
      (source : m.ScopeFrom d n scope found) :
      PartOf w d s (.containingScope kind includeSiblings)
        ⟨{ s with range := found.range }, found.context⟩
  | piece {kind : PieceKind} {anchor active : Int} (first last : Nat) :
      PartOf w d s (.subpiece kind anchor active)
        { span := { s with range := ⟨d.position first, d.position last⟩ } }

theorem PartOf.hasRows {w : Workspace} {d : Document} {s : Span} {m : Modifier} {part : Part}
    (rows : d.HasRows s.range) (means : w.PartOf d s m part) : d.HasRows part.span.range := by
  cases means with
  | identity => exact rows
  | scope matcher tree within source =>
      rw [source.range]
      exact Node.hasRows_range _ d
  | piece first last => exact Document.hasRows_positions first last

theorem PartOf.doc_eq {w : Workspace} {d : Document} {s : Span} {m : Modifier} {part : Part}
    (means : w.PartOf d s m part) : part.span.doc = s.doc := by
  cases means <;> rfl

theorem indexAmong_yields (index : Int) (count : Nat) :
    Yields (fun _ => True) (Piece.indexAmong index count) := by
  unfold Piece.indexAmong
  extract_lets position
  split
  · exact yields_ok trivial
  · exact yields_refuse _ _

theorem subpiece_yields {d : Document} {r : Range} (rows : d.HasRows r) (kind : PieceKind)
    (anchor active : Int) :
    Yields (fun piece => ∃ first last, piece = ⟨d.position first, d.position last⟩)
      (d.subpiece r kind anchor active) := by
  unfold Document.subpiece
  refine (yields_ofOption (Document.exists_textOf? rows)).bind fun text _ => ?_
  refine (indexAmong_yields _ _).bind fun first _ => ?_
  refine (indexAmong_yields _ _).bind fun last _ => ?_
  exact yields_ok ⟨_, _, rfl⟩

theorem findFirst_yields (m : NodeMatcher) (d : Document) (nodes : List Node) :
    Yields (fun result => ∀ n found, result = some (n, found) →
      n ∈ nodes ∧ ∃ scope, m.ScopeFrom d n scope found) (ScopeMatcher.findFirst m d nodes) := by
  induction nodes with
  | nil => exact yields_ok (by simp)
  | cons n rest ih =>
      unfold ScopeMatcher.findFirst
      refine (m.find_yields d n).bind fun result source => ?_
      cases result with
      | some found =>
          apply yields_ok
          rintro _ _ ⟨⟩
          exact ⟨List.mem_cons_self, source found rfl⟩
      | none =>
          refine ih.imp fun result later other found equal => ?_
          obtain ⟨member, source⟩ := later other found equal
          exact ⟨List.mem_cons_of_mem n member, source⟩

theorem findAll_yields (m : NodeMatcher) (d : Document) (nodes : List Node) :
    Yields (fun results => ∀ found ∈ results, ∃ n ∈ nodes, ∃ scope, m.ScopeFrom d n scope found)
      (ScopeMatcher.findAll m d nodes) := by
  unfold ScopeMatcher.findAll
  refine (yields_mapM fun n _ => m.find_yields d n).map fun results related found member => ?_
  obtain ⟨result, resultMember, equal⟩ := List.mem_filterMap.mp member
  obtain ⟨n, nodeMember, source⟩ := exists_mem_of_forall₂ related resultMember
  exact ⟨n, nodeMember, source found equal⟩

theorem matcher_yields {M T : Type} (w : Workspace M T) (language : String) (kind : ScopeKind) :
    Yields (fun m => w.matcher language kind = .ok m) (w.matcher language kind) := by
  have defined : Yields (fun _ => True) (w.matcher language kind) := by
    unfold matcher
    split
    · unfold ScopeRegistry.matcher
      split
      · exact yields_ok trivial
      · exact yields_refuse _ _
    · exact yields_refuse _ _
  exact defined.eq_ok

/-- The search for scopes meets nodes of the document's tree only. -/
theorem scopesAround_yields (w : Workspace) (d : Document) (r : Range) (kind : ScopeKind)
    (includeSiblings : Bool) :
    Yields (fun scopes => ∀ found ∈ scopes, ∃ m t n scope,
        w.matcher d.language kind = .ok m ∧ w.trees.get? d.id = some t ∧ Node.Within t n ∧
          m.ScopeFrom d n scope found)
      (w.scopesAround d r kind includeSiblings) := by
  unfold scopesAround
  refine (w.matcher_yields d.language kind).bind fun m matcher => ?_
  split
  case h_1 => exact yields_refuse _ _
  case h_2 start smallest =>
    obtain ⟨t, tree, rfl⟩ : ∃ t, w.trees.get? d.id = some t ∧
        Node.atOffset t (d.byteOffset r.start) = start := by
      simpa [nodeAt?_eq] using smallest
    refine (findFirst_yields m d _).bind fun result sources => ?_
    cases result with
    | none => exact yields_refuse _ _
    | some first =>
        obtain ⟨n, found⟩ := first
        obtain ⟨member, scope, source⟩ := sources n found rfl
        have within := (Node.within_atOffset t _).selfAndParents n member
        have single : Yields (fun scopes => ∀ found ∈ scopes, ∃ m t n scope,
            w.matcher d.language kind = .ok m ∧ w.trees.get? d.id = some t ∧
              Node.Within t n ∧ m.ScopeFrom d n scope found) (pure [found]) := by
          apply yields_ok
          intro other member
          cases List.mem_singleton.mp member
          exact ⟨m, t, n, scope, matcher, tree, within, source⟩
        simp only
        split
        case h_1 => exact single
        case h_2 parent above =>
          split
          case isTrue siblings =>
            refine (findAll_yields m d _).imp fun scopes sources found member => ?_
            obtain ⟨c, child, scope, source⟩ := sources found member
            have inside := (within.parent above).child child
            exact ⟨m, t, c, scope, matcher, tree, inside, source⟩
          case isFalse alone => exact single

/-- A modifier means nothing but parts of its kind. -/
theorem parts_yields (w : Workspace) {d : Document} {s : Span} (rows : d.HasRows s.range)
    (m : Modifier) :
    Yields (fun parts => ∀ part ∈ parts, w.PartOf d s m part) (w.parts m d s) := by
  cases m with
  | identity =>
      apply yields_ok
      intro part member
      cases List.mem_singleton.mp member
      exact PartOf.identity
  | containingScope kind includeSiblings =>
      refine (w.scopesAround_yields d s.range kind includeSiblings).map fun scopes sources => ?_
      intro part member
      obtain ⟨found, foundMember, rfl⟩ := List.mem_map.mp member
      obtain ⟨m, t, n, scope, matcher, tree, within, source⟩ := sources found foundMember
      exact PartOf.scope matcher tree within source
  | subpiece kind anchor active =>
      refine (subpiece_yields rows kind anchor active).map fun piece ends => ?_
      obtain ⟨first, last, rfl⟩ := ends
      intro part member
      cases List.mem_singleton.mp member
      exact PartOf.piece first last
  | matchingPairSymbol => exact yields_refuse _ _
  | surroundingPair => exact yields_refuse _ _

/-! ## Primitive targets -/

/-- The typed spans that a primitive target can produce from one span of its mark, which must lie
in its document: a part of the span, grown and placed. -/
inductive Produces (w : Workspace) (p : Primitive) (s : Span) : TypedSpan → Prop
  | intro {d : Document} {part : Part} {range : Range} {context : DelimiterContext}
      (document : w.documents.get? s.doc = some d) (anchor : d.contains s.range.anchor = true)
      (head : d.contains s.range.head = true) (means : w.PartOf d s p.modifier part)
      (grows : d.Grows part.span.range part.context p.selectionType range context) :
      Produces w p s
        (TypedSpan.place
          { span := { part.span with range := range.toward part.span.range.direction }
            selectionType := p.selectionType
            context }
          p.placement p.insideOutside)

theorem contains_of_outlier?_eq_none {d : Document} {r : Range} (inside : outlier? d r = none) :
    d.contains r.anchor = true ∧ d.contains r.head = true := by
  simpa [outlier?] using inside

theorem document_yields {M T : Type} (w : Workspace M T) (id : DocumentId) :
    Yields (fun d => w.documents.get? id = some d) (w.document id) := by
  unfold document
  split
  case h_1 d found => exact yields_ok found
  case h_2 => exact yields_refuse _ _

theorem marked_yields {M T : Type} (w : Workspace M T) (m : Mark) :
    Yields (fun _ => True) (w.marked m) := by
  cases m with
  | cursor => exact yields_ok trivial
  | decoratedSymbol color character =>
      simp only [marked]
      split
      · exact yields_ok trivial
      · exact yields_refuse _ _
  | that => exact yields_ok trivial
  | lastCursorPosition => exact yields_refuse _ _

theorem expand_yields {d : Document} {part : Part} (rows : d.HasRows part.span.range)
    (selectionType : SelectionType) :
    Yields (fun typed => ∃ range context,
        d.Grows part.span.range part.context selectionType range context ∧
          typed = {
            span := { part.span with range := range.toward part.span.range.direction }
            selectionType
            context })
      (d.expand selectionType part) := by
  unfold Document.expand
  refine (Document.grow_yields rows part.context selectionType).bind fun result grows => ?_
  exact yields_ok ⟨result.1, result.2, grows, rfl⟩

theorem resolveSpan_yields (w : Workspace) (p : Primitive) (s : Span) :
    Yields (fun spans => ∀ t ∈ spans, w.Produces p s t) (w.resolveSpan p s) := by
  unfold resolveSpan
  refine (w.document_yields s.doc).bind fun d document => ?_
  split
  case h_1 => exact yields_refuse _ _
  case h_2 inside =>
    obtain ⟨anchor, head⟩ := contains_of_outlier?_eq_none inside
    have rows := Document.hasRows_of_contains anchor head
    refine (w.parts_yields rows p.modifier).bind fun parts means => ?_
    apply yields_mapM_forall
    intro part member
    have partOf := means part member
    refine (expand_yields (partOf.hasRows rows) p.selectionType).map fun typed grown => ?_
    obtain ⟨range, context, grows, rfl⟩ := grown
    exact Produces.intro document anchor head partOf grows

/-- A primitive target resolves to nothing but what the spans of its mark produce. -/
theorem resolvePrimitive_yields (w : Workspace) (p : Primitive) :
    Yields (fun spans => ∀ t ∈ spans, ∃ s, w.Produces p s t) (w.resolvePrimitive p) := by
  unfold resolvePrimitive
  refine (w.marked_yields p.mark).bind fun spans _ => ?_
  refine (yields_mapM fun s _ => w.resolveSpan_yields p s).map fun groups related t member => ?_
  obtain ⟨group, groupMember, inside⟩ := List.mem_flatten.mp member
  obtain ⟨s, _, produces⟩ := exists_mem_of_forall₂ related groupMember
  exact ⟨s, produces t inside⟩

/-! ## Whatever the matchers are -/

section

variable {M T : Type} [ScopeMatcher M] [SyntaxProvider T] {w : Workspace M T} {d : Document}
  {s : Span} {p : Primitive} {spans : List TypedSpan}

theorem doc_of_parts {m : Modifier} {parts : List Part} (meant : w.parts m d s = .ok parts) :
    ∀ part ∈ parts, part.span.doc = s.doc := by
  intro part member
  cases m with
  | identity =>
      cases meant
      cases List.mem_singleton.mp member
      rfl
  | containingScope kind includeSiblings =>
      obtain ⟨scopes, _, equal⟩ := bind_eq_ok_iff.mp meant
      cases equal
      obtain ⟨found, _, rfl⟩ := List.mem_map.mp member
      rfl
  | subpiece kind anchor active =>
      obtain ⟨range, _, equal⟩ := bind_eq_ok_iff.mp meant
      cases equal
      cases List.mem_singleton.mp member
      rfl
  | matchingPairSymbol => cases meant
  | surroundingPair => cases meant

/-- A span that a primitive target makes of a span of its mark is a part of it, grown and placed. -/
theorem exists_expand_of_resolveSpan (resolved : w.resolveSpan p s = .ok spans) :
    ∀ t ∈ spans, ∃ (d : Document) (part : Part) (typed : TypedSpan), part.span.doc = s.doc ∧
      d.expand p.selectionType part = .ok typed ∧ t = typed.place p.placement p.insideOutside := by
  intro t member
  obtain ⟨d, _, resolved⟩ := bind_eq_ok_iff.mp resolved
  split at resolved
  case h_1 => cases resolved
  case h_2 =>
    obtain ⟨parts, meant, resolved⟩ := bind_eq_ok_iff.mp resolved
    obtain ⟨part, partMember, placed⟩ :=
      exists_mem_of_forall₂ (mapM_eq_ok_iff.mp resolved) member
    obtain ⟨typed, expanded, equal⟩ := bind_eq_ok_iff.mp placed
    cases equal
    exact ⟨d, part, typed, doc_of_parts meant part partMember, expanded, rfl⟩

theorem doc_of_resolveSpan (resolved : w.resolveSpan p s = .ok spans) :
    ∀ t ∈ spans, t.doc = s.doc := by
  intro t member
  obtain ⟨d, part, typed, sameDoc, expanded, rfl⟩ := exists_expand_of_resolveSpan resolved t member
  exact (Document.of_expand_eq_ok expanded).1.trans sameDoc

/-- What a primitive target says about its spans is on all of them. -/
theorem tags_of_resolvePrimitive (resolved : w.resolvePrimitive p = .ok spans) :
    ∀ t ∈ spans, t.selectionType = p.selectionType ∧ t.placement = p.placement ∧
      t.insideOutside = p.insideOutside := by
  intro t member
  obtain ⟨marked, _, found⟩ := bind_eq_ok_iff.mp resolved
  obtain ⟨groups, each, flat⟩ := bind_eq_ok_iff.mp found
  cases flat
  obtain ⟨group, groupMember, inGroup⟩ := List.mem_flatten.mp member
  obtain ⟨s, _, ofSpan⟩ := exists_mem_of_forall₂ (mapM_eq_ok_iff.mp each) groupMember
  obtain ⟨d, part, typed, _, expanded, rfl⟩ := exists_expand_of_resolveSpan ofSpan t inGroup
  exact ⟨(Document.of_expand_eq_ok expanded).2, rfl, rfl⟩

end

end Workspace

/-! ## Ranges and lists -/

namespace TypedSpan

theorem join_yields (first second : TypedSpan) :
    Yields (fun t => first.join second = .ok t) (first.join second) := by
  have defined : Yields (fun _ => True) (first.join second) := by
    unfold join
    split
    · exact yields_ok trivial
    · exact yields_refuse _ _
  exact defined.eq_ok

theorem joinAll_yields (firsts seconds : List TypedSpan) :
    Yields (fun spans => ∀ t ∈ spans, ∃ first ∈ firsts, ∃ second ∈ seconds,
        first.join second = .ok t)
      (joinAll firsts seconds) := by
  unfold joinAll
  split
  case isFalse => exact yields_refuse _ _
  case isTrue =>
    apply yields_mapM_forall
    rintro ⟨first, second⟩ member
    obtain ⟨firstMember, secondMember⟩ := List.of_mem_zip member
    refine (first.join_yields second).imp fun t joined => ?_
    exact ⟨first, firstMember, second, secondMember, joined⟩

end TypedSpan

/-- The primitive targets of an element. -/
def Element.primitives : Element → List Primitive
  | .primitive p => [p]
  | .range start stop => [start, stop]

/-- The elements of a target. -/
def Target.elements : Target → List Element
  | .single e => [e]
  | .list elements => elements

/-- The primitive targets anywhere in a target. -/
def Target.primitives (target : Target) : List Primitive :=
  target.elements.flatMap Element.primitives

namespace Workspace

/-- The spans of an element before any adjustment: what a primitive target produces, or the stretch
between what the two ends of a range produce. -/
inductive Spans (w : Workspace) : Element → TypedSpan → Prop
  | primitive {p : Primitive} {s : Span} {t : TypedSpan} (produces : w.Produces p s t) :
      Spans w (.primitive p) t
  | range {start stop : Primitive} {s s' : Span} {first second t : TypedSpan}
      (starts : w.Produces start s first) (stops : w.Produces stop s' second)
      (joined : first.join second = .ok t) : Spans w (.range start stop) t

theorem resolveElement_yields (w : Workspace) (e : Element) :
    Yields (fun spans => ∀ t ∈ spans, w.Spans e t) (w.resolveElement e) := by
  cases e with
  | primitive p =>
      refine (w.resolvePrimitive_yields p).imp fun spans produced t member => ?_
      obtain ⟨s, produces⟩ := produced t member
      exact Spans.primitive produces
  | range start stop =>
      simp only [resolveElement]
      refine (w.resolvePrimitive_yields start).bind fun firsts starts => ?_
      refine (w.resolvePrimitive_yields stop).bind fun seconds stops => ?_
      refine (TypedSpan.joinAll_yields firsts seconds).imp fun spans joins t member => ?_
      obtain ⟨first, firstMember, second, secondMember, joined⟩ := joins t member
      obtain ⟨s, starts⟩ := starts first firstMember
      obtain ⟨s', stops⟩ := stops second secondMember
      exact Spans.range starts stops joined

/-- The spans of a target are the adjusted spans of its elements. -/
theorem resolve_yields (w : Workspace) (adjust : Adjuster) (target : Target) :
    Yields (fun spans => ∀ t ∈ spans, ∃ e ∈ target.elements, ∃ plain,
        w.Spans e plain ∧ t = adjust plain)
      (w.resolve adjust target) := by
  have adjusted : ∀ e, Yields (fun spans => ∀ t ∈ spans, ∃ plain,
      w.Spans e plain ∧ t = adjust plain) (w.resolveAdjusted adjust e) := by
    intro e
    refine (w.resolveElement_yields e).map fun spans plains t member => ?_
    obtain ⟨plain, plainMember, rfl⟩ := List.mem_map.mp member
    exact ⟨plain, plains plain plainMember, rfl⟩
  cases target with
  | single e =>
      refine (adjusted e).imp fun spans plains t member => ?_
      obtain ⟨plain, source⟩ := plains t member
      exact ⟨e, List.mem_singleton_self e, plain, source⟩
  | list elements =>
      refine (yields_mapM fun e _ => adjusted e).map fun groups related t member => ?_
      obtain ⟨group, groupMember, inside⟩ := List.mem_flatten.mp member
      obtain ⟨e, elementMember, plains⟩ := exists_mem_of_forall₂ related groupMember
      obtain ⟨plain, source⟩ := plains t inside
      exact ⟨e, elementMember, plain, source⟩

/-! ## The last step -/

section

variable {M T : Type} [ScopeMatcher M] [SyntaxProvider T]

theorem resolveAdjusted_eq_map (w : Workspace M T) (adjust : Adjuster) (e : Element) :
    w.resolveAdjusted adjust e = List.map adjust <$> w.resolveElement e := by
  rw [resolveAdjusted, bind_pure_comp]

theorem resolve_single_eq_ok_iff {w : Workspace M T} {adjust : Adjuster} {e : Element}
    {spans : List TypedSpan} :
    w.resolve adjust (.single e) = .ok spans ↔
      ∃ plain, w.resolveElement e = .ok plain ∧ plain.map adjust = spans := by
  rw [resolve, resolveAdjusted_eq_map, map_eq_ok_iff]

/-- Adjusting is the very last step, so a target may as well be resolved without it first. -/
theorem resolve_eq_map (w : Workspace M T) (adjust : Adjuster) (target : Target) :
    w.resolve adjust target = List.map adjust <$> w.resolve id target := by
  have plain : ∀ e, w.resolveAdjusted id e = w.resolveElement e := by
    intro e
    rw [resolveAdjusted_eq_map, List.map_id_fun, id_map]
  cases target with
  | single e => rw [resolve, resolve, plain, resolveAdjusted_eq_map]
  | list elements =>
      simp only [resolve, bind_pure_comp, funext plain, funext (w.resolveAdjusted_eq_map adjust),
        mapM_map_comp, Functor.map_map, List.map_flatten]

/-- What holds of the spans that each primitive target makes of its mark, and is kept by joining and
by adjusting, holds of all spans of a target. -/
theorem forall_of_resolve {w : Workspace M T} {adjust : Adjuster} {target : Target}
    {P : TypedSpan → Prop}
    (single : ∀ e ∈ target.elements, ∀ p ∈ e.primitives, ∀ marked, w.marked p.mark = .ok marked →
      ∀ s ∈ marked, ∀ spans, w.resolveSpan p s = .ok spans → ∀ t ∈ spans, P t)
    (joins : ∀ first second t, P first → P second → first.join second = .ok t → P t)
    (adjusts : ∀ t, P t → P (adjust t)) {spans : List TypedSpan}
    (resolved : w.resolve adjust target = .ok spans) : ∀ t ∈ spans, P t := by
  have primitives : ∀ e ∈ target.elements, ∀ p ∈ e.primitives, ∀ spans,
      w.resolvePrimitive p = .ok spans → ∀ t ∈ spans, P t := by
    intro e element p primitive spans found t member
    obtain ⟨marked, mark, found⟩ := bind_eq_ok_iff.mp found
    obtain ⟨groups, each, flat⟩ := bind_eq_ok_iff.mp found
    cases flat
    obtain ⟨group, groupMember, inGroup⟩ := List.mem_flatten.mp member
    obtain ⟨s, inMark, ofSpan⟩ := exists_mem_of_forall₂ (mapM_eq_ok_iff.mp each) groupMember
    exact single e element p primitive marked mark s inMark group ofSpan t inGroup
  have elements : ∀ e ∈ target.elements, ∀ spans,
      w.resolveAdjusted adjust e = .ok spans → ∀ t ∈ spans, P t := by
    intro e element spans adjusted t member
    rw [resolveAdjusted_eq_map, map_eq_ok_iff] at adjusted
    obtain ⟨plain, found, rfl⟩ := adjusted
    obtain ⟨unadjusted, inPlain, rfl⟩ := List.mem_map.mp member
    apply adjusts
    cases e with
    | primitive p =>
        exact primitives _ element p (List.mem_singleton_self p) plain found unadjusted inPlain
    | range start stop =>
        have stopMember : stop ∈ (Element.range start stop).primitives :=
          List.mem_cons_of_mem start (List.mem_singleton_self stop)
        obtain ⟨firsts, starts, found⟩ := bind_eq_ok_iff.mp found
        obtain ⟨seconds, stops, joined⟩ := bind_eq_ok_iff.mp found
        obtain ⟨first, inFirsts, second, inSeconds, equal⟩ :=
          (TypedSpan.joinAll_yields firsts seconds).of_eq_ok joined unadjusted inPlain
        have ofFirst := primitives _ element start List.mem_cons_self firsts starts first inFirsts
        have ofSecond := primitives _ element stop stopMember seconds stops second inSeconds
        exact joins first second unadjusted ofFirst ofSecond equal
  cases target with
  | single e => exact elements e (List.mem_singleton_self e) spans resolved
  | list es =>
      obtain ⟨groups, each, flat⟩ := bind_eq_ok_iff.mp resolved
      cases flat
      intro t member
      obtain ⟨group, groupMember, inGroup⟩ := List.mem_flatten.mp member
      obtain ⟨e, element, ofElement⟩ := exists_mem_of_forall₂ (mapM_eq_ok_iff.mp each) groupMember
      exact elements e element group ofElement t inGroup

end

end Workspace

end TargetSpans
