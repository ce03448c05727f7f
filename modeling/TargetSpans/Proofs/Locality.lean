import TargetSpans.Proofs.Carets

/-!
# Documents do not interfere

A span is resolved in its own document: the text and the language are those of the document, and so
is the tree, which is looked up under the same number.  Two workspaces with the same marks and
scopes therefore resolve a target alike, with the same failures, as soon as they agree on the
documents in which its marks lie.  What the other documents contain, and whether they are open, does
not matter.
-/

namespace TargetSpans

open Answer

namespace Workspace

variable {M : Type}

/-- Two workspaces differ in their documents and trees at most. -/
structure SameSources (w w' : Workspace M) : Prop where
  selections : w.selections = w'.selections
  that : w.that = w'.that
  tokens : w.tokens = w'.tokens
  scopes : w.scopes = w'.scopes

/-- What two workspaces have under a number is the same document, or none, with the same tree. -/
structure AgreeOn (w w' : Workspace M) (id : DocumentId) : Prop where
  document : w.documents.get? id = w'.documents.get? id
  tree : w.trees.get? id = w'.trees.get? id

/-- Some mark of a target has a span in a document. -/
def MarksIn (w : Workspace M) (target : Target) (id : DocumentId) : Prop :=
  ∃ p ∈ target.primitives, ∃ marked, w.marked p.mark = .ok marked ∧ ∃ s ∈ marked, s.doc = id

variable {w w' : Workspace M}

namespace SameSources

variable (same : w.SameSources w')
include same

theorem matcher_eq (language : String) (kind : ScopeKind) :
    w.matcher language kind = w'.matcher language kind := by
  rw [matcher, matcher, same.scopes]

theorem marked_eq (m : Mark) : w.marked m = w'.marked m := by
  cases m with
  | cursor => exact congrArg Except.ok same.selections
  | decoratedSymbol color character => rw [marked, marked, same.tokens]
  | that => exact congrArg Except.ok same.that
  | lastCursorPosition => rfl

variable [ScopeMatcher M]

theorem parts_eq {d : Document} (tree : w.trees.get? d.id = w'.trees.get? d.id) (m : Modifier)
    (s : Span) : w.parts m d s = w'.parts m d s := by
  cases m with
  | containingScope kind includeSiblings =>
      have node : w.nodeAt? d s.range.start = w'.nodeAt? d s.range.start := by
        rw [nodeAt?_eq, nodeAt?_eq, tree]
      simp only [parts, scopesAround, same.matcher_eq, node]
  | identity | subpiece | matchingPairSymbol | surroundingPair => rfl

theorem resolveSpan_eq (p : Primitive) {s : Span} (agree : w.AgreeOn w' s.doc) :
    w.resolveSpan p s = w'.resolveSpan p s := by
  have known : w.document s.doc = w'.document s.doc := by rw [document, document, agree.document]
  unfold resolveSpan
  rw [← known]
  cases found : w.document s.doc with
  | error failure => rfl
  | ok d =>
      -- The tree is looked up by the number that the document has itself.
      have number : d.id = s.doc := Documents.id_of_get? ((w.document_yields s.doc).of_eq_ok found)
      have tree : w.trees.get? d.id = w'.trees.get? d.id := number ▸ agree.tree
      have parts := same.parts_eq tree p.modifier s
      simp only [bind, Except.bind, parts]

theorem resolvePrimitive_eq {p : Primitive}
    (agree : ∀ marked, w.marked p.mark = .ok marked → ∀ s ∈ marked, w.AgreeOn w' s.doc) :
    w.resolvePrimitive p = w'.resolvePrimitive p := by
  unfold resolvePrimitive
  rw [← same.marked_eq]
  cases mark : w.marked p.mark with
  | error failure => rfl
  | ok marked =>
      have groups : marked.mapM (w.resolveSpan p) = marked.mapM (w'.resolveSpan p) :=
        mapM_congr fun s member => same.resolveSpan_eq p (agree marked mark s member)
      simp only [bind, Except.bind, groups]

end SameSources

variable [ScopeMatcher M]

theorem resolveElement_congr {e : Element} (equal : ∀ p ∈ e.primitives,
    w.resolvePrimitive p = w'.resolvePrimitive p) : w.resolveElement e = w'.resolveElement e := by
  cases e with
  | primitive p => exact equal p (List.mem_singleton_self p)
  | range start stop =>
      obtain ⟨first, second⟩ := Element.forall_primitives_range.mp equal
      rw [resolveElement, resolveElement, first, second]

/-- A target is resolved alike, or refused alike, in any two workspaces with the same marks and
scopes that agree on the documents in which its marks lie. -/
theorem resolve_eq_of_agreeOn (adjust : Adjuster) {target : Target} (same : w.SameSources w')
    (agree : ∀ id, w.MarksIn target id → w.AgreeOn w' id) :
    w.resolve adjust target = w'.resolve adjust target := by
  have primitives : ∀ p ∈ target.primitives, w.resolvePrimitive p = w'.resolvePrimitive p := by
    intro p member
    apply same.resolvePrimitive_eq
    intro marked mark s inMark
    exact agree s.doc ⟨p, member, marked, mark, s, inMark, rfl⟩
  have elements : ∀ e ∈ target.elements,
      w.resolveAdjusted adjust e = w'.resolveAdjusted adjust e := by
    intro e member
    rw [resolveAdjusted, resolveAdjusted, resolveElement_congr]
    intro p inElement
    exact primitives p (List.mem_flatMap.mpr ⟨e, member, inElement⟩)
  cases target with
  | single e => exact elements e (List.mem_singleton_self e)
  | list es =>
      have groups : es.mapM (w.resolveAdjusted adjust) = es.mapM (w'.resolveAdjusted adjust) :=
        mapM_congr elements
      simp only [resolve, groups]

/-- The workspace `calls` beside another document with the same tree. -/
def callsBesideOther : Workspace :=
  { calls with
    documents := .ofList [⟨⟨1⟩, "call", ['a', 'b', '\n', 'c', 'd']⟩, ⟨⟨2⟩, "plain", ['x']⟩]
    trees := .ofList [(⟨1⟩, callsTree), (⟨2⟩, callsTree)] }

theorem letters_beside_other :
    (calls.withSelections [caretAt 1]).resolve id (.single lettersTarget) =
        .ok [stretch ⟨1, 0⟩ ⟨1, 1⟩] ∧
      (callsBesideOther.withSelections [caretAt 1]).resolve id (.single lettersTarget) =
        .ok [stretch ⟨1, 0⟩ ⟨1, 1⟩] := by
  have alone : (calls.withSelections [caretAt 1]).resolve id (.single lettersTarget) =
      .ok [stretch ⟨1, 0⟩ ⟨1, 1⟩] := rfl
  refine ⟨alone, ?_⟩
  rw [← alone]
  symm
  refine resolve_eq_of_agreeOn id ⟨rfl, rfl, rfl, rfl⟩ ?_
  rintro other ⟨p, member, marked, mark, s, inMark, rfl⟩
  have cursors : ∀ p ∈ lettersTarget.primitives, p.mark = .cursor :=
    Element.forall_primitives_range.mpr ⟨rfl, rfl⟩
  rw [cursors p (by simpa [Target.primitives, Target.elements] using member)] at mark
  cases mark
  cases List.mem_singleton.mp inMark
  exact ⟨rfl, rfl⟩

end Workspace

end TargetSpans
