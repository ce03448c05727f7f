import TargetSpans.Proofs.Carets
import TargetSpans.Proofs.SelfRanges
import TargetSpans.Proofs.Unmodified

/-!
# Ranges over one mark

When both ends of a range start from the same mark and take no siblings in, either end makes one
span of each span of the mark, in the same order and in the same documents, whatever else it asks
for.  The ends can then always be joined, so that the range resolves whenever both of them do, and
to one stretch for each span of the mark.  That nothing but the joining can find fault with the ends
as a pair is seen by going through all the other stages.
-/

namespace TargetSpans

open Answer

/-- The refusals that a primitive target can meet by itself.  The other ones are those of two ends
that do not go together. -/
def Refusal.OfPrimitive : Refusal → Prop
  | lengthMismatch _ _ => False
  | crossDocumentRange => False
  | _ => True

/-! ## Refusals of a primitive target -/

namespace ScopeMatcher

variable {M : Type} [ScopeMatcher M] (m : M) (d : Document)

theorem find_refusedFor (n : Node) : RefusedFor Refusal.OfPrimitive (find m d n) :=
  refusedFor_of_ne (find_ne_refuse m d n)

theorem findFirst_refusedFor (nodes : List Node) :
    RefusedFor Refusal.OfPrimitive (findFirst m d nodes) := by
  induction nodes with
  | nil => exact refusedFor_ok _ none
  | cons n rest ih =>
      rw [findFirst]
      refine (find_refusedFor m d n).bind fun result => ?_
      cases result with
      | none => exact ih
      | some found => exact refusedFor_ok _ _

theorem findAll_refusedFor (nodes : List Node) :
    RefusedFor Refusal.OfPrimitive (findAll m d nodes) :=
  (refusedFor_mapM (find_refusedFor m d) nodes).bind fun _ => refusedFor_ok _ _

end ScopeMatcher

namespace Document

theorem indexAmong_refusedFor (index : Int) (count : Nat) :
    RefusedFor Refusal.OfPrimitive (Piece.indexAmong index count) := by
  unfold Piece.indexAmong
  extract_lets position
  split
  · exact refusedFor_ok _ _
  · exact refusedFor_refuse trivial

theorem subpiece_refusedFor (d : Document) (r : Range) (kind : PieceKind) (anchor active : Int) :
    RefusedFor Refusal.OfPrimitive (d.subpiece r kind anchor active) := by
  refine (refusedFor_ofOption _ _).bind fun text => ?_
  refine (indexAmong_refusedFor anchor _).bind fun first => ?_
  exact (indexAmong_refusedFor active _).bind fun last => refusedFor_ok _ _

theorem grow_refusedFor (d : Document) (r : Range) (known : DelimiterContext)
    (selectionType : SelectionType) :
    RefusedFor Refusal.OfPrimitive (d.grow r known selectionType) := by
  by_cases reserved : selectionType = .character
  · subst reserved
    exact refusedFor_refuse trivial
  · exact fun cause refused => absurd refused (grow_ne_refuse reserved cause)

end Document

namespace Workspace

section

variable {M T : Type} (w : Workspace M T)

theorem marked_refusedFor (m : Mark) : RefusedFor Refusal.OfPrimitive (w.marked m) := by
  cases m with
  | cursor => exact refusedFor_ok _ _
  | that => exact refusedFor_ok _ _
  | decoratedSymbol color character =>
      rw [marked]
      split
      · exact refusedFor_ok _ _
      · exact refusedFor_refuse trivial
  | lastCursorPosition => exact refusedFor_refuse trivial

theorem document_refusedFor (id : DocumentId) :
    RefusedFor Refusal.OfPrimitive (w.document id) := by
  unfold document
  split
  · exact refusedFor_ok _ _
  · exact refusedFor_refuse trivial

theorem matcher_refusedFor (language : String) (kind : ScopeKind) :
    RefusedFor Refusal.OfPrimitive (w.matcher language kind) := by
  unfold matcher
  split
  · unfold ScopeRegistry.matcher
    split
    · exact refusedFor_ok _ _
    · exact refusedFor_refuse trivial
  · exact refusedFor_refuse trivial

variable [ScopeMatcher M] [SyntaxProvider T]

theorem scopesAround_refusedFor (d : Document) (r : Range) (kind : ScopeKind)
    (includeSiblings : Bool) :
    RefusedFor Refusal.OfPrimitive (w.scopesAround d r kind includeSiblings) := by
  refine (w.matcher_refusedFor d.language kind).bind fun m => ?_
  split
  case h_1 => exact refusedFor_refuse trivial
  case h_2 start _ =>
    refine (ScopeMatcher.findFirst_refusedFor m d _).bind fun result => ?_
    cases result with
    | none => exact refusedFor_refuse trivial
    | some scope =>
        simp only
        split
        · exact refusedFor_ok _ _
        · split
          · exact ScopeMatcher.findAll_refusedFor m d _
          · exact refusedFor_ok _ _

theorem parts_refusedFor (m : Modifier) (d : Document) (s : Span) :
    RefusedFor Refusal.OfPrimitive (w.parts m d s) := by
  cases m with
  | identity => exact refusedFor_ok _ _
  | containingScope kind includeSiblings =>
      exact (w.scopesAround_refusedFor d s.range kind includeSiblings).bind
        fun _ => refusedFor_ok _ _
  | subpiece kind anchor active =>
      exact (d.subpiece_refusedFor s.range kind anchor active).bind fun _ => refusedFor_ok _ _
  | matchingPairSymbol => exact refusedFor_refuse trivial
  | surroundingPair => exact refusedFor_refuse trivial

theorem resolveSpan_refusedFor (p : Primitive) (s : Span) :
    RefusedFor Refusal.OfPrimitive (w.resolveSpan p s) := by
  refine (w.document_refusedFor s.doc).bind fun d => ?_
  split
  case h_1 => exact refusedFor_refuse trivial
  case h_2 =>
    refine (w.parts_refusedFor p.modifier d s).bind fun parts => refusedFor_mapM ?_ parts
    intro part
    have grown := d.grow_refusedFor part.span.range part.context p.selectionType
    exact (grown.bind fun _ => refusedFor_ok _ _).bind fun _ => refusedFor_ok _ _

/-- No stage of a primitive target finds fault with a pair of ends. -/
theorem resolvePrimitive_refusedFor (p : Primitive) :
    RefusedFor Refusal.OfPrimitive (w.resolvePrimitive p) := by
  refine (w.marked_refusedFor p.mark).bind fun marked => ?_
  exact (refusedFor_mapM (w.resolveSpan_refusedFor p) marked).bind fun _ => refusedFor_ok _ _

end

end Workspace

/-! ## Documents -/

namespace TypedSpan

/-- Joined spans lie where the first spans of the pairs do. -/
theorem map_doc_of_joinAll {firsts seconds spans : List TypedSpan}
    (joined : joinAll firsts seconds = .ok spans) :
    spans.map TypedSpan.doc = firsts.map TypedSpan.doc := by
  obtain ⟨same, each⟩ := joinAll_eq_ok_iff.mp joined
  have related : List.Forall₂ (fun pair t => pair.1.doc = t.doc) (firsts.zip seconds) spans :=
    (mapM_eq_ok_iff.mp each).imp fun _ _ joins => (doc_of_join joins).symm
  calc
    spans.map TypedSpan.doc = (firsts.zip seconds).map (fun pair => pair.1.doc) := by
      rw [← List.forall₂_eq_eq_eq, List.forall₂_map_left_iff, List.forall₂_map_right_iff]
      exact related.flip.imp fun _ _ => Eq.symm
    _ = ((firsts.zip seconds).map Prod.fst).map TypedSpan.doc := by rw [List.map_map]; rfl
    _ = firsts.map TypedSpan.doc := by rw [List.map_fst_zip same.le]

end TypedSpan

/-- An adjuster that leaves each span in its document. -/
def Adjuster.KeepsDocuments (adjust : Adjuster) : Prop :=
  ∀ t, (adjust t).doc = t.doc

theorem Adjuster.keepsDocuments_widenOutside : Adjuster.KeepsDocuments TypedSpan.widenOutside :=
  TypedSpan.doc_widenOutside

theorem Adjuster.KeepsDocuments.map_doc {adjust : Adjuster} (keeps : adjust.KeepsDocuments)
    (spans : List TypedSpan) :
    (spans.map adjust).map TypedSpan.doc = spans.map TypedSpan.doc := by
  rw [List.map_map]
  exact List.map_congr_left fun t _ => keeps t

namespace Workspace

variable {M T : Type} [ScopeMatcher M] [SyntaxProvider T] {w : Workspace M T}

/-- Without siblings, a primitive target makes one span of each span of a mark, in its document. -/
theorem map_doc_of_resolvePrimitive {p : Primitive} (alone : p.modifier.includesSiblings = false)
    {spans : List TypedSpan} (resolved : w.resolvePrimitive p = .ok spans) :
    ∃ marked, w.marked p.mark = .ok marked ∧ spans.map TypedSpan.doc = marked.map Span.doc := by
  obtain ⟨marked, mark, found⟩ := bind_eq_ok_iff.mp resolved
  obtain ⟨groups, each, flat⟩ := bind_eq_ok_iff.mp found
  cases flat
  refine ⟨marked, mark, ?_⟩
  -- The induction is on the spans of the mark, each with the one span that is made of it.
  have related := mapM_eq_ok_iff.mp each
  clear resolved found each mark
  induction related with
  | nil => rfl
  | @cons s group _ _ head _ ih =>
      obtain ⟨t, rfl⟩ := List.length_eq_one_iff.mp (length_resolveSpan alone head)
      have sameDoc := doc_of_resolveSpan head t (List.mem_singleton_self t)
      rw [List.flatten_cons, List.map_append, ih, List.map_singleton, sameDoc,
        List.singleton_append, List.map_cons]

/-! ## Ranges -/

/-- What a range resolves to lies where its start does: if the start takes no siblings in, there is
one stretch for each span of its mark, in its document. -/
theorem map_doc_of_resolve_range {a b : Primitive} (alone : a.modifier.includesSiblings = false)
    {plain : List TypedSpan} (resolved : w.resolve id (.single (.range a b)) = .ok plain) :
    ∃ marked, w.marked a.mark = .ok marked ∧ plain.map TypedSpan.doc = marked.map Span.doc := by
  obtain ⟨firsts, seconds, joined, starts, _, joins, same⟩ :=
    (w.resolve_range_eq_ok_iff id a b plain).mp resolved
  rw [List.map_id] at same
  subst same
  rw [resolve_primitive] at starts
  obtain ⟨marked, mark, docs⟩ := map_doc_of_resolvePrimitive alone starts
  exact ⟨marked, mark, (TypedSpan.map_doc_of_joinAll joins).trans docs⟩

section

variable {a b : Primitive} (sameMark : a.mark = b.mark)
  (aloneStart : a.modifier.includesSiblings = false)
  (aloneStop : b.modifier.includesSiblings = false)
include sameMark aloneStart aloneStop

theorem exists_joinAll_of_one_mark {firsts seconds : List TypedSpan}
    (starts : w.resolvePrimitive a = .ok firsts) (stops : w.resolvePrimitive b = .ok seconds) :
    ∃ spans, TypedSpan.joinAll firsts seconds = .ok spans := by
  obtain ⟨marked, mark, docs⟩ := map_doc_of_resolvePrimitive aloneStart starts
  obtain ⟨marked', mark', docs'⟩ := map_doc_of_resolvePrimitive aloneStop stops
  rw [← sameMark] at mark'
  cases mark.symm.trans mark'
  exact TypedSpan.exists_joinAll_iff.mpr (docs.trans docs'.symm)

/-- A range over one mark fails only where one of its ends fails on its own. -/
theorem resolve_range_of_one_mark_eq_error_iff (adjust : Adjuster) (failure : Failure) :
    w.resolve adjust (.single (.range a b)) = .error failure ↔
      FailsFirst (fun p => w.resolve adjust (.single (.primitive p))) [a, b] failure := by
  rw [resolve_range_eq_error_iff]
  apply or_iff_left
  rintro ⟨firsts, seconds, starts, stops, fails⟩
  rw [resolve_primitive] at starts stops
  obtain ⟨spans, joined⟩ :=
    exists_joinAll_of_one_mark sameMark aloneStart aloneStop starts stops
  cases fails.symm.trans joined

theorem resolve_range_of_one_mark_refusedFor (adjust : Adjuster) :
    RefusedFor Refusal.OfPrimitive (w.resolve adjust (.single (.range a b))) := by
  intro cause refused
  have fails := (resolve_range_of_one_mark_eq_error_iff sameMark aloneStart aloneStop adjust
    _).mp refused
  simp only [failsFirst_pair_iff, resolve_primitive_eq_error_iff] at fails
  rcases fails with start | ⟨_, stop⟩
  · exact w.resolvePrimitive_refusedFor a cause start
  · exact w.resolvePrimitive_refusedFor b cause stop

end

/-- A range over one mark that takes no siblings in fails only where an end fails on its own, hence
never because its ends have different numbers of spans or lie in different documents.  What it
resolves to is one stretch for each span of the mark, in order and each in the document of its span;
the adjuster sees these stretches, and if it leaves them in their documents they stay there. -/
theorem resolve_range_of_one_mark (w : Workspace M T) (adjust : Adjuster) {a b : Primitive}
    (sameMark : a.mark = b.mark) (aloneStart : a.modifier.includesSiblings = false)
    (aloneStop : b.modifier.includesSiblings = false) :
    (∀ failure, w.resolve adjust (.single (.range a b)) = .error failure ↔
      FailsFirst (fun p => w.resolve adjust (.single (.primitive p))) [a, b] failure) ∧
    (∀ cause, w.resolve adjust (.single (.range a b)) = refuse cause →
      cause ≠ .crossDocumentRange ∧ ∀ starts stops, cause ≠ .lengthMismatch starts stops) ∧
    ∀ spans, w.resolve adjust (.single (.range a b)) = .ok spans →
      ∃ marked plain, w.marked a.mark = .ok marked ∧
        w.resolve id (.single (.range a b)) = .ok plain ∧
        plain.map TypedSpan.doc = marked.map Span.doc ∧
        spans = plain.map adjust ∧ spans.length = marked.length ∧
        (adjust.KeepsDocuments → spans.map TypedSpan.doc = marked.map Span.doc) := by
  refine ⟨resolve_range_of_one_mark_eq_error_iff sameMark aloneStart aloneStop adjust, ?_, ?_⟩
  · intro cause refused
    have own :=
      resolve_range_of_one_mark_refusedFor sameMark aloneStart aloneStop adjust cause refused
    constructor
    · rintro rfl
      exact own
    · rintro starts stops rfl
      exact own
  · intro spans resolved
    rw [resolve_eq_map, map_eq_ok_iff] at resolved
    obtain ⟨plain, unadjusted, rfl⟩ := resolved
    obtain ⟨marked, mark, docs⟩ := map_doc_of_resolve_range aloneStart unadjusted
    have sameLength : plain.length = marked.length := by
      simpa using congrArg List.length docs
    refine ⟨marked, plain, mark, unadjusted, docs, rfl, ?_, fun keeps => ?_⟩
    · rw [List.length_map, sameLength]
    · rw [keeps.map_doc, docs]

/-- The point after the paragraph of a selection. -/
def afterParagraph : Primitive where
  mark := .cursor
  selectionType := .paragraph
  placement := .after

/-- The selections of two documents, the first one backward, are extended each in its own text. -/
theorem twoTexts_selections_extended :
    ∃ spans, twoTexts.resolve TypedSpan.widenOutside
        (.single (.range selectionTarget afterParagraph)) = .ok spans ∧
      spans.map TypedSpan.doc = [⟨2⟩, ⟨1⟩] ∧
      spans.map TypedSpan.range = [⟨⟨0, 1⟩, ⟨1, 1⟩⟩, .point ⟨0, 1⟩] := by
  have resolved : twoTexts.resolve TypedSpan.widenOutside
      (.single (.range selectionTarget afterParagraph)) = .ok _ := rfl
  obtain ⟨_, _, each⟩ := resolve_range_of_one_mark twoTexts TypedSpan.widenOutside
    (a := selectionTarget) (b := afterParagraph) rfl rfl rfl
  obtain ⟨marked, plain, mark, _, _, _, _, docs⟩ := each _ resolved
  cases mark
  exact ⟨_, resolved, docs Adjuster.keepsDocuments_widenOutside, rfl⟩

end Workspace

end TargetSpans
