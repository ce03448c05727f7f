import TargetSpans.Proofs.Closure

/-!
# Targets that take their marks as they are

Without a modifier, a span of the mark can be refused for its place only: its document has to be
open, and both of its ends have to be places of it.  Growing such a span to a selection type always
succeeds, so the first span that is out of place decides why the target is refused, and if there is
none each span of the mark has one span of the result.
-/

namespace TargetSpans

open Answer

namespace Document

/-- Only the reserved selection type is refused. -/
theorem grow_ne_refuse {d : Document} {r : Range} {known : DelimiterContext}
    {selectionType : SelectionType} (available : selectionType ≠ .character) (cause : Refusal) :
    d.grow r known selectionType ≠ refuse cause := by
  have done : ∀ result : Range × DelimiterContext, (pure result : Answer _) ≠ refuse cause := by
    rintro result ⟨⟩
  have whole : ∀ (rows? : Option Range) (fresh? : Range → Option DelimiterContext),
      (do
        let rows ← ofOption rows?
        let context ← if known.inList then pure known else ofOption (fresh? rows)
        return (rows, context)) ≠ refuse cause := by
    intro rows? fresh?
    apply bind_ne_refuse (ofOption_ne_refuse _)
    intro rows
    split
    · exact done _
    · exact bind_ne_refuse (ofOption_ne_refuse _) fun _ => done _
  cases selectionType with
  | token =>
      simp only [grow]
      split
      · exact bind_ne_refuse (ofOption_ne_refuse _) fun _ => done _
      · exact done _
  | line => exact whole _ _
  | paragraph => exact bind_ne_refuse (ofOption_ne_refuse _) fun _ => whole _ d.paragraphDelimiters?
  | document => exact done _
  | character => exact absurd rfl available

theorem exists_expand {d : Document} {part : Part} (rows : d.HasRows part.span.range)
    {selectionType : SelectionType} (available : selectionType ≠ .character) :
    ∃ t, d.expand selectionType part = .ok t := by
  rcases (grow_yields rows part.context selectionType).isOk_or_refused with
    ⟨result, grown⟩ | ⟨cause, refused⟩
  · exact ⟨_, bind_eq_ok_iff.mpr ⟨result, grown, rfl⟩⟩
  · exact absurd refused (grow_ne_refuse available cause)

/-- Only the range and the delimiters of a part change when it grows. -/
theorem exists_grows {d : Document} {part : Part} (rows : d.HasRows part.span.range)
    {selectionType : SelectionType} (available : selectionType ≠ .character) :
    ∃ grown context, d.Grows part.span.range part.context selectionType grown context ∧
      d.expand selectionType part = .ok {
        span := { part.span with range := grown.toward part.span.range.direction }
        selectionType
        context } := by
  obtain ⟨t, expanded⟩ := exists_expand rows available
  obtain ⟨grown, context, grows, rfl⟩ :=
    (Workspace.expand_yields rows selectionType).of_eq_ok expanded
  exact ⟨grown, context, grows, expanded⟩

end Document

namespace Workspace

variable {M T : Type}

/-- Why a span cannot be taken for a mark. -/
inductive Misplaced (w : Workspace M T) (s : Span) : Refusal → Prop
  | closed (unknown : w.documents.get? s.doc = none) : Misplaced w s (.unknownDocument s.doc)
  | anchor {d : Document} (document : w.documents.get? s.doc = some d)
      (outside : d.contains s.range.anchor = false) :
      Misplaced w s (.outOfBounds s.doc s.range.anchor)
  | head {d : Document} (document : w.documents.get? s.doc = some d)
      (inside : d.contains s.range.anchor = true) (outside : d.contains s.range.head = false) :
      Misplaced w s (.outOfBounds s.doc s.range.head)

variable [ScopeMatcher M] [SyntaxProvider T] {w : Workspace M T} {s : Span} {p : Primitive}

theorem resolveSpan_of_misplaced {cause : Refusal} (misplaced : w.Misplaced s cause) :
    w.resolveSpan p s = refuse cause := by
  cases misplaced with
  | closed unknown => simp [resolveSpan, document, unknown, refuse, bind, Except.bind]
  | anchor document outside =>
      simp [resolveSpan, Workspace.document, document, outlier?, outside, bind, Except.bind]
  | head document inside outside =>
      simp [resolveSpan, Workspace.document, document, outlier?, inside, outside, bind, Except.bind]

omit [ScopeMatcher M] [SyntaxProvider T] in
theorem holds_or_misplaced (w : Workspace M T) (s : Span) :
    w.Holds s ∨ ∃ cause, w.Misplaced s cause := by
  cases document : w.documents.get? s.doc with
  | none => exact Or.inr ⟨_, .closed document⟩
  | some d =>
      cases anchor : d.contains s.range.anchor with
      | false => exact Or.inr ⟨_, .anchor document anchor⟩
      | true =>
          cases head : d.contains s.range.head with
          | false => exact Or.inr ⟨_, .head document anchor head⟩
          | true => exact Or.inl ⟨d, document, anchor, head⟩

/-- A span in its place becomes one span of the same document, which is the span itself for a
token. -/
theorem exists_resolveSpan_of_holds (identity : p.modifier = .identity)
    (available : p.selectionType ≠ .character) (holds : w.Holds s) :
    ∃ t, w.resolveSpan p s = .ok [t] ∧ t.doc = s.doc ∧
      (p.selectionType = .token → p.placement = .contents → t.span = s) := by
  obtain ⟨d, document, places⟩ := holds
  have known : w.document s.doc = .ok d := by rw [Workspace.document, document]
  have inside : outlier? d s.range = none := by simp [outlier?, places.anchor, places.head]
  have whole : w.parts p.modifier d s = .ok [{ span := s }] := by rw [identity]; rfl
  obtain ⟨typed, expanded⟩ : ∃ t, d.expand p.selectionType { span := s } = .ok t :=
    Document.exists_expand places.rows available
  refine ⟨typed.place p.placement p.insideOutside, ?_, (Document.of_expand_eq_ok expanded).1, ?_⟩
  · refine bind_eq_ok_iff.mpr ⟨d, known, ?_⟩
    rw [inside]
    refine bind_eq_ok_iff.mpr ⟨_, whole, mapM_eq_ok_iff.mpr ?_⟩
    exact List.Forall₂.cons (bind_eq_ok_iff.mpr ⟨typed, expanded, rfl⟩) List.Forall₂.nil
  · intro token contents
    rw [token] at expanded
    rw [contents]
    exact span_of_expand_token expanded

section

variable (identity : p.modifier = .identity) (available : p.selectionType ≠ .character)
include identity available

theorem resolveSpan_isOk_iff_holds : (∃ spans, w.resolveSpan p s = .ok spans) ↔ w.Holds s := by
  constructor
  · rintro ⟨spans, resolved⟩
    rcases w.holds_or_misplaced s with holds | ⟨cause, misplaced⟩
    · exact holds
    · cases resolved.symm.trans (resolveSpan_of_misplaced misplaced)
  · intro holds
    obtain ⟨t, resolved, _⟩ := exists_resolveSpan_of_holds identity available holds
    exact ⟨[t], resolved⟩

theorem resolveSpan_eq_error_iff_misplaced {failure : Failure} :
    w.resolveSpan p s = .error failure ↔
      ∃ cause, w.Misplaced s cause ∧ failure = .refused cause := by
  constructor
  · intro failed
    rcases w.holds_or_misplaced s with holds | ⟨cause, misplaced⟩
    · obtain ⟨t, resolved, _⟩ := exists_resolveSpan_of_holds identity available holds
      cases failed.symm.trans resolved
    · cases failed.symm.trans (resolveSpan_of_misplaced misplaced)
      exact ⟨cause, misplaced, rfl⟩
  · rintro ⟨cause, misplaced, rfl⟩
    exact resolveSpan_of_misplaced misplaced

theorem resolvePrimitive_isOk_iff_holds :
    (∃ spans, w.resolvePrimitive p = .ok spans) ↔
      ∃ marked, w.marked p.mark = .ok marked ∧ ∀ s ∈ marked, w.Holds s := by
  constructor
  · rintro ⟨spans, resolved⟩
    obtain ⟨marked, mark, found⟩ := bind_eq_ok_iff.mp resolved
    obtain ⟨groups, each, _⟩ := bind_eq_ok_iff.mp found
    refine ⟨marked, mark, fun s member => ?_⟩
    apply (resolveSpan_isOk_iff_holds identity available).mp
    exact exists_mapM_eq_ok_iff.mp ⟨groups, each⟩ s member
  · rintro ⟨marked, mark, holds⟩
    have resolves : ∀ s ∈ marked, ∃ spans, w.resolveSpan p s = .ok spans :=
      fun s member => (resolveSpan_isOk_iff_holds identity available).mpr (holds s member)
    obtain ⟨groups, each⟩ := exists_mapM_eq_ok_iff.mpr resolves
    have found : (do return (← marked.mapM (w.resolveSpan p)).flatten) = .ok groups.flatten :=
      bind_eq_ok_iff.mpr ⟨groups, each, rfl⟩
    exact ⟨groups.flatten, bind_eq_ok_iff.mpr ⟨marked, mark, found⟩⟩

/-- Each span of the mark has one span of the result, in order. -/
theorem forall₂_of_mapM_resolveSpan {marked : List Span} {groups : List (List TypedSpan)}
    (each : marked.mapM (w.resolveSpan p) = .ok groups) :
    List.Forall₂ (fun s t => t.doc = s.doc ∧
      (p.selectionType = .token → p.placement = .contents → t.span = s)) marked groups.flatten := by
  have related := mapM_eq_ok_iff.mp each
  clear each
  induction related with
  | nil => exact List.Forall₂.nil
  | cons head _ ih =>
      have holds := (resolveSpan_isOk_iff_holds identity available).mp ⟨_, head⟩
      obtain ⟨t, one, kept⟩ := exists_resolveSpan_of_holds identity available holds
      cases head.symm.trans one
      exact List.Forall₂.cons kept ih

/-- A target is refused by its mark, or for the first span of the mark that is out of place. -/
theorem resolvePrimitive_eq_error_iff_misplaced {failure : Failure} :
    w.resolvePrimitive p = .error failure ↔
      w.marked p.mark = .error failure ∨
        ∃ marked before s after cause, w.marked p.mark = .ok marked ∧
          marked = before ++ s :: after ∧ (∀ b ∈ before, w.Holds b) ∧ w.Misplaced s cause ∧
            failure = .refused cause := by
  rw [resolvePrimitive, bind_eq_error_iff]
  simp only [bind_pure_comp, map_eq_error_iff, mapM_eq_error_iff, FailsFirst,
    resolveSpan_isOk_iff_holds identity available,
    resolveSpan_eq_error_iff_misplaced identity available]
  constructor
  · rintro (mark | ⟨marked, mark, before, s, after, split, holds, cause, misplaced, equal⟩)
    · exact Or.inl mark
    · exact Or.inr ⟨marked, before, s, after, cause, mark, split, holds, misplaced, equal⟩
  · rintro (mark | ⟨marked, before, s, after, cause, mark, split, holds, misplaced, equal⟩)
    · exact Or.inl mark
    · exact Or.inr ⟨marked, mark, before, s, after, split, holds, cause, misplaced, equal⟩

end

/-- Without a modifier, a target resolves exactly if its mark does and all spans of the mark are in
their places, to one span for each of them, in order and in the same documents; tokens at their
contents are the spans of the mark.  Otherwise the mark itself or its first span out of place says
why. -/
theorem resolvePrimitive_identity (w : Workspace M T) {p : Primitive}
    (identity : p.modifier = .identity) (available : p.selectionType ≠ .character) :
    ((∃ spans, w.resolvePrimitive p = .ok spans) ↔
      ∃ marked, w.marked p.mark = .ok marked ∧ ∀ s ∈ marked, w.Holds s) ∧
    (∀ marked spans, w.marked p.mark = .ok marked → w.resolvePrimitive p = .ok spans →
      List.Forall₂ (fun s t => t.doc = s.doc ∧
        (p.selectionType = .token → p.placement = .contents → t.span = s)) marked spans) ∧
    ∀ failure, w.resolvePrimitive p = .error failure ↔
      w.marked p.mark = .error failure ∨
        ∃ marked before s after cause, w.marked p.mark = .ok marked ∧
          marked = before ++ s :: after ∧ (∀ b ∈ before, w.Holds b) ∧ w.Misplaced s cause ∧
            failure = .refused cause := by
  refine ⟨resolvePrimitive_isOk_iff_holds identity available, ?_,
    fun _ => resolvePrimitive_eq_error_iff_misplaced identity available⟩
  intro marked spans mark resolved
  obtain ⟨marked', mark', found⟩ := bind_eq_ok_iff.mp resolved
  cases mark.symm.trans mark'
  obtain ⟨groups, each, equal⟩ := bind_eq_ok_iff.mp found
  cases equal
  exact forall₂_of_mapM_resolveSpan identity available each

/-- Two texts, with a selection that runs backward over the break of the second one and a caret in
the first one. -/
def twoTexts : Workspace where
  documents := .ofList [⟨⟨1⟩, "plain", ['a']⟩, ⟨⟨2⟩, "plain", ['b', '\r', '\n', 'c']⟩]
  selections := [⟨⟨2⟩, ⟨⟨1, 1⟩, ⟨0, 1⟩⟩⟩, ⟨⟨1⟩, .point ⟨0, 1⟩⟩]
  trees := .empty

/-- The current selections, as they are. -/
def selectionTarget : Primitive where
  mark := .cursor
  selectionType := .token

theorem twoTexts_selections_kept :
    ∃ spans, twoTexts.resolvePrimitive selectionTarget = .ok spans ∧
      List.Forall₂ (fun s t => t.span = s) twoTexts.selections spans := by
  have holds : ∀ s ∈ twoTexts.selections, twoTexts.Holds s := by
    intro s member
    rcases List.mem_cons.mp member with rfl | member
    · exact ⟨_, rfl, rfl, rfl⟩
    · cases List.mem_singleton.mp member
      exact ⟨_, rfl, rfl, rfl⟩
  obtain ⟨resolves, kept, _⟩ :=
    resolvePrimitive_identity twoTexts (p := selectionTarget) rfl (by decide)
  obtain ⟨spans, resolved⟩ := resolves.mpr ⟨twoTexts.selections, rfl, holds⟩
  refine ⟨spans, resolved, ?_⟩
  exact (kept twoTexts.selections spans rfl resolved).imp fun _ _ same => same.2 rfl rfl

end Workspace

end TargetSpans
