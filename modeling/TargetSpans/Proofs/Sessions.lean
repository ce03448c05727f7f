import Mathlib.Logic.Relation
import TargetSpans.Session
import TargetSpans.Proofs.Unmodified

/-!
# Sessions

A resolution changes nothing in a session but what `that` refers to and the selections, each of them
only when asked, and a refused one changes nothing at all.  So marks stay in their documents: no
step of a session leads out of them, unless a mark is set to other places, a document is replaced or
closed under its marks, or a target cuts a break.  As long as that does not happen, targets without
modifiers are refused only where their marks are.
-/

namespace TargetSpans

open Answer

namespace Session

/-! ## Requests -/

section Requests

variable {M : Type} {s next : Session M} {targets : List Target} {keepThat keepSelections : Bool}

/-- What resolutions never change. -/
structure SameSurroundings (s next : Session M) : Prop where
  documents : next.workspace.documents = s.workspace.documents
  tokens : next.workspace.tokens = s.workspace.tokens
  trees : next.workspace.trees = s.workspace.trees
  scopes : next.workspace.scopes = s.workspace.scopes
  adjust : next.adjust = s.adjust

theorem SameSurroundings.refl (s : Session M) : s.SameSurroundings s :=
  ⟨rfl, rfl, rfl, rfl, rfl⟩

theorem SameSurroundings.trans {last : Session M} (one : s.SameSurroundings next)
    (other : next.SameSurroundings last) : s.SameSurroundings last where
  documents := other.documents.trans one.documents
  tokens := other.tokens.trans one.tokens
  trees := other.trees.trans one.trees
  scopes := other.scopes.trans one.scopes
  adjust := other.adjust.trans one.adjust

/-- What a session becomes when it keeps spans: where it is asked to, it refers to them, and it is
left alone otherwise. -/
structure Keeps (s next : Session M) (spans : List Span) (keepThat keepSelections : Bool) : Prop
    extends SameSurroundings s next where
  that : next.workspace.that = if keepThat then spans else s.workspace.that
  selections : next.workspace.selections = if keepSelections then spans else s.workspace.selections

theorem keeps_keep (s : Session M) (spans : List Span) (keepThat keepSelections : Bool) :
    s.Keeps (s.keep spans keepThat keepSelections) spans keepThat keepSelections := by
  cases keepThat <;> cases keepSelections
  all_goals exact ⟨⟨rfl, rfl, rfl, rfl, rfl⟩, rfl, rfl⟩

variable [ScopeMatcher M]

theorem resolve_eq_ok_iff {groups : List (List TypedSpan)} :
    s.resolve targets keepThat keepSelections = .ok (groups, next) ↔
      s.workspace.resolveAll s.adjust targets = .ok groups ∧
        next = s.keep (groups.flatten.map TypedSpan.span) keepThat keepSelections := by
  rw [resolve, bind_eq_ok_iff]
  constructor
  · rintro ⟨found, resolved, equal⟩
    cases equal
    exact ⟨resolved, rfl⟩
  · rintro ⟨resolved, rfl⟩
    exact ⟨groups, resolved, rfl⟩

theorem resolve_eq_error_iff {failure : Failure} :
    s.resolve targets keepThat keepSelections = .error failure ↔
      s.workspace.resolveAll s.adjust targets = .error failure := by
  rw [resolve, bind_eq_error_iff]
  refine ⟨fun failed => failed.resolve_right ?_, Or.inl⟩
  rintro ⟨_, _, done⟩
  cases done

/-- Some targets, and what is to become of their spans. -/
structure Request where
  targets : List Target
  keepThat : Bool := false
  keepSelections : Bool := false

/-- The session after a request.  A request that fails is as good as none. -/
def after (s : Session M) (r : Request) : Session M :=
  match s.resolve r.targets r.keepThat r.keepSelections with
  | .ok (_, next) => next
  | .error _ => s

/-- The session after some requests. -/
def run (s : Session M) (requests : List Request) : Session M := requests.foldl after s

theorem after_of_eq_ok {r : Request} {groups : List (List TypedSpan)}
    (resolved : s.resolve r.targets r.keepThat r.keepSelections = .ok (groups, next)) :
    s.after r = next := by
  rw [after, resolved]

theorem after_of_eq_error {r : Request} {failure : Failure}
    (failed : s.resolve r.targets r.keepThat r.keepSelections = .error failure) :
    s.after r = s := by
  rw [after, failed]

/-- A request fails as its targets do, or keeps their spans. -/
theorem keeps_or_same (s : Session M) (r : Request) :
    (∃ groups, s.workspace.resolveAll s.adjust r.targets = .ok groups ∧
      s.Keeps (s.after r) (groups.flatten.map TypedSpan.span) r.keepThat r.keepSelections) ∨
    (∃ failure, s.workspace.resolveAll s.adjust r.targets = .error failure ∧ s.after r = s) := by
  cases resolved : s.workspace.resolveAll s.adjust r.targets with
  | ok groups =>
      refine .inl ⟨groups, rfl, ?_⟩
      rw [after_of_eq_ok (resolve_eq_ok_iff.mpr ⟨resolved, rfl⟩)]
      exact s.keeps_keep _ _ _
  | error failure =>
      exact .inr ⟨failure, rfl, after_of_eq_error (resolve_eq_error_iff.mpr resolved)⟩

theorem sameSurroundings_after (s : Session M) (r : Request) : s.SameSurroundings (s.after r) := by
  rcases s.keeps_or_same r with ⟨_, _, kept⟩ | ⟨_, _, same⟩
  · exact kept.toSameSurroundings
  · rw [same]
    exact SameSurroundings.refl s

theorem that_after_of_not_kept {r : Request} (leaves : r.keepThat = false) :
    (s.after r).workspace.that = s.workspace.that := by
  rcases s.keeps_or_same r with ⟨_, _, kept⟩ | ⟨_, _, same⟩
  · rw [kept.that, leaves]
    rfl
  · rw [same]

theorem sameSurroundings_run (s : Session M) (requests : List Request) :
    s.SameSurroundings (s.run requests) := by
  induction requests generalizing s with
  | nil => exact SameSurroundings.refl s
  | cons r rest ih => exact (s.sameSurroundings_after r).trans (ih (s.after r))

theorem that_run_of_not_kept {requests : List Request}
    (leave : ∀ r ∈ requests, r.keepThat = false) :
    (s.run requests).workspace.that = s.workspace.that := by
  induction requests generalizing s with
  | nil => rfl
  | cons r rest ih =>
      have later := ih (s := s.after r) fun q member => leave q (List.mem_cons_of_mem r member)
      exact later.trans (that_after_of_not_kept (leave r List.mem_cons_self))

/-- After some requests, `that` refers to the spans of the last one that was asked to keep them, if
it has resolved. -/
theorem that_run {before later : List Request} {r : Request} {groups : List (List TypedSpan)}
    (resolved : (s.run before).workspace.resolveAll s.adjust r.targets = .ok groups)
    (keeps : r.keepThat = true) (leave : ∀ q ∈ later, q.keepThat = false) :
    (s.run (before ++ r :: later)).workspace.that = groups.flatten.map TypedSpan.span := by
  have split : s.run (before ++ r :: later) = ((s.run before).after r).run later := by
    rw [run, List.foldl_append, List.foldl_cons]
    rfl
  rw [split, that_run_of_not_kept leave]
  rw [← (s.sameSurroundings_run before).adjust] at resolved
  rcases (s.run before).keeps_or_same r with ⟨found, same, kept⟩ | ⟨failure, failed, _⟩
  · cases resolved.symm.trans same
    rw [kept.that, keeps]
    rfl
  · cases resolved.symm.trans failed

end Requests

/-! ## Marks in their documents -/

/-- All that the marks of a session refer to lies in open documents, and no tree splits a break. -/
structure Sound (s : Session) : Prop where
  usual : s.adjust = id ∨ s.adjust = TypedSpan.widenOutside
  selections : ∀ span ∈ s.workspace.selections, s.workspace.Holds span
  that : ∀ span ∈ s.workspace.that, s.workspace.Holds span
  tokens : ∀ key span, s.workspace.tokens.get? key = some span → s.workspace.Holds span
  trees : s.workspace.SparesBreaks

/-- A mark has a span in a document. -/
def Refers (s : Session) (id : DocumentId) : Prop :=
  ∃ span, span.doc = id ∧ (span ∈ s.workspace.selections ∨ span ∈ s.workspace.that ∨
    ∃ key, s.workspace.tokens.get? key = some span)

/-- One step of a session that keeps its marks in their documents. -/
inductive Step : Session → Session → Prop
  | openDocument {s : Session} (d : Document) (unused : ¬ s.Refers d.id)
      (spares : ∀ t, s.workspace.trees.get? d.id = some t → t.SparesBreaks d.text) :
      Step s (s.openDocument d).2
  | closeDocument {s : Session} (id : DocumentId) (unused : ¬ s.Refers id) :
      Step s (s.closeDocument id).2
  | select {s : Session} (spans : List Span) (hold : ∀ span ∈ spans, s.workspace.Holds span) :
      Step s (s.select spans)
  | setThat {s : Session} (spans : List Span) (hold : ∀ span ∈ spans, s.workspace.Holds span) :
      Step s (s.setThat spans)
  | addToken {s : Session} (color : String) (character : Char) (span : Span)
      (holds : s.workspace.Holds span) : Step s (s.addToken color character span).2
  | removeToken {s : Session} (color : String) (character : Char) :
      Step s (s.removeToken color character).2
  | clearTokens {s : Session} : Step s s.clearTokens
  | setTree {s : Session} (id : DocumentId) (t : SyntaxTree)
      (spares : ∀ d, s.workspace.documents.get? id = some d → t.SparesBreaks d.text) :
      Step s (s.setTree id t).2
  | dropTree {s : Session} (id : DocumentId) : Step s (s.dropTree id).2
  | shareTree {s : Session} (source target : DocumentId)
      (spares : ∀ t d, s.workspace.trees.get? source = some t →
        s.workspace.documents.get? target = some d → t.SparesBreaks d.text) :
      Step s (s.shareTree source target).2
  | setScopes {s : Session} (registry : Option ScopeRegistry) : Step s (s.setScopes registry)
  | register {s : Session} (language : String) (kind : ScopeKind) (m : NodeMatcher) :
      Step s (s.register language kind m)
  | request {s : Session} (r : Request)
      (spares : ∀ target ∈ r.targets, ∀ p ∈ target.primitives, ¬ s.workspace.CutsBreak p) :
      Step s (s.after r)

variable {s s' : Session}

theorem holds_of_documents_eq {w w' : Workspace} {span : Span} (holds : w.Holds span)
    (same : w'.documents.get? span.doc = w.documents.get? span.doc) : w'.Holds span := by
  obtain ⟨d, document, places⟩ := holds
  exact ⟨d, same.trans document, places⟩

/-- Marks stay in their documents if the documents that they refer to stay. -/
theorem Sound.of_documents (sound : s.Sound) (ds : Documents)
    (same : ∀ id, s.Refers id → ds.get? id = s.workspace.documents.get? id)
    (spares : ∀ id d t, ds.get? id = some d → s.workspace.trees.get? id = some t →
      t.SparesBreaks d.text) :
    Sound { s with workspace.documents := ds } where
  usual := sound.usual
  selections span member := holds_of_documents_eq (sound.selections span member)
    (same span.doc ⟨span, rfl, .inl member⟩)
  that span member := holds_of_documents_eq (sound.that span member)
    (same span.doc ⟨span, rfl, .inr (.inl member)⟩)
  tokens key span known := holds_of_documents_eq (sound.tokens key span known)
    (same span.doc ⟨span, rfl, .inr (.inr ⟨key, known⟩)⟩)
  trees := spares

theorem Sound.openDocument (sound : s.Sound) {d : Document} (unused : ¬ s.Refers d.id)
    (spares : ∀ t, s.workspace.trees.get? d.id = some t → t.SparesBreaks d.text) :
    (s.openDocument d).2.Sound := by
  apply sound.of_documents
  · intro id refers
    exact s.workspace.documents.get?_insert_of_ne fun same => unused (same ▸ refers)
  · intro id found t document tree
    by_cases same : d.id = id
    · subst same
      rw [Documents.get?_insert_self] at document
      cases document
      exact spares t tree
    · rw [Documents.get?_insert_of_ne _ same] at document
      exact sound.trees id found t document tree

theorem Sound.closeDocument (sound : s.Sound) {id : DocumentId} (unused : ¬ s.Refers id) :
    (s.closeDocument id).2.Sound := by
  apply sound.of_documents
  · intro other refers
    exact s.workspace.documents.get?_erase_of_ne fun same => unused (same ▸ refers)
  · intro other found t document tree
    by_cases same : id = other
    · subst same
      rw [Documents.get?_erase_self] at document
      cases document
    · rw [Documents.get?_erase_of_ne _ same] at document
      exact sound.trees other found t document tree

theorem Sound.select (sound : s.Sound) {spans : List Span}
    (hold : ∀ span ∈ spans, s.workspace.Holds span) : (s.select spans).Sound :=
  { sound with selections := hold }

theorem Sound.setThat (sound : s.Sound) {spans : List Span}
    (hold : ∀ span ∈ spans, s.workspace.Holds span) : (s.setThat spans).Sound :=
  { sound with that := hold }

theorem Sound.keep (sound : s.Sound) {spans : List Span}
    (hold : ∀ span ∈ spans, s.workspace.Holds span) (keepThat keepSelections : Bool) :
    (s.keep spans keepThat keepSelections).Sound := by
  cases keepThat <;> cases keepSelections
  · exact sound
  · exact sound.select hold
  · exact sound.setThat hold
  · exact (sound.setThat hold).select hold

theorem Sound.addToken (sound : s.Sound) (color : String) (character : Char) {span : Span}
    (holds : s.workspace.Holds span) : (s.addToken color character span).2.Sound :=
  { sound with tokens := Keyed.of_get?_insert holds sound.tokens }

theorem Sound.removeToken (sound : s.Sound) (color : String) (character : Char) :
    (s.removeToken color character).2.Sound :=
  { sound with tokens := Keyed.of_get?_erase (color, character) sound.tokens }

theorem Sound.setTree (sound : s.Sound) {id : DocumentId} {t : SyntaxTree}
    (spares : ∀ d, s.workspace.documents.get? id = some d → t.SparesBreaks d.text) :
    (s.setTree id t).2.Sound := by
  have trees := Keyed.of_get?_insert
    (P := fun id t => ∀ d, s.workspace.documents.get? id = some d → t.SparesBreaks d.text) spares
    fun other found tree d document => sound.trees other d found document tree
  exact { sound with trees := fun other d found document tree => trees other found tree d document }

theorem Sound.dropTree (sound : s.Sound) (id : DocumentId) : (s.dropTree id).2.Sound := by
  have trees := Keyed.of_get?_erase
    (P := fun id t => ∀ d, s.workspace.documents.get? id = some d → t.SparesBreaks d.text) id
    fun other found tree d document => sound.trees other d found document tree
  exact { sound with trees := fun other d found document tree => trees other found tree d document }

theorem Sound.shareTree (sound : s.Sound) {source target : DocumentId}
    (spares : ∀ t d, s.workspace.trees.get? source = some t →
      s.workspace.documents.get? target = some d → t.SparesBreaks d.text) :
    (s.shareTree source target).2.Sound := by
  unfold Session.shareTree
  split
  case h_1 tree known => exact sound.setTree fun d => spares tree d known
  case h_2 => exact sound

/-- What targets give lies in its documents if none of them cuts a break. -/
theorem Sound.holds_of_resolveAll (sound : s.Sound) {targets : List Target}
    (spares : ∀ target ∈ targets, ∀ p ∈ target.primitives, ¬ s.workspace.CutsBreak p)
    {groups : List (List TypedSpan)}
    (resolved : s.workspace.resolveAll s.adjust targets = .ok groups) :
    ∀ span ∈ groups.flatten.map TypedSpan.span, s.workspace.Holds span := by
  have related := mapM_eq_ok_iff.mp resolved
  intro span mapped
  obtain ⟨t, member, rfl⟩ := List.mem_map.mp mapped
  obtain ⟨group, groupMember, inGroup⟩ := List.mem_flatten.mp member
  obtain ⟨target, isTarget, ofTarget⟩ := exists_mem_of_forall₂ related groupMember
  obtain ⟨e, element, alone, ofElement, inAlone⟩ :=
    s.workspace.exists_element_of_mem s.adjust ofTarget inGroup
  have finds := Workspace.findsPlaces_of_sparesBreaks sound.trees
  have encloses := Workspace.resolve_encloses_or sound.usual finds ofElement t inAlone
  refine (encloses.resolve_right ?_).holds
  rintro ⟨p, primitive, cuts⟩
  exact spares target isTarget p (List.mem_flatMap.mpr ⟨e, element, primitive⟩) cuts

theorem Sound.after (sound : s.Sound) {r : Request}
    (spares : ∀ target ∈ r.targets, ∀ p ∈ target.primitives, ¬ s.workspace.CutsBreak p) :
    (s.after r).Sound := by
  cases resolved : s.workspace.resolveAll s.adjust r.targets with
  | ok groups =>
      rw [after_of_eq_ok (resolve_eq_ok_iff.mpr ⟨resolved, rfl⟩)]
      exact sound.keep (sound.holds_of_resolveAll spares resolved) _ _
  | error failure =>
      rw [after_of_eq_error (resolve_eq_error_iff.mpr resolved)]
      exact sound

theorem Step.sound (step : s.Step s') (sound : s.Sound) : s'.Sound := by
  cases step with
  | openDocument d unused spares => exact sound.openDocument unused spares
  | closeDocument id unused => exact sound.closeDocument unused
  | select spans hold => exact sound.select hold
  | setThat spans hold => exact sound.setThat hold
  | addToken color character span holds => exact sound.addToken color character holds
  | removeToken color character => exact sound.removeToken color character
  | clearTokens => exact { sound with tokens := fun _ _ known => nomatch known }
  | setTree id t spares => exact sound.setTree spares
  | dropTree id => exact sound.dropTree id
  | shareTree source target spares => exact sound.shareTree spares
  | setScopes registry => exact { sound with }
  | register language kind m => exact { sound with }
  | request r spares => exact sound.after spares

theorem sound_of_steps (steps : Relation.ReflTransGen Step s s') (sound : s.Sound) : s'.Sound := by
  induction steps with
  | refl => exact sound
  | tail _ last ih => exact last.sound ih

theorem Sound.holds_of_marked (sound : s.Sound) {m : Mark} {marked : List Span}
    (mark : s.workspace.marked m = .ok marked) : ∀ span ∈ marked, s.workspace.Holds span := by
  cases m with
  | cursor =>
      cases mark
      exact sound.selections
  | that =>
      cases mark
      exact sound.that
  | decoratedSymbol color character =>
      simp only [Workspace.marked] at mark
      split at mark
      case h_1 span known =>
        cases mark
        intro found member
        cases List.mem_singleton.mp member
        exact sound.tokens _ span known
      case h_2 => cases mark
  | lastCursorPosition => cases mark

/-- Steps of a session lead to no refusals of targets without modifiers: such a target resolves
whenever its mark does. -/
theorem exists_resolvePrimitive_of_steps (steps : Relation.ReflTransGen Step s s') (sound : s.Sound)
    {p : Primitive} (identity : p.modifier = .identity) (available : p.selectionType ≠ .character)
    {marked : List Span} (mark : s'.workspace.marked p.mark = .ok marked) :
    ∃ spans, s'.workspace.resolvePrimitive p = .ok spans :=
  (Workspace.resolvePrimitive_isOk_iff_holds identity available).mpr
    ⟨marked, mark, (sound_of_steps steps sound).holds_of_marked mark⟩

/-- The spans that a request has kept are the result of `that` as the mark of the next action. -/
theorem exists_previous_after (sound : s.Sound) {r : Request}
    (spares : ∀ target ∈ r.targets, ∀ p ∈ target.primitives, ¬ s.workspace.CutsBreak p)
    (keeps : r.keepThat = true) {groups : List (List TypedSpan)}
    (resolved : s.workspace.resolveAll s.adjust r.targets = .ok groups) :
    ∃ again, (s.after r).workspace.resolvePrimitive Workspace.previous = .ok again ∧
      again.map TypedSpan.span = groups.flatten.map TypedSpan.span := by
  rcases s.keeps_or_same r with ⟨found, same, kept⟩ | ⟨failure, failed, _⟩
  · cases resolved.symm.trans same
    have that : (s.after r).workspace.that = groups.flatten.map TypedSpan.span := by
      rw [kept.that, keeps]
      rfl
    rw [← that]
    exact (Workspace.resolvePrimitive_previous_iff _ _).mp (sound.after spares).that
  · cases resolved.symm.trans failed

/-- A session starts without anything that could be misplaced. -/
theorem sound_start : Sound {} where
  usual := .inr rfl
  selections := fun _ member => nomatch member
  that := fun _ member => nomatch member
  tokens := fun _ _ known => nomatch known
  trees := fun _ _ _ document => nomatch document

end Session

end TargetSpans
