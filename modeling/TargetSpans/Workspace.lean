import TargetSpans.Scope.Registry
import TargetSpans.SyntaxProvider

/-!
# Workspaces

All that a target may refer to: the open documents with their syntax trees, the current
selections, the spans of the previous action, the tokens that are shown under symbols, and the
scope registry.
-/

namespace TargetSpans

/-- The open documents, no two under the same number. -/
structure Documents where
  list : List Document
  nodup : (list.map Document.id).Nodup

namespace Documents

def empty : Documents := ⟨[], List.nodup_nil⟩

def get? (ds : Documents) (id : DocumentId) : Option Document :=
  ds.list.find? fun d => d.id = id

def erase (ds : Documents) (id : DocumentId) : Documents where
  list := ds.list.filter fun d => d.id ≠ id
  nodup := ds.nodup.sublist (List.filter_sublist.map Document.id)

/-- The documents with one more, in place of the one under the same number. -/
def insert (ds : Documents) (d : Document) : Documents where
  list := d :: (ds.erase d.id).list
  nodup := by
    refine List.nodup_cons.mpr ⟨?_, (ds.erase d.id).nodup⟩
    simp [erase]

/-- The open documents of a list, of which later ones replace earlier ones. -/
def ofList (ds : List Document) : Documents := ds.foldl insert empty

def size (ds : Documents) : Nat := ds.list.length

/-- The numbers of the open documents, in order. -/
def ids (ds : Documents) : List DocumentId :=
  (ds.list.map Document.id).mergeSort fun a b => a.number ≤ b.number

@[simp] theorem get?_empty (id : DocumentId) : empty.get? id = none := rfl

@[simp] theorem get?_erase_self (ds : Documents) (id : DocumentId) :
    (ds.erase id).get? id = none := by
  simp [get?, erase]

theorem get?_erase_of_ne (ds : Documents) {id other : DocumentId} (ne : id ≠ other) :
    (ds.erase id).get? other = ds.get? other := by
  have kept : ∀ d : Document, d.id ≠ id ∧ d.id = other ↔ d.id = other := by
    intro d
    refine ⟨And.right, fun same => ⟨?_, same⟩⟩
    rw [same]
    exact ne.symm
  simp [get?, erase, List.find?_filter, kept]

@[simp] theorem get?_insert_self (ds : Documents) (d : Document) :
    (ds.insert d).get? d.id = some d := by
  simp [get?, insert]

theorem get?_insert_of_ne (ds : Documents) {d : Document} {other : DocumentId}
    (ne : d.id ≠ other) : (ds.insert d).get? other = ds.get? other := by
  rw [← ds.get?_erase_of_ne ne]
  simp [get?, insert, ne]

theorem id_of_get? {ds : Documents} {id : DocumentId} {d : Document}
    (h : ds.get? id = some d) : d.id = id := by
  simpa using List.find?_some h

theorem eq_of_get?_singleton {d found : Document} {id : DocumentId}
    (known : (ofList [d]).get? id = some found) : found = d := by
  have entry : d.id = id ∧ d = found := by
    simpa [ofList, insert, erase, empty, get?] using known
  exact entry.2.symm

end Documents

/-- What a target may refer to.  The matchers of the registry and the provider of syntax trees may
be of any type; usually the matchers are described by kinds of nodes, and the trees are kept by the
numbers of the documents. -/
structure Workspace (M : Type := NodeMatcher) (T : Type := SyntaxTrees) where
  documents : Documents := .empty
  selections : List Span := []
  /-- The spans of the previous action. -/
  that : List Span := []
  /-- The tokens by the colour and the character of the symbol above them. -/
  tokens : Keyed (String × Char) Span := .empty
  trees : T
  scopes : Option (ScopeRegistry M) := none

namespace Workspace

variable {M T : Type}

def document (w : Workspace M T) (id : DocumentId) : Answer Document :=
  match w.documents.get? id with
  | some d => .ok d
  | none => .refuse (.unknownDocument id)

def matcher (w : Workspace M T) (language : String) (kind : ScopeKind) : Answer M :=
  match w.scopes with
  | some registry => registry.matcher language kind
  | none => .refuse (.noScopeMatcher language kind)

/-- The smallest node at a position of a document, if the document has a tree. -/
def nodeAt? [SyntaxProvider T] (w : Workspace M T) (d : Document) (p : Position) : Option Node :=
  SyntaxProvider.nodeAt? w.trees d p

theorem nodeAt?_eq (w : Workspace M) (d : Document) (p : Position) :
    w.nodeAt? d p = (w.trees.get? d.id).map fun tree => Node.atOffset tree (d.byteOffset p) :=
  rfl

def marked (w : Workspace M T) : Mark → Answer (List Span)
  | .cursor => .ok w.selections
  | .that => .ok w.that
  | .decoratedSymbol color character =>
      match w.tokens.get? (color, character) with
      | some span => .ok [span]
      | none => .refuse (.markNotFound color character)
  | .lastCursorPosition => .refuse (.notImplemented .lastCursorPosition)

def textOf (w : Workspace M T) (s : Span) : Answer Text := do
  let d ← w.document s.doc
  .ofOption (d.textOf? s.range)

end Workspace

end TargetSpans
