import TargetSpans.Resolution

/-!
# Sessions

A session is a workspace that changes: documents are opened and closed, selections and tokens move,
trees and scopes are replaced, and the spans of a resolved target may become the selections or what
`that` refers to.  Each change also tells what it has replaced.
-/

namespace TargetSpans

/-- A workspace in use, with the last step of every resolution. -/
structure Session (M : Type := NodeMatcher) where
  workspace : Workspace M := { trees := .empty }
  adjust : Adjuster := TypedSpan.widenOutside

namespace Session

variable {M : Type}

/-- Open a document, in place of the one that has been open under its number. -/
def openDocument (s : Session M) (d : Document) : Option Document × Session M :=
  (s.workspace.documents.get? d.id,
    { s with workspace.documents := s.workspace.documents.insert d })

/-- Close a document.  Its tree stays. -/
def closeDocument (s : Session M) (id : DocumentId) : Option Document × Session M :=
  (s.workspace.documents.get? id,
    { s with workspace.documents := s.workspace.documents.erase id })

def select (s : Session M) (spans : List Span) : Session M :=
  { s with workspace.selections := spans }

/-- Replace what `that` refers to. -/
def setThat (s : Session M) (spans : List Span) : Session M :=
  { s with workspace.that := spans }

def addToken (s : Session M) (color : String) (character : Char) (span : Span) :
    Option Span × Session M :=
  (s.workspace.tokens.get? (color, character),
    { s with workspace.tokens := s.workspace.tokens.insert (color, character) span })

def removeToken (s : Session M) (color : String) (character : Char) : Option Span × Session M :=
  (s.workspace.tokens.get? (color, character),
    { s with workspace.tokens := s.workspace.tokens.erase (color, character) })

def clearTokens (s : Session M) : Session M :=
  { s with workspace.tokens := .empty }

def setTree (s : Session M) (id : DocumentId) (t : SyntaxTree) : Option SyntaxTree × Session M :=
  (s.workspace.trees.get? id,
    { s with workspace.trees := s.workspace.trees.insert id t })

def dropTree (s : Session M) (id : DocumentId) : Option SyntaxTree × Session M :=
  (s.workspace.trees.get? id,
    { s with workspace.trees := s.workspace.trees.erase id })

/-- Give the tree of one document to another one as well. -/
def shareTree (s : Session M) (source target : DocumentId) : Option SyntaxTree × Session M :=
  match s.workspace.trees.get? source with
  | some tree => s.setTree target tree
  | none => (none, s)

def setScopes (s : Session M) (registry : Option (ScopeRegistry M)) : Session M :=
  { s with workspace.scopes := registry }

/-- Add a matcher to the scope registry, which is made if there is none. -/
def register (s : Session M) (language : String) (kind : ScopeKind) (m : M) : Session M :=
  s.setScopes (some ((s.workspace.scopes.getD .empty).register language kind m))

/-- Let spans become what `that` refers to, or the selections, when asked. -/
def keep (s : Session M) (spans : List Span) (keepThat keepSelections : Bool) : Session M :=
  let kept := if keepThat then s.setThat spans else s
  if keepSelections then kept.select spans else kept

/-- Resolve targets and keep their spans when asked. -/
def resolve [ScopeMatcher M] (s : Session M) (targets : List Target)
    (keepThat keepSelections : Bool) : Answer (List (List TypedSpan) × Session M) := do
  let groups ← s.workspace.resolveAll s.adjust targets
  return (groups, s.keep (groups.flatten.map TypedSpan.span) keepThat keepSelections)

end Session

end TargetSpans
