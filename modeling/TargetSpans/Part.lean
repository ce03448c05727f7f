import TargetSpans.Text.Pieces
import TargetSpans.Workspace

/-!
# Parts of a mark

A modifier takes a span to the parts of it that are meant: the span itself, a run of its words or
characters, or the syntactic scopes around it.
-/

namespace TargetSpans

/-- A part of a mark, with what the modifier has learned of its delimiters. -/
structure Part where
  span : Span
  context : DelimiterContext := {}
  deriving DecidableEq, Repr

namespace PieceKind

def pieces : PieceKind → Text → List Piece
  | word => Piece.words
  | character => Piece.characters

end PieceKind

namespace Piece

/-- Which of `count` pieces an index means; a negative one counts from the end. -/
def indexAmong (index : Int) (count : Nat) : Answer (Fin count) :=
  let i := if index < 0 then index + count else index
  if h : 0 ≤ i ∧ i < count then .ok ⟨i.toNat, by omega⟩
  else .refuse (.indexOutOfRange index count)

/-- The two ends of the run of pieces from one piece to another, the anchor first.  The run
covers both pieces, so it goes from the end of the anchor where the active piece comes first. -/
def runEnds (pieces : List Piece) (anchor active : Fin pieces.length) : Nat × Nat :=
  if active < anchor then (pieces[anchor].stop, pieces[active].start)
  else (pieces[anchor].start, pieces[active].stop)

end Piece

namespace Document

/-- The range of a run of pieces of the text that a range covers. -/
def subpiece (d : Document) (r : Range) (kind : PieceKind) (anchor active : Int) :
    Answer Range := do
  let text ← .ofOption (d.textOf? r)
  let pieces := kind.pieces text
  let first ← Piece.indexAmong anchor pieces.length
  let last ← Piece.indexAmong active pieces.length
  let ends := Piece.runEnds pieces first last
  let base := d.index r.start
  return ⟨d.position (base + ends.1), d.position (base + ends.2)⟩

end Document

namespace ScopeMatcher

variable {M : Type} [ScopeMatcher M]

/-- The first of some nodes that is a scope, with its scope. -/
def findFirst (m : M) (d : Document) : List Node → Answer (Option (Node × ScopeMatch))
  | [] => .ok none
  | n :: rest => do
      match ← find m d n with
      | some found => return some (n, found)
      | none => findFirst m d rest

def findAll (m : M) (d : Document) (nodes : List Node) : Answer (List ScopeMatch) := do
  let found ← nodes.mapM (find m d)
  return found.filterMap id

end ScopeMatcher

namespace Workspace

variable {M T : Type} [ScopeMatcher M] [SyntaxProvider T]

/-- The smallest scope of a kind around the start of a range, or all scopes of that kind right
below its parent. -/
def scopesAround (w : Workspace M T) (d : Document) (r : Range) (kind : ScopeKind)
    (includeSiblings : Bool) : Answer (List ScopeMatch) := do
  let matcher ← w.matcher d.language kind
  match w.nodeAt? d r.start with
  | none => .refuse (.containingScopeNotFound kind)
  | some start =>
      match ← ScopeMatcher.findFirst matcher d start.selfAndParents with
      | none => .refuse (.containingScopeNotFound kind)
      | some (scope, found) =>
          match scope.parent? with
          | none => return [found]
          | some parent =>
              if includeSiblings then ScopeMatcher.findAll matcher d parent.children
              else return [found]

/-- The parts of a span of a document that a modifier means. -/
def parts (w : Workspace M T) (m : Modifier) (d : Document) (s : Span) : Answer (List Part) :=
  match m with
  | .identity => return [{ span := s }]
  | .containingScope kind includeSiblings => do
      let scopes ← w.scopesAround d s.range kind includeSiblings
      return scopes.map fun found => ⟨{ s with range := found.range }, found.context⟩
  | .subpiece kind anchor active => do
      let range ← d.subpiece s.range kind anchor active
      return [{ span := { s with range := range } }]
  | .matchingPairSymbol => .refuse (.notImplemented .matchingPairSymbol)
  | .surroundingPair => .refuse (.notImplemented .surroundingPair)

end Workspace

end TargetSpans
