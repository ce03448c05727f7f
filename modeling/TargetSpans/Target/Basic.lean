import TargetSpans.Scope.Kind

/-!
# Targets

A target describes places in open documents without naming positions: "the second word of the
token under the blue x", "every argument of this call", "from here to there".  A primitive target
starts from a mark, picks a part of it, grows that part to a selection type and places itself at
the selection or on one side of it.
-/

namespace TargetSpans

/-- Where a target starts from. -/
inductive Mark where
  /-- Every current selection. -/
  | cursor
  /-- The token that is shown under a coloured symbol. -/
  | decoratedSymbol (color : String) (character : Char)
  /-- Whatever the previous action produced. -/
  | that
  /-- Reserved. -/
  | lastCursorPosition
  deriving DecidableEq, Repr

/-- What the pieces of a text are. -/
inductive PieceKind where
  | word
  | character
  deriving DecidableEq, Repr

/-- Which part of a mark is meant. -/
inductive Modifier where
  | identity
  /-- The smallest scope of a kind around the mark, or all scopes of that kind beside it. -/
  | containingScope (kind : ScopeKind) (includeSiblings : Bool)
  /-- The pieces from one index to another; negative indices count from the end. -/
  | subpiece (pieces : PieceKind) (anchor active : Int)
  /-- Reserved. -/
  | matchingPairSymbol
  /-- Reserved. -/
  | surroundingPair
  deriving DecidableEq, Repr

/-- What a part is grown to. -/
inductive SelectionType where
  | token
  | line
  | document
  | paragraph
  /-- Reserved. -/
  | character
  deriving DecidableEq, Repr

/-- Where a target lies with respect to its selection. -/
inductive Placement where
  | before
  | after
  | contents
  deriving DecidableEq, Repr

/-- Whether a target takes in the delimiters around it. -/
inductive InsideOutside where
  | inside
  | outside
  deriving DecidableEq, Repr

/-- A target with one mark. -/
structure Primitive where
  mark : Mark
  modifier : Modifier := .identity
  selectionType : SelectionType
  insideOutside : Option InsideOutside := none
  placement : Placement := .contents
  deriving DecidableEq, Repr

/-- A primitive target or the stretch from one to another. -/
inductive Element where
  | primitive (p : Primitive)
  | range (start stop : Primitive)
  deriving DecidableEq, Repr

/-- A single element or a list of elements; lists do not nest. -/
inductive Target where
  | single (e : Element)
  | list (elements : List Element)
  deriving DecidableEq, Repr

namespace PieceKind

def label : PieceKind → String
  | word => "word"
  | character => "character"

def all : List PieceKind := [word, character]

end PieceKind

namespace SelectionType

def label : SelectionType → String
  | token => "token"
  | line => "line"
  | document => "document"
  | paragraph => "paragraph"
  | character => "character"

def all : List SelectionType := [token, line, document, paragraph, character]

end SelectionType

namespace Placement

def label : Placement → String
  | before => "before"
  | after => "after"
  | contents => "contents"

def all : List Placement := [before, after, contents]

end Placement

namespace InsideOutside

def label : InsideOutside → String
  | inside => "inside"
  | outside => "outside"

def all : List InsideOutside := [inside, outside]

end InsideOutside

end TargetSpans
