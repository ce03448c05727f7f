import TargetSpans.Range
import TargetSpans.Text.Bytes

/-!
# Documents

A document is a text with an identity and a language.  This file goes between the three ways
to name a place in it: positions, character indices and byte offsets.  A position outside the text
is taken back into it, the row first and then the column, so that every position has an index; a
question about a row that the document lacks has no answer.
-/

namespace TargetSpans

/-- The number under which a document is open. -/
structure DocumentId where
  number : Nat
  deriving DecidableEq, Repr

def DocumentId.label (d : DocumentId) : String := "#" ++ toString d.number

/-- A text that is open under a number, written in some language. -/
structure Document where
  id : DocumentId
  language : String
  text : Text
  deriving DecidableEq, Repr

namespace Line

/-- The index of a position in a text of the given lines.  Rows past the last line count as the
last line, and columns past the content of a line as its end. -/
def indexIn : List Line → Nat → Nat → Nat
  | [], _, _ => 0
  | [l], _, col => min col l.length
  | l :: _ :: _, 0, col => min col l.length
  | l :: next :: rest, row + 1, col => l.size + indexIn (next :: rest) row col

/-- The position of an index in a text of the given lines.  Indices past the end count as the
end. -/
def positionIn : List Line → Nat → Position
  | [], _ => .origin
  | [l], index => ⟨0, min index l.length⟩
  | l :: next :: rest, index =>
      if index < l.size then ⟨0, index⟩
      else
        let p := positionIn (next :: rest) (index - l.size)
        ⟨p.row + 1, p.col⟩

end Line

namespace Document

def lines (d : Document) : List Line := d.text.lines

/-- The number of lines, the empty one after a final line break among them. -/
def lineCount (d : Document) : Nat := d.lines.length

def line? (d : Document) (row : Nat) : Option Line := d.lines[row]?

/-- The position right before the break of a row. -/
def lineEnd? (d : Document) (row : Nat) : Option Position :=
  (d.line? row).map fun l => ⟨row, l.length⟩

/-- Whether a position lies on a line of the document and no further right than its end. -/
def contains (d : Document) (p : Position) : Bool :=
  (d.line? p.row).any fun l => p.col ≤ l.length

def finish (d : Document) : Position :=
  ⟨d.lineCount - 1, (d.lines.getLast?.map Line.length).getD 0⟩

def index (d : Document) (p : Position) : Nat := Line.indexIn d.lines p.row p.col

def position (d : Document) (index : Nat) : Position := Line.positionIn d.lines index

def byteOffset (d : Document) (p : Position) : Nat := d.text.byteOffset (d.index p)

/-- The position of the character that a byte offset lies in. -/
def positionOfByte (d : Document) (offset : Nat) : Position :=
  d.position (d.text.charIndex offset)

/-- The text that a range covers, whatever its direction.  It is undefined where the later end has
the smaller index, which can only happen outside the text. -/
def textOf? (d : Document) (r : Range) : Option Text :=
  let first := d.index r.start
  let last := d.index r.stop
  if first ≤ last then some ((d.text.take last).drop first) else none

end Document

structure Span where
  doc : DocumentId
  range : Range
  deriving DecidableEq, Repr

end TargetSpans
