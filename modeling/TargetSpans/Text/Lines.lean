import TargetSpans.Text.CharClass

/-!
# Lines of a text

A text is a list of characters.  It is cut into lines after every line break; a carriage return
with the line feed right after it is one break.  A text has one line more than it has breaks, so
the empty text has one line, and only the last line has no break at its end.
-/

namespace TargetSpans

/-- A text: a list of characters. -/
abbrev Text := List Char

inductive LineBreak where
  | crlf
  | lineFeed
  | verticalTab
  | formFeed
  | carriageReturn
  | nextLine
  | lineSeparator
  | paragraphSeparator
  deriving DecidableEq, Repr

namespace LineBreak

def chars : LineBreak → Text
  | crlf => ['\r', '\n']
  | lineFeed => ['\n']
  | verticalTab => ['\u000B']
  | formFeed => ['\u000C']
  | carriageReturn => ['\r']
  | nextLine => ['\u0085']
  | lineSeparator => ['\u2028']
  | paragraphSeparator => ['\u2029']

def length (b : LineBreak) : Nat := b.chars.length

/-- The line break that a single character is. -/
def ofChar? (c : Char) : Option LineBreak :=
  if c = '\n' then some lineFeed
  else if c = '\u000B' then some verticalTab
  else if c = '\u000C' then some formFeed
  else if c = '\r' then some carriageReturn
  else if c = '\u0085' then some nextLine
  else if c = '\u2028' then some lineSeparator
  else if c = '\u2029' then some paragraphSeparator
  else none

end LineBreak

/-- One line of a text: its content and the break that ends it. -/
structure Line where
  content : Text
  ending : Option LineBreak
  deriving DecidableEq, Repr

namespace Line

/-- The number of characters of a line without its break. -/
def length (l : Line) : Nat := l.content.length

/-- The characters of the break that ends a line. -/
def endingChars (l : Line) : Text := (l.ending.map LineBreak.chars).getD []

def chars (l : Line) : Text := l.content ++ l.endingChars

def size (l : Line) : Nat := l.chars.length

/-- The number of characters of some lines with their breaks. -/
def totalSize : List Line → Nat
  | [] => 0
  | l :: rest => l.size + totalSize rest

/-- The column of the first character that is not blank, or the length of a blank line. -/
def indent (l : Line) : Nat := (l.content.takeWhile isBlank).length

def allBlank (l : Line) : Bool := l.content.all isBlank

end Line

namespace Text

/-- Put a character in front of the first of some lines. -/
def consContent (c : Char) : List Line → List Line
  | [] => [⟨[c], none⟩]
  | l :: ls => ⟨c :: l.content, l.ending⟩ :: ls

def lines : Text → List Line
  | [] => [⟨[], none⟩]
  | '\r' :: '\n' :: rest => ⟨[], some .crlf⟩ :: lines rest
  | c :: rest =>
      match LineBreak.ofChar? c with
      | some b => ⟨[], some b⟩ :: lines rest
      | none => consContent c (lines rest)

/-- The line break at the very end of a text. -/
def finalBreak? (t : Text) : Option LineBreak :=
  match t.reverse with
  | '\n' :: '\r' :: _ => some .crlf
  | c :: _ => LineBreak.ofChar? c
  | [] => none

/-- The number of characters before a row. -/
def rowStart (t : Text) (row : Nat) : Nat := Line.totalSize (t.lines.take row)

/-- The index at which the content of a row ends; undefined for a row that the text lacks. -/
def rowEnd? (t : Text) (row : Nat) : Option Nat :=
  t.lines[row]?.map fun l => t.rowStart row + l.length

end Text

end TargetSpans
