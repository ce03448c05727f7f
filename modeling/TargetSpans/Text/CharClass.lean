import TargetSpans.Text.LetterTable

/-!
# Classes of characters

Two classifications of characters.  `CharClass` says how a character takes part in the words of an
identifier; `isBlank` and `isListSeparator` say which characters may stand between the items of a
list on one line.
-/

namespace TargetSpans

/-- How a character takes part in the words of a text. -/
inductive CharClass where
  /-- Letters of upper and title case, which start a word. -/
  | upper
  /-- All other letters, those of scripts without case among them. -/
  | lower
  /-- The ten ASCII digits. -/
  | digit
  /-- Everything that belongs to no word. -/
  | separator
  deriving DecidableEq, Repr

namespace CharClass

/-- The class of a character: digits first, then the letters by case. -/
def ofChar (c : Char) : CharClass :=
  if '0' ≤ c ∧ c ≤ '9' then .digit
  else if LetterTable.isCapital c.toNat then .upper
  else if LetterTable.isSmall c.toNat then .lower
  else .separator

end CharClass

/-- White space within a line: the tab and the spaces, of zero width too, but no line break. -/
def isBlank (c : Char) : Bool :=
  c = '\t' || c = ' ' || c = '\u00A0' || c = '\u202F' || c = '\u205F' || c = '\u3000' ||
    c = '\uFEFF' || ('\u2000' ≤ c && c ≤ '\u200B')

/-- Characters that may stand between two items of a list, as in `one, two`.  Brackets and quotes
never do. -/
def isListSeparator (c : Char) : Bool :=
  isBlank c || c = ',' || c = ';' || c = '|'

end TargetSpans
