import TargetSpans.Text.Lines

/-!
# Pieces of a text

A text can be counted off in words or in characters.  The words of an identifier are what a
speaker would name one by one: `fooBarBaz` has the words `foo`, `Bar` and `Baz`, `HTTPServer2` has
`HTTP`, `Server` and `2`.  A word is an optional capital with the small letters after it, a run of
capitals whose last one does not already start the next word, or a run of digits.
-/

namespace TargetSpans

/-- A stretch of a text, from the index of its first character up to and without `stop`. -/
structure Piece where
  start : Nat
  stop : Nat
  deriving DecidableEq, Repr

/-- How many characters of one class a text starts with. -/
def CharClass.runLength (kind : CharClass) (classes : List CharClass) : Nat :=
  (classes.takeWhile (· = kind)).length

namespace Piece

/-- How many capitals of a run go on with the word before them: a capital right before a small
letter starts a word of its own. -/
def capitalsLength : List CharClass → Nat
  | .upper :: .lower :: _ => 0
  | .upper :: rest => 1 + capitalsLength rest
  | _ => 0

/-- How many characters the first word has after a character of class `first` that starts it. -/
def tailLength : CharClass → List CharClass → Nat
  | .upper, .lower :: rest => 1 + CharClass.lower.runLength rest
  | .upper, rest => capitalsLength rest
  | .lower, rest => CharClass.lower.runLength rest
  | .digit, rest => CharClass.digit.runLength rest
  | .separator, _ => 0

/-- The words of a text of the given classes, counting from `index`. -/
def wordsFrom (index : Nat) : List CharClass → List Piece
  | [] => []
  | .separator :: rest => wordsFrom (index + 1) rest
  | first :: rest =>
      let tail := tailLength first rest
      ⟨index, index + 1 + tail⟩ :: wordsFrom (index + 1 + tail) (rest.drop tail)
  termination_by classes => classes.length
  decreasing_by all_goals simp only [List.length_cons, List.length_drop]; omega

def words (t : Text) : List Piece := wordsFrom 0 (t.map CharClass.ofChar)

/-- The characters of a text, one piece each. -/
def characters (t : Text) : List Piece :=
  (List.range t.length).map fun index => ⟨index, index + 1⟩

def cut (p : Piece) (t : Text) : Text := (t.take p.stop).drop p.start

end Piece

end TargetSpans
