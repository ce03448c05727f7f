import TargetSpans.Toml.Scalar

/-!
# TOML strings

A string stands between quotes or apostrophes, single ones on one line and triple ones on any number
of lines.  Only strings between quotes have escapes.
-/

namespace TargetSpans.Toml

/-- Whether a character may be written within a line: all but the control characters, of which only
the tab is allowed. -/
def isInline (c : Char) : Bool := c = '\t' || (0x20 ≤ c.toNat && c.toNat ≠ 0x7F)

def hexDigit (c : Char) : Nat :=
  if c.isDigit then c.toNat - '0'.toNat
  else if c.isUpper then c.toNat - 'A'.toNat + 10
  else c.toNat - 'a'.toNat + 10

def charOfHex? (digits : List Char) : Option Char :=
  let code := digits.foldl (fun n c => 16 * n + hexDigit c) 0
  if digits.all isHexDigit ∧ code.isValidChar then some (Char.ofNat code) else none

/-- The character of an escape by code, and the text after its digits. -/
def readCode? (digits : Nat) (t : List Char) : Option (Char × List Char) :=
  if digits ≤ t.length then (charOfHex? (t.take digits)).map fun c => (c, t.drop digits)
  else none

/-- The character of the escape after a backslash, and the text after the escape. -/
def readEscape? : List Char → Option (Char × List Char)
  | [] => none
  | c :: rest =>
      match c with
      | 'b' => some ('\u0008', rest)
      | 't' => some ('\t', rest)
      | 'n' => some ('\n', rest)
      | 'f' => some ('\u000C', rest)
      | 'r' => some ('\r', rest)
      | 'e' => some ('\u001B', rest)
      | '"' => some ('"', rest)
      | '\\' => some ('\\', rest)
      | 'x' => readCode? 2 rest
      | 'u' => readCode? 4 rest
      | 'U' => readCode? 8 rest
      | _ => none

/-- Put a character in front of what has been read. -/
def consRead (c : Char) (read : List Char × List Char) : List Char × List Char :=
  (c :: read.1, read.2)

/-- A string of one line after its opening quote, and the text after its closing one. -/
def readBasic? : (fuel : Nat) → List Char → Option (List Char × List Char)
  | 0, _ => none
  | _ + 1, [] => none
  | fuel + 1, c :: rest =>
      if c = '"' then some ([], rest)
      else if c = '\\' then do
        let (e, next) ← readEscape? rest
        return consRead e (← readBasic? fuel next)
      else if isInline c then (readBasic? fuel rest).map (consRead c)
      else none

/-- A string of one line after its opening apostrophe, and the text after its closing one. -/
def readLiteral? : List Char → Option (List Char × List Char)
  | [] => none
  | c :: rest =>
      if c = '\'' then some ([], rest)
      else if isInline c then (readLiteral? rest).map (consRead c)
      else none

/-- The end of a string of several lines: three of its delimiters, and up to two more before them,
which belong to the string. -/
def readTripleEnd? (delimiter : Char) (t : List Char) : Option (List Char × List Char) :=
  let run := min 5 (t.takeWhile (· = delimiter)).length
  if 3 ≤ run then some (List.replicate (run - 3) delimiter, t.drop run) else none

/-- A text without the white space and the line breaks at its front. -/
def skipBreaks : List Char → List Char
  | ' ' :: rest => skipBreaks rest
  | '\t' :: rest => skipBreaks rest
  | '\n' :: rest => skipBreaks rest
  | '\r' :: '\n' :: rest => skipBreaks rest
  | t => t

/-- What comes after a line break at the front of a text. -/
def afterBreak? : List Char → Option (List Char)
  | '\n' :: rest => some rest
  | '\r' :: '\n' :: rest => some rest
  | _ => none

/-- A string of several lines after its opening quotes, and the text after its closing ones.  A
backslash at the end of a line takes away all white space up to the next character. -/
def readTripleBasic? : (fuel : Nat) → List Char → Option (List Char × List Char)
  | 0, _ => none
  | fuel + 1, t =>
      match readTripleEnd? '"' t with
      | some found => some found
      | none =>
          match t with
          | [] => none
          | '\r' :: '\n' :: rest =>
              (readTripleBasic? fuel rest).map fun read => consRead '\r' (consRead '\n' read)
          | c :: rest =>
              if c = '\\' then
                match afterBreak? (rest.dropWhile isSpace) with
                | some next => readTripleBasic? fuel (skipBreaks next)
                | none => do
                    let (e, next) ← readEscape? rest
                    return consRead e (← readTripleBasic? fuel next)
              else if c = '\n' || isInline c then (readTripleBasic? fuel rest).map (consRead c)
              else none

/-- A string of several lines after its opening apostrophes, and the text after its closing
ones. -/
def readTripleLiteral? : (fuel : Nat) → List Char → Option (List Char × List Char)
  | 0, _ => none
  | fuel + 1, t =>
      match readTripleEnd? '\'' t with
      | some found => some found
      | none =>
          match t with
          | [] => none
          | '\r' :: '\n' :: rest =>
              (readTripleLiteral? fuel rest).map fun read => consRead '\r' (consRead '\n' read)
          | c :: rest =>
              if c = '\n' || isInline c then (readTripleLiteral? fuel rest).map (consRead c)
              else none

/-- A text without the line break that may follow the opening of a string of several lines. -/
def dropBreak (t : List Char) : List Char := (afterBreak? t).getD t

/-- The string of one line that a text starts with, and what comes after it. -/
def readLineString? : List Char → Option (List Char × List Char)
  | '"' :: rest => readBasic? (rest.length + 1) rest
  | '\'' :: rest => readLiteral? rest
  | _ => none

/-- The string that a text starts with, and what comes after it. -/
def readString? : List Char → Option (List Char × List Char)
  | '"' :: '"' :: '"' :: rest =>
      let body := dropBreak rest
      readTripleBasic? (body.length + 1) body
  | '\'' :: '\'' :: '\'' :: rest =>
      let body := dropBreak rest
      readTripleLiteral? (body.length + 1) body
  | t => readLineString? t

end TargetSpans.Toml
