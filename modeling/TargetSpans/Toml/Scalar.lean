import TargetSpans.Toml.Value

/-!
# Bare TOML values

The values that are written without quotes or brackets: truth values, numbers, dates and times.
Each of them is recognised from its characters alone.  A value reaches over white space to the next
word, so that a date and a time may be apart.  Of an integer only the form is looked at, not the
size, and of a grouped one no more than its first group and its underscores.
-/

namespace TargetSpans.Toml

def isSpace (c : Char) : Bool := c = ' ' || c = '\t'

/-- The characters of the words of bare values: all but white space, line breaks and the characters
that separate values from what stands around them. -/
def isBare (c : Char) : Bool :=
  !(isSpace c || c = '\n' || c = '\r' || c = '#' || c = '=' || c = ',' || c = '[' || c = ']' ||
    c = '\x7b' || c = '\x7d')

/-- The characters that a word of a bare value may start with after white space. -/
def startsWord (c : Char) : Bool := isBare c && c ≠ '.' && c ≠ '"' && c ≠ '\''

def isHexDigit (c : Char) : Bool :=
  c.isDigit || ('a' ≤ c && c ≤ 'f') || ('A' ≤ c && c ≤ 'F')

/-- Whether a text consists of digits, with single underscores between them. -/
def areDigits (isDigit : Char → Bool) : List Char → Bool
  | [] => false
  | [c] => isDigit c
  | c :: '_' :: rest => isDigit c && areDigits isDigit rest
  | c :: rest => isDigit c && areDigits isDigit rest

def dropSign : List Char → List Char
  | '+' :: rest => rest
  | '-' :: rest => rest
  | t => t

/-- Whether a text is a whole number in base ten; zero alone starts with a zero. -/
def isWhole : List Char → Bool
  | ['0'] => true
  | '0' :: _ => false
  | t => areDigits Char.isDigit t

/-- Whether every underscore of a text stands between two digits in base sixteen. -/
def hasInnerUnderscores : List Char → Bool
  | [] => true
  | '_' :: _ => false
  | [_] => true
  | c :: '_' :: rest =>
      isHexDigit c && rest.head?.any isHexDigit && hasInnerUnderscores rest
  | _ :: rest => hasInnerUnderscores rest

/-- Whether a text is a number whose digits are grouped by underscores.  Its first group is a whole
number above zero; the groups after it may hold any characters but spaces and those of a fraction or
an exponent, as long as digits in base sixteen surround the underscores. -/
def isGrouped (t : List Char) : Bool :=
  t.head?.any (fun c => '1' ≤ c && c ≤ '9') &&
    (t.dropWhile Char.isDigit).head? = some '_' &&
    t.all (fun c => c ≠ ' ' && c ≠ '.' && c ≠ 'e' && c ≠ 'E') &&
    hasInnerUnderscores t

/-- Whether a text is the digits of an integer after the mark of its base; there may be none. -/
def isMarked (isDigit : Char → Bool) (t : List Char) : Bool := t.isEmpty || areDigits isDigit t

/-- Whether a text is an integer, in one of the four bases. -/
def isInteger : List Char → Bool
  | '0' :: 'x' :: rest => isMarked isHexDigit rest
  | '0' :: 'o' :: rest => isMarked (fun c => '0' ≤ c && c ≤ '7') rest
  | '0' :: 'b' :: rest => isMarked (fun c => c = '0' || c = '1') rest
  | t => isWhole (dropSign t) || isGrouped (dropSign t)

/-- A text cut before the first character of a kind; the rest starts with that character. -/
def cutBefore (isCut : Char → Bool) (t : List Char) : List Char × List Char :=
  (t.takeWhile fun c => !isCut c, t.dropWhile fun c => !isCut c)

/-- Whether a text is a number with a fraction, an exponent or both, or infinite, or not a
number. -/
def isFloat (t : List Char) : Bool :=
  let unsigned := dropSign t
  let (mantissa, exponent) := cutBefore (fun c => c = 'e' || c = 'E') unsigned
  let (whole, fraction) := cutBefore (· = '.') mantissa
  let special := unsigned = ['i', 'n', 'f'] || unsigned = ['n', 'a', 'n']
  let exponentFits := exponent.isEmpty || areDigits Char.isDigit (dropSign (exponent.drop 1))
  let fractionFits := fraction.isEmpty || areDigits Char.isDigit (fraction.drop 1)
  special ||
    (isWhole whole && fractionFits && exponentFits && !(exponent.isEmpty && fraction.isEmpty))

def twoDigits? (a b : Char) : Option Nat :=
  if a.isDigit && b.isDigit then some (10 * (a.toNat - '0'.toNat) + (b.toNat - '0'.toNat))
  else none

def daysOf (year month : Nat) : Nat :=
  if month = 2 then
    if year % 4 = 0 ∧ (year % 100 ≠ 0 ∨ year % 400 = 0) then 29 else 28
  else if month = 4 ∨ month = 6 ∨ month = 9 ∨ month = 11 then 30
  else 31

/-- Whether ten characters are a day of the calendar. -/
def isDate : List Char → Bool
  | [a, b, c, d, '-', e, f, '-', g, h] =>
      match twoDigits? a b, twoDigits? c d, twoDigits? e f, twoDigits? g h with
      | some century, some year, some month, some day =>
          1 ≤ month && month ≤ 12 && 1 ≤ day && day ≤ daysOf (100 * century + year) month
      | _, _, _, _ => false
  | _ => false

/-- Whether two characters are a number below a bound. -/
def isBelow (bound : Nat) (a b : Char) : Bool := (twoDigits? a b).any (· < bound)

/-- Whether a text is a time of day, with or without seconds and a fraction of them. -/
def isTime : List Char → Bool
  | [a, b, ':', c, d] => isBelow 24 a b && isBelow 60 c d
  | [a, b, ':', c, d, ':', e, f] => isBelow 24 a b && isBelow 60 c d && isBelow 61 e f
  | a :: b :: ':' :: c :: d :: ':' :: e :: f :: '.' :: rest =>
      isBelow 24 a b && isBelow 60 c d && isBelow 61 e f && !rest.isEmpty && rest.all Char.isDigit
  | _ => false

/-- Whether a text is a distance from universal time. -/
def isZone : List Char → Bool
  | [z] => z = 'Z' || z = 'z'
  | [sign, a, b, ':', c, d] => (sign = '+' || sign = '-') && isBelow 24 a b && isBelow 60 c d
  | _ => false

/-- Whether a text is a time of day, with or without a zone. -/
def isZonedTime (t : List Char) : Bool :=
  let (time, zone) := cutBefore (fun c => c = 'Z' || c = 'z' || c = '+' || c = '-') t
  isTime time && (zone.isEmpty || isZone zone)

/-- Whether a text is a date, a time or both. -/
def isDatetime (t : List Char) : Bool :=
  isDate t || isTime t ||
    (isDate (t.take 10) &&
      match t.drop 10 with
      | c :: rest => (c = 'T' || c = 't' || c = ' ') && isZonedTime rest
      | [] => false)

def scalar? (t : List Char) : Option Value :=
  if t = ['t', 'r', 'u', 'e'] then some (.boolean true)
  else if t = ['f', 'a', 'l', 's', 'e'] then some (.boolean false)
  else if isInteger t then some (.integer (String.ofList t))
  else if isFloat t then some (.float (String.ofList t))
  else if isDatetime t then some (.datetime (String.ofList t))
  else none

/-- The characters of the bare value at the front of a text, and what comes after them.  White space
belongs to the value where another word comes after it. -/
def takeScalar : List Char → List Char × List Char
  | [] => ([], [])
  | c :: rest =>
      if isBare c || (isSpace c && (rest.dropWhile isSpace).head?.any startsWord) then
        let (word, after) := takeScalar rest
        (c :: word, after)
      else ([], c :: rest)

end TargetSpans.Toml
