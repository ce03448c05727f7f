import TargetSpans.Json.Value

/-!
# JSON strings

A string is written between quotes, with escapes for the quote, the backslash and the control
characters.  The escape `\u` gives one unit of UTF-16; two such units make one character where they
are the halves of a surrogate pair, and a half on its own denotes nothing.
-/

namespace TargetSpans.Json

/-- What one character or escape of a string stands for. -/
inductive StringUnit where
  | char (c : Char)
  | utf16 (unit : Nat)
  deriving DecidableEq, Repr

def hexValue? (c : Char) : Option Nat :=
  if '0' ≤ c ∧ c ≤ '9' then some (c.toNat - '0'.toNat)
  else if 'a' ≤ c ∧ c ≤ 'f' then some (c.toNat - 'a'.toNat + 10)
  else if 'A' ≤ c ∧ c ≤ 'F' then some (c.toNat - 'A'.toNat + 10)
  else none

def hexValueOf? (digits : List Char) : Option Nat :=
  digits.foldlM (fun n c => (hexValue? c).map (16 * n + ·)) 0

/-- What a backslash with one character after it stands for. -/
def simpleEscape? : Char → Option Char
  | '"' => some '"'
  | '\\' => some '\\'
  | '/' => some '/'
  | 'b' => some '\u0008'
  | 'f' => some '\u000C'
  | 'n' => some '\n'
  | 'r' => some '\r'
  | 't' => some '\t'
  | _ => none

/-- The units of a string after its opening quote, and what comes after its closing one. -/
def readUnits? : List Char → Option (List StringUnit × List Char)
  | [] => none
  | '"' :: rest => some ([], rest)
  | '\\' :: 'u' :: a :: b :: c :: d :: rest => do
      let unit ← hexValueOf? [a, b, c, d]
      let (units, after) ← readUnits? rest
      return (.utf16 unit :: units, after)
  | '\\' :: e :: rest => do
      let c ← simpleEscape? e
      let (units, after) ← readUnits? rest
      return (.char c :: units, after)
  | c :: rest =>
      if c.toNat < 0x20 then none
      else do
        let (units, after) ← readUnits? rest
        return (.char c :: units, after)

/-- Whether a unit is the first half of a surrogate pair. -/
def isHighSurrogate (unit : Nat) : Bool := 0xD800 ≤ unit && unit < 0xDC00

/-- Whether a unit is the second half of a surrogate pair. -/
def isLowSurrogate (unit : Nat) : Bool := 0xDC00 ≤ unit && unit < 0xE000

/-- The character that two halves of a surrogate pair stand for. -/
def surrogatePair (high low : Nat) : Char :=
  Char.ofNat (0x10000 + (high - 0xD800) * 0x400 + (low - 0xDC00))

/-- The text of some units, unless one of them is half of a surrogate pair without the other. -/
def unitsText? : List StringUnit → Option (List Char)
  | [] => some []
  | .char c :: rest => (unitsText? rest).map (c :: ·)
  | .utf16 high :: .utf16 low :: rest =>
      if isHighSurrogate high then
        if isLowSurrogate low then (unitsText? rest).map (surrogatePair high low :: ·) else none
      else if isLowSurrogate high then none
      else (unitsText? (.utf16 low :: rest)).map (Char.ofNat high :: ·)
  | .utf16 unit :: rest =>
      if isHighSurrogate unit || isLowSurrogate unit then none
      else (unitsText? rest).map (Char.ofNat unit :: ·)

/-- The string after an opening quote, `none` inside if it denotes no text, and what comes after
it. -/
def readString? (t : List Char) : Option (Option String × List Char) := do
  let (units, rest) ← readUnits? t
  return ((unitsText? units).map String.ofList, rest)

end TargetSpans.Json
