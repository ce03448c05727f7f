import TargetSpans.Json.Value

/-!
# JSON numbers

A number is read exactly where it is written as an integer.  A number that lies beyond the largest
double, so that the nearest double would be infinite, denotes nothing.
-/

namespace TargetSpans.Json

/-- The least natural number whose nearest double is infinite. -/
def doubleBound : Nat := 1 <<< 1024 - 1 <<< 970

/-- The natural number with at most 53 binary digits before its zeros that is nearest to `n`; of
two, the one that ends in an even digit. -/
def roundToDouble (n : Nat) : Nat :=
  if n < 1 <<< 53 then n
  else
    let unit := 1 <<< (n.log2 - 52)
    let below := n / unit
    let rest := n % unit
    let up := unit < 2 * rest || (unit = 2 * rest && below % 2 = 1)
    (if up then below + 1 else below) * unit

def digitValue (c : Char) : Nat := c.toNat - '0'.toNat

def digitsValue (digits : List Char) : Nat :=
  digits.foldl (fun n c => 10 * n + digitValue c) 0

/-- The longest run of leading digits whose value fits into 64 bits, added to what has been read of
them, and the number of digits after it. -/
def significand (sofar : Nat) : List Char → Nat × Nat
  | [] => (sofar, 0)
  | c :: rest =>
      let extended := 10 * sofar + digitValue c
      if extended < 1 <<< 64 then significand extended rest else (sofar, rest.length + 1)

/-- Whether a number with these digits, times a power of ten, is too large for a double.  Its first
digits and its power of ten are both rounded to doubles before they are multiplied. -/
def exceedsDouble (digits : List Char) (exponent : Int) : Bool :=
  let (first, left) := significand 0 digits
  let power := exponent + left
  first ≠ 0 && 0 ≤ power &&
    (308 < power || doubleBound ≤ roundToDouble first * roundToDouble (Nat.pow 10 power.toNat))

/-- The digits at the front of a text, at least one, and what comes after them. -/
def takeDigits? (t : List Char) : Option (List Char × List Char) :=
  match t.takeWhile Char.isDigit with
  | [] => none
  | digits => some (digits, t.dropWhile Char.isDigit)

/-- The digits before the point: a zero alone or digits that start with no zero. -/
def takeWhole? : List Char → Option (List Char × List Char)
  | '0' :: rest => some (['0'], rest)
  | t => takeDigits? t

/-- The fraction after a number, if there is one. -/
def takeFraction? : List Char → Option (List Char × List Char)
  | '.' :: rest => takeDigits? rest
  | t => some ([], t)

/-- The exponent after a number, if there is one; a number without exponent has none, which counts
as zero. -/
def takeExponent? : List Char → Option (Option Int × List Char)
  | 'e' :: rest | 'E' :: rest =>
      match rest with
      | '-' :: rest => (takeDigits? rest).map fun (ds, r) => (some (-(digitsValue ds : Int)), r)
      | '+' :: rest => (takeDigits? rest).map fun (ds, r) => (some (digitsValue ds : Int), r)
      | rest => (takeDigits? rest).map fun (ds, r) => (some (digitsValue ds : Int), r)
  | t => some (none, t)

def readNumber? (t : List Char) : Option (Value × List Char) := do
  let negative := t.head? = some '-'
  let (whole, afterWhole) ← takeWhole? (if negative then t.drop 1 else t)
  let (fraction, afterFraction) ← takeFraction? afterWhole
  let (exponent, rest) ← takeExponent? afterFraction
  let n := digitsValue whole
  let value : Value :=
    if exceedsDouble (whole ++ fraction) (exponent.getD 0 - fraction.length) then .unreadable
    else if fraction.isEmpty && exponent.isNone && !(negative && n = 0) then
      .integer (if negative then -(n : Int) else n)
    else .decimal (String.ofList (t.take (t.length - rest.length)))
  return (value, rest)

end TargetSpans.Json
