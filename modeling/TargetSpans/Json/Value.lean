/-!
# JSON values

A value keeps what its text says: the entries of an object in the order of the text, repeated keys
among them.  A part of a text can follow the grammar and yet denote nothing, such as a string that
ends in half of a surrogate pair; such a part is an unreadable value, which matters only to those
who look at it.
-/

namespace TargetSpans.Json

/-- A JSON value as it is written. -/
inductive Value where
  | null
  | bool (b : Bool)
  /-- A number without fraction and exponent, `-0` excepted. -/
  | integer (n : Int)
  /-- Any other number, as it is written. -/
  | decimal (text : String)
  | string (s : String)
  | array (items : List Value)
  | object (entries : List (String × Value))
  /-- Something that follows the grammar but denotes no value. -/
  | unreadable
  deriving Repr, Inhabited

namespace Value

mutual

/-- Whether a value has no unreadable part. -/
def isReadable : Value → Bool
  | unreadable => false
  | array items => areReadable items
  | object entries => entriesAreReadable entries
  | _ => true

/-- Whether no item of an array has an unreadable part. -/
def areReadable : List Value → Bool
  | [] => true
  | v :: rest => v.isReadable && areReadable rest

/-- Whether no entry of an object has an unreadable part. -/
def entriesAreReadable : List (String × Value) → Bool
  | [] => true
  | (_, v) :: rest => v.isReadable && entriesAreReadable rest

end

/-- How many arrays and objects may lie within one another. -/
def depthLimit : Nat := 127

def string? : Value → Option String
  | string s => some s
  | _ => none

def char? : Value → Option Char
  | string s =>
      match s.toList with
      | [c] => some c
      | _ => none
  | _ => none

def bool? : Value → Option Bool
  | bool b => some b
  | _ => none

/-- The integer of at most 64 bits, one for the sign, that a value is. -/
def int64? : Value → Option Int
  | integer n =>
      let bound : Nat := 1 <<< 63
      if -bound ≤ n ∧ n < bound then some n else none
  | _ => none

end Value

end TargetSpans.Json
