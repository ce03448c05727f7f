import TargetSpans.Json.Number
import TargetSpans.Json.Quoted

/-!
# Reading JSON

The text of a JSON value, with nothing but white space around it.  Arrays and objects that lie too
deep within others follow the grammar but denote nothing.
-/

namespace TargetSpans.Json

def isSpace (c : Char) : Bool := c = ' ' || c = '\n' || c = '\t' || c = '\r'

def skipSpace (t : List Char) : List Char := t.dropWhile isSpace

def after? (word t : List Char) : Option (List Char) :=
  if word.isPrefixOf t then some (t.drop word.length) else none

/-- A container that `depth` others enclose, unless these are too many. -/
def Value.within (depth : Nat) (v : Value) : Value :=
  if depth < Value.depthLimit then v else .unreadable

/-- An object with the given entries; a key that denotes no text spoils it. -/
def Value.ofEntries (entries : List (Option String × Value)) : Value :=
  match entries.mapM fun e => e.1.map fun key => (key, e.2) with
  | some readable => .object readable
  | none => .unreadable

mutual

/-- The value that a text starts with and what comes after it, inside `depth` containers. -/
def readValue? : (fuel depth : Nat) → List Char → Option (Value × List Char)
  | 0, _, _ => none
  | fuel + 1, depth, t =>
      match t with
      | 'n' :: _ => (after? ['n', 'u', 'l', 'l'] t).map fun rest => (.null, rest)
      | 't' :: _ => (after? ['t', 'r', 'u', 'e'] t).map fun rest => (.bool true, rest)
      | 'f' :: _ => (after? ['f', 'a', 'l', 's', 'e'] t).map fun rest => (.bool false, rest)
      | '"' :: rest => do
          let (s, after) ← readString? rest
          return ((s.map Value.string).getD .unreadable, after)
      | '[' :: rest =>
          match skipSpace rest with
          | ']' :: after => some (Value.within depth (.array []), after)
          | start => do
              let (items, after) ← readItems? fuel (depth + 1) start
              return (Value.within depth (.array items), after)
      | '\x7b' :: rest =>
          match skipSpace rest with
          | '\x7d' :: after => some (Value.within depth (.object []), after)
          | start => do
              let (entries, after) ← readEntries? fuel (depth + 1) start
              return (Value.within depth (.ofEntries entries), after)
      | _ => readNumber? t

/-- The items of an array up to its closing bracket, and what comes after it. -/
def readItems? : (fuel depth : Nat) → List Char → Option (List Value × List Char)
  | 0, _, _ => none
  | fuel + 1, depth, t => do
      let (item, rest) ← readValue? fuel depth t
      match skipSpace rest with
      | ']' :: after => return ([item], after)
      | ',' :: next => do
          let (items, after) ← readItems? fuel depth (skipSpace next)
          return (item :: items, after)
      | _ => none

/-- The entries of an object up to its closing brace, and what comes after it. -/
def readEntries? :
    (fuel depth : Nat) → List Char → Option (List (Option String × Value) × List Char)
  | 0, _, _ => none
  | fuel + 1, depth, t => do
      let (key, rest) ← match t with
        | '"' :: start => readString? start
        | _ => none
      let value ← match skipSpace rest with
        | ':' :: start => readValue? fuel depth (skipSpace start)
        | _ => none
      let entry := (key, value.1)
      match skipSpace value.2 with
      | '\x7d' :: after => return ([entry], after)
      | ',' :: next => do
          let (entries, after) ← readEntries? fuel depth (skipSpace next)
          return (entry :: entries, after)
      | _ => none

end

/-- The value that a whole text denotes.  Every step of the reader either takes a character or is
followed by one that does, which bounds the steps by twice the length of the text. -/
def parse? (text : String) : Option Value := do
  let t := skipSpace text.toList
  let (v, rest) ← readValue? (2 * t.length + 2) 0 t
  if (skipSpace rest).isEmpty then some v else none

end TargetSpans.Json
