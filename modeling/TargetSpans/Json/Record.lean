import TargetSpans.Json.Value

/-!
# Records in JSON

How a value of a JSON text stands for a record, a choice between names, or a choice between tagged
records.

A record is written as an object, where the order of the keys and unknown keys do not matter but
no known key may come twice, or as an array of its fields in their order.  A tagged record has its
tag under the key `type` or in front of the array.  Within another tagged record the tag may be a
number, the place of the tag among its alternatives.
-/

namespace TargetSpans.Json

/-- The fields of a record as they are written. -/
inductive Record where
  | named (entries : List (String × Value))
  | listed (values : List Value)

namespace Record

def ofValue? : Value → Option Record
  | .object entries => some (.named entries)
  | .array values => some (.listed values)
  | _ => none

/-- The value of a field, given by its place and its name, if it is there; undefined if it is there
twice. -/
def lookup? (r : Record) (place : Nat) (name : String) : Option (Option Value) :=
  match r with
  | named entries =>
      match entries.filter fun e => e.1 = name with
      | [] => some none
      | [e] => some (some e.2)
      | _ :: _ :: _ => none
  | listed values => some values[place]?

/-- Whether a record may have only so many fields; unknown keys do not count. -/
def fits (r : Record) (count : Nat) : Bool :=
  match r with
  | named _ => true
  | listed values => values.length ≤ count

def required? {α : Type} (r : Record) (place : Nat) (name : String) (read : Value → Option α) :
    Option α := do
  let v ← ← r.lookup? place name
  read v

def optional? {α : Type} (r : Record) (place : Nat) (name : String) (default : α)
    (read : Value → Option α) : Option α := do
  match ← r.lookup? place name with
  | some v => read v
  | none => return default

end Record

/-- Where a value stands: on its own or within a tagged record. -/
inductive Setting where
  | outermost
  | nested
  deriving DecidableEq, Repr

/-- The tag of a record as it is written. -/
inductive Tag where
  | name (s : String)
  | place (n : Nat)
  deriving DecidableEq, Repr

namespace Tag

/-- The tag that a value is; numbers are tags only within a tagged record. -/
def ofValue? (setting : Setting) : Value → Option Tag
  | .string s => some (.name s)
  | .integer (.ofNat n) => if setting = .nested then some (.place n) else none
  | _ => none

/-- Which of some alternatives a tag chooses. -/
def choose? (t : Tag) (alternatives : List String) : Option String :=
  match t with
  | name s => alternatives.find? fun a => a = s
  | place n => alternatives[n]?

end Tag

def tagKey : String := "type"

/-- A record with its tag. -/
structure TaggedRecord where
  tag : Tag
  fields : Record

/-- The tagged record that a value is written as.  A tagged record that stands on its own has no
unreadable part. -/
def TaggedRecord.ofValue? (setting : Setting) (v : Value) : Option TaggedRecord :=
  if setting = .nested ∨ v.isReadable then
    match v with
    | .object entries =>
        match entries.filter fun e => e.1 = tagKey with
        | [e] => do
            let tag ← Tag.ofValue? setting e.2
            return ⟨tag, .named (entries.filter fun e => e.1 ≠ tagKey)⟩
        | _ => none
    | .array (first :: rest) => do
        let tag ← Tag.ofValue? setting first
        return ⟨tag, .listed rest⟩
    | _ => none
  else none

/-- The alternative that a tagged record chooses, with its fields. -/
def taggedRecord? (setting : Setting) (alternatives : List String) (v : Value) :
    Option (String × Record) := do
  let r ← TaggedRecord.ofValue? setting v
  let choice ← r.tag.choose? alternatives
  return (choice, r.fields)

/-- What may stand for the missing fields of a bare name that is written as a key. -/
def isVoid (setting : Setting) : Value → Bool
  | .null => true
  | .object [] => setting = .nested
  | _ => false

/-- The one of some named things that a value chooses: by its name or, as a record without fields,
by an object with the name as its only key. -/
def choice? {α : Type} (setting : Setting) (things : List α) (label : α → String) (v : Value) :
    Option α :=
  match v with
  | .string s => things.find? fun a => label a = s
  | .object [(s, content)] =>
      if isVoid setting content then things.find? fun a => label a = s else none
  | _ => none

end TargetSpans.Json
