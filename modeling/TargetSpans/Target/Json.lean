import TargetSpans.Json.Record
import TargetSpans.Target.Basic

/-!
# Targets in JSON

Reading targets from JSON values and writing them.  Fields that are left out take their defaults;
what is written has all fields but an undecided side.
-/

namespace TargetSpans

open Json

namespace ScopeKind

def ofJson? (setting : Setting) : Value → Option ScopeKind := choice? setting all label

def toJson (k : ScopeKind) : Value := .string k.label

end ScopeKind

namespace PieceKind

def ofJson? (setting : Setting) : Value → Option PieceKind := choice? setting all label

def toJson (k : PieceKind) : Value := .string k.label

end PieceKind

namespace SelectionType

def ofJson? (setting : Setting) : Value → Option SelectionType := choice? setting all label

def toJson (t : SelectionType) : Value := .string t.label

end SelectionType

namespace Placement

def ofJson? (setting : Setting) : Value → Option Placement := choice? setting all label

def toJson (p : Placement) : Value := .string p.label

end Placement

namespace InsideOutside

def ofJson? (setting : Setting) : Value → Option InsideOutside := choice? setting all label

def toJson (s : InsideOutside) : Value := .string s.label

/-- A side or null for an undecided one. -/
def orNull? (setting : Setting) : Value → Option (Option InsideOutside)
  | .null => some none
  | v => (ofJson? setting v).map some

end InsideOutside

namespace Mark

def tags : List String := ["cursor", "decoratedSymbol", "that", "lastCursorPosition"]

def ofJson? (setting : Setting) (v : Value) : Option Mark := do
  let (tag, r) ← taggedRecord? setting tags v
  match tag with
  | "cursor" => if r.fits 0 then some .cursor else none
  | "decoratedSymbol" =>
      if r.fits 2 then do
        let color ← r.required? 0 "symbolColor" Value.string?
        let character ← r.required? 1 "character" Value.char?
        return .decoratedSymbol color character
      else none
  | "that" => if r.fits 0 then some .that else none
  | "lastCursorPosition" => if r.fits 0 then some .lastCursorPosition else none
  | _ => none

def toJson : Mark → Value
  | cursor => .object [(tagKey, .string "cursor")]
  | decoratedSymbol color character =>
      .object [(tagKey, .string "decoratedSymbol"), ("symbolColor", .string color),
        ("character", .string (String.singleton character))]
  | that => .object [(tagKey, .string "that")]
  | lastCursorPosition => .object [(tagKey, .string "lastCursorPosition")]

end Mark

namespace Modifier

def tags : List String :=
  ["identity", "containingScope", "subpiece", "matchingPairSymbol", "surroundingPair"]

def ofJson? (setting : Setting) (v : Value) : Option Modifier := do
  let (tag, r) ← taggedRecord? setting tags v
  match tag with
  | "identity" => if r.fits 0 then some .identity else none
  | "containingScope" =>
      if r.fits 2 then do
        let kind ← r.required? 0 "scopeType" (ScopeKind.ofJson? .nested)
        let includeSiblings ← r.optional? 1 "includeSiblings" false Value.bool?
        return .containingScope kind includeSiblings
      else none
  | "subpiece" =>
      if r.fits 3 then do
        let pieces ← r.required? 0 "pieceType" (PieceKind.ofJson? .nested)
        let anchor ← r.required? 1 "anchor" Value.int64?
        let active ← r.required? 2 "active" Value.int64?
        return .subpiece pieces anchor active
      else none
  | "matchingPairSymbol" => if r.fits 0 then some .matchingPairSymbol else none
  | "surroundingPair" => if r.fits 0 then some .surroundingPair else none
  | _ => none

def toJson : Modifier → Value
  | identity => .object [(tagKey, .string "identity")]
  | containingScope kind includeSiblings =>
      .object [(tagKey, .string "containingScope"), ("scopeType", kind.toJson),
        ("includeSiblings", .bool includeSiblings)]
  | subpiece pieces anchor active =>
      .object [(tagKey, .string "subpiece"), ("pieceType", pieces.toJson),
        ("anchor", .integer anchor), ("active", .integer active)]
  | matchingPairSymbol => .object [(tagKey, .string "matchingPairSymbol")]
  | surroundingPair => .object [(tagKey, .string "surroundingPair")]

end Modifier

namespace Primitive

/-- The primitive target that a record is, whose fields stand in the given setting. -/
def ofRecord? (setting : Setting) (r : Record) : Option Primitive :=
  if r.fits 5 then do
    let mark ← r.required? 0 "mark" (Mark.ofJson? setting)
    let modifier ← r.optional? 1 "modifier" .identity (Modifier.ofJson? setting)
    let selectionType ← r.required? 2 "selectionType" (SelectionType.ofJson? setting)
    let insideOutside ← r.optional? 3 "insideOutsideType" none (InsideOutside.orNull? setting)
    let placement ← r.optional? 4 "position" .contents (Placement.ofJson? setting)
    return { mark, modifier, selectionType, insideOutside, placement }
  else none

/-- A primitive target without a tag. -/
def ofJson? (setting : Setting) (v : Value) : Option Primitive := do
  let r ← Record.ofValue? v
  ofRecord? setting r

/-- The entries of a primitive target; a side that is left open has none. -/
def entries (p : Primitive) : List (String × Value) :=
  [("mark", p.mark.toJson), ("modifier", p.modifier.toJson),
    ("selectionType", p.selectionType.toJson)] ++
  (p.insideOutside.map fun side => ("insideOutsideType", side.toJson)).toList ++
  [("position", p.placement.toJson)]

def toJson (p : Primitive) : Value := .object p.entries

end Primitive

namespace Element

def tags : List String := ["primitive", "range"]

/-- The element that a record with a tag is. -/
def ofRecord? (tag : String) (r : Record) : Option Element :=
  match tag with
  | "primitive" => (Primitive.ofRecord? .nested r).map .primitive
  | "range" =>
      if r.fits 2 then do
        let start ← r.required? 0 "start" (Primitive.ofJson? .nested)
        let stop ← r.required? 1 "end" (Primitive.ofJson? .nested)
        return .range start stop
      else none
  | _ => none

/-- An item of a list. -/
def ofJson? (v : Value) : Option Element := do
  let (tag, r) ← taggedRecord? .nested tags v
  ofRecord? tag r

def toJson : Element → Value
  | primitive p => .object ((tagKey, .string "primitive") :: p.entries)
  | range start stop =>
      .object [(tagKey, .string "range"), ("start", start.toJson), ("end", stop.toJson)]

end Element

namespace Target

def tags : List String := ["primitive", "range", "list"]

/-- The elements of a list target. -/
def elements? : Value → Option (List Element)
  | .array items => items.mapM Element.ofJson?
  | _ => none

def ofJson? (v : Value) : Option Target := do
  let (tag, r) ← taggedRecord? .outermost tags v
  match tag with
  | "list" =>
      if r.fits 1 then (r.required? 0 "elements" elements?).map .list else none
  | other => (Element.ofRecord? other r).map .single

def toJson : Target → Value
  | single e => e.toJson
  | list elements =>
      .object [(tagKey, .string "list"), ("elements", .array (elements.map Element.toJson))]

def allOfJson? : Value → Option (List Target)
  | .array items => items.mapM ofJson?
  | _ => none

def allToJson (targets : List Target) : Value := .array (targets.map toJson)

end Target

end TargetSpans
