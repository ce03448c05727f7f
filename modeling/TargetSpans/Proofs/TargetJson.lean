import TargetSpans.Proofs.JsonFields
import TargetSpans.Proofs.Stages
import TargetSpans.Target.Json

/-!
# Targets written in JSON

Targets are read back from everything that they can be written as: from the objects that the writer
makes, from the same objects with their entries in another order, and from objects in which a field
that has its default is written or left out.
-/

namespace TargetSpans

open Json

/-- An integer of at most 64 bits, one for the sign. -/
def FitsInt64 (n : Int) : Prop := -(1 <<< 63 : Nat) ≤ n ∧ n < (1 <<< 63 : Nat)

theorem Json.Value.int64?_integer {n : Int} (fits : FitsInt64 n) :
    (Value.integer n).int64? = some n :=
  if_pos fits

theorem ScopeKind.ofJson?_toJson (setting : Setting) (k : ScopeKind) :
    ofJson? setting k.toJson = some k :=
  ofLabel?_label k

theorem PieceKind.ofJson?_toJson (setting : Setting) (k : PieceKind) :
    ofJson? setting k.toJson = some k := by
  cases k <;> rfl

theorem SelectionType.ofJson?_toJson (setting : Setting) (t : SelectionType) :
    ofJson? setting t.toJson = some t := by
  cases t <;> rfl

theorem Placement.ofJson?_toJson (setting : Setting) (p : Placement) :
    ofJson? setting p.toJson = some p := by
  cases p <;> rfl

namespace InsideOutside

/-- What may be written for a side, null for one that is left open. -/
def toJsonOrNull : Option InsideOutside → Value
  | none => .null
  | some side => side.toJson

theorem isReadable_toJsonOrNull (side : Option InsideOutside) :
    (toJsonOrNull side).isReadable = true := by
  cases side <;> rfl

theorem orNull?_toJsonOrNull (setting : Setting) (side : Option InsideOutside) :
    orNull? setting (toJsonOrNull side) = some side := by
  match side with
  | none | some inside | some outside => rfl

end InsideOutside

namespace Mark

def fields : Mark → List Field
  | cursor => [.tag "cursor"]
  | decoratedSymbol color character =>
      [.tag "decoratedSymbol", .value "symbolColor" (.string color) (Value.isReadable_string color),
        .value "character" (.string (String.singleton character)) (Value.isReadable_string _)]
  | that => [.tag "that"]
  | lastCursorPosition => [.tag "lastCursorPosition"]

theorem isObject_toJson (m : Mark) : m.toJson.IsObject m.fields := by
  cases m with
  | decoratedSymbol color character => exact Listed.nil.value.value.tag.isObject
  | cursor | that | lastCursorPosition => exact Listed.nil.tag.isObject

theorem ofJson?_eq_some {m : Mark} {v : Value} (isObject : v.IsObject m.fields)
    (setting : Setting) : ofJson? setting v = some m := by
  cases m with
  | decoratedSymbol color character =>
      have distinct : [tagKey, "symbolColor", "character"].Nodup := by decide
      obtain ⟨untagged, distinct⟩ := List.nodup_cons.mp distinct
      obtain ⟨entries, tagged, spells⟩ :=
        taggedRecord?_eq_some isObject untagged setting tags (by decide)
      have colorField :
          (Record.named entries).required? 0 "symbolColor" Value.string? = some color :=
        spells.required?_value distinct (.head _) rfl
      have characterField :
          (Record.named entries).required? 1 "character" Value.char? = some character :=
        spells.required?_value distinct (.tail _ (.head _)) (by simp [Value.char?])
      simp [ofJson?, tagged, Record.fits, colorField, characterField]
  | cursor | that | lastCursorPosition =>
      obtain ⟨entries, tagged, _⟩ :=
        taggedRecord?_eq_some isObject (by simp) setting tags (by decide)
      simp [ofJson?, tagged, Record.fits]

end Mark

/-- The indices of a modifier are integers of at most 64 bits. -/
def Modifier.IndicesFit : Modifier → Prop
  | subpiece _ anchor active => FitsInt64 anchor ∧ FitsInt64 active
  | _ => True

namespace Modifier

def fields : Modifier → List Field
  | identity => [.tag "identity"]
  | containingScope kind includeSiblings =>
      [.tag "containingScope", .value "scopeType" kind.toJson rfl,
        .value "includeSiblings" (.bool includeSiblings) rfl (includeSiblings = false)]
  | subpiece pieces anchor active =>
      [.tag "subpiece", .value "pieceType" pieces.toJson rfl, .value "anchor" (.integer anchor) rfl,
        .value "active" (.integer active) rfl]
  | matchingPairSymbol => [.tag "matchingPairSymbol"]
  | surroundingPair => [.tag "surroundingPair"]

theorem isObject_toJson (m : Modifier) : m.toJson.IsObject m.fields := by
  cases m with
  | containingScope kind includeSiblings => exact Listed.nil.value.value.tag.isObject
  | subpiece pieces anchor active => exact Listed.nil.value.value.value.tag.isObject
  | identity | matchingPairSymbol | surroundingPair => exact Listed.nil.tag.isObject

theorem ofJson?_eq_some {m : Modifier} (fit : m.IndicesFit) {v : Value}
    (isObject : v.IsObject m.fields) (setting : Setting) : ofJson? setting v = some m := by
  cases m with
  | containingScope kind includeSiblings =>
      have distinct : [tagKey, "scopeType", "includeSiblings"].Nodup := by decide
      obtain ⟨untagged, distinct⟩ := List.nodup_cons.mp distinct
      obtain ⟨entries, tagged, spells⟩ :=
        taggedRecord?_eq_some isObject untagged setting tags (by decide)
      have kindField :
          (Record.named entries).required? 0 "scopeType" (ScopeKind.ofJson? .nested) = some kind :=
        spells.required?_value distinct (.head _) (ScopeKind.ofJson?_toJson .nested kind)
      have siblingsField : (Record.named entries).optional? 1 "includeSiblings" false Value.bool? =
          some includeSiblings :=
        spells.optional?_value distinct (.tail _ (.head _)) rfl Eq.symm
      simp [ofJson?, tagged, Record.fits, kindField, siblingsField]
  | subpiece pieces anchor active =>
      have distinct : [tagKey, "pieceType", "anchor", "active"].Nodup := by decide
      obtain ⟨untagged, distinct⟩ := List.nodup_cons.mp distinct
      obtain ⟨entries, tagged, spells⟩ :=
        taggedRecord?_eq_some isObject untagged setting tags (by decide)
      have piecesField : (Record.named entries).required? 0 "pieceType"
          (PieceKind.ofJson? .nested) = some pieces :=
        spells.required?_value distinct (.head _) (PieceKind.ofJson?_toJson .nested pieces)
      have anchorField : (Record.named entries).required? 1 "anchor" Value.int64? = some anchor :=
        spells.required?_value distinct (.tail _ (.head _)) (Value.int64?_integer fit.1)
      have activeField : (Record.named entries).required? 2 "active" Value.int64? = some active :=
        spells.required?_value distinct (.tail _ (.tail _ (.head _))) (Value.int64?_integer fit.2)
      simp [ofJson?, tagged, Record.fits, piecesField, anchorField, activeField]
  | identity | matchingPairSymbol | surroundingPair =>
      obtain ⟨entries, tagged, _⟩ :=
        taggedRecord?_eq_some isObject (by simp) setting tags (by decide)
      simp [ofJson?, tagged, Record.fits]

end Modifier

namespace Primitive

def fields (p : Primitive) : List Field :=
  [.record "mark" p.mark.fields, .record "modifier" p.modifier.fields (p.modifier = .identity),
    .value "selectionType" p.selectionType.toJson rfl,
    .value "insideOutsideType" (InsideOutside.toJsonOrNull p.insideOutside)
      (InsideOutside.isReadable_toJsonOrNull p.insideOutside) (p.insideOutside = none),
    .value "position" p.placement.toJson rfl (p.placement = .contents)]

theorem nodup_fields (p : Primitive) : (tagKey :: p.fields.map Field.name).Nodup := by
  change [tagKey, "mark", "modifier", "selectionType", "insideOutsideType", "position"].Nodup
  decide

theorem listed_entries (p : Primitive) : Listed p.fields p.entries := by
  obtain ⟨mark, modifier, selectionType, insideOutside, placement⟩ := p
  have position : Listed [.value "position" placement.toJson rfl (placement = .contents)]
      [("position", placement.toJson)] := Listed.nil.value
  have modifierObject := modifier.isObject_toJson
  have markObject := mark.isObject_toJson
  cases insideOutside with
  | none =>
      -- The writer leaves a side out that is not decided.
      exact ((Listed.omitted rfl position).value.record modifierObject).record markObject
  | some side => exact (position.value.value.record modifierObject).record markObject

theorem ofRecord?_eq_some {p : Primitive} (fit : p.modifier.IndicesFit)
    {entries : List (String × Value)} (spells : Spells entries p.fields) (setting : Setting) :
    ofRecord? setting (.named entries) = some p := by
  have distinct := (List.nodup_cons.mp p.nodup_fields).2
  have mark : (Record.named entries).required? 0 "mark" (Mark.ofJson? setting) = some p.mark :=
    spells.required?_record distinct (.head _) fun _ isObject =>
      Mark.ofJson?_eq_some isObject setting
  have modifier : (Record.named entries).optional? 1 "modifier" .identity
      (Modifier.ofJson? setting) = some p.modifier :=
    spells.optional?_record distinct (.tail _ (.head _))
      (fun _ isObject => Modifier.ofJson?_eq_some fit isObject setting) Eq.symm
  have selectionType : (Record.named entries).required? 2 "selectionType"
      (SelectionType.ofJson? setting) = some p.selectionType :=
    spells.required?_value distinct (.tail _ (.tail _ (.head _)))
      (SelectionType.ofJson?_toJson setting p.selectionType)
  have insideOutside : (Record.named entries).optional? 3 "insideOutsideType" none
      (InsideOutside.orNull? setting) = some p.insideOutside :=
    spells.optional?_value distinct (.tail _ (.tail _ (.tail _ (.head _))))
      (InsideOutside.orNull?_toJsonOrNull setting p.insideOutside) Eq.symm
  have placement : (Record.named entries).optional? 4 "position" .contents
      (Placement.ofJson? setting) = some p.placement :=
    spells.optional?_value distinct (.tail _ (.tail _ (.tail _ (.tail _ (.head _)))))
      (Placement.ofJson?_toJson setting p.placement) Eq.symm
  simp [ofRecord?, Record.fits, mark, modifier, selectionType, insideOutside, placement]

theorem ofJson?_eq_some {p : Primitive} (fit : p.modifier.IndicesFit) {v : Value}
    (isObject : v.IsObject p.fields) (setting : Setting) : ofJson? setting v = some p := by
  obtain ⟨entries, rfl, spells⟩ := isObject
  exact ofRecord?_eq_some fit spells setting

theorem isObject_toJson (p : Primitive) : p.toJson.IsObject p.fields :=
  p.listed_entries.isObject

end Primitive

/-! ## Elements and targets -/

namespace Element

def tag : Element → String
  | primitive _ => "primitive"
  | range _ _ => "range"

/-- The fields of an element, its tag left out. -/
def contents : Element → List Field
  | primitive p => p.fields
  | range start stop => [.record "start" start.fields, .record "end" stop.fields]

def fields (e : Element) : List Field := .tag e.tag :: e.contents

theorem isObject_toJson (e : Element) : e.toJson.IsObject e.fields := by
  cases e with
  | primitive p => exact p.listed_entries.tag.isObject
  | range start stop =>
      exact ((Listed.nil.record stop.isObject_toJson).record start.isObject_toJson).tag.isObject

theorem untagged_contents (e : Element) : tagKey ∉ e.contents.map Field.name := by
  cases e with
  | primitive p => exact (List.nodup_cons.mp p.nodup_fields).1
  | range start stop =>
      change tagKey ∉ ["start", "end"]
      decide

theorem ofRecord?_eq_some {e : Element} (fit : ∀ p ∈ e.primitives, p.modifier.IndicesFit)
    {entries : List (String × Value)} (spells : Spells entries e.contents) :
    ofRecord? e.tag (.named entries) = some e := by
  cases e with
  | primitive p =>
      have whole := Primitive.ofRecord?_eq_some (fit p List.mem_cons_self) spells .nested
      simp [tag, ofRecord?, whole]
  | range start stop =>
      have distinct : ["start", "end"].Nodup := by decide
      have startField : (Record.named entries).required? 0 "start" (Primitive.ofJson? .nested) =
          some start :=
        spells.required?_record distinct (.head _) fun _ isObject =>
          Primitive.ofJson?_eq_some (fit start (.head _)) isObject .nested
      have stopField : (Record.named entries).required? 1 "end" (Primitive.ofJson? .nested) =
          some stop :=
        spells.required?_record distinct (.tail _ (.head _)) fun _ isObject =>
          Primitive.ofJson?_eq_some (fit stop (.tail _ (.head _))) isObject .nested
      simp [tag, ofRecord?, Record.fits, startField, stopField]

theorem ofJson?_eq_some {e : Element} (fit : ∀ p ∈ e.primitives, p.modifier.IndicesFit) {v : Value}
    (isObject : v.IsObject e.fields) : ofJson? v = some e := by
  have known : e.tag ∈ tags := by cases e <;> simp [tag, tags]
  obtain ⟨entries, tagged, spells⟩ :=
    taggedRecord?_eq_some isObject e.untagged_contents .nested tags known
  simp [ofJson?, tagged, ofRecord?_eq_some fit spells]

end Element

namespace Target

/-- The fields of a target with its tag. -/
def fields : Target → List Field
  | single e => e.fields
  | list elements => [.tag "list", .records "elements" (elements.map Element.fields)]

/-- A value is an array of objects with the fields of some targets, in the order of the targets. -/
def Writes (v : Value) (targets : List Target) : Prop :=
  ∃ items, v = .array items ∧ List.Forall₂ (fun item t => item.IsObject t.fields) items targets

theorem isObject_toJson (t : Target) : t.toJson.IsObject t.fields := by
  cases t with
  | single e => exact e.isObject_toJson
  | list elements =>
      have each : List.Forall₂ Value.IsObject (elements.map Element.toJson)
          (elements.map Element.fields) := by
        rw [List.forall₂_map_left_iff, List.forall₂_map_right_iff, List.forall₂_same]
        exact fun e _ => e.isObject_toJson
      exact (Listed.nil.records each).tag.isObject

theorem elements?_array {es : List Element}
    (fit : ∀ e ∈ es, ∀ p ∈ e.primitives, p.modifier.IndicesFit) {items : List Value}
    (each : List.Forall₂ Value.IsObject items (es.map Element.fields)) :
    elements? (.array items) = some es := by
  rw [List.forall₂_map_right_iff] at each
  apply mapM_eq_some_of_forall₂ each
  intro e member v isObject
  exact Element.ofJson?_eq_some (fit e member) isObject

theorem ofJson?_eq_some {t : Target} (fit : ∀ p ∈ t.primitives, p.modifier.IndicesFit) {v : Value}
    (isObject : v.IsObject t.fields) : ofJson? v = some t := by
  simp only [primitives, List.forall_mem_flatMap] at fit
  cases t with
  | single e =>
      have known : e.tag ∈ tags := by cases e <;> simp [Element.tag, tags]
      obtain ⟨entries, tagged, spells⟩ :=
        taggedRecord?_eq_some isObject e.untagged_contents .outermost tags known
      have element := Element.ofRecord?_eq_some (fit e (List.mem_singleton_self e)) spells
      cases e with
      | primitive p => simpa [ofJson?, tagged, Element.tag] using element
      | range start stop => simpa [ofJson?, tagged, Element.tag] using element
  | list es =>
      have distinct : [tagKey, "elements"].Nodup := by decide
      obtain ⟨untagged, distinct⟩ := List.nodup_cons.mp distinct
      obtain ⟨entries, tagged, spells⟩ :=
        taggedRecord?_eq_some isObject untagged .outermost tags (by decide)
      have elementsField : (Record.named entries).required? 0 "elements" elements? = some es :=
        spells.required?_records distinct (.head _) fun _ each => elements?_array fit each
      simp [ofJson?, tagged, Record.fits, elementsField]

/-- Targets are read back from all values that write them: from what the writer makes, with the
entries of each object in any order, and with the fields that have their defaults written or left
out.  All that is asked of the targets is that their indices fit into 64 bits. -/
theorem allOfJson?_of_writes {targets : List Target}
    (fit : ∀ t ∈ targets, ∀ p ∈ t.primitives, p.modifier.IndicesFit) :
    Writes (allToJson targets) targets ∧ ∀ v, Writes v targets → allOfJson? v = some targets := by
  constructor
  · refine ⟨targets.map toJson, rfl, ?_⟩
    rw [List.forall₂_map_left_iff, List.forall₂_same]
    exact fun t _ => t.isObject_toJson
  · rintro _ ⟨items, rfl, each⟩
    apply mapM_eq_some_of_forall₂ each
    intro t member v isObject
    exact ofJson?_eq_some (fit t member) isObject

/-- The lines of the words under a symbol. -/
def wordsTarget : Primitive where
  mark := .decoratedSymbol "blue" 'x'
  modifier := .subpiece .word 0 (-1)
  selectionType := .line

theorem wordsTarget_read_back :
    allOfJson? (.array [.object
      [("selectionType", .string "line"),
        ("modifier", .object [("active", .integer (-1)), ("anchor", .integer 0),
          ("pieceType", .string "word"), ("type", .string "subpiece")]),
        ("mark", wordsTarget.mark.toJson), ("type", .string "primitive")]]) =
      some [.single (.primitive wordsTarget)] := by
  have fit : ∀ t ∈ [single (.primitive wordsTarget)],
      ∀ p ∈ t.primitives, p.modifier.IndicesFit := by
    intro t member p primitive
    cases List.mem_singleton.mp member
    cases List.mem_singleton.mp primitive
    exact ⟨⟨by decide, by decide⟩, by decide, by decide⟩
  refine (allOfJson?_of_writes fit).2 _ ⟨_, rfl, List.Forall₂.cons ?_ List.Forall₂.nil⟩
  have modifier : (Value.object [("active", .integer (-1)), ("anchor", .integer 0),
      ("pieceType", .string "word"), ("type", .string "subpiece")]).IsObject
        wordsTarget.modifier.fields :=
    ⟨_, rfl, _, Listed.nil.value.value.value.tag, List.reverse_perm [_, _, _, _]⟩
  have defaults : Listed [.value "insideOutsideType" .null rfl (wordsTarget.insideOutside = none),
      .value "position" (.string "contents") rfl (wordsTarget.placement = .contents)] [] :=
    .omitted rfl (.omitted rfl .nil)
  exact ⟨_, rfl, _, ((defaults.value.record modifier).record wordsTarget.mark.isObject_toJson).tag,
    List.reverse_perm [_, _, _, _]⟩

end Target

end TargetSpans
