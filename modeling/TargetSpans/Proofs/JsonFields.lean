import Mathlib.Data.List.Forall2
import TargetSpans.Json.Record

/-!
# Fields of objects

The many ways in which one record can be written as an object.  The entries may come in any order,
and a field that has its default may be left out or written.  A record is described by its fields,
each with the values that may be written for it.  What an object has under the name of a field is
one of these values, or nothing if the field may be left out, whatever the order of the entries.
-/

namespace TargetSpans.Json

/-- A field of a record: its name and the values that may be written for it. -/
structure Field where
  name : String
  accepts : Value → Prop
  /-- Whether the field may be left out, because it has its default. -/
  omittable : Prop := False
  readable : ∀ v, accepts v → v.isReadable = true

namespace Value

theorem isReadable_string (s : String) : (string s).isReadable = true := rfl

theorem entriesAreReadable_iff {entries : List (String × Value)} :
    entriesAreReadable entries = true ↔ ∀ e ∈ entries, e.2.isReadable = true := by
  induction entries with
  | nil => simp [entriesAreReadable]
  | cons e rest ih => simp [entriesAreReadable, ih]

theorem areReadable_iff {items : List Value} :
    areReadable items = true ↔ ∀ v ∈ items, v.isReadable = true := by
  induction items with
  | nil => simp [areReadable]
  | cons v rest ih => simp [areReadable, ih]

end Value

theorem mapM_eq_some_of_forall₂ {α : Type} {read : Value → Option α} {Writes : Value → α → Prop}
    {items : List Value} {as : List α} (each : List.Forall₂ Writes items as)
    (reads : ∀ a ∈ as, ∀ v, Writes v a → read v = some a) : items.mapM read = some as := by
  induction each with
  | nil => rfl
  | cons head _ ih =>
      obtain ⟨first, rest⟩ := List.forall_mem_cons.mp reads
      rw [List.mapM_cons, first _ head, ih rest]
      rfl

/-- The entries for some fields in their order, without some of those that may be left out. -/
inductive Listed : List Field → List (String × Value) → Prop
  | nil : Listed [] []
  | written {f : Field} {fields : List Field} {entries : List (String × Value)} {v : Value}
      (accepted : f.accepts v) (rest : Listed fields entries) :
      Listed (f :: fields) ((f.name, v) :: entries)
  | omitted {f : Field} {fields : List Field} {entries : List (String × Value)}
      (omittable : f.omittable) (rest : Listed fields entries) : Listed (f :: fields) entries

namespace Listed

variable {fields : List Field} {entries : List (String × Value)}

theorem name_mem (listed : Listed fields entries) :
    ∀ e ∈ entries, e.1 ∈ fields.map Field.name := by
  induction listed with
  | nil => simp
  | written accepted rest ih =>
      intro e member
      rcases List.mem_cons.mp member with rfl | later
      · exact List.mem_cons_self
      · exact List.mem_cons_of_mem _ (ih e later)
  | omitted omittable rest ih => exact fun e member => List.mem_cons_of_mem _ (ih e member)

theorem isReadable (listed : Listed fields entries) : ∀ e ∈ entries, e.2.isReadable = true := by
  induction listed with
  | nil => simp
  | @written f _ _ v accepted rest ih => exact List.forall_mem_cons.mpr ⟨f.readable v accepted, ih⟩
  | omitted omittable rest ih => exact ih

theorem filter_eq_nil (listed : Listed fields entries) {name : String}
    (foreign : name ∉ fields.map Field.name) : entries.filter (fun e => e.1 = name) = [] := by
  rw [List.filter_eq_nil_iff]
  intro e member equal
  exact foreign (of_decide_eq_true equal ▸ listed.name_mem e member)

/-- There is one entry under the name of a field, or none if the field may be left out. -/
theorem filter_of_mem (listed : Listed fields entries) (distinct : (fields.map Field.name).Nodup)
    {f : Field} (member : f ∈ fields) :
    (∃ v, f.accepts v ∧ entries.filter (fun e => e.1 = f.name) = [(f.name, v)]) ∨
      f.omittable ∧ entries.filter (fun e => e.1 = f.name) = [] := by
  induction listed with
  | nil => cases member
  | @written g fields entries v accepted rest ih =>
      obtain ⟨fresh, distinct⟩ := List.nodup_cons.mp distinct
      rcases List.mem_cons.mp member with rfl | later
      · left
        refine ⟨v, accepted, ?_⟩
        rw [List.filter_cons_of_pos (by simp), rest.filter_eq_nil fresh]
      · have other : g.name ≠ f.name := fun same => fresh (same ▸ List.mem_map_of_mem later)
        rw [List.filter_cons_of_neg (by simpa using other)]
        exact ih distinct later
  | @omitted g fields entries omittable rest ih =>
      obtain ⟨fresh, distinct⟩ := List.nodup_cons.mp distinct
      rcases List.mem_cons.mp member with rfl | later
      · exact Or.inr ⟨omittable, rest.filter_eq_nil fresh⟩
      · exact ih distinct later

end Listed

/-- The entries of an object are those for some fields, in any order. -/
def Spells (entries : List (String × Value)) (fields : List Field) : Prop :=
  ∃ listed, Listed fields listed ∧ entries.Perm listed

/-- A value is an object with some fields. -/
def Value.IsObject (v : Value) (fields : List Field) : Prop :=
  ∃ entries, v = .object entries ∧ Spells entries fields

variable {fields : List Field} {entries : List (String × Value)} {f : Field} {α : Type}

theorem Listed.isObject (listed : Listed fields entries) : (Value.object entries).IsObject fields :=
  ⟨entries, rfl, entries, listed, List.Perm.refl entries⟩

theorem Value.IsObject.isReadable {v : Value} (isObject : v.IsObject fields) :
    v.isReadable = true := by
  obtain ⟨entries, rfl, listed, written, perm⟩ := isObject
  rw [Value.isReadable, Value.entriesAreReadable_iff]
  exact fun e member => written.isReadable e (perm.mem_iff.mp member)

namespace Spells

variable (spells : Spells entries fields) (distinct : (fields.map Field.name).Nodup)
include spells distinct

theorem lookup?_of_mem (member : f ∈ fields) (place : Nat) :
    (∃ v, f.accepts v ∧ (Record.named entries).lookup? place f.name = some (some v)) ∨
      f.omittable ∧ (Record.named entries).lookup? place f.name = some none := by
  obtain ⟨listed, written, perm⟩ := spells
  have reordered := perm.filter fun e => e.1 = f.name
  rcases written.filter_of_mem distinct member with ⟨v, holds, one⟩ | ⟨omittable, none⟩
  · left
    rw [one, List.perm_singleton] at reordered
    exact ⟨v, holds, by simp [Record.lookup?, reordered]⟩
  · right
    rw [none, List.perm_nil] at reordered
    exact ⟨omittable, by simp [Record.lookup?, reordered]⟩

theorem required?_eq_some (member : f ∈ fields) {place : Nat} {read : Value → Option α} {a : α}
    (reads : ∀ v, f.accepts v → read v = some a) (needed : ¬ f.omittable) :
    (Record.named entries).required? place f.name read = some a := by
  rcases spells.lookup?_of_mem distinct member place with ⟨v, holds, found⟩ | ⟨omittable, _⟩
  · simp [Record.required?, found, reads v holds]
  · exact absurd omittable needed

theorem optional?_eq_some (member : f ∈ fields) {place : Nat} {default : α}
    {read : Value → Option α} {a : α} (reads : ∀ v, f.accepts v → read v = some a)
    (defaults : f.omittable → default = a) :
    (Record.named entries).optional? place f.name default read = some a := by
  rcases spells.lookup?_of_mem distinct member place with ⟨v, holds, found⟩ | ⟨omittable, found⟩
  · simp [Record.optional?, found, reads v holds]
  · simp [Record.optional?, found, defaults omittable]

end Spells

/-! ## Kinds of fields -/

namespace Field

/-- A field for which only one value may be written. -/
def value (name : String) (v : Value) (readable : v.isReadable = true) (omittable : Prop := False) :
    Field where
  name
  accepts := (· = v)
  omittable
  readable := by
    rintro _ rfl
    exact readable

/-- A field that holds a record. -/
def record (name : String) (fields : List Field) (omittable : Prop := False) : Field where
  name
  accepts v := v.IsObject fields
  omittable
  readable _ isObject := isObject.isReadable

/-- A field that holds some records in their order. -/
def records (name : String) (inner : List (List Field)) : Field where
  name
  accepts v := ∃ items, v = .array items ∧ List.Forall₂ Value.IsObject items inner
  readable := by
    rintro _ ⟨items, rfl, each⟩
    rw [Value.isReadable, Value.areReadable_iff]
    induction each with
    | nil => simp
    | cons isObject _ ih => exact List.forall_mem_cons.mpr ⟨isObject.isReadable, ih⟩

/-- The tag of a record. -/
def tag (choice : String) : Field :=
  value tagKey (.string choice) (Value.isReadable_string choice)

end Field

namespace Listed

variable (rest : Listed fields entries)
include rest

theorem value {name : String} {v : Value} {readable : v.isReadable = true} {omittable : Prop} :
    Listed (.value name v readable omittable :: fields) ((name, v) :: entries) :=
  .written (f := .value name v readable omittable) rfl rest

theorem record {name : String} {inner : List Field} {omittable : Prop} {v : Value}
    (isObject : v.IsObject inner) :
    Listed (.record name inner omittable :: fields) ((name, v) :: entries) :=
  .written (f := .record name inner omittable) isObject rest

theorem records {name : String} {inner : List (List Field)} {items : List Value}
    (each : List.Forall₂ Value.IsObject items inner) :
    Listed (.records name inner :: fields) ((name, .array items) :: entries) :=
  .written (f := .records name inner) ⟨items, rfl, each⟩ rest

theorem tag {choice : String} :
    Listed (.tag choice :: fields) ((tagKey, .string choice) :: entries) :=
  rest.value

end Listed

namespace Spells

variable (spells : Spells entries fields) (distinct : (fields.map Field.name).Nodup)
include spells distinct

theorem required?_value {name : String} {v : Value} {readable : v.isReadable = true}
    (member : Field.value name v readable ∈ fields) {place : Nat} {read : Value → Option α} {a : α}
    (reads : read v = some a) : (Record.named entries).required? place name read = some a :=
  spells.required?_eq_some distinct member (fun _ same => (congrArg read same).trans reads) id

theorem required?_record {name : String} {inner : List Field}
    (member : Field.record name inner ∈ fields) {place : Nat} {read : Value → Option α} {a : α}
    (reads : ∀ v : Value, v.IsObject inner → read v = some a) :
    (Record.named entries).required? place name read = some a :=
  spells.required?_eq_some distinct member reads id

theorem required?_records {name : String} {inner : List (List Field)}
    (member : Field.records name inner ∈ fields) {place : Nat} {read : Value → Option α} {a : α}
    (reads : ∀ items, List.Forall₂ Value.IsObject items inner → read (.array items) = some a) :
    (Record.named entries).required? place name read = some a := by
  refine spells.required?_eq_some distinct member ?_ id
  rintro _ ⟨items, rfl, each⟩
  exact reads items each

theorem optional?_value {name : String} {v : Value} {readable : v.isReadable = true}
    {omittable : Prop} (member : Field.value name v readable omittable ∈ fields) {place : Nat}
    {default : α} {read : Value → Option α} {a : α} (reads : read v = some a)
    (defaults : omittable → default = a) :
    (Record.named entries).optional? place name default read = some a :=
  spells.optional?_eq_some distinct member (fun _ same => (congrArg read same).trans reads) defaults

theorem optional?_record {name : String} {inner : List Field} {omittable : Prop}
    (member : Field.record name inner omittable ∈ fields) {place : Nat} {default : α}
    {read : Value → Option α} {a : α} (reads : ∀ v : Value, v.IsObject inner → read v = some a)
    (defaults : omittable → default = a) :
    (Record.named entries).optional? place name default read = some a :=
  spells.optional?_eq_some distinct member reads defaults

end Spells

/-! ## Tagged records -/

theorem Tag.choose?_of_mem {choice : String} {alternatives : List String}
    (known : choice ∈ alternatives) : (Tag.name choice).choose? alternatives = some choice := by
  induction alternatives with
  | nil => cases known
  | cons a rest ih =>
      by_cases same : a = choice
      · simp [choose?, same]
      · have later : choice ∈ rest := (List.mem_cons.mp known).resolve_left (Ne.symm same)
        simpa [choose?, same] using ih later

theorem taggedRecord?_eq_some {v : Value} {choice : String}
    (isObject : v.IsObject (.tag choice :: fields)) (untagged : tagKey ∉ fields.map Field.name)
    (setting : Setting) (alternatives : List String) (known : choice ∈ alternatives) :
    ∃ entries, taggedRecord? setting alternatives v = some (choice, .named entries) ∧
      Spells entries fields := by
  have readable := isObject.isReadable
  obtain ⟨entries, rfl, listed, written, perm⟩ := isObject
  cases written with
  | omitted never rest => exact never.elim
  | @written _ _ others tag isTag rest =>
      cases isTag
      have one : entries.filter (fun e => e.1 = tagKey) = [(tagKey, .string choice)] := by
        have reordered := perm.filter fun e => e.1 = tagKey
        rwa [List.filter_cons_of_pos (by simp [Field.tag, Field.value]),
          rest.filter_eq_nil untagged, List.perm_singleton] at reordered
      have fieldsOnly : (others.filter fun e => e.1 ≠ tagKey) = others := by
        rw [List.filter_eq_self]
        intro e member
        have other : e.1 ≠ tagKey := fun equal => untagged (equal ▸ rest.name_mem e member)
        simpa using other
      have kept : (entries.filter fun e => e.1 ≠ tagKey).Perm others := by
        have reordered := perm.filter fun e => e.1 ≠ tagKey
        rwa [List.filter_cons_of_neg (by simp [Field.tag, Field.value]), fieldsOnly] at reordered
      refine ⟨entries.filter fun e => e.1 ≠ tagKey, ?_, others, rest, kept⟩
      simp only [taggedRecord?, TaggedRecord.ofValue?, readable, or_true, if_true, one,
        Tag.ofValue?, Tag.choose?_of_mem known, bind, Option.bind, pure]

end TargetSpans.Json
