import Mathlib.Data.List.Basic
import TargetSpans.Scope.ConfigToml

/-!
# Strict configurations

A configuration is read level by level: the root table, the list of languages, a language, the
scopes of a language and the definition of a scope.  At each level that is a table only some keys
are known, and a table with another key is refused, and with it all that it lies in.  So each key of
an accepted configuration is known where it stands.  Languages and definitions written as arrays
leave one gap: what stands behind the last field is never looked at.
-/

namespace TargetSpans

open Toml

/-- What a part of a configuration is read as. -/
inductive ConfigLevel where
  | root
  | languages
  | language
  | scopes
  | definition
  deriving DecidableEq

namespace ConfigLevel

/-- The fields of a table in their order, each with what its value is read as if that may hold
tables again. -/
def fields : ConfigLevel → List (String × Option ConfigLevel)
  | root => [("language", some languages)]
  | languages => []
  | language => [("language-id", none), ("scopes", some scopes)]
  | scopes => ScopeKind.all.map fun k => (k.label, some definition)
  | definition => [("kinds", none), ("parents", none), ("field", none), ("delimiter", none)]

/-- The keys that are known in a table. -/
def keys (level : ConfigLevel) : List String := level.fields.map Prod.fst

/-- Whether an array of the fields may stand for the table. -/
def isListable : ConfigLevel → Bool
  | language | definition => true
  | root | languages | scopes => false

/-- A value can be read. -/
def Accepts : ConfigLevel → Value → Prop
  | root, v => ∃ t config, v = .table t ∧ ScopeConfig.ofTable? t = some config
  | languages, v => ∃ entries, ScopeConfig.languagesOfToml? v = some entries
  | language, v => ∃ entry, LanguageScopes.ofToml? v = some entry
  | scopes, v => ∃ definitions, LanguageScopes.scopesOfToml? v = some definitions
  | definition, v => ∃ d, ScopeDefinition.ofToml? v = some d

/-- A value that is looked at when another one is read, with what it is read as. -/
inductive Part : ConfigLevel → Value → Option ConfigLevel → Value → Prop
  | entry {level : ConfigLevel} {entries : Table} {key : String} {inner : Option ConfigLevel}
      {w : Value} (known : (key, inner) ∈ level.fields) (found : entries.get? key = some w) :
      Part level (.table entries) inner w
  | place {level : ConfigLevel} {items : List Value} {i : Nat} {key : String}
      {inner : Option ConfigLevel} {w : Value} (listable : level.isListable = true)
      (known : level.fields[i]? = some (key, inner)) (found : items[i]? = some w) :
      Part level (.array items) inner w
  | item {items : List Value} {w : Value} (member : w ∈ items) :
      Part .languages (.array items) (some .language) w

/-- A value within another one, at any depth, that is looked at when that one is read. -/
inductive Reaches : ConfigLevel → Value → ConfigLevel → Value → Prop
  | here {level : ConfigLevel} {v : Value} : Reaches level v level v
  | within {level inner last : ConfigLevel} {v w u : Value} (part : Part level v (some inner) w)
      (rest : Reaches inner w last u) : Reaches level v last u

/-- One entry is added under an unknown key, in a table at any depth.  The tables of a text have
each key once; of several entries with one key the first would count. -/
inductive AddsUnknown : ConfigLevel → Value → Value → Prop
  | here {level : ConfigLevel} (front : Table) {back : Table} {key : String} {w : Value}
      (unknown : key ∉ level.keys) :
      AddsUnknown level (.table (front ++ back)) (.table (front ++ (key, w) :: back))
  | entry {level inner : ConfigLevel} (front : Table) {back : Table} {key : String} {v v' : Value}
      (known : (key, some inner) ∈ level.fields) (first : key ∉ front.map Prod.fst)
      (inside : AddsUnknown inner v v') :
      AddsUnknown level (.table (front ++ (key, v) :: back)) (.table (front ++ (key, v') :: back))
  | place {level inner : ConfigLevel} (front : List Value) {back : List Value} {key : String}
      {v v' : Value} (listable : level.isListable = true)
      (known : level.fields[front.length]? = some (key, some inner))
      (inside : AddsUnknown inner v v') :
      AddsUnknown level (.array (front ++ v :: back)) (.array (front ++ v' :: back))
  | item (front : List Value) {back : List Value} {v v' : Value}
      (inside : AddsUnknown .language v v') :
      AddsUnknown .languages (.array (front ++ v :: back)) (.array (front ++ v' :: back))

end ConfigLevel

/-- A value within another one, at any depth, whether it is looked at or not. -/
inductive Toml.Value.Holds : Value → Value → Prop
  | self {v : Value} : Holds v v
  | entry {entries : Table} {key : String} {w u : Value} (found : entries.get? key = some w)
      (inside : Holds w u) : Holds (.table entries) u
  | item {items : List Value} {w u : Value} (member : w ∈ items) (inside : Holds w u) :
      Holds (.array items) u

variable {level inner : ConfigLevel} {v v' w u : Value} {entries : Table} {items : List Value}

/-! ## Values without tables -/

theorem exists_of_mem_mapM {α β : Type} {read : α → Option β} {as : List α} {bs : List β}
    (each : as.mapM read = some bs) {a : α} (member : a ∈ as) : ∃ b, read a = some b := by
  induction as generalizing bs with
  | nil => cases member
  | cons first rest ih =>
      rw [List.mapM_cons] at each
      obtain ⟨b, readFirst, each⟩ := Option.bind_eq_some_iff.mp each
      obtain ⟨others, readRest, _⟩ := Option.bind_eq_some_iff.mp each
      rcases List.mem_cons.mp member with rfl | later
      · exact ⟨b, readFirst⟩
      · exact ih readRest later

/-- A value that is read as a text or as some texts. -/
def Toml.Value.IsPlain (v : Value) : Prop :=
  (∃ s, v.string? = some s) ∨ ∃ texts, v.strings? = some texts

theorem Toml.Value.not_holds_table_of_string? {s : String} (text : v.string? = some s) :
    ¬ v.Holds (.table entries) := by
  cases v with
  | string _ => exact fun holds => nomatch holds
  | _ => cases text

theorem Toml.Value.IsPlain.not_holds_table (plain : v.IsPlain) : ¬ v.Holds (.table entries) := by
  rcases plain with ⟨s, text⟩ | ⟨texts, each⟩
  · exact not_holds_table_of_string? text
  · cases v with
    | array items =>
        rintro (_ | _ | @⟨_, item, _, member, inside⟩)
        obtain ⟨s, text⟩ := exists_of_mem_mapM each member
        exact not_holds_table_of_string? text inside
    | _ => cases each

/-! ## What is looked at -/

namespace Toml

theorem Table.mem_of_get? {key : String} (found : entries.get? key = some w) :
    (key, w) ∈ entries := by
  obtain ⟨e, here, rfl⟩ := Option.map_eq_some_iff.mp found
  obtain rfl : e.1 = key := by simpa using List.find?_some here
  exact List.mem_of_find?_eq_some here

theorem Table.get?_insert_first {front back : Table} {key : String}
    (first : key ∉ front.map Prod.fst) :
    Table.get? (front ++ (key, w) :: back) key = some w := by
  have none : front.find? (fun e => e.1 = key) = none :=
    List.find?_eq_none.mpr fun e member same =>
      first (of_decide_eq_true same ▸ List.mem_map_of_mem member)
  simp [get?, List.find?_append, none]

end Toml

theorem fieldsOf?_table {names : List String} {fields : List (Option Value)}
    (read : fieldsOf? names (.table entries) = some fields) :
    (∀ e ∈ entries, e.1 ∈ names) ∧ fields = names.map entries.get? := by
  rw [fieldsOf?] at read
  split at read
  case isFalse => cases read
  case isTrue known =>
    cases read
    exact ⟨by simpa using known, rfl⟩

theorem fieldsOf?_array {names : List String} {fields : List (Option Value)}
    (read : fieldsOf? names (.array items) = some fields) {i : Nat} (inside : i < names.length) :
    fields[i]? = some items[i]? := by
  cases read
  simp [inside]

theorem ScopeKind.label_of_ofLabel? {s : String} {k : ScopeKind} (named : ofLabel? s = some k) :
    k.label = s := by
  simpa using List.find?_some named

theorem ScopeConfig.exists_of_ofTable? {t : Table} {config : ScopeConfig}
    (read : ofTable? t = some config) :
    ∃ languages, fieldsOf? fieldNames (.table t) = some [languages] ∧
      ∃ entries, fieldOr? [] languagesOfToml? languages = some entries := by
  simp only [ofTable?, Option.bind_eq_bind, Option.bind_eq_some_iff] at read
  obtain ⟨fields, shape, read⟩ := read
  split at read
  case h_1 languages =>
    obtain ⟨entries, readLanguages, _⟩ := Option.bind_eq_some_iff.mp read
    exact ⟨languages, shape, entries, readLanguages⟩
  case h_2 => cases read

theorem LanguageScopes.exists_of_ofToml? {l : LanguageScopes} (read : ofToml? v = some l) :
    ∃ language scopes, fieldsOf? fieldNames v = some [some language, scopes] ∧
      language.string? = some l.language ∧
      fieldOr? (fun _ => none) scopesOfToml? scopes = some l.definitions := by
  simp only [ofToml?, Option.bind_eq_bind, Option.bind_eq_some_iff] at read
  obtain ⟨fields, shape, read⟩ := read
  split at read
  case h_1 language scopes =>
    simp only [Option.bind_eq_some_iff, Option.pure_def, Option.some.injEq] at read
    obtain ⟨language, rfl, name, text, definitions, readScopes, rfl⟩ := read
    exact ⟨language, scopes, shape, text, readScopes⟩
  case h_2 => cases read

theorem ScopeDefinition.exists_of_ofToml? {d : ScopeDefinition} (read : ofToml? v = some d) :
    ∃ kinds parents field delimiter,
      fieldsOf? fieldNames v = some [kinds, parents, field, delimiter] ∧
      fieldOr? [] Value.strings? kinds = some d.kinds ∧
      fieldOr? [] Value.strings? parents = some d.parents ∧
      fieldOr? none (fun w => w.string?.map some) field = some d.field ∧
      fieldOr? none (fun w => w.string?.map some) delimiter = some d.delimiter := by
  simp only [ofToml?, Option.bind_eq_bind, Option.bind_eq_some_iff] at read
  obtain ⟨fields, shape, read⟩ := read
  split at read
  case h_1 kinds parents field delimiter =>
    simp only [Option.bind_eq_some_iff, Option.pure_def, Option.some.injEq] at read
    obtain ⟨_, readKinds, _, readParents, _, readField, _, readDelimiter, rfl⟩ := read
    exact ⟨kinds, parents, field, delimiter, shape, readKinds, readParents, readField,
      readDelimiter⟩
  case h_2 => cases read

namespace ConfigLevel

/-- A value can be read as what it is meant for: at a level or as a text or some texts. -/
def AcceptsAs : Option ConfigLevel → Value → Prop
  | none, w => w.IsPlain
  | some level, w => level.Accepts w

variable (level) in
theorem field_of_part {part : Option ConfigLevel} {fields : List (Option Value)}
    (record : level ≠ .languages) (read : fieldsOf? level.keys v = some fields)
    (looked : Part level v part w) :
    ∃ (i : Nat) (key : String), level.fields[i]? = some (key, part) ∧
      fields[i]? = some (some w) := by
  cases looked with
  | @entry _ entries key _ _ known found =>
      obtain ⟨i, here⟩ := List.getElem?_of_mem known
      obtain ⟨_, rfl⟩ := fieldsOf?_table read
      exact ⟨i, key, here, by simp [keys, here, found]⟩
  | @place _ items i key _ _ listable known found =>
      have inside : i < level.keys.length := by
        rw [keys, List.length_map]
        exact (List.getElem?_eq_some_iff.mp known).1
      exact ⟨i, key, known, by rw [fieldsOf?_array read inside, found]⟩
  | item => exact absurd rfl record

/-- What is looked at can be read if the whole can. -/
theorem acceptsAs_of_part {part : Option ConfigLevel} (accepted : level.Accepts v)
    (looked : Part level v part w) : AcceptsAs part w := by
  cases level with
  | root =>
      obtain ⟨t, config, rfl, read⟩ := accepted
      obtain ⟨languages, shape, entries, readLanguages⟩ := ScopeConfig.exists_of_ofTable? read
      obtain ⟨i, key, known, found⟩ := field_of_part .root (by decide) shape looked
      match i, known with
      | 0, rfl =>
          cases found
          exact ⟨entries, readLanguages⟩
  | languages =>
      obtain ⟨entries, read⟩ := accepted
      cases looked with
      | entry known found => cases known
      | place listable known found => cases listable
      | item member => exact exists_of_mem_mapM read member
  | language =>
      obtain ⟨l, read⟩ := accepted
      obtain ⟨language, scopes, shape, text, readScopes⟩ := LanguageScopes.exists_of_ofToml? read
      obtain ⟨i, key, known, found⟩ := field_of_part .language (by decide) shape looked
      match i, known with
      | 0, rfl =>
          cases found
          exact .inl ⟨l.language, text⟩
      | 1, rfl =>
          cases found
          exact ⟨l.definitions, readScopes⟩
  | scopes =>
      obtain ⟨definitions, read⟩ := accepted
      cases looked with
      | @entry _ entries key part _ known found =>
          obtain ⟨scopes, each, _⟩ := Option.bind_eq_some_iff.mp read
          obtain ⟨kind, _, same⟩ := List.mem_map.mp known
          cases same
          obtain ⟨scope, readEntry⟩ := exists_of_mem_mapM each (Table.mem_of_get? found)
          obtain ⟨_, _, readEntry⟩ := Option.bind_eq_some_iff.mp readEntry
          obtain ⟨d, readDefinition, _⟩ := Option.bind_eq_some_iff.mp readEntry
          exact ⟨d, readDefinition⟩
      | place listable known found => cases listable
  | definition =>
      obtain ⟨d, read⟩ := accepted
      obtain ⟨kinds, parents, field, delimiter, shape, readKinds, readParents, readField,
        readDelimiter⟩ := ScopeDefinition.exists_of_ofToml? read
      obtain ⟨i, key, known, found⟩ := field_of_part .definition (by decide) shape looked
      match i, known with
      | 0, rfl =>
          cases found
          exact .inr ⟨d.kinds, readKinds⟩
      | 1, rfl =>
          cases found
          exact .inr ⟨d.parents, readParents⟩
      | 2, rfl =>
          cases found
          obtain ⟨s, text, _⟩ := Option.map_eq_some_iff.mp readField
          exact .inl ⟨s, text⟩
      | 3, rfl =>
          cases found
          obtain ⟨s, text, _⟩ := Option.map_eq_some_iff.mp readDelimiter
          exact .inl ⟨s, text⟩

/-- A table that can be read has no unknown key. -/
theorem mem_keys_of_accepts (accepted : level.Accepts (.table entries)) :
    ∀ e ∈ entries, e.1 ∈ level.keys := by
  cases level with
  | root =>
      obtain ⟨t, config, same, read⟩ := accepted
      cases same
      obtain ⟨_, shape, _⟩ := ScopeConfig.exists_of_ofTable? read
      exact (fieldsOf?_table shape).1
  | languages =>
      obtain ⟨_, read⟩ := accepted
      cases read
  | language =>
      obtain ⟨_, read⟩ := accepted
      obtain ⟨_, _, shape, _⟩ := LanguageScopes.exists_of_ofToml? read
      exact (fieldsOf?_table shape).1
  | scopes =>
      obtain ⟨_, read⟩ := accepted
      obtain ⟨_, each, _⟩ := Option.bind_eq_some_iff.mp read
      intro e member
      obtain ⟨_, readEntry⟩ := exists_of_mem_mapM each member
      obtain ⟨kind, named, _⟩ := Option.bind_eq_some_iff.mp readEntry
      have known := List.mem_map_of_mem (f := ScopeKind.label) (ScopeKind.mem_all kind)
      rw [ScopeKind.label_of_ofLabel? named] at known
      rwa [keys, fields, List.map_map]
  | definition =>
      obtain ⟨_, read⟩ := accepted
      obtain ⟨_, _, _, _, shape, _⟩ := ScopeDefinition.exists_of_ofToml? read
      exact (fieldsOf?_table shape).1

theorem eq_languages_or_isListable (accepted : level.Accepts (.array items)) :
    level = .languages ∨ level.isListable = true := by
  cases level with
  | root =>
      obtain ⟨_, _, same, _⟩ := accepted
      cases same
  | scopes =>
      obtain ⟨_, read⟩ := accepted
      cases read
  | languages => exact .inl rfl
  | language | definition => exact .inr rfl

theorem accepts_of_reaches {last : ConfigLevel} (reached : Reaches level v last w)
    (accepted : level.Accepts v) : last.Accepts w := by
  induction reached with
  | here => exact accepted
  | within part rest ih => exact ih (acceptsAs_of_part accepted part)

/-! ## Unknown keys -/

/-- Where a key is added that is unknown, a table with an unknown key is looked at. -/
theorem AddsUnknown.exists_reaches (added : AddsUnknown level v v') :
    ∃ last entries, Reaches level v' last (.table entries) ∧
      ∃ e ∈ entries, e.1 ∉ last.keys := by
  induction added with
  | here front unknown =>
      exact ⟨_, _, .here, _, List.mem_append_right _ List.mem_cons_self, unknown⟩
  | entry front known first inside ih =>
      obtain ⟨last, entries, reached, unknown⟩ := ih
      exact ⟨last, entries, .within (.entry known (Table.get?_insert_first first)) reached, unknown⟩
  | place front listable known inside ih =>
      obtain ⟨last, entries, reached, unknown⟩ := ih
      exact ⟨last, entries, .within (.place listable known (by simp)) reached, unknown⟩
  | item front inside ih =>
      obtain ⟨last, entries, reached, unknown⟩ := ih
      exact ⟨last, entries, .within (.item (by simp)) reached, unknown⟩

theorem AddsUnknown.not_accepts (added : AddsUnknown level v v') : ¬ level.Accepts v' := by
  intro accepted
  obtain ⟨last, entries, reached, e, member, unknown⟩ := added.exists_reaches
  exact unknown (mem_keys_of_accepts (accepts_of_reaches reached accepted) e member)

/-- A value lies behind the last field of a part that is written as an array. -/
def Overlooks (level : ConfigLevel) (v u : Value) : Prop :=
  ∃ last items w, last.isListable = true ∧ Reaches level v last (.array items) ∧
    w ∈ items.drop last.keys.length ∧ w.Holds u

theorem Overlooks.within {part : ConfigLevel} (looked : Part level v (some part) w)
    (overlooked : Overlooks part w u) : Overlooks level v u := by
  obtain ⟨last, items, behind, listable, reached, member, holds⟩ := overlooked
  exact ⟨last, items, behind, listable, .within looked reached, member, holds⟩

/-- What an element of an array of fields is: one of the fields or something behind them. -/
theorem place_or_mem_drop (listable : level.isListable = true) (member : w ∈ items) :
    (∃ part, Part level (.array items) part w) ∨ w ∈ items.drop level.keys.length := by
  obtain ⟨i, found⟩ := List.getElem?_of_mem member
  cases known : level.fields[i]? with
  | some field => exact .inl ⟨field.2, .place listable known found⟩
  | none =>
      right
      have behind : level.keys.length ≤ i := by
        rw [keys, List.length_map]
        exact List.getElem?_eq_none_iff.mp known
      refine List.mem_of_getElem? (i := i - level.keys.length) ?_
      rw [List.getElem?_drop, Nat.add_sub_cancel' behind, found]

/-- A table that is looked at or overlooked when a part is read is so when the whole is read. -/
theorem reaches_or_overlooks_of_part {part : Option ConfigLevel} (accepted : level.Accepts v)
    (looked : Part level v part w) (holds : w.Holds (.table entries))
    (ih : ∀ {inner : ConfigLevel}, inner.Accepts w →
      (∃ last, Reaches inner w last (.table entries)) ∨ Overlooks inner w (.table entries)) :
    (∃ last, Reaches level v last (.table entries)) ∨ Overlooks level v (.table entries) := by
  have inside := acceptsAs_of_part accepted looked
  cases part with
  | none => exact absurd holds (Value.IsPlain.not_holds_table inside)
  | some part =>
      rcases ih inside with ⟨last, reached⟩ | overlooked
      · exact .inl ⟨last, .within looked reached⟩
      · exact .inr (overlooked.within looked)

/-- Each table in a value that can be read is looked at or overlooked. -/
theorem reaches_or_overlooks (holds : v.Holds (.table entries)) (accepted : level.Accepts v) :
    (∃ last, Reaches level v last (.table entries)) ∨ Overlooks level v (.table entries) := by
  generalize whole : Value.table entries = u at holds
  induction holds generalizing level with
  | self => exact .inl ⟨level, .here⟩
  | @entry inside key w u found holds ih =>
      subst whole
      have known := mem_keys_of_accepts accepted _ (Table.mem_of_get? found)
      -- The key is known, so its value is a part, whatever it holds.
      obtain ⟨⟨_, part⟩, field, rfl⟩ := List.mem_map.mp known
      refine reaches_or_overlooks_of_part accepted (.entry field found) holds ?_
      exact fun readable => ih readable rfl
  | @item items w u member holds ih =>
      subst whole
      rcases eq_languages_or_isListable accepted with rfl | listable
      · refine reaches_or_overlooks_of_part accepted (.item member) holds ?_
        exact fun readable => ih readable rfl
      · rcases place_or_mem_drop listable member with ⟨part, looked⟩ | behind
        · exact reaches_or_overlooks_of_part accepted looked holds fun readable => ih readable rfl
        · exact .inr ⟨level, items, w, listable, .here, behind, holds⟩

end ConfigLevel

namespace ScopeConfig

open ConfigLevel

theorem ofToml_eq_ok_iff {text : String} {config : ScopeConfig} :
    ofToml text = .ok config ↔ ∃ t, parse? text = some t ∧ ofTable? t = some config := by
  rw [ofToml, ← Option.bind_eq_some_iff]
  cases (parse? text).bind ofTable? <;> simp

/-- Configurations are strict.  No text is accepted that adds an unknown key at some level to what
another text says.  In a text that is accepted, each table is looked at and has known keys only,
unless it lies behind the last field of a language or a definition that is written as an array. -/
theorem ofToml_strict :
    (∀ text t t', parse? text = some t' → AddsUnknown .root (.table t) (.table t') →
      ofToml text = .error .malformed) ∧
    ∀ text config, ofToml text = .ok config → ∃ t, parse? text = some t ∧
      ∀ entries, (Value.table t).Holds (.table entries) →
        (∃ level, Reaches .root (.table t) level (.table entries) ∧
          level.Accepts (.table entries) ∧ ∀ e ∈ entries, e.1 ∈ level.keys) ∨
        Overlooks .root (.table t) (.table entries) := by
  constructor
  · intro text t t' parsed added
    rw [ofToml, parsed, Option.bind_some]
    cases built : ofTable? t' with
    | none => rfl
    | some config => exact absurd ⟨t', config, rfl, built⟩ added.not_accepts
  · intro text config read
    obtain ⟨t, parsed, built⟩ := ofToml_eq_ok_iff.mp read
    refine ⟨t, parsed, fun entries holds => ?_⟩
    have accepted : root.Accepts (.table t) := ⟨t, config, rfl, built⟩
    rcases reaches_or_overlooks holds accepted with ⟨last, reached⟩ | overlooked
    · have inside := accepts_of_reaches reached accepted
      exact .inl ⟨last, reached, inside, mem_keys_of_accepts inside⟩
    · exact .inr overlooked

/-- A misspelt field of a definition. -/
theorem misspelt_malformed :
    ofToml "[[language]]\nlanguage-id='x'\nscopes.list.kind=['a']" = .error .malformed := by
  have parsed : parse? "[[language]]\nlanguage-id='x'\nscopes.list.kind=['a']" =
      some [("language", .array [.table [("language-id", .string "x"),
        ("scopes", .table [("list", .table [("kind", .array [.string "a"])])])]])] := by
    rw [parse?_of_chars rfl]
    rfl
  have inDefinition :
      AddsUnknown .definition (.table []) (.table [("kind", .array [.string "a"])]) :=
    .here [] (by decide)
  have inScopes : AddsUnknown .scopes (.table [("list", .table [])])
      (.table [("list", .table [("kind", .array [.string "a"])])]) :=
    .entry [] (by decide) (by decide) inDefinition
  have inLanguage : AddsUnknown .language
      (.table [("language-id", .string "x"), ("scopes", .table [("list", .table [])])])
      (.table [("language-id", .string "x"),
        ("scopes", .table [("list", .table [("kind", .array [.string "a"])])])]) :=
    .entry [_] (by decide) (by decide) inScopes
  exact ofToml_strict.1 _ _ _ parsed (.entry [] (by decide) (by decide) (.item [] inLanguage))

/-- A language as an array of its fields with a table behind them. -/
def longLanguage : String := "language = [['x', \x7b\x7d, \x7ba = 1\x7d]]"

/-- A key that is ignored. -/
theorem longLanguage_accepted :
    ∃ t config, parse? longLanguage = some t ∧
      (Value.table t).Holds (.table [("a", .integer "1")]) ∧
      ofToml longLanguage = .ok config ∧
      ofToml "language = [['x', \x7b\x7d]]" = .ok config := by
  have parsed : parse? longLanguage = some [("language", .array [.array [.string "x", .table [],
      .table [("a", .integer "1")]]])] := by
    rw [parse?_of_chars (by rw [longLanguage])]
    rfl
  have parsedShort : parse? "language = [['x', \x7b\x7d]]" =
      some [("language", .array [.array [.string "x", .table []]])] := by
    rw [parse?_of_chars rfl]
    rfl
  refine ⟨_, _, parsed, ?_, ofToml_eq_ok_iff.mpr ⟨_, parsed, rfl⟩,
    ofToml_eq_ok_iff.mpr ⟨_, parsedShort, rfl⟩⟩
  have inLanguage : (Value.array [.string "x", .table [], .table [("a", .integer "1")]]).Holds
      (.table [("a", .integer "1")]) :=
    .item (.tail _ (.tail _ (.head _))) .self
  have listed : (Value.array [.array [.string "x", .table [], .table [("a", .integer "1")]]]).Holds
      (.table [("a", .integer "1")]) :=
    .item (.head _) inLanguage
  have found : Table.get? [("language", Value.array [.array [.string "x", .table [],
      .table [("a", .integer "1")]]])] "language" = some _ := rfl
  exact .entry found listed

end ScopeConfig

end TargetSpans
